import Gusto.Hacker.Algorithm
import Gusto.Lib.Search
import Mathlib

/-!
# The search for fillers

* `InPool`: the fillers that may be added to a cart; `mem_prepareFillerCandidates`: the candidates
  that the search goes through are these, each id once, by ascending price;
* `Closes`: one filler that closes a gap, or two where there is no such one;
* `finds_bestFillerCombo`: the search finds fillers that close the gap at the least cost;
* `bestFillerCombo_exact`: which fillers these are, whatever ids the candidates have.

Gaps and prices are integers; `bestFillerCombo_numbers` of `Hacker.Exact` shows that the code finds the
same fillers with its numbers, as long as the gap, the prices and the sums of two of them are at most
2⁵³ - 1.
-/

set_option autoImplicit false

namespace Gusto.Hacker

open HackerAlgorithm Search

/-! ### The pool -/

/-- A filler that may be added: the first of its id in the menu, in stock, with a price that is
positive and within the room that the budget leaves. -/
def InPool (candidates : List FillerCandidate) (room : ℤ) (f : FillerCandidate) : Prop :=
  candidates.find? (·.itemId = f.itemId) = some f ∧ f.inStock ∧ 0 < f.price ∧ f.price ≤ room

section Pool

variable {candidates : List FillerCandidate} {room : ℤ} {seen : List String}

theorem dedupe_of_mem {c : FillerCandidate} (h : c.itemId ∈ seen) :
    dedupe room seen (c :: candidates) = dedupe room seen candidates := by
  rw [dedupe, if_pos h]

/-- The loop at an id that has not been seen. -/
theorem dedupe_of_notMem {c : FillerCandidate} (h : c.itemId ∉ seen) :
    dedupe room seen (c :: candidates) =
      (if c.inStock ∧ 0 < c.price ∧ c.price ≤ room then [c] else []) ++
        dedupe room (c.itemId :: seen) candidates := by
  rw [dedupe, if_neg h]
  by_cases hkept : c.inStock ∧ 0 < c.price ∧ c.price ≤ room
  · rw [if_pos hkept]
    obtain ⟨h1, h2, h3⟩ := hkept
    simp [h1, not_le.mpr h2, not_lt.mpr h3]
  · rw [if_neg hkept]
    by_cases h1 : c.inStock
    · by_cases h2 : c.price ≤ 0
      · simp [h1, h2]
      · have h3 : room < c.price := by
          by_contra h3
          exact hkept ⟨h1, not_le.mp h2, not_lt.mp h3⟩
        simp [h1, h2, h3]
    · simp [h1]

theorem mem_dedupe {f : FillerCandidate} :
    f ∈ dedupe room seen candidates ↔ f.itemId ∉ seen ∧ InPool candidates room f := by
  unfold InPool
  induction candidates generalizing seen with
  | nil => simp [dedupe]
  | cons c candidates ih =>
    by_cases hc : c.itemId ∈ seen
    · rw [dedupe_of_mem hc, ih]
      refine and_congr_right fun hf => ?_
      have hne : c.itemId ≠ f.itemId := fun e => hf (e ▸ hc)
      rw [List.find?_cons_of_neg (by simpa using hne)]
    · rw [dedupe_of_notMem hc, List.mem_append, ih]
      by_cases hid : c.itemId = f.itemId
      · rw [List.find?_cons_of_pos (by simp [hid])]
        constructor
        · rintro (h | ⟨h, -⟩)
          · split at h
            · rename_i hkept
              rw [List.mem_singleton.mp h]
              exact ⟨hc, rfl, hkept⟩
            · cases h
          · exact absurd (hid ▸ List.mem_cons_self ..) h
        · rintro ⟨-, he, hkept⟩
          cases he
          rw [if_pos hkept]
          exact .inl (List.mem_singleton_self _)
      · rw [List.find?_cons_of_neg (by simpa using hid)]
        have hf : f ∉ (if c.inStock ∧ 0 < c.price ∧ c.price ≤ room then [c] else []) := by
          split
          · rw [List.mem_singleton]
            rintro rfl
            exact hid rfl
          · exact List.not_mem_nil
        simp [hf, Ne.symm hid]

/-- Each id is taken once. -/
theorem pairwise_dedupe : (dedupe room seen candidates).Pairwise fun a b => a.itemId ≠ b.itemId := by
  induction candidates generalizing seen with
  | nil => exact .nil
  | cons c candidates ih =>
    by_cases hc : c.itemId ∈ seen
    · rw [dedupe_of_mem hc]
      exact ih
    · rw [dedupe_of_notMem hc]
      split
      · refine .cons (fun f hf e => ?_) ih
        have := (mem_dedupe.mp hf).1
        rw [← e] at this
        exact this (List.mem_cons_self ..)
      · exact ih

theorem mem_prepareFillerCandidates {f : FillerCandidate} :
    f ∈ prepareFillerCandidates candidates room ↔ InPool candidates room f := by
  unfold prepareFillerCandidates
  rw [List.mem_insertionSort, mem_dedupe]
  simp

theorem sorted_prepareFillerCandidates :
    (prepareFillerCandidates candidates room).Pairwise fun a b => a.price ≤ b.price := by
  have hle (a b : FillerCandidate) : Amount.order a.price b.price ≤ 0 ↔ a.price ≤ b.price := by
    simp
  have : Std.Total fun a b : FillerCandidate => Amount.order a.price b.price ≤ 0 :=
    ⟨fun a b => by simpa only [hle] using le_total a.price b.price⟩
  have : IsTrans FillerCandidate fun a b => Amount.order a.price b.price ≤ 0 :=
    ⟨fun a b c => by simpa only [hle] using le_trans⟩
  exact (List.pairwise_insertionSort _ _).imp (hle _ _).mp

theorem pairwise_prepareFillerCandidates :
    (prepareFillerCandidates candidates room).Pairwise fun a b => a.itemId ≠ b.itemId :=
  pairwise_dedupe.perm (List.perm_insertionSort _ _).symm Ne.symm

end Pool

/-! ### Fillers that close a gap -/

/-- What fillers cost together. -/
def cost (fillers : List FillerCandidate) : ℤ := (fillers.map (·.price)).sum

/-- The fillers as the search answers them. -/
def toCombo (fillers : List FillerCandidate) : FillerCombo :=
  { itemIds := fillers.map (·.itemId), totalPrice := cost fillers }

/-- One filler that closes the gap, or two where none closes it alone. -/
inductive Closes (gap : ℤ) (pool : FillerCandidate → Prop) : List FillerCandidate → Prop
  | single {f : FillerCandidate} (hf : pool f) (hgap : gap ≤ f.price) : Closes gap pool [f]
  | pair {f g : FillerCandidate} (hnone : ∀ f, pool f → f.price < gap) (hf : pool f) (hg : pool g)
      (hne : f ≠ g) (hgap : gap ≤ f.price + g.price) : Closes gap pool [f, g]

section Combo

variable {gap : ℤ} {candidates : List FillerCandidate}

/-- The order of the scan for one filler: the price, and the category among equal prices. -/
def rank (f : FillerCandidate) : ℤ ×ₗ Bool := toLex (f.price, !preferred f)

theorem rank_lt {a b : FillerCandidate} : rank a < rank b ↔
    a.price < b.price ∨ a.price = b.price ∧ preferred a && !preferred b := by
  unfold rank
  rw [Prod.Lex.toLex_lt_toLex]
  cases preferred a <;> cases preferred b <;> simp

theorem cheaper_eq {best : Option FillerCandidate} {c : FillerCandidate} :
    cheaper gap best c = if gap ≤ c.price then improve rank best c else best := by
  unfold cheaper improve
  by_cases hgap : c.price < gap
  · rw [if_pos hgap, if_neg (not_le.mpr hgap)]
  · rw [if_neg hgap, if_pos (not_lt.mp hgap)]
    cases best with
    | none => rfl
    | some b =>
      by_cases hlt : c.price < b.price
      · simp [hlt, rank_lt]
      · by_cases heq : c.price = b.price
        · simp [heq, rank_lt]
        · simp [hlt, heq, rank_lt]

theorem foldl_cheaper : candidates.foldl (cheaper gap) none =
    (candidates.filter fun c => gap ≤ c.price).foldl (improve rank) none := by
  rw [List.foldl_filter]
  congr 1
  funext best c
  simp [cheaper_eq]

/-- The scan for one filler finds the first in rank of those that close the gap. -/
theorem finds_single (gap : ℤ) (candidates : List FillerCandidate) :
    Finds rank {f | f ∈ candidates ∧ gap ≤ f.price} (candidates.foldl (cheaper gap) none) := by
  rw [foldl_cheaper]
  have h : Finds rank ∅ (none : Option FillerCandidate) := rfl
  have := finds_foldl (l := candidates.filter fun c => gap ≤ c.price) h
  simpa using this

theorem price_le_of_rank_le {a b : FillerCandidate} (h : rank a ≤ rank b) : a.price ≤ b.price := by
  by_contra hlt
  exact absurd (rank_lt.mpr (.inl (not_le.mp hlt))) (not_lt.mpr h)

/-- The price at a position. -/
def priceAt (candidates : List FillerCandidate) (i : ℕ) : ℤ :=
  (candidates[i]?.map (·.price)).getD 0

/-- The fillers at two positions. -/
def fillersAt (candidates : List FillerCandidate) (p : ℕ × ℕ) : List FillerCandidate :=
  [p.1, p.2].filterMap (candidates[·]?)

theorem priceAt_eq {i : ℕ} (h : i < candidates.length) : priceAt candidates i = candidates[i].price := by
  simp [priceAt, h]

theorem fillersAt_eq {p : ℕ × ℕ} (h1 : p.1 < candidates.length) (h2 : p.2 < candidates.length) :
    fillersAt candidates p = [candidates[p.1], candidates[p.2]] := by
  simp [fillersAt, h1, h2]

theorem cost_fillersAt {p : ℕ × ℕ} (h1 : p.1 < candidates.length) (h2 : p.2 < candidates.length) :
    cost (fillersAt candidates p) = sum (priceAt candidates) p := by
  rw [fillersAt_eq h1 h2]
  simp [cost, sum, priceAt_eq, h1, h2]

/-- The positions of a pair are among the candidates. -/
def Within (candidates : List FillerCandidate) (p : ℕ × ℕ) : Prop :=
  p.1 < candidates.length ∧ p.2 < candidates.length

/-- The better of two pairs, as the loop keeps it. -/
theorem improve_map {best : Option (ℕ × ℕ)} {p : ℕ × ℕ}
    (hbest : ∀ q ∈ best, Within candidates q) :
    (if (best.map fun q => toCombo (fillersAt candidates q)).all
        (sum (priceAt candidates) p < ·.totalPrice) then
      some (toCombo (fillersAt candidates p))
    else best.map fun q => toCombo (fillersAt candidates q)) =
      (improve (sum (priceAt candidates)) best p).map fun q => toCombo (fillersAt candidates q) := by
  cases best with
  | none => simp [improve]
  | some q =>
    obtain ⟨h1, h2⟩ := hbest q rfl
    have hq : (toCombo (fillersAt candidates q)).totalPrice = sum (priceAt candidates) q :=
      cost_fillersAt h1 h2
    by_cases hlt : sum (priceAt candidates) p < sum (priceAt candidates) q
    · simp [improve, hq, hlt]
    · simp [improve, hq, hlt]

theorem within_improve {best : Option (ℕ × ℕ)} {p : ℕ × ℕ} (hp : Within candidates p)
    (hbest : ∀ q ∈ best, Within candidates q) :
    ∀ q ∈ improve (sum (priceAt candidates)) best p, Within candidates q := by
  intro q hq
  unfold improve at hq
  split at hq
  · cases hq
    exact hp
  · exact hbest q hq

/-- The loop over two positions is the two-pointer search. -/
theorem twoFillers_eq {d i : ℕ} (best : Option (ℕ × ℕ)) (hi : d = 0 ∨ i + d < candidates.length)
    (hbest : ∀ p ∈ best, Within candidates p) :
    twoFillers gap candidates d i (best.map fun p => toCombo (fillersAt candidates p)) =
      (scan (priceAt candidates) gap d i best).map fun p => toCombo (fillersAt candidates p) := by
  induction d generalizing i best with
  | zero => rfl
  | succ d ih =>
    have hlt : i + (d + 1) < candidates.length := by omega
    have hlt' : i < candidates.length := by omega
    have hsum : candidates[i].price + candidates[i + (d + 1)].price =
        sum (priceAt candidates) (i, i + (d + 1)) := by
      simp [sum, priceAt_eq, hlt, hlt']
    have hcombo : (⟨[candidates[i].itemId, candidates[i + (d + 1)].itemId],
        sum (priceAt candidates) (i, i + (d + 1))⟩ : FillerCombo) =
        toCombo (fillersAt candidates (i, i + (d + 1))) := by
      unfold toCombo
      rw [cost_fillersAt hlt' hlt, fillersAt_eq hlt' hlt]
      rfl
    unfold twoFillers scan
    rw [List.getElem?_eq_getElem hlt', List.getElem?_eq_getElem hlt]
    dsimp only
    rw [hsum]
    by_cases hgap : gap ≤ sum (priceAt candidates) (i, i + (d + 1))
    · rw [if_pos hgap, if_pos hgap, hcombo, improve_map hbest]
      exact ih _ (by omega) (within_improve ⟨hlt', hlt⟩ hbest)
    · rw [if_neg hgap, if_neg hgap]
      exact ih _ (by omega) hbest

theorem priceAt_mono (hsorted : candidates.Pairwise fun a b => a.price ≤ b.price) :
    MonotoneOn (priceAt candidates) (Set.Icc 0 (0 + (candidates.length - 1))) := by
  intro i hi j hj hij
  rcases hij.eq_or_lt with rfl | hlt
  · exact le_rfl
  · have hj' : j < candidates.length := by
      have := hj.2
      omega
    rw [priceAt_eq hj', priceAt_eq (hlt.trans hj')]
    exact List.pairwise_iff_getElem.mp hsorted i j (hlt.trans hj') hj' hlt

theorem within_of_pairs {p : ℕ × ℕ}
    (hp : p ∈ pairs (priceAt candidates) gap 0 (0 + (candidates.length - 1))) :
    Within candidates p := by
  obtain ⟨-, h2, h3, -⟩ := hp
  exact ⟨by omega, by omega⟩

/-- The scan for two fillers finds, among those at two positions that close the gap together, some of
least cost. -/
theorem finds_pair (gap : ℤ) (hsorted : candidates.Pairwise fun a b => a.price ≤ b.price) :
    Finds cost {fs | fs.length = 2 ∧ fs.Sublist candidates ∧ gap ≤ cost fs}
      ((scan (priceAt candidates) gap (candidates.length - 1) 0 none).map (fillersAt candidates)) := by
  have hscan := finds_scan gap (candidates.length - 1) (priceAt_mono hsorted)
    (show Finds (sum (priceAt candidates)) ∅ none from rfl)
  rw [Set.empty_union] at hscan
  refine hscan.map (fun p hp => ?_) fun fs hfs => ?_
  · obtain ⟨h1, h2⟩ := within_of_pairs hp
    obtain ⟨-, hlt, -, hgap⟩ := hp
    have hcost : cost (fillersAt candidates p) = sum (priceAt candidates) p := cost_fillersAt h1 h2
    refine ⟨⟨?_, ?_, hcost ▸ hgap⟩, hcost⟩
    · rw [fillersAt_eq h1 h2]
      rfl
    · rw [fillersAt_eq h1 h2]
      exact pair_sublist_iff.mpr ⟨p.1, p.2, h1, h2, hlt, rfl, rfl⟩
  · obtain ⟨hlength, hsub, hgap⟩ := hfs
    obtain ⟨f, g, rfl⟩ := List.length_eq_two.mp hlength
    obtain ⟨i, j, hi, hj, hij, rfl, rfl⟩ := pair_sublist_iff.mp hsub
    have hcost : cost [candidates[i], candidates[j]] = sum (priceAt candidates) (i, j) := by
      rw [← cost_fillersAt (p := (i, j)) hi hj, fillersAt_eq (p := (i, j)) hi hj]
    refine ⟨(i, j), ⟨by omega, hij, by simp only; omega, hcost ▸ hgap⟩, hcost.ge⟩

/-- Where no filler closes the gap alone and no id comes twice, the pairs that close it together are the
fillers that close it. -/
theorem finds_twoFillers (hsorted : candidates.Pairwise fun a b => a.price ≤ b.price)
    (hids : candidates.Pairwise fun a b => a.itemId ≠ b.itemId)
    (hnone : ∀ f, f ∈ candidates → f.price < gap) :
    Finds cost {fs | Closes gap (· ∈ candidates) fs}
      ((scan (priceAt candidates) gap (candidates.length - 1) 0 none).map (fillersAt candidates)) := by
  rw [← Option.map_id' (x := Option.map _ _)]
  refine (finds_pair gap hsorted).map (fun fs hfs => ⟨?_, rfl⟩) fun fs hfs => ?_
  · obtain ⟨hlength, hsub, hgap⟩ := hfs
    obtain ⟨f, g, rfl⟩ := List.length_eq_two.mp hlength
    have hid : f.itemId ≠ g.itemId := hids.forall_sublist hsub
    refine .pair hnone (hsub.subset (by simp)) (hsub.subset (by simp)) (fun e => hid (by rw [e])) ?_
    simpa [cost] using hgap
  · cases hfs with
    | single hf hgap => exact absurd hgap (not_le.mpr (hnone _ hf))
    | @pair f g _ hf hg hne hgap =>
      obtain ⟨i, hi, rfl⟩ := List.getElem_of_mem hf
      obtain ⟨j, hj, rfl⟩ := List.getElem_of_mem hg
      have hij : i ≠ j := fun e => hne (by subst e; rfl)
      rcases Nat.lt_or_gt_of_ne hij with hlt | hlt
      · have hsub : [candidates[i], candidates[j]].Sublist candidates :=
          pair_sublist_iff.mpr ⟨i, j, hi, hj, hlt, rfl, rfl⟩
        exact ⟨_, ⟨rfl, hsub, by simpa [cost] using hgap⟩, le_rfl⟩
      · have hsub : [candidates[j], candidates[i]].Sublist candidates :=
          pair_sublist_iff.mpr ⟨j, i, hj, hi, hlt, rfl, rfl⟩
        have hcomm : cost [candidates[j], candidates[i]] = cost [candidates[i], candidates[j]] := by
          simp [cost, add_comm]
        exact ⟨_, ⟨rfl, hsub, by rw [hcomm]; simpa [cost] using hgap⟩, hcomm.le⟩

/-- Where a filler closes the gap alone, it is the answer. -/
theorem bestFillerCombo_of_single {b : FillerCandidate}
    (h : candidates.foldl (cheaper gap) none = some b) :
    bestFillerCombo gap candidates = some (toCombo [b]) := by
  unfold bestFillerCombo
  rw [h]
  simp [toCombo, cost]

/-- Where none does, the answer is what the scan for two finds. -/
theorem bestFillerCombo_of_none (h : candidates.foldl (cheaper gap) none = none) :
    bestFillerCombo gap candidates =
      ((scan (priceAt candidates) gap (candidates.length - 1) 0 none).map
        (fillersAt candidates)).map toCombo := by
  unfold bestFillerCombo
  rw [h, Option.map_map]
  exact twoFillers_eq none (by omega) nofun

/-- Where the scan for one filler finds none, none closes the gap. -/
theorem price_lt_of_none (h : candidates.foldl (cheaper gap) none = none) :
    ∀ f ∈ candidates, f.price < gap := by
  intro f hf
  have hsingle := finds_single gap candidates
  rw [h] at hsingle
  exact not_le.mp fun hgap => Set.eq_empty_iff_forall_notMem.mp hsingle f ⟨hf, hgap⟩

/-- **The search for fillers** finds, among those that close the gap, some of least cost. -/
theorem finds_bestFillerCombo (gap : ℤ) (hsorted : candidates.Pairwise fun a b => a.price ≤ b.price)
    (hids : candidates.Pairwise fun a b => a.itemId ≠ b.itemId) :
    ∃ found, Finds cost {fs | Closes gap (· ∈ candidates) fs} found ∧
      bestFillerCombo gap candidates = found.map toCombo := by
  have hsingle := finds_single gap candidates
  cases hscan : candidates.foldl (cheaper gap) none with
  | some b =>
    rw [hscan] at hsingle
    obtain ⟨⟨hb, hgap⟩, hmin⟩ := hsingle
    refine ⟨some [b], ⟨.single hb hgap, fun fs hfs => ?_⟩, bestFillerCombo_of_single hscan⟩
    cases hfs with
    | single hf hgapf =>
      have := price_le_of_rank_le (hmin _ ⟨hf, hgapf⟩)
      simpa [cost] using this
    | pair hnone hf hg hne hgapf => exact absurd hgap (not_le.mpr (hnone b hb))
  | none =>
    exact ⟨_, finds_twoFillers hsorted hids (price_lt_of_none hscan), bestFillerCombo_of_none hscan⟩

/-! ### What the search answers -/

/-- A filler that closes the gap alone: none does at a lower price, and of those at its price it is of
a preferred category if any is. -/
structure BestSingle (gap : ℤ) (candidates : List FillerCandidate) (f : FillerCandidate) : Prop where
  mem : f ∈ candidates
  closes : gap ≤ f.price
  least : ∀ g ∈ candidates, gap ≤ g.price → f.price ≤ g.price
  category : ∀ g ∈ candidates, g.price = f.price → preferred g → preferred f

/-- Two fillers, at two positions, that close the gap together: no two do at a lower price. -/
structure BestPair (gap : ℤ) (candidates : List FillerCandidate) (f g : FillerCandidate) : Prop where
  positions : [f, g].Sublist candidates
  closes : gap ≤ f.price + g.price
  least : ∀ f' g', [f', g'].Sublist candidates → gap ≤ f'.price + g'.price →
    f.price + g.price ≤ f'.price + g'.price

theorem bestSingle_of_foldl {b : FillerCandidate}
    (h : candidates.foldl (cheaper gap) none = some b) : BestSingle gap candidates b := by
  have hsingle := finds_single gap candidates
  rw [h] at hsingle
  obtain ⟨⟨hb, hgap⟩, hmin⟩ := hsingle
  refine ⟨hb, hgap, fun g hg hclose => price_le_of_rank_le (hmin g ⟨hg, hclose⟩), ?_⟩
  intro g hg hprice hpreferred
  by_contra hnot
  have hlt : rank g < rank b := rank_lt.mpr (.inr ⟨hprice, by simpa [hpreferred] using hnot⟩)
  exact absurd (hmin g ⟨hg, hprice ▸ hgap⟩) (not_le.mpr hlt)

/-- **The search is exact**, over candidates at ascending prices: it answers nothing just where no filler
and no two fillers close the gap; one filler, a best one, where one does; and a best pair otherwise. -/
theorem bestFillerCombo_exact (gap : ℤ) (candidates : List FillerCandidate)
    (hsorted : candidates.Pairwise fun a b => a.price ≤ b.price) :
    (bestFillerCombo gap candidates = none ↔ (∀ f ∈ candidates, f.price < gap) ∧
      ∀ f g, [f, g].Sublist candidates → f.price + g.price < gap) ∧
    ∀ combo, bestFillerCombo gap candidates = some combo →
      ((∃ f ∈ candidates, gap ≤ f.price) →
        ∃ f, BestSingle gap candidates f ∧ combo = { itemIds := [f.itemId], totalPrice := f.price }) ∧
      ((∀ f ∈ candidates, f.price < gap) →
        ∃ f g, BestPair gap candidates f g ∧
          combo = { itemIds := [f.itemId, g.itemId], totalPrice := f.price + g.price }) := by
  cases hscan : candidates.foldl (cheaper gap) none with
  | some b =>
    have hb := bestSingle_of_foldl hscan
    rw [bestFillerCombo_of_single hscan]
    refine ⟨⟨nofun, fun h => absurd hb.closes (not_le.mpr (h.1 b hb.mem))⟩, fun combo hcombo => ?_⟩
    cases hcombo
    refine ⟨fun _ => ⟨b, hb, by simp [toCombo, cost]⟩, fun h => ?_⟩
    exact absurd hb.closes (not_le.mpr (h b hb.mem))
  | none =>
    have hnone := price_lt_of_none hscan
    have hpair := finds_pair gap hsorted
    rw [bestFillerCombo_of_none hscan]
    cases hfound : (scan (priceAt candidates) gap (candidates.length - 1) 0 none).map
        (fillersAt candidates) with
    | none =>
      rw [hfound] at hpair
      refine ⟨⟨fun _ => ⟨hnone, fun f g hsub => ?_⟩, fun _ => rfl⟩, nofun⟩
      by_contra hgap
      refine Set.eq_empty_iff_forall_notMem.mp hpair [f, g] ⟨rfl, hsub, ?_⟩
      simpa [cost] using hgap
    | some fs =>
      rw [hfound] at hpair
      obtain ⟨⟨hlength, hsub, hgap⟩, hmin⟩ := hpair
      obtain ⟨f, g, rfl⟩ := List.length_eq_two.mp hlength
      have hcost : ∀ f g : FillerCandidate, cost [f, g] = f.price + g.price := fun f g => by simp [cost]
      rw [hcost] at hgap
      refine ⟨⟨nofun, fun h => absurd hgap (not_le.mpr (h.2 f g hsub))⟩, fun combo hcombo => ?_⟩
      cases hcombo
      refine ⟨fun ⟨f', hf', hclose⟩ => absurd hclose (not_le.mpr (hnone f' hf')), fun _ => ?_⟩
      refine ⟨f, g, ⟨hsub, hgap, fun f' g' hsub' hgap' => ?_⟩, by simp [toCombo, cost]⟩
      have hle := hmin [f', g'] ⟨rfl, hsub', (hcost f' g').symm ▸ hgap'⟩
      rwa [hcost, hcost] at hle

/-- Four sides, none of which closes a gap of 60. -/
def fourSides : List FillerCandidate :=
  [⟨"dip", 10, some "side", true⟩, ⟨"tea", 30, some "beverage", true⟩, ⟨"naan", 30, none, true⟩,
    ⟨"kheer", 55, some "dessert", true⟩]

theorem bestFillerCombo_exact_fourSides : ∃ f g, BestPair 60 fourSides f g ∧
    (⟨["tea", "naan"], 60⟩ : FillerCombo) = ⟨[f.itemId, g.itemId], f.price + g.price⟩ :=
  ((bestFillerCombo_exact 60 fourSides (by decide)).2 _ (by decide)).2 (by decide)

end Combo

end Gusto.Hacker
