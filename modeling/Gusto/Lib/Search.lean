import Mathlib.Algebra.Order.Monoid.Defs
import Mathlib.Order.Bounds.Basic
import Mathlib.Order.Interval.Set.Basic
import Mathlib.Data.Set.Monotone
import Mathlib.Data.List.Sort
import Mathlib.Data.List.TakeWhile
import Mathlib.Tactic.Tauto

/-!
# Searches for a least element

* `Finds v S o`: `o` is an element of `S` at which `v` is least, or `none` where `S` is empty;
* `improve`: the better of what was found and one more; `finds_foldl`: a list gone through with it;
* `scan`: two pointers over ascending values, for a pair whose sum reaches a gap; `finds_scan`: it
  finds such a pair of least sum;
* `First p l a`: the first of a list that meets `p`; `findSome?_eq_some_iff_first`: what a search finds is
  what it makes of the first for which it finds anything;
* `Foremost v p l a`: the first of the greatest of a list that meet `p`; `foremost_of_first`: what comes
  first in the sorted list;
* `append_cons_inj`: what stands before the first separator, and after it, can be told from the whole;
* `pair_sublist_iff`: two elements in their order are elements at two positions.
-/

set_option autoImplicit false

namespace Search

section Finds

variable {α β M : Type*} [Preorder M] {v : α → M} {S : Set α} {o : Option α}

/-- What a search for the least `v` over `S` comes to. -/
def Finds (v : α → M) (S : Set α) : Option α → Prop
  | none => S = ∅
  | some a => a ∈ S ∧ ∀ b ∈ S, v a ≤ v b

/-- What is found is found in another set that `e` leads to, where no element is less. -/
theorem Finds.map {w : β → M} {T : Set β} {e : α → β} (h : Finds v S o)
    (he : ∀ a ∈ S, e a ∈ T ∧ w (e a) = v a) (hT : ∀ b ∈ T, ∃ a ∈ S, v a ≤ w b) :
    Finds w T (o.map e) := by
  cases o with
  | none =>
    refine Set.eq_empty_iff_forall_notMem.mpr fun b hb => ?_
    obtain ⟨a, ha, -⟩ := hT b hb
    rw [show S = ∅ from h] at ha
    exact ha
  | some a =>
    obtain ⟨ha, hmin⟩ := h
    refine ⟨(he a ha).1, fun b hb => ?_⟩
    obtain ⟨a', ha', hle⟩ := hT b hb
    rw [(he a ha).2]
    exact (hmin a' ha').trans hle

end Finds

section Insert

variable {α M : Type*} [LinearOrder M] {v : α → M} {S : Set α} {o : Option α}

/-- The better of what was found and one more. -/
def improve (v : α → M) (o : Option α) (a : α) : Option α :=
  if o.all (fun b => v a < v b) then some a else o

theorem Finds.improve (h : Finds v S o) (a : α) : Finds v (insert a S) (improve v o a) := by
  unfold Search.improve
  cases o with
  | none =>
    rw [show S = ∅ from h]
    refine ⟨Set.mem_insert .., fun b hb => ?_⟩
    rcases hb with rfl | hb
    · exact le_rfl
    · cases hb
  | some b =>
    by_cases hlt : v a < v b
    · rw [if_pos (by simpa using hlt)]
      refine ⟨Set.mem_insert .., fun c hc => ?_⟩
      rcases hc with rfl | hc
      · exact le_rfl
      · exact hlt.le.trans (h.2 c hc)
    · rw [if_neg (by simpa using hlt)]
      refine ⟨Set.mem_insert_of_mem _ h.1, fun c hc => ?_⟩
      rcases hc with rfl | hc
      · exact not_lt.mp hlt
      · exact h.2 c hc

/-- A list gone through, each element put against the best so far. -/
theorem finds_foldl {l : List α} (h : Finds v S o) :
    Finds v (S ∪ {a | a ∈ l}) (l.foldl (Search.improve v) o) := by
  induction l generalizing S o with
  | nil => simpa using h
  | cons a l ih =>
    have hset : S ∪ {b | b ∈ a :: l} = insert a S ∪ {b | b ∈ l} := by
      ext b
      simp only [Set.mem_union, Set.mem_insert_iff, Set.mem_ofPred_eq, List.mem_cons]
      tauto
    rw [hset]
    exact ih (h.improve a)

end Insert

section Pairs

variable {M : Type*} [AddCommMonoid M] [LinearOrder M] {f : ℕ → M} {gap : M}

/-- The sum of the values at two positions. -/
def sum (f : ℕ → M) (p : ℕ × ℕ) : M := f p.1 + f p.2

/-- The pairs of positions from `i` to `j` whose sum reaches the gap. -/
def pairs (f : ℕ → M) (gap : M) (i j : ℕ) : Set (ℕ × ℕ) :=
  {p | i ≤ p.1 ∧ p.1 < p.2 ∧ p.2 ≤ j ∧ gap ≤ sum f p}

/-- The search from the positions `i` and `i + d`, with the best pair so far: a pair that reaches
the gap moves the upper one down, and a pair that does not moves the lower one up. -/
def scan (f : ℕ → M) (gap : M) : ℕ → ℕ → Option (ℕ × ℕ) → Option (ℕ × ℕ)
  | 0, _, best => best
  | d + 1, i, best =>
    if gap ≤ sum f (i, i + (d + 1)) then scan f gap d i (improve (sum f) best (i, i + (d + 1)))
    else scan f gap d (i + 1) best

theorem pairs_self {i : ℕ} : pairs f gap i i = ∅ := by
  refine Set.eq_empty_iff_forall_notMem.mpr fun p hp => ?_
  obtain ⟨h1, h2, h3, -⟩ := hp
  omega

variable [IsOrderedAddMonoid M]

/-- Where the outermost pair reaches the gap, it is the best that has its upper position. -/
theorem finds_pairs_down {S : Set (ℕ × ℕ)} {o : Option (ℕ × ℕ)} {i j : ℕ} (hij : i < j)
    (hf : MonotoneOn f (Set.Icc i j)) (hsum : gap ≤ sum f (i, j))
    (h : Finds (sum f) (insert (i, j) S ∪ pairs f gap i (j - 1)) o) :
    Finds (sum f) (S ∪ pairs f gap i j) o := by
  rw [← Option.map_id' (x := o)]
  refine h.map (fun p hp => ⟨?_, rfl⟩) ?_
  · rcases hp with (rfl | hp) | ⟨h1, h2, h3, h4⟩
    · exact .inr ⟨le_rfl, hij, le_rfl, hsum⟩
    · exact .inl hp
    · exact .inr ⟨h1, h2, by omega, h4⟩
  · rintro ⟨a, b⟩ (hp | ⟨h1, h2, h3, h4⟩)
    · exact ⟨_, .inl (.inr hp), le_rfl⟩
    · rcases eq_or_ne b j with rfl | hb
      · refine ⟨(i, b), .inl (.inl rfl), ?_⟩
        exact add_le_add_left (hf ⟨le_rfl, hij.le⟩ ⟨h1, h2.le⟩ h1) _
      · exact ⟨_, .inr ⟨h1, h2, by simp only at h3 hb ⊢; omega, h4⟩, le_rfl⟩

/-- Where the outermost pair does not reach the gap, no pair with its lower position does. -/
theorem pairs_up {i j : ℕ} (hij : i < j) (hf : MonotoneOn f (Set.Icc i j))
    (hsum : ¬ gap ≤ sum f (i, j)) : pairs f gap i j = pairs f gap (i + 1) j := by
  ext ⟨a, b⟩
  refine ⟨fun ⟨h1, h2, h3, h4⟩ => ⟨?_, h2, h3, h4⟩, fun ⟨h1, h2, h3, h4⟩ => ⟨by omega, h2, h3, h4⟩⟩
  rcases eq_or_ne a i with rfl | ha
  · refine absurd (h4.trans ?_) hsum
    exact add_le_add_right (hf ⟨h2.le, h3⟩ ⟨hij.le, le_rfl⟩ h3) _
  · simp only at h1 ⊢
    omega

/-- **The two-pointer search.** Over ascending values it finds, besides what was found before, a pair
of least sum among those that reach the gap. -/
theorem finds_scan {S : Set (ℕ × ℕ)} {o : Option (ℕ × ℕ)} (gap : M) (d : ℕ) {i : ℕ}
    (hf : MonotoneOn f (Set.Icc i (i + d))) (h : Finds (sum f) S o) :
    Finds (sum f) (S ∪ pairs f gap i (i + d)) (scan f gap d i o) := by
  induction d generalizing S o i with
  | zero =>
    rw [Nat.add_zero, pairs_self, Set.union_empty]
    exact h
  | succ d ih =>
    unfold scan
    split
    · rename_i hsum
      refine finds_pairs_down (by omega) hf hsum ?_
      exact ih (hf.mono (Set.Icc_subset_Icc le_rfl (by omega))) (h.improve _)
    · rename_i hsum
      rw [pairs_up (by omega) hf hsum, show i + (d + 1) = i + 1 + d by omega]
      exact ih (hf.mono (Set.Icc_subset_Icc (by omega) (by omega))) h

end Pairs

section Positions

variable {α : Type*} {l : List α} {a b : α}

/-- Two elements of a list, in their order, stand at two positions. -/
theorem pair_sublist_iff :
    [a, b].Sublist l ↔ ∃ i j, ∃ (hi : i < l.length) (hj : j < l.length), i < j ∧ l[i] = a ∧ l[j] = b := by
  have hpairwise : ¬ [a, b].Sublist l ↔ l.Pairwise fun x y => ¬ (x = a ∧ y = b) := by
    rw [List.pairwise_iff_forall_sublist]
    constructor
    · rintro h x y hxy ⟨rfl, rfl⟩
      exact h hxy
    · intro h hab
      exact h hab ⟨rfl, rfl⟩
  rw [← not_iff_not, hpairwise, List.pairwise_iff_getElem]
  push Not
  exact Iff.rfl

end Positions

section First

variable {α : Type*} {p : α → Prop} {l : List α} {a : α}

/-- The first of a list that meets `p`. -/
def First (p : α → Prop) (l : List α) (a : α) : Prop :=
  ∃ l₁ l₂, l = l₁ ++ a :: l₂ ∧ p a ∧ ∀ b ∈ l₁, ¬ p b

theorem First.mem (h : First p l a) : a ∈ l := by
  obtain ⟨l₁, l₂, rfl, -⟩ := h
  simp

theorem First.meets (h : First p l a) : p a := by
  obtain ⟨-, -, -, ha, -⟩ := h
  exact ha

/-- Where something meets `p`, something is the first to do so. -/
theorem exists_first {l₁ : List α} (h : ∃ a ∈ l₁, p a) : ∃ a, First p l₁ a := by
  induction l₁ with
  | nil => simp at h
  | cons b l₁ ih =>
    by_cases hb : p b
    · exact ⟨b, [], l₁, rfl, hb, nofun⟩
    · have hrest : ∃ a ∈ l₁, p a := by
        obtain ⟨a, ha, hpa⟩ := h
        rcases List.mem_cons.mp ha with rfl | ha
        · exact absurd hpa hb
        · exact ⟨a, ha, hpa⟩
      obtain ⟨a, l₂, l₃, rfl, hpa, hnone⟩ := ih hrest
      exact ⟨a, b :: l₂, l₃, rfl, hpa, List.forall_mem_cons.mpr ⟨hb, hnone⟩⟩

/-- What a search with `f` finds is what `f` makes of the first for which it finds anything. -/
theorem findSome?_eq_some_iff_first {β : Type*} {f : α → Option β} {b : β} :
    l.findSome? f = some b ↔ ∃ a, First (f · ≠ none) l a ∧ f a = some b := by
  rw [List.findSome?_eq_some_iff]
  constructor
  · rintro ⟨l₁, a, l₂, hl, hfa, hnone⟩
    exact ⟨a, ⟨l₁, l₂, hl, by simp [hfa], fun b hb => not_not.mpr (hnone b hb)⟩, hfa⟩
  · rintro ⟨a, ⟨l₁, l₂, hl, -, hnone⟩, hfa⟩
    exact ⟨l₁, a, l₂, hl, hfa, fun b hb => not_not.mp (hnone b hb)⟩

end First

section Foremost

variable {α M : Type*} [LinearOrder M] {v : α → M} {p : α → Prop} {l : List α} {a c : α}

/-- Among those of a list that meet `p`, one at which `v` is greatest, the first of these. -/
def Foremost (v : α → M) (p : α → Prop) (l : List α) (a : α) : Prop :=
  ∃ l₁ l₂, l = l₁ ++ a :: l₂ ∧ p a ∧ (∀ b ∈ l₁, p b → v b < v a) ∧ ∀ b ∈ l₂, p b → v b ≤ v a

theorem Foremost.head (ha : p a) (h : ∀ b ∈ l, p b → v b ≤ v a) : Foremost v p (a :: l) a :=
  ⟨[], l, rfl, ha, nofun, h⟩

theorem Foremost.cons (h : Foremost v p l c) (ha : p a → v a < v c) : Foremost v p (a :: l) c := by
  obtain ⟨l₁, l₂, rfl, hc, hlt, hle⟩ := h
  exact ⟨a :: l₁, l₂, rfl, hc, List.forall_mem_cons.mpr ⟨ha, hlt⟩, hle⟩

/-- What is first in a list without an element that is not first. -/
theorem First.of_insert {l₁ l₂ : List α} (h : First p (l₁ ++ a :: l₂) c) :
    (First p (l₁ ++ l₂) c ∧ (p a → c ∈ l₁)) ∨ (c = a ∧ p a ∧ ∀ b ∈ l₁, ¬ p b) := by
  obtain ⟨m₁, m₂, heq, hc, hnone⟩ := h
  rcases List.append_eq_append_iff.mp heq with ⟨t, rfl, ht⟩ | ⟨t, rfl, ht⟩
  · cases t with
    | nil =>
      obtain ⟨rfl, rfl⟩ := List.cons.inj ht
      exact .inr ⟨rfl, hc, by simpa using hnone⟩
    | cons x t =>
      obtain ⟨rfl, rfl⟩ := List.cons.inj ht
      refine .inl ⟨⟨l₁ ++ t, m₂, by simp, hc, fun b hb => hnone b ?_⟩, fun ha => ?_⟩
      · simp only [List.mem_append, List.mem_cons] at hb ⊢
        tauto
      · exact absurd ha (hnone a (by simp))
  · cases t with
    | nil =>
      obtain ⟨rfl, rfl⟩ := List.cons.inj ht
      exact .inr ⟨rfl, hc, by simpa using hnone⟩
    | cons x t =>
      obtain ⟨rfl, rfl⟩ := List.cons.inj ht
      exact .inl ⟨⟨m₁, t ++ l₂, by simp, hc, hnone⟩, fun _ => by simp⟩

/-- **Sorting is stable.** What comes first in descending order is the first of the greatest. -/
theorem foremost_of_first
    (h : First p (l.insertionSort fun a b => v b ≤ v a) c) : Foremost v p l c := by
  induction l with
  | nil =>
    obtain ⟨l₁, l₂, heq, -⟩ := h
    simp at heq
  | cons a l ih =>
    have hsorted := List.pairwise_insertionSort (fun a b => v b ≤ v a) (a :: l)
    rw [List.insertionSort_cons, List.orderedInsert_eq_take_drop] at h hsorted
    rcases h.of_insert with ⟨hfirst, hmem⟩ | ⟨rfl, ha, hnone⟩
    · rw [List.takeWhile_append_dropWhile] at hfirst
      refine (ih hfirst).cons fun ha => ?_
      simpa using List.mem_takeWhile_imp (hmem ha)
    · refine .head ha fun b hb hpb => ?_
      have hrest := (List.perm_insertionSort (fun a b => v b ≤ v a) l).mem_iff.mpr hb
      rw [← List.takeWhile_append_dropWhile (p := fun b => decide ¬ v b ≤ v c)
        (l := l.insertionSort fun a b => v b ≤ v a)] at hrest
      rcases List.mem_append.mp hrest with hb' | hb'
      · exact absurd hpb (hnone b hb')
      · obtain ⟨hhead, -⟩ := List.pairwise_cons.mp (List.pairwise_append.mp hsorted).2.1
        exact hhead b hb'

end Foremost

section Separator

variable {α : Type*} {a : α} {l l' m m' : List α}

/-- The first separator is found again. -/
theorem append_cons_inj (hl : a ∉ l) (hl' : a ∉ l') (h : l ++ a :: m = l' ++ a :: m') :
    l = l' ∧ m = m' := by
  induction l generalizing l' with
  | nil =>
    cases l' with
    | nil => exact ⟨rfl, List.tail_eq_of_cons_eq h⟩
    | cons b l' => exact absurd (List.mem_cons.mpr (.inl (List.head_eq_of_cons_eq h))) hl'
  | cons b l ih =>
    cases l' with
    | nil => exact absurd (List.mem_cons.mpr (.inl (List.head_eq_of_cons_eq h).symm)) hl
    | cons b' l' =>
      obtain ⟨rfl, rfl⟩ := ih (fun ha => hl (List.mem_cons_of_mem _ ha))
        (fun ha => hl' (List.mem_cons_of_mem _ ha)) (List.tail_eq_of_cons_eq h)
      exact ⟨by rw [List.head_eq_of_cons_eq h], rfl⟩

/-- The last separator is found again. -/
theorem append_cons_inj_right (hm : a ∉ m) (hm' : a ∉ m') (h : l ++ a :: m = l' ++ a :: m') :
    l = l' ∧ m = m' := by
  have hrev : m.reverse ++ a :: l.reverse = m'.reverse ++ a :: l'.reverse := by
    simpa using congrArg List.reverse h
  obtain ⟨h₁, h₂⟩ := append_cons_inj (by simpa using hm) (by simpa using hm') hrev
  exact ⟨List.reverse_inj.mp h₂, List.reverse_inj.mp h₁⟩

/-- What ends before an `a` of a list that it begins: at the last one, or before one of the rest. -/
theorem prefix_append_cons (hm : a ∉ m) (h : l ++ [a] <+: l' ++ a :: m) : l' = l ∨ l ++ [a] <+: l' := by
  obtain ⟨rest, hrest⟩ := h
  rw [List.append_assoc, List.singleton_append] at hrest
  rcases List.append_eq_append_iff.mp hrest with ⟨mid, hl', hmid⟩ | ⟨mid, hl, hmid⟩
  · cases mid with
    | nil => exact .inl (by simpa using hl')
    | cons b mid =>
      obtain ⟨rfl, -⟩ := List.cons.inj hmid
      exact .inr ⟨mid, by simp [hl']⟩
  · cases mid with
    | nil => exact .inl (by simpa using hl.symm)
    | cons b mid =>
      obtain ⟨-, rfl⟩ := List.cons.inj hmid
      exact absurd (List.mem_append_right mid List.mem_cons_self) hm

end Separator

end Search
