import Gusto.Hacker.Log

/-!
# The order of coupons and fillers

* `Reordered`: two inputs that differ in the order of their coupons and fillers;
* `SameShape`: two contenders that the optimiser cannot tell apart but by their fillers;
* `considered_sameShape`: what a coupon comes to depends on the pool of fillers only, up to its shape;
* `optimize_reordered`: the answer does not depend on the order where the numbers are exact;
  `not_optimize_reordered`: it does where they overflow.
-/

set_option autoImplicit false

namespace Gusto.Hacker

open Binary64 HackerAlgorithm OptimizationInput

/-- The second input has the coupons and the fillers of the first in another order. -/
structure Reordered (input input' : OptimizationInput) : Prop where
  cartItems : input'.cartItems = input.cartItems
  remainingDailyBudget : input'.remainingDailyBudget = input.remainingDailyBudget
  now : input'.now = input.now
  coupons : input'.coupons.Perm input.coupons
  fillerCandidates : input'.fillerCandidates.Perm input.fillerCandidates

/-- The coupons have different codes, which the locale does not take for equal, and the fillers have
different ids. -/
structure Distinct (js : Runtime) (input : OptimizationInput) : Prop where
  codes : (input.coupons.map (·.code)).Nodup
  ordered : ∀ a ∈ input.coupons, ∀ b ∈ input.coupons,
    js.localeCompare a.code b.code ≤ 0 → js.localeCompare b.code a.code ≤ 0 → a.code = b.code
  ids : (input.fillerCandidates.map (·.itemId)).Nodup

/-! ### The pool -/

section Pool

variable {candidates candidates' : List FillerCandidate} {room : ℤ} {f : FillerCandidate}

/-- With different ids every filler is the first of its id. -/
theorem find?_itemId (hids : (candidates.map (·.itemId)).Nodup) :
    candidates.find? (·.itemId = f.itemId) = some f ↔ f ∈ candidates := by
  refine ⟨List.mem_of_find?_eq_some, fun hf => ?_⟩
  cases hfind : candidates.find? (·.itemId = f.itemId) with
  | none =>
    have := List.find?_eq_none.mp hfind f hf
    simp at this
  | some g =>
    have hid : g.itemId = f.itemId := by simpa using List.find?_some hfind
    rw [List.inj_on_of_nodup_map hids (List.mem_of_find?_eq_some hfind) hf hid]

theorem inPool_iff (hids : (candidates.map (·.itemId)).Nodup) :
    InPool candidates room f ↔ f ∈ candidates ∧ f.inStock ∧ 0 < f.price ∧ f.price ≤ room := by
  unfold InPool
  rw [find?_itemId hids]

theorem inPool_perm (hids : (candidates.map (·.itemId)).Nodup)
    (hperm : candidates'.Perm candidates) : InPool candidates' room f ↔ InPool candidates room f := by
  rw [inPool_iff hids, inPool_iff ((hperm.map _).nodup_iff.mpr hids), hperm.mem_iff]

end Pool

/-! ### Shapes -/

/-- Two contenders of one code and one total, with fillers both or neither, and as many items. -/
structure SameShape (a b : Contender) : Prop where
  couponCode : a.couponCode = b.couponCode
  total : a.total = b.total
  fillers : a.fillersAdded.isEmpty = b.fillersAdded.isEmpty
  items : a.items.length = b.items.length

section Shape

variable {js : Runtime} {a a' b b' c : Contender}

theorem SameShape.refl (a : Contender) : SameShape a a := ⟨rfl, rfl, rfl, rfl⟩

/-- The comparison of contenders sees their shape only. -/
theorem SameShape.compare (ha : SameShape a a') (hb : SameShape b b') :
    compareContenders js a b = compareContenders js a' b' := by
  unfold compareContenders
  rw [ha.couponCode, ha.total, ha.fillers, ha.items, hb.couponCode, hb.total, hb.fillers, hb.items]

variable {base budget now : ℤ} {pool : FillerCandidate → Prop} {coupon : Coupon}
  {items : List OrderedItem}

/-- Two plans to one threshold add as many fillers. -/
theorem Plan.length_eq {threshold : ℤ} {fs fs' : List FillerCandidate}
    (h : Plan base threshold pool fs) (h' : Plan base threshold pool fs') :
    fs.length = fs'.length := by
  cases h with
  | bare hle =>
    cases h' with
    | bare _ => rfl
    | filled hlt _ => omega
  | filled hlt hfs =>
    cases h' with
    | bare hle => omega
    | filled _ hfs' =>
      cases hfs with
      | single hf hgap =>
        cases hfs' with
        | single _ _ => rfl
        | pair hnone _ _ _ _ => exact absurd hgap (not_le.mpr (hnone _ hf))
      | pair hnone _ _ _ _ =>
        cases hfs' with
        | single hf hgap => exact absurd hgap (not_le.mpr (hnone _ hf))
        | pair _ _ _ _ _ => rfl

/-- **What a coupon comes to** has one shape, whichever of the cheapest fillers of the pool are
added. -/
theorem considered_sameShape {outcome outcome' : CouponOutcome}
    (h : Considered js base budget now items pool coupon outcome)
    (h' : Considered js base budget now items pool coupon outcome')
    (hc : outcome.contender = some c) :
    ∃ c', outcome'.contender = some c' ∧ SameShape c c' := by
  rcases h with ⟨reason, -, he⟩ | ⟨reason, -, he⟩ | ⟨fs, husable, hfs, hleast, he⟩
  · rw [he] at hc
    cases hc
  · rw [he] at hc
    cases hc
  · rcases h' with ⟨reason, hno, -⟩ | ⟨reason, hno, -⟩ | ⟨fs', -, hfs', hleast', he'⟩
    · exact absurd husable hno
    · exact absurd hfs (hno fs)
    · have hcost : cost fs = cost fs' := le_antisymm (hleast fs' hfs') (hleast' fs hfs)
      have hlen := hfs.length_eq hfs'
      rw [he, judge_contender] at hc
      obtain ⟨hok, rfl⟩ := hc
      rw [hcost] at hok ⊢
      rw [he']
      refine ⟨_, judge_contender.mpr ⟨hok, rfl⟩, rfl, rfl, ?_, ?_⟩
      · simp only [List.isEmpty_map]
        rw [Bool.eq_iff_iff, List.isEmpty_iff_length_eq_zero, List.isEmpty_iff_length_eq_zero, hlen]
      · simp [hlen]

end Shape

/-! ### The winners -/

section Reordered

variable {js : Runtime} {input input' : OptimizationInput} {c c' : Contender}

theorem mem_contenders {items : List OrderedItem} : c ∈ input.contenders js items ↔
    ∃ coupon ∈ input.coupons, (input.consider js items coupon).contender = some c := by
  simp [contenders]

namespace Reordered

variable (h : Reordered input input')
include h

theorem symm : Reordered input' input :=
  ⟨h.cartItems.symm, h.remainingDailyBudget.symm, h.now.symm, h.coupons.symm,
    h.fillerCandidates.symm⟩

theorem baseline : input'.baseline = input.baseline := by
  unfold OptimizationInput.baseline cartLines
  rw [h.cartItems]

theorem pool (hids : (input.fillerCandidates.map (·.itemId)).Nodup) : input'.Pool = input.Pool := by
  unfold Pool
  rw [h.cartItems, h.remainingDailyBudget]
  exact funext fun f => propext (inPool_perm hids h.fillerCandidates)

theorem distinct (hd : Distinct js input) : Distinct js input' where
  codes := (h.coupons.map _).nodup_iff.mpr hd.codes
  ordered a ha b hb := hd.ordered a (h.coupons.mem_iff.mp ha) b (h.coupons.mem_iff.mp hb)
  ids := (h.fillerCandidates.map _).nodup_iff.mpr hd.ids

/-- Each contender of the one input has its shape among those of the other. -/
theorem exists_sameShape (hd : Distinct js input)
    (hc : c ∈ input.baseline :: input.contenders js input.cartLines) :
    ∃ c' ∈ input'.baseline :: input'.contenders js input'.cartLines, SameShape c c' := by
  rcases List.mem_cons.mp hc with rfl | hc
  · exact ⟨_, List.mem_cons_self .., h.baseline ▸ .refl _⟩
  · obtain ⟨coupon, hcoupon, hcont⟩ := mem_contenders.mp hc
    have hours := considered_consider js input input.cartLines coupon
    have htheirs := considered_consider js input' input'.cartLines coupon
    have hlines : input'.cartLines = input.cartLines := by
      unfold cartLines
      rw [h.cartItems]
    rw [h.pool hd.ids, h.cartItems, h.remainingDailyBudget, h.now, hlines] at htheirs
    obtain ⟨c', hc', hshape⟩ := considered_sameShape hours htheirs hcont
    refine ⟨c', List.mem_cons_of_mem _ (mem_contenders.mpr ⟨coupon, ?_, ?_⟩), hshape⟩
    · exact h.coupons.mem_iff.mpr hcoupon
    · rw [hlines]
      exact hc'

theorem free_iff : input'.Free ↔ input.Free := by
  unfold Free
  rw [h.cartItems]

/-- The winner of the one input comes before the winner of the other. -/
theorem compare_winners (hfree : ¬ input.Free) (hd : Distinct js input) :
    compareContenders js (input.winner js) (input'.winner js) ≤ 0 := by
  have hfree' : ¬ input'.Free := fun hf => hfree (h.free_iff.mp hf)
  have hmem' : input'.winner js ∈ input'.baseline :: input'.contenders js input'.cartLines := by
    rw [winner, if_neg hfree']
    exact (selectWinner_spec js _ _).1
  obtain ⟨c, hc, hshape⟩ := h.symm.exists_sameShape (h.distinct hd) hmem'
  rw [(SameShape.refl _).compare hshape, winner, if_neg hfree]
  exact (selectWinner_spec js _ _).2 c hc

end Reordered

/-- A contender with a code is what a coupon of that code comes to. -/
theorem coupon_of_contender {items : List OrderedItem} (hc : c ∈ input.contenders js items) :
    ∃ coupon ∈ input.coupons, (input.consider js items coupon).contender = some c ∧
      c.couponCode = some coupon.code ∧ c.total < baseTotal input.cartItems := by
  obtain ⟨coupon, hcoupon, hcont⟩ := mem_contenders.mp hc
  obtain ⟨hacc, hcode, -⟩ := logged_consider.accepts hcont
  obtain ⟨c', hc', hbelow, -⟩ := logged_consider.contends hacc
  rw [hcont] at hc'
  cases hc'
  exact ⟨coupon, hcoupon, hcont, hcode.trans (congrArg some logged_consider.couponCode), hbelow⟩

theorem winner_mem (js : Runtime) (input : OptimizationInput) :
    input.winner js = input.baseline ∨
      input.winner js ∈ input.contenders js input.cartLines := by
  by_cases hfree : input.Free
  · rw [winner, if_pos hfree]
    exact .inl rfl
  · exact (winner_spec _ hfree).1

/-- Contenders that come before each other are of one total and one code. -/
theorem eq_of_compare {a b : Contender} (hab : compareContenders js a b ≤ 0)
    (hba : compareContenders js b a ≤ 0) :
    a.total = b.total ∧ js.localeCompare (a.couponCode.getD "") (b.couponCode.getD "") ≤ 0 ∧
      js.localeCompare (b.couponCode.getD "") (a.couponCode.getD "") ≤ 0 := by
  rw [compareContenders_le] at hab hba
  omega

/-- **One winner.** In whatever order the coupons and fillers come, the winner has one total and one
code, and where the fillers come in one order it is the same. -/
theorem Reordered.winner_eq (h : Reordered input input') (hd : Distinct js input) :
    (input'.winner js).total = (input.winner js).total ∧
      (input'.winner js).couponCode = (input.winner js).couponCode ∧
      (input'.fillerCandidates = input.fillerCandidates →
        input'.winner js = input.winner js) := by
  by_cases hfree : input.Free
  · have hwin : input'.winner js = input.winner js := by
      rw [winner, winner, if_pos hfree, if_pos (h.free_iff.mpr hfree), h.baseline]
    rw [hwin]
    exact ⟨rfl, rfl, fun _ => rfl⟩
  · obtain ⟨htotal, hle, hge⟩ := eq_of_compare (h.compare_winners hfree hd)
      (h.symm.compare_winners (fun hf => hfree (h.free_iff.mp hf)) (h.distinct hd))
    refine ⟨htotal.symm, ?_⟩
    rcases winner_mem js input with hb | hc
    · rcases winner_mem js input' with hb' | hc'
      · rw [hb, hb', h.baseline]
        exact ⟨rfl, fun _ => rfl⟩
      · -- the cart as it is costs more than any contender
        obtain ⟨coupon, -, -, -, hbelow⟩ := coupon_of_contender hc'
        rw [← htotal, hb, h.cartItems] at hbelow
        exact absurd hbelow (lt_irrefl _)
    · obtain ⟨coupon, hcoupon, hcont, hcode, hbelow⟩ := coupon_of_contender hc
      rcases winner_mem js input' with hb' | hc'
      · rw [htotal, hb', h.baseline] at hbelow
        exact absurd hbelow (lt_irrefl _)
      · obtain ⟨coupon', hcoupon', hcont', hcode', -⟩ := coupon_of_contender hc'
        have hmem' := h.coupons.mem_iff.mp hcoupon'
        rw [hcode, hcode', Option.getD_some, Option.getD_some] at hle hge
        have hcodes := hd.ordered _ hcoupon _ hmem' hle hge
        refine ⟨by rw [hcode, hcode', hcodes], fun hfillers => ?_⟩
        -- one code is one coupon, and with the same fillers it comes to the same
        have hone : coupon' = coupon := List.inj_on_of_nodup_map hd.codes hmem' hcoupon hcodes.symm
        have hconsider : input'.consider js input'.cartLines = input.consider js input.cartLines := by
          unfold OptimizationInput.consider cartLines
          rw [h.cartItems, h.remainingDailyBudget, h.now, hfillers]
        rw [hone, hconsider, hcont] at hcont'
        exact (Option.some.inj hcont').symm

end Reordered

/-- The same holds of the range in which the numbers are exact. -/
theorem Reordered.exact {input input' : OptimizationInput} (h : Reordered input input')
    (hexact : input.Exact) : input'.Exact := by
  have hmost : input'.most = input.most := by
    unfold OptimizationInput.most
    rw [h.cartItems, h.remainingDailyBudget]
  refine ⟨⟨h.cartItems.symm ▸ hexact.each.cartItems, fun coupon hc => ?_, fun f hf => ?_,
    h.remainingDailyBudget.symm ▸ hexact.each.remainingDailyBudget⟩, h.cartItems.symm ▸ hexact.base,
    ?_, hmost.symm ▸ hexact.most, fun coupon hc => ?_, fun coupon hc => ?_⟩
  · exact hexact.each.coupons coupon (h.coupons.mem_iff.mp hc)
  · exact hexact.each.fillerCandidates f (h.fillerCandidates.mem_iff.mp hf)
  · rw [h.cartItems, h.remainingDailyBudget]
    exact hexact.room
  · rw [hmost]
    exact hexact.product coupon (h.coupons.mem_iff.mp hc)
  · rw [hmost]
    exact hexact.left coupon (h.coupons.mem_iff.mp hc)

/-- **The order does not matter.** For a cart of the schema and percentages of at most 100, where the
numbers are exact, coupons of different codes and fillers of different ids may come in any order: the
code answers the same total, coupon, savings and flag, and where only the coupons are in another order
the same items. -/
theorem optimize_reordered (js : Runtime) (input input' : OptimizationInput)
    (h : Reordered input input') (hd : Distinct js input)
    (hcart : ∀ item ∈ input.cartItems, CartItemSchema item) (hexact : input.Exact)
    (hp : input.Proportionate) :
    ∃ result result' : OptimizationResult, optimize js input.numbers = .ok result.numbers ∧
      optimize js input'.numbers = .ok result'.numbers ∧
      result'.finalTotal = result.finalTotal ∧
      result'.appliedCouponCode = result.appliedCouponCode ∧
      result'.savingsAchieved = result.savingsAchieved ∧
      result'.overBudget = result.overBudget ∧
      (input'.fillerCandidates = input.fillerCandidates → result'.finalItems = result.finalItems) := by
  have hp' : input'.Proportionate := fun coupon hc => hp coupon (h.coupons.mem_iff.mp hc)
  have hbase := baseTotal_nonneg hcart
  obtain ⟨result, hresult⟩ := exists_optimize js hbase hp
  obtain ⟨result', hresult'⟩ := exists_optimize js (h.cartItems.symm ▸ hbase) hp'
  refine ⟨result, result', hexact.optimize_numbers hcart hresult,
    (h.exact hexact).optimize_numbers (h.cartItems.symm ▸ hcart) hresult', ?_⟩
  rw [optimize_eq] at hresult hresult'
  obtain ⟨-, rfl⟩ := buildResult_eq_ok hresult
  obtain ⟨-, rfl⟩ := buildResult_eq_ok hresult'
  obtain ⟨htotal, hcode, hsame⟩ := h.winner_eq hd
  refine ⟨htotal, hcode, ?_, ?_, fun hfillers => ?_⟩
  · simp only [htotal, h.cartItems]
  · simp only [htotal, h.remainingDailyBudget]
  · rw [hsame hfillers]

/-- Two coupons and two sides that come to one total. -/
def twoSides : OptimizationInput :=
  { freeSide with
    coupons := freeSide.coupons ++ freeSide.coupons.map fun coupon => { coupon with code := "TRY100" }
    fillerCandidates := freeSide.fillerCandidates ++
      [{ itemId := "drink", price := 60, category := some "beverage", inStock := true }] }

theorem distinct_twoSides : Distinct asciiRuntime twoSides where
  codes := by decide
  ordered := by decide
  ids := by decide

theorem optimize_reordered_twoSides :
    ∃ result result' : OptimizationResult,
      optimize asciiRuntime twoSides.numbers = .ok result.numbers ∧
      optimize asciiRuntime ({ twoSides with
        coupons := twoSides.coupons.reverse
        fillerCandidates := twoSides.fillerCandidates.reverse } : OptimizationInput).numbers =
          .ok result'.numbers ∧
      result'.finalTotal = result.finalTotal ∧
      result'.appliedCouponCode = result.appliedCouponCode := by
  obtain ⟨result, result', h, h', htotal, hcode, -⟩ := optimize_reordered asciiRuntime twoSides
    { twoSides with
      coupons := twoSides.coupons.reverse
      fillerCandidates := twoSides.fillerCandidates.reverse }
    ⟨rfl, rfl, rfl, List.reverse_perm _, List.reverse_perm _⟩ distinct_twoSides (by decide)
    (.of_most ⟨by decide, by decide, by decide, by decide⟩ (by decide) (by decide) (by decide)
      (by decide) (by decide))
    (by unfold OptimizationInput.Proportionate Proportionate; decide)
  exact ⟨result, result', h, h', htotal, hcode⟩

/-- A cart of 200 paise, two fillers of 2¹⁰²³ paise, and a coupon that only both of them reach, beside
one of 50 paise. -/
def overflowingSides : OptimizationInput where
  cartItems := [{ itemId := "main", price := 200, quantity := 1 }]
  coupons :=
    [{ code := "HALF", discountType := .percentage, discountValue := 50, maxDiscount := none,
       minOrderValue := 3 * 2 ^ 1022, paymentModes := [.cod], isApplicable := none, expiresAt := none },
     { code := "FLAT50", discountType := .flat, discountValue := 50, maxDiscount := none,
       minOrderValue := 0, paymentModes := [.cod], isApplicable := none, expiresAt := none }]
  fillerCandidates :=
    [{ itemId := "side", price := 2 ^ 1023, inStock := true },
     { itemId := "drink", price := 2 ^ 1023, inStock := true }]
  remainingDailyBudget := 2 ^ 1023 + 2 ^ 1022 + 2 ^ 1021
  now := 0

theorem schemas_overflowingSides : overflowingSides.Schemas :=
  ⟨⟨by decide +kernel, by decide +kernel, by decide +kernel, by decide +kernel⟩, by decide, by decide +kernel,
    by decide +kernel⟩

/-- The coupons in the other order. -/
def OptimizationInput.reversed (input : OptimizationInput) : OptimizationInput :=
  { input with coupons := input.coupons.reverse }

theorem OptimizationInput.reordered (input : OptimizationInput) : Reordered input input.reversed :=
  ⟨rfl, rfl, rfl, List.reverse_perm _, .refl _⟩

/-- What is left under the first coupon is not a number, which the sort takes for equal to any: the
total is 200 paise with the one order of the coupons, and 150 with the other. -/
theorem not_optimize_reordered :
    ¬ ∀ (js : Runtime) (input input' : OptimizationInput), Reordered input input' → Distinct js input →
      input.Schemas → input.Proportionate → ∀ result result' : OptimizationResult Number,
        optimize js input.numbers = .ok result → optimize js input'.numbers = .ok result' →
        result'.finalTotal = result.finalTotal := by
  intro h
  have hd : Distinct asciiRuntime overflowingSides := ⟨by decide, by decide, by decide⟩
  have hp : overflowingSides.Proportionate := by
    unfold OptimizationInput.Proportionate Proportionate
    decide
  obtain ⟨result, hresult, htotal⟩ := exists_of_finalTotal 200
    (show (optimize asciiRuntime overflowingSides.numbers).map (·.finalTotal) = _ by decide +kernel)
  obtain ⟨result', hresult', htotal'⟩ := exists_of_finalTotal 150
    (show (optimize asciiRuntime overflowingSides.reversed.numbers).map (·.finalTotal) = _ by
      decide +kernel)
  have heq := h asciiRuntime overflowingSides overflowingSides.reversed overflowingSides.reordered hd
    schemas_overflowingSides hp result result' hresult hresult'
  rw [htotal, htotal'] at heq
  exact absurd heq (by decide +kernel)

end Gusto.Hacker
