import Gusto.Hacker.Exact

/-!
# The decision log

* `Logged`: what a coupon comes to beside its entry in the log;
* `Explains`: what the log says of the coupons and of the one that is applied;
* `decisionLog_explains`: the log of every answer does where the numbers are exact;
  `not_decisionLog_explains`: not so where they overflow.
-/

set_option autoImplicit false

namespace Gusto.Hacker

open Binary64 HackerAlgorithm

/-! ### Entries -/

/-- A coupon is turned down, or it is accepted with the total at which it contends, below B. -/
inductive Logged (base : ℤ) (coupon : Coupon) : CouponOutcome → Prop
  | rejected (reason : String) (computedTotal : Option ℤ) :
    Logged base coupon (rejected coupon reason computedTotal)
  | accepted {c : Contender} (reason : String) (hcode : c.couponCode = some coupon.code)
      (hbelow : c.total < base) :
    Logged base coupon
      { contender := some c
        logEntry := { couponCode := coupon.code, outcome := .accepted, reason,
                      computedTotal := some c.total } }

section Entry

variable {base : ℤ} {coupon : Coupon} {outcome : CouponOutcome} {c : Contender}

theorem Logged.couponCode (h : Logged base coupon outcome) :
    outcome.logEntry.couponCode = coupon.code := by
  cases h <;> rfl

/-- An accepted entry stands for a contender. -/
theorem Logged.contends (h : Logged base coupon outcome)
    (hacc : outcome.logEntry.outcome = .accepted) :
    ∃ c, outcome.contender = some c ∧ c.total < base ∧
      outcome.logEntry.computedTotal = some c.total := by
  cases h with
  | rejected reason computedTotal => cases hacc
  | @accepted c reason hcode hbelow => exact ⟨c, rfl, hbelow, rfl⟩

/-- A contender has an accepted entry. -/
theorem Logged.accepts (h : Logged base coupon outcome) (hc : outcome.contender = some c) :
    outcome.logEntry.outcome = .accepted ∧ c.couponCode = some outcome.logEntry.couponCode ∧
      outcome.logEntry.computedTotal = some c.total := by
  cases h with
  | rejected reason computedTotal => cases hc
  | accepted reason hcode hbelow =>
    cases hc
    exact ⟨rfl, hcode, rfl⟩

theorem logged_judge {items : List OrderedItem} {fillersAdded : List String} {amount budget : ℤ} :
    Logged base coupon (judge coupon items fillersAdded amount base budget) := by
  unfold judge
  dsimp only
  by_cases h1 : amount - discount amount coupon ≥ base
  · rw [if_pos h1]
    exact .rejected _ _
  · rw [if_neg h1]
    split
    · exact .rejected _ _
    · exact .accepted (c := ⟨_, _, _, _⟩) _ rfl (not_le.mp h1)

/-- Whichever way the search for a coupon ends, it leaves one entry. -/
theorem logged_consider {js : Runtime} {input : OptimizationInput} {items : List OrderedItem} :
    Logged (baseTotal input.cartItems) coupon (input.consider js items coupon) := by
  unfold OptimizationInput.consider considerCoupon
  split
  · exact .rejected _ _
  · unfold optimizeSingleCoupon
    split
    · split
      · exact .rejected _ _
      · exact logged_judge
    · exact logged_judge

end Entry

/-! ### The log and the answer -/

/-- The log has one entry for each coupon, in their order; no coupon is applied when none is
accepted; and what is applied is accepted at the final total, the least at which one is. -/
structure Explains {ν : Type} [LE ν] (coupons : List (Coupon ν)) (result : OptimizationResult ν) :
    Prop where
  codes : result.decisionLog.map (·.couponCode) = coupons.map (·.code)
  none_iff : result.appliedCouponCode = none ↔
    ∀ entry ∈ result.decisionLog, entry.outcome ≠ .accepted
  applied : ∀ code, result.appliedCouponCode = some code →
    ∃ entry ∈ result.decisionLog, entry.outcome = .accepted ∧ entry.couponCode = code ∧
      entry.computedTotal = some result.finalTotal
  least : ∀ entry ∈ result.decisionLog, entry.outcome = .accepted →
    ∃ total, entry.computedTotal = some total ∧ result.finalTotal ≤ total

namespace OptimizationInput

variable {js : Runtime} {input : OptimizationInput}

theorem not_free (hB : 0 < baseTotal input.cartItems) : ¬ input.Free := by
  rintro (h | h)
  · rw [List.isEmpty_iff.mp h] at hB
    exact absurd hB (by decide)
  · omega

theorem mem_log (hfree : ¬ input.Free) {entry : DecisionLogEntry} :
    entry ∈ input.log js ↔
      ∃ coupon ∈ input.coupons, (input.consider js input.cartLines coupon).logEntry = entry := by
  simp [log, if_neg hfree]

theorem map_couponCode_log (hfree : ¬ input.Free) :
    (input.log js).map (·.couponCode) = input.coupons.map (·.code) := by
  rw [log, if_neg hfree, List.map_map, List.map_map]
  exact List.map_congr_left fun coupon _ => logged_consider.couponCode

variable (js) in
/-- The winner comes before every contender, and it is one or the cart as it is. -/
theorem winner_spec (hfree : ¬ input.Free) :
    (input.winner js = input.baseline ∨ input.winner js ∈ input.contenders js input.cartLines) ∧
      ∀ c ∈ input.contenders js input.cartLines, (input.winner js).total ≤ c.total := by
  rw [winner, if_neg hfree]
  obtain ⟨hmem, hle⟩ := selectWinner_spec js input.baseline (input.contenders js input.cartLines)
  exact ⟨List.mem_cons.mp hmem,
    fun c hc => total_le_of_compare (hle c (List.mem_cons_of_mem _ hc))⟩

/-- A contender has an accepted entry with its code and its total. -/
theorem entry_of_contender (hfree : ¬ input.Free) {c : Contender}
    (hc : c ∈ input.contenders js input.cartLines) :
    ∃ entry ∈ input.log js, entry.outcome = .accepted ∧ c.couponCode = some entry.couponCode ∧
      entry.computedTotal = some c.total := by
  obtain ⟨outcome, hout, hcont⟩ := List.mem_filterMap.mp hc
  obtain ⟨coupon, hcoupon, rfl⟩ := List.mem_map.mp hout
  exact ⟨_, (mem_log hfree).mpr ⟨coupon, hcoupon, rfl⟩, logged_consider.accepts hcont⟩

/-- An accepted entry has a contender with its total. -/
theorem contender_of_entry (hfree : ¬ input.Free) {entry : DecisionLogEntry}
    (hentry : entry ∈ input.log js) (hacc : entry.outcome = .accepted) :
    ∃ c ∈ input.contenders js input.cartLines, c.total < baseTotal input.cartItems ∧
      entry.computedTotal = some c.total := by
  obtain ⟨coupon, hcoupon, rfl⟩ := (mem_log hfree).mp hentry
  obtain ⟨c, hc, hbelow, htotal⟩ := logged_consider.contends hacc
  exact ⟨c, List.mem_filterMap.mpr ⟨_, List.mem_map_of_mem hcoupon, hc⟩, hbelow, htotal⟩

/-- The winner has a code exactly when some entry is accepted. -/
theorem winner_couponCode_eq_none (hfree : ¬ input.Free) :
    (input.winner js).couponCode = none ↔ ∀ entry ∈ input.log js, entry.outcome ≠ .accepted := by
  obtain ⟨hwin, hle⟩ := winner_spec js hfree
  constructor
  · intro hnone entry hentry hacc
    obtain ⟨c, hc, hbelow, -⟩ := contender_of_entry hfree hentry hacc
    rcases hwin with hbase | hcont
    · have := hle c hc
      rw [hbase] at this
      exact absurd hbelow (not_lt.mpr this)
    · obtain ⟨entry', -, -, hcode, -⟩ := entry_of_contender hfree hcont
      rw [hnone] at hcode
      cases hcode
  · intro hnone
    rcases hwin with hbase | hcont
    · rw [hbase]
      rfl
    · obtain ⟨entry, hentry, hacc, -⟩ := entry_of_contender hfree hcont
      exact absurd hacc (hnone entry hentry)

end OptimizationInput

open OptimizationInput

/-- The log of what the search answers over the integers. -/
theorem explains_of_optimize {js : Runtime} {input : OptimizationInput} {result : OptimizationResult}
    (hB : 0 < baseTotal input.cartItems) (hresult : optimize js input = .ok result) :
    Explains input.coupons result := by
  rw [optimize_eq] at hresult
  obtain ⟨-, rfl⟩ := buildResult_eq_ok hresult
  have hfree := not_free hB
  obtain ⟨hwin, hle⟩ := winner_spec js hfree
  refine ⟨map_couponCode_log hfree, winner_couponCode_eq_none hfree, fun code hcode => ?_,
    fun entry hentry hacc => ?_⟩
  · rcases hwin with hbase | hcont
    · simp only [hbase] at hcode
      cases hcode
    · obtain ⟨entry, hentry, hacc, hcode', htotal⟩ := entry_of_contender hfree hcont
      exact ⟨entry, hentry, hacc, Option.some.inj (hcode'.symm.trans hcode), htotal⟩
  · obtain ⟨c, hc, -, htotal⟩ := contender_of_entry hfree hentry hacc
    exact ⟨c.total, htotal, hle c hc⟩

/-- **The log explains the answer.** For a cart of the schema that costs something, and percentages of
at most 100, where the numbers are exact, the code answers, with an entry for each coupon, and what it
applies is an accepted coupon of least total. -/
theorem decisionLog_explains (js : Runtime) (input : OptimizationInput)
    (hcart : ∀ item ∈ input.cartItems, CartItemSchema item) (hexact : input.Exact)
    (hB : 0 < baseTotal input.cartItems) (hp : input.Proportionate) :
    ∃ result : OptimizationResult, optimize js input.numbers = .ok result.numbers ∧
      Explains input.coupons result := by
  obtain ⟨result, hresult⟩ := exists_optimize js hB.le hp
  exact ⟨result, hexact.optimize_numbers hcart hresult, explains_of_optimize hB hresult⟩

theorem decisionLog_explains_freeSide :
    ∃ result : OptimizationResult, optimize asciiRuntime freeSide.numbers = .ok result.numbers ∧
      Explains freeSide.coupons result :=
  decisionLog_explains asciiRuntime freeSide (by decide) exact_freeSide (by decide)
    proportionate_freeSide

/-- A cart of two dishes of 2¹⁰²³ paise, and a coupon of half the price. -/
def overflowing : OptimizationInput where
  cartItems := [{ itemId := "main", price := 2 ^ 1023, quantity := 2 }]
  coupons :=
    [{ code := "HALF", discountType := .percentage, discountValue := 50, maxDiscount := none,
       minOrderValue := 0, paymentModes := [.cod], isApplicable := none, expiresAt := none }]
  fillerCandidates := []
  remainingDailyBudget := 0
  now := 0

theorem schemas_overflowing : overflowing.Schemas :=
  ⟨⟨by decide +kernel, by decide +kernel, by decide +kernel, by decide +kernel⟩, by decide +kernel,
    by decide, by decide⟩

/-- The price is infinite, and what is left of it under the coupon is not a number: the coupon is
accepted, and not applied. -/
theorem optimize_overflowing : optimize asciiRuntime overflowing.numbers = .ok
    { finalItems := [⟨"main", 2⟩], appliedCouponCode := none, baseTotal := .posInfinity,
      finalTotal := .posInfinity, savingsAchieved := .nan, overBudget := true,
      decisionLog := [⟨"HALF", .accepted, "accepted", some .nan⟩] } := by decide +kernel

theorem not_decisionLog_explains :
    ¬ ∀ (js : Runtime) (input : OptimizationInput), input.Schemas → input.Proportionate →
      (0 : Number) < baseTotal input.numbers.cartItems →
      ∀ result : OptimizationResult Number, optimize js input.numbers = .ok result →
        Explains input.numbers.coupons result := by
  intro h
  have hp : overflowing.Proportionate := by
    unfold OptimizationInput.Proportionate Proportionate
    decide
  have hexplains := h asciiRuntime overflowing schemas_overflowing hp (by decide +kernel) _
    optimize_overflowing
  exact hexplains.none_iff.mp rfl _ (List.mem_singleton_self _) rfl

end Gusto.Hacker
