import Gusto.Hacker.Result

/-!
# Where the numbers are exact

The code computes with the `Number` of the runtime.  It comes to what the integers come to as long as
they are safe, the ones that the search adds up and multiplies as well.

* `OptimizationInput.numbers`: an input of integers as the code has it;
* `OptimizationInput.Exact`: where all that the search computes is safe;
* `optimize_numbers`: there the code answers what the search answers over the integers;
* `isLeast_finalTotal`, `realisable`: what it answers there; `not_isLeast_finalTotal` and
  `not_realisable`: not so elsewhere.
-/

set_option autoImplicit false

namespace Gusto

/-! ### From one type of numbers to another -/

section Map

variable {ν μ : Type} (f : ν → μ)

def CartItem.map (item : CartItem ν) : CartItem μ where
  itemId := item.itemId
  price := f item.price
  quantity := f item.quantity

def OrderedItem.map (item : OrderedItem ν) : OrderedItem μ where
  itemId := item.itemId
  quantity := f item.quantity

def DecisionLogEntry.map (entry : DecisionLogEntry ν) : DecisionLogEntry μ where
  couponCode := entry.couponCode
  outcome := entry.outcome
  reason := entry.reason
  computedTotal := entry.computedTotal.map f

def Coupon.map (coupon : Coupon ν) : Coupon μ where
  code := coupon.code
  discountType := coupon.discountType
  discountValue := f coupon.discountValue
  maxDiscount := coupon.maxDiscount.map f
  minOrderValue := f coupon.minOrderValue
  paymentModes := coupon.paymentModes
  isApplicable := coupon.isApplicable
  expiresAt := coupon.expiresAt

def FillerCandidate.map (candidate : FillerCandidate ν) : FillerCandidate μ where
  itemId := candidate.itemId
  price := f candidate.price
  category := candidate.category
  inStock := candidate.inStock

namespace Hacker

def OptimizationInput.map (input : OptimizationInput ν) : OptimizationInput μ where
  cartItems := input.cartItems.map (·.map f)
  coupons := input.coupons.map (·.map f)
  fillerCandidates := input.fillerCandidates.map (·.map f)
  remainingDailyBudget := f input.remainingDailyBudget
  now := input.now

def OptimizationResult.map (result : OptimizationResult ν) : OptimizationResult μ where
  finalItems := result.finalItems.map (·.map f)
  appliedCouponCode := result.appliedCouponCode
  baseTotal := f result.baseTotal
  finalTotal := f result.finalTotal
  savingsAchieved := f result.savingsAchieved
  overBudget := result.overBudget
  decisionLog := result.decisionLog.map (·.map f)

def Contender.map (c : Contender ν) : Contender μ where
  couponCode := c.couponCode
  items := c.items.map (·.map f)
  total := f c.total
  fillersAdded := c.fillersAdded

def FillerCombo.map (combo : FillerCombo ν) : FillerCombo μ where
  itemIds := combo.itemIds
  totalPrice := f combo.totalPrice

def CouponOutcome.map (outcome : CouponOutcome ν) : CouponOutcome μ where
  contender := outcome.contender.map (·.map f)
  logEntry := outcome.logEntry.map f

end Hacker

end Map

namespace Hacker

open Binary64 HackerAlgorithm

/-! ### Inputs -/

namespace OptimizationInput

/-- The input, as the code has it. -/
def numbers (input : OptimizationInput) : OptimizationInput Number := input.map Number.ofInt

/-- Every number of the input meets `p`. -/
structure Each (p : ℤ → Prop) (input : OptimizationInput) : Prop where
  cartItems : ∀ item ∈ input.cartItems, p item.price ∧ p item.quantity
  coupons : ∀ coupon ∈ input.coupons,
    p coupon.discountValue ∧ (∀ cap ∈ coupon.maxDiscount, p cap) ∧ p coupon.minOrderValue
  fillerCandidates : ∀ f ∈ input.fillerCandidates, p f.price
  remainingDailyBudget : p input.remainingDailyBudget

/-- The most that a cart comes to with two fillers. -/
def most (input : OptimizationInput) : ℤ :=
  max (baseTotal input.cartItems) (2 * input.remainingDailyBudget - baseTotal input.cartItems)

/-- All that the search computes is safe: the price of the cart, what the budget leaves, and of each
amount that may be ordered its product with a percentage and what is left of it under a coupon. -/
structure Exact (input : OptimizationInput) : Prop where
  each : input.Each Safe
  base : Safe (baseTotal input.cartItems)
  room : Safe (input.remainingDailyBudget - baseTotal input.cartItems)
  most : Safe input.most
  product : ∀ coupon ∈ input.coupons, coupon.discountType = .percentage →
    ∀ amount, 0 ≤ amount → amount ≤ input.most → Safe (amount * coupon.discountValue)
  left : ∀ coupon ∈ input.coupons,
    ∀ amount, 0 ≤ amount → amount ≤ input.most → Safe (payable coupon amount)

end OptimizationInput

def OptimizationResult.numbers (result : OptimizationResult) : OptimizationResult Number :=
  result.map Number.ofInt

/-! ### The price of the cart -/

section Cart

variable {items : List CartItem}

theorem baseTotal_numbers (hpos : ∀ item ∈ items, CartItemSchema item)
    (heach : ∀ item ∈ items, Safe item.price ∧ Safe item.quantity) (hsafe : Safe (baseTotal items)) :
    baseTotal (items.map (CartItem.map Number.ofInt)) = Number.ofInt (baseTotal items) := by
  have hterm : ∀ item ∈ items, (item.map Number.ofInt).price * (item.map Number.ofInt).quantity =
      Number.ofInt (item.price * item.quantity) :=
    fun item hitem => Number.mul_ofInt (heach item hitem).1 (heach item hitem).2
  have hcost : ∀ item ∈ items, 0 ≤ item.price * item.quantity :=
    fun item hitem => Int.mul_nonneg (hpos item hitem).1 (hpos item hitem).2.le
  unfold baseTotal
  rw [List.foldl_map]
  exact Number.foldl_add_ofInt hterm hcost le_rfl hsafe

end Cart

/-! ### The search for fillers -/

section Fillers

variable {candidates : List FillerCandidate} {room gap : ℤ}

theorem dedupe_numbers (hroom : Safe room) (heach : ∀ f ∈ candidates, Safe f.price)
    (seen : List String) :
    dedupe (Number.ofInt room) seen (candidates.map (FillerCandidate.map Number.ofInt)) =
      (dedupe room seen candidates).map (FillerCandidate.map Number.ofInt) := by
  induction candidates generalizing seen with
  | nil => rfl
  | cons f candidates ih =>
    obtain ⟨hf, heach⟩ := List.forall_mem_cons.mp heach
    have hzero : (FillerCandidate.map Number.ofInt f).price ≤ 0 ↔ f.price ≤ 0 :=
      Number.le_ofInt (b := 0) hf (by decide)
    have hover : (FillerCandidate.map Number.ofInt f).price > Number.ofInt room ↔ f.price > room :=
      Number.lt_ofInt hroom hf
    rw [List.map_cons, dedupe, dedupe]
    simp only [hzero, hover]
    simp only [FillerCandidate.map, ih heach]
    split_ifs <;> rfl

theorem prepareFillerCandidates_numbers (hroom : Safe room) (heach : ∀ f ∈ candidates, Safe f.price) :
    prepareFillerCandidates (candidates.map (FillerCandidate.map Number.ofInt)) (Number.ofInt room) =
      (prepareFillerCandidates candidates room).map (FillerCandidate.map Number.ofInt) := by
  have hsafe : ∀ f ∈ dedupe room [] candidates, Safe f.price := fun f hf =>
    heach f (List.mem_of_find?_eq_some (mem_dedupe.mp hf).2.1)
  unfold prepareFillerCandidates
  rw [dedupe_numbers hroom heach]
  refine (List.map_insertionSort _ _ _ _ fun f hf g hg => ?_).symm
  rw [order_int, sub_nonpos]
  exact (Number.order_ofInt (hsafe f hf) (hsafe g hg)).symm

theorem cheaper_numbers {best : Option FillerCandidate} {f : FillerCandidate} (hgap : Safe gap)
    (hbest : ∀ b ∈ best, Safe b.price) (hf : Safe f.price) :
    cheaper (Number.ofInt gap) (best.map (FillerCandidate.map Number.ofInt))
        (FillerCandidate.map Number.ofInt f) =
      (cheaper gap best f).map (FillerCandidate.map Number.ofInt) := by
  have hless : (FillerCandidate.map Number.ofInt f).price < Number.ofInt gap ↔ f.price < gap :=
    Number.lt_ofInt hf hgap
  unfold cheaper
  simp only [hless]
  split_ifs with h
  · rfl
  · cases best with
    | none => rfl
    | some b =>
      have hb := hbest b rfl
      have hlt : (FillerCandidate.map Number.ofInt f).price < (FillerCandidate.map Number.ofInt b).price ↔
          f.price < b.price := Number.lt_ofInt hf hb
      have heq : ((FillerCandidate.map Number.ofInt f).price ==
          (FillerCandidate.map Number.ofInt b).price) = (f.price == b.price) := Number.beq_ofInt hf hb
      simp only [Option.map_some, hlt, heq]
      change (if _ then _ else if _ then (if (preferred f && !preferred b) = true then _ else _) else _) = _
      split_ifs <;> rfl

theorem safe_cheaper {best : Option FillerCandidate} {f : FillerCandidate}
    (hbest : ∀ b ∈ best, Safe b.price) (hf : Safe f.price) :
    ∀ b ∈ cheaper gap best f, Safe b.price := by
  intro b hb
  rw [cheaper_eq, Search.improve] at hb
  split_ifs at hb
  · cases hb
    exact hf
  · exact hbest b hb
  · exact hbest b hb

theorem foldl_cheaper_numbers (hgap : Safe gap) (heach : ∀ f ∈ candidates, Safe f.price)
    (best : Option FillerCandidate) (hbest : ∀ b ∈ best, Safe b.price) :
    (candidates.map (FillerCandidate.map Number.ofInt)).foldl (cheaper (Number.ofInt gap))
        (best.map (FillerCandidate.map Number.ofInt)) =
      (candidates.foldl (cheaper gap) best).map (FillerCandidate.map Number.ofInt) := by
  induction candidates generalizing best with
  | nil => rfl
  | cons f candidates ih =>
    obtain ⟨hf, heach⟩ := List.forall_mem_cons.mp heach
    rw [List.map_cons, List.foldl_cons, List.foldl_cons, cheaper_numbers hgap hbest hf]
    exact ih heach _ (safe_cheaper hbest hf)

/-- The prices of two candidates, and their sum, are safe. -/
def PairsSafe (candidates : List FillerCandidate) : Prop :=
  ∀ f ∈ candidates, ∀ g ∈ candidates, Safe f.price ∧ Safe (f.price + g.price)

theorem twoFillers_numbers (hgap : Safe gap) (hpairs : PairsSafe candidates) (d i : ℕ)
    (best : Option FillerCombo) (hbest : ∀ b ∈ best, Safe b.totalPrice) :
    twoFillers (Number.ofInt gap) (candidates.map (FillerCandidate.map Number.ofInt)) d i
        (best.map (FillerCombo.map Number.ofInt)) =
      (twoFillers gap candidates d i best).map (FillerCombo.map Number.ofInt) := by
  induction d generalizing i best with
  | zero => rfl
  | succ d ih =>
    unfold twoFillers
    rw [List.getElem?_map, List.getElem?_map]
    cases hi : candidates[i]? with
    | none => rfl
    | some f =>
      cases hj : candidates[i + (d + 1)]? with
      | none => rfl
      | some g =>
        have hf := List.mem_of_getElem? hi
        have hg := List.mem_of_getElem? hj
        have hsafe := (hpairs f hf g hg).2
        have hsum : (FillerCandidate.map Number.ofInt f).price +
            (FillerCandidate.map Number.ofInt g).price = Number.ofInt (f.price + g.price) :=
          Number.add_ofInt (hpairs f hf g hg).1 (hpairs g hg f hf).1
        have hge : Number.ofInt (f.price + g.price) ≥ Number.ofInt gap ↔ f.price + g.price ≥ gap :=
          Number.le_ofInt hgap hsafe
        have hless : (best.map (FillerCombo.map Number.ofInt)).all
            (fun b => Number.ofInt (f.price + g.price) < b.totalPrice) =
            best.all (fun b => f.price + g.price < b.totalPrice) := by
          cases best with
          | none => rfl
          | some b =>
            have hlt : Number.ofInt (f.price + g.price) < (FillerCombo.map Number.ofInt b).totalPrice ↔
                f.price + g.price < b.totalPrice := Number.lt_ofInt hsafe (hbest b rfl)
            simp only [Option.map_some, Option.all_some, hlt]
        simp only [Option.map_some, hsum, hge, hless]
        split_ifs
        · refine ih i (some ⟨[f.itemId, g.itemId], f.price + g.price⟩) fun b hb => ?_
          cases hb
          exact hsafe
        · exact ih i best hbest
        · exact ih (i + 1) best hbest

theorem bestFillerCombo_numbers (hgap : Safe gap) (hpairs : PairsSafe candidates) :
    bestFillerCombo (Number.ofInt gap) (candidates.map (FillerCandidate.map Number.ofInt)) =
      (bestFillerCombo gap candidates).map (FillerCombo.map Number.ofInt) := by
  have hfold := foldl_cheaper_numbers hgap (fun f hf => (hpairs f hf f hf).1) none (by simp)
  unfold bestFillerCombo
  rw [Option.map_none] at hfold
  rw [hfold, List.length_map]
  cases candidates.foldl (cheaper gap) none with
  | some b => rfl
  | none => exact twoFillers_numbers hgap hpairs _ _ none (by simp)

end Fillers

/-! ### What a coupon comes to -/

section Discount

variable {coupon : Coupon} {amount : ℤ}

theorem safe_discount (hvalue : Safe coupon.discountValue) (hcap : ∀ cap ∈ coupon.maxDiscount, Safe cap)
    (hamount : Safe amount)
    (hproduct : coupon.discountType = .percentage → Safe (amount * coupon.discountValue)) :
    Safe (discount amount coupon) := by
  unfold discount
  cases ht : coupon.discountType with
  | flat =>
    simp only [min_def]
    split_ifs
    · exact hvalue
    · exact hamount
  | percentage =>
    have hproduct := safe_iff.mp (hproduct ht)
    have hraw : Safe (amount * coupon.discountValue / 100) := safe_iff.mpr (by omega)
    cases hmax : coupon.maxDiscount with
    | none =>
      simp only [floorHundredth_int, Option.getD_none, min_self]
      exact hraw
    | some cap =>
      simp only [floorHundredth_int, Option.getD_some, min_def]
      split_ifs
      · exact hraw
      · exact hcap cap hmax

theorem discount_numbers (hvalue : Safe coupon.discountValue)
    (hcap : ∀ cap ∈ coupon.maxDiscount, Safe cap) (hamount : Safe amount)
    (hproduct : coupon.discountType = .percentage → Safe (amount * coupon.discountValue)) :
    discount (Number.ofInt amount) (coupon.map Number.ofInt) = Number.ofInt (discount amount coupon) := by
  unfold discount
  simp only [Coupon.map]
  cases ht : coupon.discountType with
  | flat => exact Number.min_ofInt hvalue hamount
  | percentage =>
    have hproduct := hproduct ht
    have hbounds := safe_iff.mp hproduct
    have hraw : Safe (amount * coupon.discountValue / 100) := safe_iff.mpr (by omega)
    have hfloor : Amount.floorHundredth (Number.ofInt amount * Number.ofInt coupon.discountValue) =
        Number.ofInt (amount * coupon.discountValue / 100) := by
      rw [Number.mul_ofInt hamount hvalue]
      exact Number.floor_hundredth_ofInt hproduct
    simp only [hfloor, floorHundredth_int]
    cases hmax : coupon.maxDiscount with
    | none => exact Number.min_ofInt hraw hraw
    | some cap => exact Number.min_ofInt hraw (hcap cap hmax)

theorem judge_numbers {items : List OrderedItem} {fillersAdded : List String} {base budget : ℤ}
    (hdiscount : discount (Number.ofInt amount) (coupon.map Number.ofInt) =
      Number.ofInt (discount amount coupon))
    (hsafe : Safe (discount amount coupon)) (hamount : Safe amount) (hleft : Safe (payable coupon amount))
    (hbase : Safe base) (hbudget : Safe budget) :
    judge (coupon.map Number.ofInt) (items.map (OrderedItem.map Number.ofInt)) fillersAdded
        (Number.ofInt amount) (Number.ofInt base) (Number.ofInt budget) =
      (judge coupon items fillersAdded amount base budget).map Number.ofInt := by
  have htotal : Number.ofInt amount - Number.ofInt (discount amount coupon) =
      Number.ofInt (payable coupon amount) := Number.sub_ofInt hamount hsafe
  have hge : Number.ofInt (payable coupon amount) ≥ Number.ofInt base ↔ payable coupon amount ≥ base :=
    Number.le_ofInt hbase hleft
  have hgt : Number.ofInt (payable coupon amount) > Number.ofInt budget ↔
      payable coupon amount > budget := Number.lt_ofInt hbudget hleft
  have hpay : amount - discount amount coupon = payable coupon amount := rfl
  unfold judge
  simp only [hdiscount, htotal, hge, hgt, hpay]
  split_ifs <;> rfl

end Discount

section Coupon

variable {js : Runtime} {input : OptimizationInput} {coupon : Coupon}

/-- The candidates of the search, over the integers. -/
abbrev OptimizationInput.sorted (input : OptimizationInput) : List FillerCandidate :=
  prepareFillerCandidates input.fillerCandidates
    (input.remainingDailyBudget - baseTotal input.cartItems)

namespace OptimizationInput.Exact

/-- What fillers come to with the cart is in the range. -/
theorem amount_of_closes {gap : ℤ} {fs : List FillerCandidate}
    (hfs : Closes gap (· ∈ input.sorted) fs) :
    0 ≤ cost fs ∧ baseTotal input.cartItems + cost fs ≤ input.most := by
  have hmost : 2 * input.remainingDailyBudget - baseTotal input.cartItems ≤ input.most := le_max_right ..
  cases hfs with
  | single hf _ =>
    obtain ⟨-, -, hpos, hle⟩ := mem_prepareFillerCandidates.mp hf
    simp only [cost, List.map_cons, List.map_nil, List.sum_cons, List.sum_nil]
    omega
  | pair _ hf hg _ _ =>
    obtain ⟨-, -, hfpos, hfle⟩ := mem_prepareFillerCandidates.mp hf
    obtain ⟨-, -, hgpos, hgle⟩ := mem_prepareFillerCandidates.mp hg
    simp only [cost, List.map_cons, List.map_nil, List.sum_cons, List.sum_nil]
    omega

/-- What a plan comes to with the cart is in the range. -/
theorem amount_of_plan {threshold : ℤ} {fs : List FillerCandidate}
    (hplan : Plan (baseTotal input.cartItems) threshold input.Pool fs) :
    0 ≤ cost fs ∧ baseTotal input.cartItems + cost fs ≤ input.most := by
  have hmost : baseTotal input.cartItems ≤ input.most := le_max_left ..
  cases hplan with
  | bare _ => simpa [cost] using hmost
  | filled _ hfs => exact amount_of_closes (input.pool_eq ▸ hfs)

variable (h : input.Exact)
include h

/-- What may be ordered is safe. -/
theorem safe_amount {amount : ℤ} (hamount : 0 ≤ amount) (hle : amount ≤ input.most) : Safe amount :=
  h.most.of_le hamount hle

theorem pairsSafe (hbase : 0 ≤ baseTotal input.cartItems) : PairsSafe input.sorted := by
  intro f hf g hg
  obtain ⟨-, -, hfpos, hfle⟩ := mem_prepareFillerCandidates.mp hf
  obtain ⟨-, -, hgpos, hgle⟩ := mem_prepareFillerCandidates.mp hg
  have hmost : 2 * input.remainingDailyBudget - baseTotal input.cartItems ≤ input.most := le_max_right ..
  exact ⟨h.safe_amount hfpos.le (by omega), h.safe_amount (by omega) (by omega)⟩

theorem judge_numbers (hcoupon : coupon ∈ input.coupons) {items : List OrderedItem}
    {fillersAdded : List String} {amount : ℤ} (hamount : 0 ≤ amount) (hle : amount ≤ input.most) :
    judge (coupon.map Number.ofInt) (items.map (OrderedItem.map Number.ofInt)) fillersAdded
        (Number.ofInt amount) (Number.ofInt (baseTotal input.cartItems))
        (Number.ofInt input.remainingDailyBudget) =
      (judge coupon items fillersAdded amount (baseTotal input.cartItems)
        input.remainingDailyBudget).map Number.ofInt := by
  obtain ⟨hvalue, hcap, -⟩ := h.each.coupons coupon hcoupon
  have hsafe := h.safe_amount hamount hle
  have hproduct (ht : coupon.discountType = .percentage) := h.product coupon hcoupon ht amount hamount hle
  exact Hacker.judge_numbers (discount_numbers hvalue hcap hsafe hproduct)
    (safe_discount hvalue hcap hsafe hproduct) hsafe (h.left coupon hcoupon amount hamount hle) h.base
    h.each.remainingDailyBudget

theorem checkEligibility_numbers (hcoupon : coupon ∈ input.coupons) :
    checkEligibility js (coupon.map Number.ofInt) (Number.ofInt (baseTotal input.cartItems)) input.now
        (Number.ofInt input.remainingDailyBudget - Number.ofInt (baseTotal input.cartItems)) =
      checkEligibility js coupon (baseTotal input.cartItems) input.now
        (input.remainingDailyBudget - baseTotal input.cartItems) := by
  obtain ⟨-, -, hmin⟩ := h.each.coupons coupon hcoupon
  have hroom : Number.ofInt input.remainingDailyBudget - Number.ofInt (baseTotal input.cartItems) =
      Number.ofInt (input.remainingDailyBudget - baseTotal input.cartItems) :=
    Number.sub_ofInt h.each.remainingDailyBudget h.base
  have hsum : baseTotal input.cartItems + (input.remainingDailyBudget - baseTotal input.cartItems) =
      input.remainingDailyBudget := by omega
  have hgt : (coupon.map Number.ofInt).minOrderValue > Number.ofInt (baseTotal input.cartItems) +
        (Number.ofInt input.remainingDailyBudget - Number.ofInt (baseTotal input.cartItems)) ↔
      coupon.minOrderValue > baseTotal input.cartItems +
        (input.remainingDailyBudget - baseTotal input.cartItems) := by
    rw [hroom, Number.add_ofInt h.base h.room, hsum]
    exact Number.lt_ofInt h.each.remainingDailyBudget hmin
  unfold checkEligibility
  simp only [hgt]
  rfl

/-- **What a coupon comes to**, as the code computes it. -/
theorem considerCoupon_numbers (hbase : 0 ≤ baseTotal input.cartItems)
    (hcoupon : coupon ∈ input.coupons) {items : List OrderedItem} :
    considerCoupon js (items.map (OrderedItem.map Number.ofInt))
        (Number.ofInt (baseTotal input.cartItems)) (Number.ofInt input.remainingDailyBudget) input.now
        (input.sorted.map (FillerCandidate.map Number.ofInt)) (coupon.map Number.ofInt) =
      (input.consider js items coupon).map Number.ofInt := by
  obtain ⟨-, -, hmin⟩ := h.each.coupons coupon hcoupon
  have hshort : Number.ofInt (baseTotal input.cartItems) < (coupon.map Number.ofInt).minOrderValue ↔
      baseTotal input.cartItems < coupon.minOrderValue := Number.lt_ofInt h.base hmin
  have hmost : baseTotal input.cartItems ≤ input.most := le_max_left ..
  unfold OptimizationInput.consider considerCoupon
  rw [h.checkEligibility_numbers hcoupon]
  split
  · rfl
  · unfold optimizeSingleCoupon
    simp only [hshort]
    split_ifs with hT
    · have hgap : (coupon.map Number.ofInt).minOrderValue - Number.ofInt (baseTotal input.cartItems) =
          Number.ofInt (coupon.minOrderValue - baseTotal input.cartItems) := Number.sub_ofInt hmin h.base
      have hbest := bestFillerCombo_numbers
        (hmin.of_le (a := coupon.minOrderValue - baseTotal input.cartItems) (by omega) (by omega))
        (h.pairsSafe hbase)
      obtain ⟨found, hfound, hcombo⟩ : ∃ found, Search.Finds cost
            {fs | Closes (coupon.minOrderValue - baseTotal input.cartItems) (· ∈ input.sorted) fs} found ∧
          bestFillerCombo (coupon.minOrderValue - baseTotal input.cartItems) input.sorted =
            found.map toCombo :=
        finds_bestFillerCombo _ sorted_prepareFillerCandidates pairwise_prepareFillerCandidates
      rw [hgap, hbest, hcombo]
      cases found with
      | none => rfl
      | some fs =>
        obtain ⟨hpos, hle⟩ := amount_of_closes hfound.1
        have hcost : Safe (cost fs) := h.safe_amount hpos (by omega)
        have hsum : Number.ofInt (baseTotal input.cartItems) + Number.ofInt (cost fs) =
            Number.ofInt (baseTotal input.cartItems + cost fs) := Number.add_ofInt h.base hcost
        have hlines : items.map (OrderedItem.map Number.ofInt) ++ (toCombo fs).itemIds.map
              (fun itemId => ({ itemId, quantity := 1 } : OrderedItem Number)) =
            (items ++ (toCombo fs).itemIds.map fun itemId => ({ itemId, quantity := 1 } : OrderedItem)).map
              (OrderedItem.map Number.ofInt) := by
          rw [List.map_append, List.map_map]
          rfl
        simp only [Option.map_some, FillerCombo.map, hlines]
        change judge _ _ _ (_ + Number.ofInt (cost fs)) _ _ = _
        rw [hsum]
        exact h.judge_numbers hcoupon (by omega) hle
    · exact h.judge_numbers hcoupon hbase hmost

end OptimizationInput.Exact

end Coupon

/-! ### What is answered -/

section Answer

variable {js : Runtime} {input : OptimizationInput}

theorem compareContenders_numbers {a b : Contender} (ha : Safe a.total) (hb : Safe b.total) :
    compareContenders js (a.map Number.ofInt) (b.map Number.ofInt) ≤ 0 ↔
      compareContenders js a b ≤ 0 := by
  have hne : ((a.map Number.ofInt).total != (b.map Number.ofInt).total) = (a.total != b.total) :=
    congrArg not (Number.beq_ofInt ha hb)
  have horder : Amount.order (a.map Number.ofInt).total (b.map Number.ofInt).total ≤ 0 ↔
      Amount.order a.total b.total ≤ 0 := by
    rw [order_int, sub_nonpos]
    exact Number.order_ofInt ha hb
  unfold compareContenders
  simp only [hne]
  by_cases hdiffer : (a.total != b.total) = true
  · rw [if_pos hdiffer, if_pos hdiffer]
    exact horder
  · rw [if_neg hdiffer, if_neg hdiffer]
    simp only [Contender.map, List.length_map]
    exact Iff.rfl

theorem selectWinner_numbers {baseline : Contender} {others : List Contender}
    (hsafe : ∀ c ∈ baseline :: others, Safe c.total) :
    selectWinner js (baseline.map Number.ofInt) (others.map (Contender.map Number.ofInt)) =
      (selectWinner js baseline others).map Number.ofInt := by
  have hsort : ((baseline :: others).insertionSort fun a b => compareContenders js a b ≤ 0).map
        (Contender.map Number.ofInt) =
      ((baseline :: others).map (Contender.map Number.ofInt)).insertionSort
        fun a b => compareContenders js a b ≤ 0 :=
    List.map_insertionSort _ _ _ _ fun a ha b hb =>
      (compareContenders_numbers (hsafe a ha) (hsafe b hb)).symm
  unfold selectWinner
  rw [← List.map_cons, ← hsort, List.head?_map]
  cases ((baseline :: others).insertionSort fun a b => compareContenders js a b ≤ 0).head? <;> rfl

namespace OptimizationInput.Exact

variable (h : input.Exact)
include h

/-- What is paid under a coupon is safe. -/
theorem safe_total (hbase : 0 ≤ baseTotal input.cartItems) :
    ∀ c ∈ input.baseline :: input.contenders js input.cartLines, Safe c.total := by
  intro c hc
  rcases List.mem_cons.mp hc with rfl | hc
  · exact h.base
  · obtain ⟨coupon, hcoupon, fs, hoffer⟩ := offer_of_contender hc
    obtain ⟨hpos, hle⟩ := amount_of_plan hoffer.plan
    rw [hoffer.total]
    exact h.left coupon hcoupon _ (by omega) hle

/-- What the coupons come to, as the code computes it. -/
theorem outcomes_numbers (hbase : 0 ≤ baseTotal input.cartItems) :
    input.numbers.coupons.map (considerCoupon js (input.cartLines.map (OrderedItem.map Number.ofInt))
        (Number.ofInt (baseTotal input.cartItems)) input.numbers.remainingDailyBudget input.numbers.now
        (prepareFillerCandidates input.numbers.fillerCandidates
          (input.numbers.remainingDailyBudget - Number.ofInt (baseTotal input.cartItems)))) =
      (input.coupons.map (input.consider js input.cartLines)).map (CouponOutcome.map Number.ofInt) := by
  have hroom : input.numbers.remainingDailyBudget - Number.ofInt (baseTotal input.cartItems) =
      Number.ofInt (input.remainingDailyBudget - baseTotal input.cartItems) :=
    Number.sub_ofInt h.each.remainingDailyBudget h.base
  rw [hroom]
  simp only [numbers, OptimizationInput.map, List.map_map]
  rw [prepareFillerCandidates_numbers h.room h.each.fillerCandidates]
  exact List.map_congr_left fun coupon hcoupon => h.considerCoupon_numbers hbase hcoupon

/-- What the code does with the numbers of an exact input is what the search does with the integers. -/
theorem optimize_numbers_eq (hcart : ∀ item ∈ input.cartItems, CartItemSchema item) :
    optimize js input.numbers =
      buildResult ((input.winner js).map Number.ofInt) (Number.ofInt (baseTotal input.cartItems))
        (Number.ofInt input.remainingDailyBudget)
        ((input.log js).map (DecisionLogEntry.map Number.ofInt)) := by
  have hbase := baseTotal_nonneg hcart
  have htotal : baseTotal input.numbers.cartItems = Number.ofInt (baseTotal input.cartItems) :=
    baseTotal_numbers hcart h.each.cartItems h.base
  have hlines : input.numbers.cartItems.map
        (fun item => ({ itemId := item.itemId, quantity := item.quantity } : OrderedItem Number)) =
      input.cartLines.map (OrderedItem.map Number.ofInt) := by
    simp only [numbers, OptimizationInput.map, cartLines, List.map_map]
    rfl
  have hfree : (input.numbers.cartItems.isEmpty || Number.ofInt (baseTotal input.cartItems) == 0) = true ↔
      input.Free := by
    have hzero : (Number.ofInt (baseTotal input.cartItems) == 0) = (baseTotal input.cartItems == 0) :=
      Number.beq_ofInt h.base (by decide)
    rw [hzero, Bool.or_eq_true, beq_iff_eq]
    simp only [numbers, OptimizationInput.map, List.isEmpty_map]
    rfl
  unfold optimize
  rw [htotal, hlines]
  dsimp only
  by_cases hf : input.Free
  · rw [if_pos (hfree.mpr hf), winner, if_pos hf, log, if_pos hf]
    rfl
  · rw [if_neg (mt hfree.mp hf), winner, if_neg hf, log, if_neg hf]
    rw [h.outcomes_numbers hbase]
    have hcontenders : ((input.coupons.map (input.consider js input.cartLines)).map
          (CouponOutcome.map Number.ofInt)).filterMap (·.contender) =
        (input.contenders js input.cartLines).map (Contender.map Number.ofInt) := by
      rw [contenders, List.filterMap_map, List.map_filterMap]
      rfl
    have hwinner : selectWinner js (input.baseline.map Number.ofInt)
          ((input.contenders js input.cartLines).map (Contender.map Number.ofInt)) =
        (selectWinner js input.baseline (input.contenders js input.cartLines)).map Number.ofInt :=
      selectWinner_numbers (h.safe_total hbase)
    rw [hcontenders, ← hwinner]
    simp only [List.map_map]
    rfl

/-- **Where the numbers are exact** the code answers what the search answers over the integers. -/
theorem optimize_numbers (hcart : ∀ item ∈ input.cartItems, CartItemSchema item)
    {result : OptimizationResult} (hresult : optimize js input = .ok result) :
    optimize js input.numbers = .ok result.numbers := by
  rw [optimize_eq] at hresult
  obtain ⟨hnonneg, rfl⟩ := buildResult_eq_ok hresult
  have hle : (input.winner js).total ≤ baseTotal input.cartItems := winner_le
  have htotal : Safe (input.winner js).total := h.base.of_le hnonneg hle
  have hnot : ¬ Number.ofInt (input.winner js).total < 0 := by
    rw [show (0 : Number) = Number.ofInt 0 from rfl, Number.lt_ofInt htotal (by decide)]
    omega
  have hsaved : Number.ofInt (baseTotal input.cartItems) - Number.ofInt (input.winner js).total =
      Number.ofInt (baseTotal input.cartItems - (input.winner js).total) :=
    Number.sub_ofInt h.base htotal
  have hover : Number.ofInt (input.winner js).total > Number.ofInt input.remainingDailyBudget ↔
      (input.winner js).total > input.remainingDailyBudget :=
    Number.lt_ofInt h.each.remainingDailyBudget htotal
  rw [h.optimize_numbers_eq hcart, buildResult]
  simp only [Contender.map, hnot, if_false, hsaved, hover]
  rfl

end OptimizationInput.Exact

end Answer

/-- Where the coupons are of the schema, the largest amount decides. -/
theorem OptimizationInput.Exact.of_most {input : OptimizationInput} (each : input.Each Safe)
    (base : Safe (baseTotal input.cartItems))
    (room : Safe (input.remainingDailyBudget - baseTotal input.cartItems)) (most : Safe input.most)
    (hcoupons : ∀ coupon ∈ input.coupons, CouponSchema coupon)
    (product : ∀ coupon ∈ input.coupons, coupon.discountType = .percentage →
      Safe (input.most * coupon.discountValue)) : input.Exact := by
  have hproduct : ∀ coupon ∈ input.coupons, coupon.discountType = .percentage →
      ∀ amount, 0 ≤ amount → amount ≤ input.most →
        0 ≤ amount * coupon.discountValue ∧ Safe (amount * coupon.discountValue) := by
    intro coupon hcoupon ht amount hamount hle
    have hvalue := (hcoupons coupon hcoupon).1
    have hpos := Int.mul_nonneg hamount hvalue
    exact ⟨hpos, (product coupon hcoupon ht).of_le hpos (Int.mul_le_mul_of_nonneg_right hle hvalue)⟩
  refine ⟨each, base, room, most,
    fun coupon hcoupon ht amount hamount hle => (hproduct coupon hcoupon ht amount hamount hle).2, ?_⟩
  intro coupon hcoupon amount hamount hle
  have hsafe := safe_iff.mp (most.of_le hamount hle)
  obtain ⟨hvalue, hcap, -⟩ := hcoupons coupon hcoupon
  rw [safe_iff]
  unfold payable discount
  cases ht : coupon.discountType with
  | flat =>
    simp only
    omega
  | percentage =>
    obtain ⟨hpos, hbound⟩ := hproduct coupon hcoupon ht amount hamount hle
    rw [safe_iff] at hbound
    cases hmax : coupon.maxDiscount with
    | none =>
      simp only [floorHundredth_int, Option.getD_none]
      omega
    | some cap =>
      have hcap := hcap cap hmax
      simp only [floorHundredth_int, Option.getD_some]
      omega

/-! ### The least total, and an order for it -/

/-- **The optimiser is optimal.** For a cart of the schema that costs something, and percentages of at
most 100, where the numbers are exact, the code answers, and its total is the least of the price of
the cart and of the totals of all plans that the coupons admit. -/
theorem isLeast_finalTotal (js : Runtime) (input : OptimizationInput)
    (hcart : ∀ item ∈ input.cartItems, CartItemSchema item) (hexact : input.Exact)
    (hB : 0 < baseTotal input.cartItems) (hp : input.Proportionate) :
    ∃ result : OptimizationResult, optimize js input.numbers = .ok result.numbers ∧
      IsLeast (insert (baseTotal input.cartItems) (admittedTotals js input)) result.finalTotal := by
  obtain ⟨result, hresult, hleast⟩ := optimize_isLeast js input hB hp
  exact ⟨result, hexact.optimize_numbers hcart hresult, hleast⟩

theorem exact_freeSide : freeSide.Exact :=
  .of_most ⟨by decide, by decide, by decide, by decide⟩ (by decide) (by decide) (by decide) (by decide)
    (by decide)

theorem isLeast_finalTotal_freeSide :
    ∃ result : OptimizationResult, optimize asciiRuntime freeSide.numbers = .ok result.numbers ∧
      IsLeast (insert (baseTotal freeSide.cartItems) (admittedTotals asciiRuntime freeSide))
        result.finalTotal :=
  isLeast_finalTotal asciiRuntime freeSide (by decide) exact_freeSide (by decide) proportionate_freeSide

/-- **The answer is realisable.** For a cart of the schema and percentages of at most 100, where the
numbers are exact, the code answers, and what it answers can be ordered at the total it says. -/
theorem realisable (js : Runtime) (input : OptimizationInput)
    (hcart : ∀ item ∈ input.cartItems, CartItemSchema item) (hexact : input.Exact)
    (hp : input.Proportionate) :
    ∃ result : OptimizationResult, optimize js input.numbers = .ok result.numbers ∧
      Realisable js input result := by
  obtain ⟨result, hresult⟩ := exists_optimize js (baseTotal_nonneg hcart) hp
  exact ⟨result, hexact.optimize_numbers hcart hresult, realisable_of_optimize hresult⟩

theorem realisable_freeSide :
    ∃ result : OptimizationResult, optimize asciiRuntime freeSide.numbers = .ok result.numbers ∧
      Realisable asciiRuntime freeSide result :=
  realisable asciiRuntime freeSide (by decide) exact_freeSide proportionate_freeSide

/-! ### Elsewhere -/

/-- What the schemas ask of an input, whose numbers are integers that a double can hold. -/
structure OptimizationInput.Schemas (input : OptimizationInput) : Prop where
  each : input.Each IsDouble
  cartItems : ∀ item ∈ input.cartItems, CartItemSchema item
  coupons : ∀ coupon ∈ input.coupons, CouponSchema coupon
  fillerCandidates : ∀ f ∈ input.fillerCandidates, FillerCandidateSchema f

/-- An answer of which the total is known. -/
theorem exists_of_finalTotal {ν : Type} {answer : Except String (OptimizationResult ν)} (total : ν)
    (h : answer.map (·.finalTotal) = .ok total) :
    ∃ result, answer = .ok result ∧ result.finalTotal = total := by
  cases answer with
  | error e => cases h
  | ok result => exact ⟨result, rfl, Except.ok.inj h⟩

/-- A dish of almost 2⁵³ paise, and a coupon for the whole. -/
def dearDish : OptimizationInput where
  cartItems := [{ itemId := "main", price := 9007199254740985, quantity := 1 }]
  coupons :=
    [{ code := "FREE", discountType := .percentage, discountValue := 100, maxDiscount := none,
       minOrderValue := 0, paymentModes := [.cod], isApplicable := none, expiresAt := none }]
  fillerCandidates := []
  remainingDailyBudget := 9007199254740991
  now := 0

theorem schemas_dearDish : dearDish.Schemas :=
  ⟨⟨by decide +kernel, by decide +kernel, by decide +kernel, by decide +kernel⟩, by decide, by decide,
    by decide⟩

/-- A hundred times its price is rounded up, and the discount is one more than the price. -/
theorem optimize_dearDish : optimize asciiRuntime dearDish.numbers =
    .error "HackerAlgorithm invariant violated: finalTotal -1 < 0" := by decide +kernel

theorem proportionate_dearDish : dearDish.Proportionate := by
  unfold OptimizationInput.Proportionate Proportionate
  decide

theorem not_isLeast_finalTotal :
    ¬ ∀ (js : Runtime) (input : OptimizationInput), input.Schemas → 0 < baseTotal input.cartItems →
      input.Proportionate → ∃ result : OptimizationResult,
        optimize js input.numbers = .ok result.numbers ∧
        IsLeast (insert (baseTotal input.cartItems) (admittedTotals js input)) result.finalTotal := by
  intro h
  obtain ⟨result, hresult, -⟩ := h asciiRuntime dearDish schemas_dearDish (by decide)
    proportionate_dearDish
  rw [optimize_dearDish] at hresult
  cases hresult

/-- A cart of 1 paisa, and a coupon whose threshold is one paisa above the cart with its filler. -/
def nearThreshold : OptimizationInput where
  cartItems := [{ itemId := "main", price := 1, quantity := 1 }]
  coupons :=
    [{ code := "FLAT", discountType := .flat, discountValue := 9007199254740992, maxDiscount := none,
       minOrderValue := 9007199254740994, paymentModes := [.cod], isApplicable := none,
       expiresAt := none }]
  fillerCandidates := [{ itemId := "side", price := 9007199254740992, inStock := true }]
  remainingDailyBudget := 9007199254741000
  now := 0

theorem schemas_nearThreshold : nearThreshold.Schemas :=
  ⟨⟨by decide +kernel, by decide +kernel, by decide +kernel, by decide +kernel⟩, by decide, by decide,
    by decide⟩

/-- The gap is rounded down, so that the filler closes it. -/
theorem optimize_nearThreshold : optimize asciiRuntime nearThreshold.numbers = .ok
    (OptimizationResult.numbers
      { finalItems := [⟨"main", 1⟩, ⟨"side", 1⟩], appliedCouponCode := some "FLAT", baseTotal := 1,
        finalTotal := 0, savingsAchieved := 1, overBudget := false,
        decisionLog := [⟨"FLAT", .accepted, "accepted", some 0⟩] }) := by decide +kernel

theorem not_realisable :
    ¬ ∀ (js : Runtime) (input : OptimizationInput), input.Schemas → input.Proportionate →
      ∀ result : OptimizationResult, optimize js input.numbers = .ok result.numbers →
        Realisable js input result := by
  intro h
  have hp : nearThreshold.Proportionate := by
    unfold OptimizationInput.Proportionate Proportionate
    decide
  have hreal := h asciiRuntime nearThreshold schemas_nearThreshold hp _ optimize_nearThreshold
  obtain ⟨coupon, hcoupon, -, fs, happlies⟩ := hreal.coupon "FLAT" rfl
  have hT : coupon.minOrderValue = 9007199254740994 := by
    rw [List.mem_singleton.mp hcoupon]
  -- the filler that is ordered is the one of the menu
  have hone : ∀ f ∈ fs, f.price = 9007199254740992 := fun f hf => by
    rw [List.mem_singleton.mp (happlies.fillers.stocked f hf).1]
  have hlength : fs.length = 1 := by
    have := congrArg List.length happlies.items
    simpa [OptimizationInput.cartLines, nearThreshold] using this
  obtain ⟨f, rfl⟩ := List.length_eq_one_iff.mp hlength
  have hbase : baseTotal nearThreshold.cartItems = 1 := by decide
  have hthreshold := happlies.threshold
  rw [hT, hbase] at hthreshold
  simp [cost, hone f (List.mem_singleton_self f)] at hthreshold

end Hacker

end Gusto
