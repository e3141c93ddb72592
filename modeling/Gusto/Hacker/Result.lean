import Gusto.Hacker.Optimal
import Mathlib.Algebra.Order.BigOperators.Group.List

/-!
# What the optimiser answers

* `OptimizationInput.winner`: the contender that is answered; `won`: it is the cart as it is, or what some
  coupon of the input offers with fillers of the pool;
* `affordable_iff`: it is within the budget exactly where the cart is, as it is or under one coupon;
* `realisable_of_optimize`: what can be read off the answer can be ordered.
-/

set_option autoImplicit false

namespace Gusto.Hacker

open HackerAlgorithm

/-! ### The winner -/

namespace OptimizationInput

/-- The lines of the cart, as they are ordered. -/
def cartLines (input : OptimizationInput) : List OrderedItem :=
  input.cartItems.map fun item => { itemId := item.itemId, quantity := item.quantity }

/-- The cart as it is. -/
def baseline (input : OptimizationInput) : Contender where
  couponCode := none
  items := input.cartLines
  total := baseTotal input.cartItems
  fillersAdded := []

/-- The cart is empty or costs nothing. -/
def Free (input : OptimizationInput) : Prop :=
  input.cartItems.isEmpty ∨ baseTotal input.cartItems = 0

instance : DecidablePred Free := fun _ => inferInstanceAs (Decidable (_ ∨ _))

def winner (js : Runtime) (input : OptimizationInput) : Contender :=
  if input.Free then input.baseline
  else selectWinner js input.baseline (input.contenders js input.cartLines)

def log (js : Runtime) (input : OptimizationInput) : List DecisionLogEntry :=
  if input.Free then []
  else (input.coupons.map (input.consider js input.cartLines)).map (·.logEntry)

end OptimizationInput

theorem optimize_eq (js : Runtime) (input : OptimizationInput) :
    optimize js input = buildResult (input.winner js) (baseTotal input.cartItems)
      input.remainingDailyBudget (input.log js) := by
  have hfree : (input.cartItems.isEmpty || baseTotal input.cartItems == 0) = true ↔ input.Free := by
    rw [Bool.or_eq_true, beq_iff_eq]
    rfl
  unfold optimize OptimizationInput.winner OptimizationInput.log
  dsimp only
  by_cases h : input.Free
  · rw [if_pos (hfree.mpr h), if_pos h, if_pos h]
    rfl
  · rw [if_neg (mt hfree.mp h), if_neg h, if_neg h]
    rfl

/-- What a coupon offers with the fillers `fs`: what is paid under it is below the cart's price and
within the budget, and no other fillers reach its threshold at a lower cost. -/
structure Offer (js : Runtime) (input : OptimizationInput) (coupon : Coupon)
    (fs : List FillerCandidate) (c : Contender) : Prop where
  usable : Usable js input.remainingDailyBudget input.now coupon
  plan : Plan (baseTotal input.cartItems) coupon.minOrderValue input.Pool fs
  least : ∀ fs', Plan (baseTotal input.cartItems) coupon.minOrderValue input.Pool fs' →
    cost fs ≤ cost fs'
  code : c.couponCode = some coupon.code
  items : c.items = input.cartLines ++ fs.map fun f => { itemId := f.itemId, quantity := 1 }
  total : c.total = payable coupon (baseTotal input.cartItems + cost fs)
  below : c.total < baseTotal input.cartItems
  within : c.total ≤ input.remainingDailyBudget

/-- The contender that is answered. -/
inductive Won (js : Runtime) (input : OptimizationInput) (c : Contender) : Prop
  | baseline (h : c = input.baseline)
  | offer {coupon : Coupon} {fs : List FillerCandidate} (hcoupon : coupon ∈ input.coupons)
      (h : Offer js input coupon fs c)

section Winner

variable {js : Runtime} {input : OptimizationInput} {c : Contender}

/-- What a coupon that is judged offers, if it offers anything. -/
theorem judge_contender {coupon : Coupon} {items : List OrderedItem} {fillersAdded : List String}
    {amount base budget : ℤ} :
    (judge coupon items fillersAdded amount base budget).contender = some c ↔
      (payable coupon amount < base ∧ payable coupon amount ≤ budget) ∧
        c = { couponCode := some coupon.code, items, total := payable coupon amount, fillersAdded } := by
  unfold judge payable
  dsimp only
  by_cases h1 : amount - discount amount coupon ≥ base
  · rw [if_pos h1]
    simp only [rejected, reduceCtorEq, false_iff]
    omega
  · by_cases h2 : amount - discount amount coupon > budget
    · rw [if_neg h1, if_pos h2]
      simp only [rejected, reduceCtorEq, false_iff]
      omega
    · rw [if_neg h1, if_neg h2]
      simp only [Option.some.injEq]
      constructor
      · intro h
        exact ⟨by omega, h.symm⟩
      · rintro ⟨-, h⟩
        exact h.symm

/-- A coupon that is judged is a contender where less than the base is paid, and within the budget. -/
theorem exists_contender_judge {coupon : Coupon} (items : List OrderedItem) (fillersAdded : List String)
    {amount base budget : ℤ} (hbelow : payable coupon amount < base) (hwithin : payable coupon amount ≤ budget) :
    ∃ c, (judge coupon items fillersAdded amount base budget).contender = some c ∧
      c.total = payable coupon amount :=
  ⟨_, judge_contender.mpr ⟨⟨hbelow, hwithin⟩, rfl⟩, rfl⟩

/-- The winner is the cart with its fillers, one of each. -/
theorem winner_items : (input.winner js).items = input.cartLines ++
    (input.winner js).fillersAdded.map fun itemId => { itemId, quantity := 1 } := by
  have hbaseline : input.baseline.items = input.cartLines ++
      input.baseline.fillersAdded.map fun itemId => { itemId, quantity := 1 } := by
    simp [OptimizationInput.baseline]
  unfold OptimizationInput.winner
  split
  · exact hbaseline
  · obtain ⟨hmem, -⟩ := selectWinner_spec js input.baseline (input.contenders js input.cartLines)
    generalize selectWinner js input.baseline (input.contenders js input.cartLines) = c at hmem ⊢
    rcases List.mem_cons.mp hmem with rfl | h
    · exact hbaseline
    · obtain ⟨outcome, hout, hcont⟩ := List.mem_filterMap.mp h
      obtain ⟨coupon, -, rfl⟩ := List.mem_map.mp hout
      rcases considered_consider js input input.cartLines coupon with
        ⟨reason, -, he⟩ | ⟨reason, -, he⟩ | ⟨fs, -, -, -, he⟩
      · rw [he] at hcont
        cases hcont
      · rw [he] at hcont
        cases hcont
      · rw [he, judge_contender] at hcont
        obtain ⟨-, rfl⟩ := hcont
        simp

theorem offer_of_contender (h : c ∈ input.contenders js input.cartLines) :
    ∃ coupon ∈ input.coupons, ∃ fs, Offer js input coupon fs c := by
  obtain ⟨outcome, hout, hcont⟩ := List.mem_filterMap.mp h
  obtain ⟨coupon, hcoupon, rfl⟩ := List.mem_map.mp hout
  refine ⟨coupon, hcoupon, ?_⟩
  rcases considered_consider js input input.cartLines coupon with
    ⟨reason, -, he⟩ | ⟨reason, -, he⟩ | ⟨fs, husable, hfs, hleast, he⟩
  · rw [he] at hcont
    cases hcont
  · rw [he] at hcont
    cases hcont
  · rw [he, judge_contender] at hcont
    obtain ⟨⟨hbelow, hwithin⟩, rfl⟩ := hcont
    exact ⟨fs, husable, hfs, hleast, rfl, rfl, rfl, hbelow, hwithin⟩

/-- **The winner** is the cart as it is, or what a coupon of the input offers. -/
theorem won (js : Runtime) (input : OptimizationInput) : Won js input (input.winner js) := by
  unfold OptimizationInput.winner
  split
  · exact .baseline rfl
  · obtain ⟨hmem, -⟩ := selectWinner_spec js input.baseline (input.contenders js input.cartLines)
    rcases List.mem_cons.mp hmem with h | h
    · exact .baseline h
    · obtain ⟨coupon, hcoupon, fs, hoffer⟩ := offer_of_contender h
      exact .offer hcoupon hoffer

theorem winner_le : (input.winner js).total ≤ baseTotal input.cartItems := by
  cases won js input with
  | baseline h => rw [h]; exact le_rfl
  | offer _ h => exact h.below.le

/-- No contender is cheaper than the winner. -/
theorem winner_total_le (hfree : ¬ input.Free) (hc : c ∈ input.contenders js input.cartLines) :
    (input.winner js).total ≤ c.total := by
  obtain ⟨-, hleast⟩ := selectWinner_spec js input.baseline (input.contenders js input.cartLines)
  rw [OptimizationInput.winner, if_neg hfree]
  exact total_le_of_compare (hleast c (List.mem_cons_of_mem _ hc))

/-- The cart is within the budget, as it is or under a coupon that may be used. -/
def OptimizationInput.Affordable (js : Runtime) (input : OptimizationInput) : Prop :=
  baseTotal input.cartItems ≤ input.remainingDailyBudget ∨
    ∃ coupon ∈ input.coupons, Usable js input.remainingDailyBudget input.now coupon ∧
      payable coupon (baseTotal input.cartItems) ≤ input.remainingDailyBudget

section Over

variable (hover : input.remainingDailyBudget < baseTotal input.cartItems)
include hover

/-- Above the budget no fillers are added: the threshold of a usable coupon is reached without. -/
theorem bare_of_over {coupon : Coupon} {fs : List FillerCandidate}
    (husable : Usable js input.remainingDailyBudget input.now coupon)
    (hplan : Plan (baseTotal input.cartItems) coupon.minOrderValue input.Pool fs) : fs = [] := by
  cases hplan with
  | bare _ => rfl
  | filled hlt _ => exact absurd (hlt.trans_le husable.threshold) (not_lt.mpr hover.le)

/-- A usable coupon that brings the cart within the budget is a contender. -/
theorem contender_of_usable {coupon : Coupon} (hcoupon : coupon ∈ input.coupons)
    (husable : Usable js input.remainingDailyBudget input.now coupon)
    (hpay : payable coupon (baseTotal input.cartItems) ≤ input.remainingDailyBudget) :
    ∃ c ∈ input.contenders js input.cartLines,
      c.total = payable coupon (baseTotal input.cartItems) := by
  rcases considered_consider js input input.cartLines coupon with
    ⟨-, h, -⟩ | ⟨-, h, -⟩ | ⟨fs, -, hplan, -, hout⟩
  · exact absurd husable h
  · exact absurd (.bare (husable.threshold.trans hover.le)) (h [])
  · obtain rfl := bare_of_over hover husable hplan
    simp only [cost, List.map_nil, List.sum_nil, add_zero] at hout
    obtain ⟨c, hcont, htotal⟩ := exists_contender_judge _ _ (hpay.trans_lt hover) hpay
    exact ⟨c, List.mem_filterMap.mpr ⟨_, List.mem_map_of_mem hcoupon, hout ▸ hcont⟩, htotal⟩

theorem not_free_of_over (hbudget : 0 ≤ input.remainingDailyBudget) : ¬ input.Free := by
  have hbase : 0 < baseTotal input.cartItems := hbudget.trans_lt hover
  rintro (hempty | hzero)
  · rw [List.isEmpty_iff.mp hempty] at hbase
    exact absurd hbase (lt_irrefl 0)
  · omega

end Over

/-- **The winner is within the budget** exactly where the cart is affordable. -/
theorem affordable_iff (hbudget : 0 ≤ input.remainingDailyBudget) :
    input.Affordable js ↔ (input.winner js).total ≤ input.remainingDailyBudget := by
  by_cases hover : baseTotal input.cartItems ≤ input.remainingDailyBudget
  · exact iff_of_true (.inl hover) (winner_le.trans hover)
  have hover := not_le.mp hover
  constructor
  · rintro (hbase | ⟨coupon, hcoupon, husable, hpay⟩)
    · exact winner_le.trans hbase
    · obtain ⟨c, hc, htotal⟩ := contender_of_usable hover hcoupon husable hpay
      exact (winner_total_le (not_free_of_over hover hbudget) hc).trans (htotal.trans_le hpay)
  · intro hwinner
    cases won js input with
    | baseline h =>
      rw [h] at hwinner
      exact .inl hwinner
    | @offer coupon fs hcoupon h =>
      refine .inr ⟨coupon, hcoupon, h.usable, ?_⟩
      have htotal := h.total
      obtain rfl := bare_of_over hover h.usable h.plan
      simp only [cost, List.map_nil, List.sum_nil, add_zero] at htotal
      exact htotal.symm.trans_le hwinner

theorem buildResult_eq_ok {winner : Contender} {base budget : ℤ} {log : List DecisionLogEntry}
    {result : OptimizationResult} (h : buildResult winner base budget log = .ok result) :
    0 ≤ winner.total ∧ result =
      { finalItems := winner.items, appliedCouponCode := winner.couponCode, baseTotal := base,
        finalTotal := winner.total, savingsAchieved := base - winner.total,
        overBudget := winner.total > budget, decisionLog := log } := by
  unfold buildResult at h
  split at h
  · cases h
  · injection h with h
    exact ⟨by omega, h.symm⟩

end Winner

/-! ### The answer can be ordered -/

/-- The fillers of an order: at most two, of different ids, in stock and with a price. -/
structure Fillers (input : OptimizationInput) (fs : List FillerCandidate) : Prop where
  two : fs.length ≤ 2
  ids : (fs.map (·.itemId)).Nodup
  stocked : ∀ f ∈ fs, f ∈ input.fillerCandidates ∧ f.inStock ∧ 0 < f.price

/-- A coupon that is applied: it may be used on the cart with the fillers `fs`, which is what is
ordered, and what is paid is the amount less its discount. -/
structure Applies (js : Runtime) (input : OptimizationInput) (result : OptimizationResult)
    (coupon : Coupon) (fs : List FillerCandidate) : Prop where
  applicable : coupon.isApplicable ≠ some false
  unexpired : expired js coupon input.now = false
  mode : .online ∈ coupon.paymentModes ∨ .cod ∈ coupon.paymentModes
  fillers : Fillers input fs
  threshold : coupon.minOrderValue ≤ baseTotal input.cartItems + cost fs
  items : result.finalItems =
    input.cartLines ++ fs.map fun f => { itemId := f.itemId, quantity := 1 }
  total : result.finalTotal = baseTotal input.cartItems + cost fs -
    discount (baseTotal input.cartItems + cost fs) coupon
  below : result.finalTotal < baseTotal input.cartItems
  within : result.finalTotal ≤ input.remainingDailyBudget

structure Realisable (js : Runtime) (input : OptimizationInput) (result : OptimizationResult) :
    Prop where
  coupon : ∀ code, result.appliedCouponCode = some code →
    ∃ coupon ∈ input.coupons, coupon.code = code ∧ ∃ fs, Applies js input result coupon fs
  plain : result.appliedCouponCode = none →
    result.finalItems = input.cartLines ∧ result.finalTotal = baseTotal input.cartItems
  overBudget : result.overBudget ↔ input.remainingDailyBudget < result.finalTotal
  overPlain : result.overBudget → result.appliedCouponCode = none

section Realisable

variable {js : Runtime} {input : OptimizationInput}

theorem mem_of_inPool {room : ℤ} {f : FillerCandidate}
    (h : InPool input.fillerCandidates room f) :
    f ∈ input.fillerCandidates ∧ f.inStock ∧ 0 < f.price :=
  ⟨List.mem_of_find?_eq_some h.1, h.2.1, h.2.2.1⟩

/-- The first of an id is one. -/
theorem itemId_ne_of_inPool {room : ℤ} {f g : FillerCandidate}
    (hf : InPool input.fillerCandidates room f) (hg : InPool input.fillerCandidates room g)
    (hne : f ≠ g) : f.itemId ≠ g.itemId := by
  intro hid
  have h := hf.1
  rw [hid, hg.1] at h
  exact hne (Option.some.inj h).symm

/-- The fillers of a plan are fillers, and reach its threshold. -/
theorem fillers_of_plan {base threshold : ℤ} {fs : List FillerCandidate}
    (h : Plan base threshold input.Pool fs) : Fillers input fs ∧ threshold ≤ base + cost fs := by
  cases h with
  | bare h => exact ⟨⟨by simp, by simp, by simp⟩, by simpa [cost] using h⟩
  | filled _ hfs =>
    cases hfs with
    | @single f hf hgap =>
      refine ⟨⟨by simp, by simp, ?_⟩, by simp [cost]; omega⟩
      simpa using mem_of_inPool hf
    | @pair f g _ hf hg hne hgap =>
      refine ⟨⟨by simp, by simpa using itemId_ne_of_inPool hf hg hne, ?_⟩, by simp [cost]; omega⟩
      simpa using ⟨mem_of_inPool hf, mem_of_inPool hg⟩

theorem applies_of_offer {coupon : Coupon} {fs : List FillerCandidate} {c : Contender}
    {result : OptimizationResult} (h : Offer js input coupon fs c)
    (hitems : result.finalItems = c.items) (htotal : result.finalTotal = c.total) :
    Applies js input result coupon fs where
  applicable := h.usable.applicable
  unexpired := h.usable.unexpired
  mode := h.usable.mode
  fillers := (fillers_of_plan h.plan).1
  threshold := (fillers_of_plan h.plan).2
  items := hitems.trans h.items
  total := htotal.trans h.total
  below := htotal ▸ h.below
  within := htotal ▸ h.within

/-- What is answered can be ordered, whatever the coupons are. -/
theorem realisable_of_optimize {result : OptimizationResult}
    (h : optimize js input = .ok result) : Realisable js input result := by
  rw [optimize_eq] at h
  obtain ⟨-, rfl⟩ := buildResult_eq_ok h
  cases won js input with
  | baseline hw =>
    have hcode : (input.winner js).couponCode = none := by rw [hw]; rfl
    exact ⟨fun code hc => by simp [hcode] at hc, fun _ => by simp [hw, OptimizationInput.baseline],
      by simp, fun _ => hcode⟩
  | @offer coupon fs hcoupon hoffer =>
    refine ⟨fun code hc => ⟨coupon, hcoupon, ?_, fs, applies_of_offer hoffer rfl rfl⟩,
      fun hnone => ?_, by simp, fun hover => ?_⟩
    · have := hoffer.code
      simp_all
    · have := hoffer.code
      simp_all
    · have := hoffer.within
      simp only [decide_eq_true_eq] at hover
      omega

theorem baseTotal_nonneg {items : List CartItem} (h : ∀ item ∈ items, CartItemSchema item) :
    0 ≤ baseTotal items := by
  rw [baseTotal_eq_sum]
  refine List.sum_nonneg fun _ hx => ?_
  obtain ⟨item, hitem, rfl⟩ := List.mem_map.mp hx
  exact Int.mul_nonneg (h item hitem).1 (h item hitem).2.le

/-- A winner that is not negative is answered. -/
theorem optimize_of_nonneg (h : 0 ≤ (input.winner js).total) :
    ∃ result, optimize js input = .ok result := by
  rw [optimize_eq]
  exact ⟨_, if_neg (not_lt.mpr h)⟩

/-- Under a coupon with a percentage of at most 100 nothing negative is paid. -/
theorem Offer.nonneg {coupon : Coupon} {fs : List FillerCandidate} {c : Contender}
    (h : Offer js input coupon fs c) (hp : Proportionate coupon)
    (hbase : 0 ≤ baseTotal input.cartItems) : 0 ≤ c.total := by
  rw [h.total]
  refine payable_nonneg hp ?_
  have hcost : 0 ≤ cost fs := List.sum_nonneg fun _ hx => by
    obtain ⟨f, hf, rfl⟩ := List.mem_map.mp hx
    exact ((fillers_of_plan h.plan).1.stocked f hf).2.2.le
  omega

variable (js) in
/-- Where no percentage is over 100, a cart is answered. -/
theorem exists_optimize (hbase : 0 ≤ baseTotal input.cartItems) (hp : input.Proportionate) :
    ∃ result, optimize js input = .ok result := by
  refine optimize_of_nonneg ?_
  cases won js input with
  | baseline h => rw [h]; exact hbase
  | offer hcoupon h => exact h.nonneg (hp _ hcoupon) hbase

/-- What is answered has the least of B and of the totals admitted. -/
theorem isLeast_of_optimize (hfree : ¬ input.Free) (hp : input.Proportionate)
    {result : OptimizationResult} (h : optimize js input = .ok result) :
    IsLeast (insert (baseTotal input.cartItems) (admittedTotals js input)) result.finalTotal := by
  rw [optimize_eq] at h
  obtain ⟨-, rfl⟩ := buildResult_eq_ok h
  have hwinner := isLeast_winner js input.cartLines input.baseline hp rfl
  rwa [OptimizationInput.winner, if_neg hfree]

end Realisable

end Gusto.Hacker
