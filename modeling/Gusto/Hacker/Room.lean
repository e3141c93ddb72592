import Gusto.Hacker.Exact

/-!
# More room

A larger budget, or one more filler, against the same cart and the same coupons:

* `MoreRoom`: the second input differs from the first so; its pool is the larger one;
* `Displaces`: one filler closes the gap of a coupon now, and costs more than two that closed it;
* `finalTotal_moreRoom`: where this happens to no coupon, and the numbers are exact, the total does not
  rise.
-/

set_option autoImplicit false

namespace Gusto.Hacker

open Binary64 HackerAlgorithm

/-- The second input is the first one with a larger budget, or with a filler of a new id. -/
inductive MoreRoom (input : OptimizationInput) : OptimizationInput → Prop
  | budget {remainingDailyBudget : ℤ} (h : input.remainingDailyBudget ≤ remainingDailyBudget) :
    MoreRoom input { input with remainingDailyBudget }
  | filler {before after : List FillerCandidate} {f : FillerCandidate}
      (hsplit : input.fillerCandidates = before ++ after)
      (hnew : f.itemId ∉ input.fillerCandidates.map (·.itemId)) :
    MoreRoom input { input with fillerCandidates := before ++ f :: after }

/-- The gap of the coupon was closed by two fillers.  Now it is closed by one, and each that closes it
costs more than those two. -/
def Displaces (input input' : OptimizationInput) (coupon : Coupon) : Prop :=
  ∃ f g, Plan (baseTotal input.cartItems) coupon.minOrderValue input.Pool [f, g] ∧
    (∃ s, Plan (baseTotal input.cartItems) coupon.minOrderValue input'.Pool [s]) ∧
    ∀ s, Plan (baseTotal input.cartItems) coupon.minOrderValue input'.Pool [s] →
      cost [f, g] < cost [s]

section Room

variable {js : Runtime} {input input' : OptimizationInput} {coupon : Coupon}

namespace MoreRoom

variable (h : MoreRoom input input')
include h

theorem cartItems : input'.cartItems = input.cartItems := by cases h <;> rfl
theorem coupons : input'.coupons = input.coupons := by cases h <;> rfl
theorem now : input'.now = input.now := by cases h <;> rfl

theorem remainingDailyBudget : input.remainingDailyBudget ≤ input'.remainingDailyBudget := by
  cases h with
  | budget h => exact h
  | filler _ _ => exact le_rfl

/-- What could be added before can be added now. -/
theorem pool {f : FillerCandidate} (hf : input.Pool f) : input'.Pool f := by
  obtain ⟨hfind, hstock, hpos, hroom⟩ := hf
  cases h with
  | budget h => exact ⟨hfind, hstock, hpos, hroom.trans (sub_le_sub_right h _)⟩
  | @filler before after new hsplit hnew =>
    refine ⟨?_, hstock, hpos, hroom⟩
    have hne : ¬ new.itemId = f.itemId := by
      intro he
      exact hnew (he ▸ List.mem_map_of_mem (List.mem_of_find?_eq_some hfind))
    rw [hsplit, List.find?_append] at hfind
    simp only [List.find?_append, List.find?_cons, hne, decide_false]
    exact hfind

theorem usable (hu : Usable js input.remainingDailyBudget input.now coupon) :
    Usable js input'.remainingDailyBudget input'.now coupon where
  applicable := hu.applicable
  unexpired := h.now ▸ hu.unexpired
  mode := hu.mode
  threshold := hu.threshold.trans h.remainingDailyBudget

/-- Unless two fillers are displaced, what reached the threshold is matched at no more. -/
theorem plan (hd : ¬ Displaces input input' coupon) {fs : List FillerCandidate}
    (hfs : Plan (baseTotal input.cartItems) coupon.minOrderValue input.Pool fs) :
    ∃ fs', Plan (baseTotal input.cartItems) coupon.minOrderValue input'.Pool fs' ∧
      cost fs' ≤ cost fs := by
  cases hfs with
  | bare hle => exact ⟨[], .bare hle, le_rfl⟩
  | filled hlt hcloses =>
    cases hcloses with
    | single hf hgap => exact ⟨_, .filled hlt (.single (h.pool hf) hgap), le_rfl⟩
    | @pair f g hnone hf hg hne hgap =>
      by_cases hs : ∃ s, Plan (baseTotal input.cartItems) coupon.minOrderValue input'.Pool [s]
      · by_contra hno
        refine hd ⟨f, g, .filled hlt (.pair hnone hf hg hne hgap), hs, fun s hplan => ?_⟩
        by_contra hle
        exact hno ⟨[s], hplan, not_lt.mp hle⟩
      · have hnone' : ∀ s, input'.Pool s → s.price < coupon.minOrderValue - baseTotal input.cartItems :=
          fun s hpool => not_le.mp fun hgap => hs ⟨s, .filled hlt (.single hpool hgap)⟩
        exact ⟨_, .filled hlt (.pair hnone' (h.pool hf) (h.pool hg) hne hgap), le_rfl⟩

/-- A total that a coupon admitted is matched by one that it admits now. -/
theorem couponTotals (hp : Proportionate coupon)
    (hd : Usable js input.remainingDailyBudget input.now coupon → ¬ Displaces input input' coupon)
    {total : ℤ} (ht : total ∈ couponTotals js (baseTotal input.cartItems)
      input.remainingDailyBudget input.now input.Pool coupon) :
    ∃ total' ∈ Gusto.Hacker.couponTotals js (baseTotal input'.cartItems)
      input'.remainingDailyBudget input'.now input'.Pool coupon, total' ≤ total := by
  obtain ⟨husable, fs, hfs, rfl, hbelow, hwithin⟩ := ht
  obtain ⟨fs', hfs', hcost⟩ := h.plan (hd husable) hfs
  have hle : payable coupon (baseTotal input.cartItems + cost fs') ≤
      payable coupon (baseTotal input.cartItems + cost fs) := payable_mono hp (by omega)
  have hroom := h.remainingDailyBudget
  rw [h.cartItems]
  exact ⟨_, ⟨h.usable husable, fs', hfs', rfl, by omega, by omega⟩, hle⟩

end MoreRoom

end Room

/-- A cart that costs nothing is answered as it is. -/
theorem optimize_of_free (js : Runtime) {input : OptimizationInput} (h : input.Free)
    (hbase : 0 ≤ baseTotal input.cartItems) :
    ∃ result, optimize js input = .ok result ∧ result.finalTotal = baseTotal input.cartItems := by
  have hwin : input.winner js = input.baseline := if_pos h
  rw [optimize_eq, hwin]
  exact ⟨_, if_neg (not_lt.mpr hbase), rfl⟩

/-- Over the integers, more room does not raise the total where no two fillers are displaced. -/
theorem optimize_moreRoom (js : Runtime) {input input' : OptimizationInput}
    (h : MoreRoom input input') (hcart : ∀ item ∈ input.cartItems, CartItemSchema item)
    (hp : input.Proportionate)
    (hd : ∀ coupon ∈ input.coupons, Usable js input.remainingDailyBudget input.now coupon →
      ¬ Displaces input input' coupon) :
    ∃ result result', optimize js input = .ok result ∧ optimize js input' = .ok result' ∧
      result'.finalTotal ≤ result.finalTotal := by
  have hbase := baseTotal_nonneg hcart
  have hp' : input'.Proportionate := fun coupon hc => hp coupon (h.coupons ▸ hc)
  by_cases hfree : input.Free
  · have hfree' : input'.Free := by
      unfold OptimizationInput.Free
      rwa [h.cartItems]
    obtain ⟨result, hresult, htotal⟩ := optimize_of_free js hfree hbase
    obtain ⟨result', hresult', htotal'⟩ := optimize_of_free js hfree' (h.cartItems ▸ hbase)
    exact ⟨result, result', hresult, hresult', by rw [htotal, htotal', h.cartItems]⟩
  · have hfree' : ¬ input'.Free := by
      unfold OptimizationInput.Free
      rwa [h.cartItems]
    obtain ⟨result, hresult⟩ := exists_optimize js hbase hp
    obtain ⟨result', hresult'⟩ := exists_optimize js (h.cartItems ▸ hbase) hp'
    obtain ⟨hmem, -⟩ := isLeast_of_optimize hfree hp hresult
    obtain ⟨-, hleast⟩ := isLeast_of_optimize hfree' hp' hresult'
    refine ⟨result, result', hresult, hresult', ?_⟩
    rcases hmem with hmem | ⟨coupon, hcoupon, htotal⟩
    · rw [hmem, ← h.cartItems]
      exact hleast (Set.mem_insert ..)
    · obtain ⟨total', htotal', hle⟩ := h.couponTotals (hp coupon hcoupon) (hd coupon hcoupon) htotal
      exact (hleast (Set.mem_insert_of_mem _ ⟨coupon, h.coupons ▸ hcoupon, htotal'⟩)).trans hle

/-- **More room.** For a cart of the schema and percentages of at most 100, where the numbers are exact
before and after, a larger budget or one more filler does not raise the total, unless for some coupon
that may be used one filler displaces two that cost less. -/
theorem finalTotal_moreRoom (js : Runtime) (input input' : OptimizationInput)
    (h : MoreRoom input input') (hcart : ∀ item ∈ input.cartItems, CartItemSchema item)
    (hexact : input.Exact) (hexact' : input'.Exact) (hp : input.Proportionate)
    (hd : ∀ coupon ∈ input.coupons, Usable js input.remainingDailyBudget input.now coupon →
      ¬ Displaces input input' coupon) :
    ∃ result result' : OptimizationResult, optimize js input.numbers = .ok result.numbers ∧
      optimize js input'.numbers = .ok result'.numbers ∧ result'.finalTotal ≤ result.finalTotal := by
  obtain ⟨result, result', hresult, hresult', hle⟩ := optimize_moreRoom js h hcart hp hd
  exact ⟨result, result', hexact.optimize_numbers hcart hresult,
    hexact'.optimize_numbers (h.cartItems.symm ▸ hcart) hresult', hle⟩

/-- A free side stays free with a larger budget. -/
theorem finalTotal_moreRoom_freeSide :
    ∃ result result' : OptimizationResult,
      optimize asciiRuntime freeSide.numbers = .ok result.numbers ∧
      optimize asciiRuntime
          ({ freeSide with remainingDailyBudget := 400 } : OptimizationInput).numbers =
        .ok result'.numbers ∧
      result'.finalTotal ≤ result.finalTotal := by
  refine finalTotal_moreRoom asciiRuntime freeSide _ (.budget (by decide)) (by decide) exact_freeSide
    (.of_most ⟨by decide, by decide, by decide, by decide⟩ (by decide) (by decide) (by decide)
      (by decide) (by decide))
    proportionate_freeSide fun coupon _ _ hd => ?_
  -- there is one filler, so no two were displaced
  obtain ⟨f, g, hplan, -⟩ := hd
  cases hplan with
  | filled _ hcloses =>
    cases hcloses with
    | pair _ hf hg hne _ =>
      have hf := List.mem_of_find?_eq_some hf.1
      have hg := List.mem_of_find?_eq_some hg.1
      rw [freeSide, List.mem_singleton] at hf hg
      exact hne (hf.trans hg.symm)

/-- 100 paise, a coupon of 50 paise from 120 paise on, fillers of 12 and 10 paise, and one of 51 that
a budget of 150 paise leaves no room for. -/
def dearSide : OptimizationInput where
  cartItems := [{ itemId := "main", price := 100, quantity := 1 }]
  coupons :=
    [{ code := "FLAT50", discountType := .flat, discountValue := 50, maxDiscount := none,
       minOrderValue := 120, paymentModes := [.cod], isApplicable := none, expiresAt := none }]
  fillerCandidates :=
    [{ itemId := "dip", price := 12, inStock := true },
     { itemId := "bread", price := 10, inStock := true },
     { itemId := "dessert", price := 51, inStock := true }]
  remainingDailyBudget := 150
  now := 0

/-- The same with one paisa more to spend. -/
def dearerSide : OptimizationInput := { dearSide with remainingDailyBudget := 151 }

theorem schemas_dearSide : dearSide.Schemas :=
  ⟨⟨by decide +kernel, by decide +kernel, by decide +kernel, by decide +kernel⟩, by decide, by decide,
    by decide⟩

/-- One paisa more to spend raises the total from 72 paise to 100. -/
theorem not_finalTotal_moreRoom :
    ¬ ∀ (js : Runtime) (input input' : OptimizationInput), MoreRoom input input' → input.Schemas →
      input.Proportionate → ∀ result result' : OptimizationResult Number,
        optimize js input.numbers = .ok result → optimize js input'.numbers = .ok result' →
        result'.finalTotal ≤ result.finalTotal := by
  intro h
  have hp : dearSide.Proportionate := by
    unfold OptimizationInput.Proportionate Proportionate
    decide
  obtain ⟨result, hresult, htotal⟩ := exists_of_finalTotal 72
    (show (optimize asciiRuntime dearSide.numbers).map (·.finalTotal) = _ by decide +kernel)
  obtain ⟨result', hresult', htotal'⟩ := exists_of_finalTotal 100
    (show (optimize asciiRuntime dearerSide.numbers).map (·.finalTotal) = _ by decide +kernel)
  have hle := h asciiRuntime dearSide dearerSide (.budget (by decide)) schemas_dearSide hp result result'
    hresult hresult'
  rw [htotal, htotal'] at hle
  exact absurd hle (by decide +kernel)

end Gusto.Hacker
