import Gusto.Hacker.Exact
import Gusto.Hacker.Service

/-!
# The books of an optimised cart

The search takes of each item the first entry of the menu, and does not look at the cart; the service
reads the fillers back by their ids, takes the last entry, and leaves out what is in the cart.

* `Balanced`: what is answered adds up, with the fillers and the discount of the search;
* `misread`: what a filler is counted at less what is read back of it;
* `ReadBack`: a filler that is not in the cart, and whose last entry on the menu has its price;
* `ComputedBy`: the amounts of a cart, as the code computes them with its numbers;
* `balanced_whatever_coupons`: where the numbers are exact and each filler that may be added is read back,
  the books balance whatever the coupons are, and where they do there is one at each price.
-/

set_option autoImplicit false

namespace Gusto.Hacker

open Effects HackerAlgorithm HackerService

/-- The winner is what the coupon offers with the fillers `fs`. -/
structure Wins (js : Runtime) (input : OptimizationInput) (coupon : Coupon)
    (fs : List FillerCandidate) : Prop where
  mem : coupon ∈ input.coupons
  offer : Offer js input coupon fs (input.winner js)

/-- The books balance: the fillers cost what the search has counted, the discount is that of the coupon
on the cart with them, and the total is what is left. -/
structure Balanced (js : Runtime) (input : OptimizationInput) (cart : OptimizedCart) : Prop where
  fillers : ∀ coupon fs, Wins js input coupon fs → cart.fillerCost = cost fs
  discounted : ∀ coupon fs, Wins js input coupon fs → ∃ amount : ℤ,
    cart.baseCost + cart.fillerCost = amount ∧ cart.discountApplied = discount amount coupon
  plain : cart.couponCode = none → cart.fillerCost = 0 ∧ cart.discountApplied = 0
  total : cart.baseCost + cart.fillerCost - cart.discountApplied = cart.finalTotal

/-- What the search counts an id at: the price of the first entry of the id. -/
def countedPrice (input : OptimizationInput) (itemId : String) : ℤ :=
  ((input.fillerCandidates.find? (·.itemId = itemId)).map (·.price)).getD 0

/-- What is read back of an id: nothing where it is in the cart, and otherwise the price of the last
entry of the id. -/
def readPrice (input : OptimizationInput) (itemId : String) : ℤ :=
  if itemId ∈ input.cartItems.map (·.itemId) then 0
  else ((fillerCandidateByItemId input.fillerCandidates itemId).map (·.price)).getD 0

/-- What an id is counted at less what is read back of it. -/
def misread (input : OptimizationInput) (itemId : String) : ℤ :=
  countedPrice input itemId - readPrice input itemId

/-- A filler is read back at its price: it is not in the cart, and the last entry of its id on the menu has
this price. -/
def ReadBack (input : OptimizationInput) (f : FillerCandidate) : Prop :=
  f.itemId ∉ input.cartItems.map (·.itemId) ∧
    ∀ g, fillerCandidateByItemId input.fillerCandidates f.itemId = some g → g.price = f.price

section

variable {js : Runtime} {input : OptimizationInput}

theorem fillerCandidateByItemId_eq_some {candidates : List FillerCandidate} {itemId : String}
    {g : FillerCandidate} (h : fillerCandidateByItemId candidates itemId = some g) :
    g ∈ candidates ∧ g.itemId = itemId := by
  unfold fillerCandidateByItemId at h
  exact ⟨List.mem_reverse.mp (List.mem_of_find?_eq_some h), by simpa using List.find?_some h⟩

theorem exists_fillerCandidateByItemId {candidates : List FillerCandidate} {f : FillerCandidate}
    (h : f ∈ candidates) : ∃ g, fillerCandidateByItemId candidates f.itemId = some g := by
  rw [← Option.isSome_iff_exists, fillerCandidateByItemId, List.find?_isSome]
  exact ⟨f, List.mem_reverse.mpr h, by simp⟩

/-- The fillers of a plan are of its pool. -/
theorem pool_of_plan {base threshold : ℤ} {pool : FillerCandidate → Prop}
    {fs : List FillerCandidate} (h : Plan base threshold pool fs) : ∀ f ∈ fs, pool f := by
  cases h with
  | bare _ => simp
  | filled _ hfs =>
    cases hfs with
    | single hf _ => simpa using hf
    | pair _ hf hg _ _ => simpa using ⟨hf, hg⟩

/-- What is read back of an order. -/
theorem fillerCost_eq (ids : List String) :
    fillerCost input.cartItems input.fillerCandidates
      (input.cartLines ++ ids.map fun itemId => { itemId, quantity := 1 }) =
      (ids.map (readPrice input)).sum := by
  have hcart : input.cartLines.filter (·.itemId ∉ input.cartItems.map (·.itemId)) = [] := by
    rw [List.filter_eq_nil_iff]
    intro line hline
    obtain ⟨item, hitem, rfl⟩ := List.mem_map.mp hline
    simpa using ⟨item, hitem, rfl⟩
  unfold fillerCost
  dsimp only
  rw [List.filter_append, hcart, List.nil_append, foldl_add_eq_sum]
  induction ids with
  | nil => rfl
  | cons itemId ids ih =>
    rw [List.map_cons, List.map_cons, List.sum_cons, ← ih]
    unfold readPrice
    by_cases hmem : itemId ∈ input.cartItems.map (·.itemId)
    · rw [if_pos hmem, List.filter_cons_of_neg (by simpa using hmem), zero_add]
    · rw [if_neg hmem, List.filter_cons_of_pos (by simpa using hmem), List.map_cons, List.sum_cons,
        fillerItemCost]
      congr 1
      cases fillerCandidateByItemId input.fillerCandidates itemId with
      | none => rfl
      | some candidate => simp

theorem sum_misread (ids : List String) :
    (ids.map (misread input)).sum =
      (ids.map (countedPrice input)).sum - (ids.map (readPrice input)).sum := by
  induction ids with
  | nil => rfl
  | cons itemId ids ih =>
    rw [List.map_cons, List.sum_cons, List.map_cons, List.sum_cons, List.map_cons, List.sum_cons, ih]
    unfold misread
    omega

/-- A filler that may be added is counted at its price. -/
theorem countedPrice_of_pool {f : FillerCandidate} (h : input.Pool f) :
    countedPrice input f.itemId = f.price := by
  unfold countedPrice
  rw [h.1]
  rfl

/-- A filler that may be added is misread by nothing exactly where it is read back at its price. -/
theorem misread_eq_zero {f : FillerCandidate} (h : input.Pool f) :
    misread input f.itemId = 0 ↔ ReadBack input f := by
  unfold misread
  rw [countedPrice_of_pool h]
  unfold readPrice ReadBack
  obtain ⟨hmem, -, hprice⟩ := mem_of_inPool h
  by_cases hcart : f.itemId ∈ input.cartItems.map (·.itemId)
  · rw [if_pos hcart]
    exact iff_of_false (by omega) fun hread => hread.1 hcart
  · obtain ⟨g, hg⟩ := exists_fillerCandidateByItemId hmem
    rw [if_neg hcart, hg]
    simp only [Option.map_some, Option.getD_some, Option.some.injEq, forall_eq']
    exact ⟨fun heq => ⟨hcart, by omega⟩, fun hread => by omega⟩

/-- The winner adds the fillers of its offer. -/
theorem fillersAdded_of_wins {coupon : Coupon} {fs : List FillerCandidate}
    (h : Wins js input coupon fs) : (input.winner js).fillersAdded = fs.map (·.itemId) := by
  have hlines := List.append_cancel_left (winner_items.symm.trans h.offer.items)
  have hids := congrArg (List.map (·.itemId)) hlines
  simpa [List.map_map, Function.comp_def] using hids

/-- What the search counts the fillers of the winner at is what they cost. -/
theorem cost_of_wins {coupon : Coupon} {fs : List FillerCandidate} (h : Wins js input coupon fs) :
    cost fs = ((input.winner js).fillersAdded.map (countedPrice input)).sum := by
  rw [fillersAdded_of_wins h, List.map_map]
  refine congrArg List.sum (List.map_congr_left fun f hf => ?_)
  exact (countedPrice_of_pool (pool_of_plan h.offer.plan f hf)).symm

/-- The result of the search, as the service answers it. -/
theorem optimizedCart_eq {result : OptimizationResult} (h : optimize js input = .ok result) :
    result.finalItems = (input.winner js).items ∧
      result.appliedCouponCode = (input.winner js).couponCode ∧
      result.baseTotal = baseTotal input.cartItems ∧ result.finalTotal = (input.winner js).total := by
  rw [optimize_eq] at h
  obtain ⟨-, rfl⟩ := buildResult_eq_ok h
  exact ⟨rfl, rfl, rfl, rfl⟩

section Answer

variable {result : OptimizationResult} {coupon : Coupon} {fs : List FillerCandidate}

/-- What is read back of the fillers that the winner adds. -/
theorem fillerCost_of_result (h : optimize js input = .ok result) :
    fillerCost input.cartItems input.fillerCandidates result.finalItems =
      ((input.winner js).fillersAdded.map (readPrice input)).sum := by
  rw [(optimizedCart_eq h).1, winner_items, fillerCost_eq]

/-- Where the misreadings cancel, the fillers are read back at their cost. -/
theorem fillerCost_of_cancel (h : optimize js input = .ok result) (hwins : Wins js input coupon fs)
    (hcancel : ((input.winner js).fillersAdded.map (misread input)).sum = 0) :
    fillerCost input.cartItems input.fillerCandidates result.finalItems = cost fs := by
  rw [sum_misread] at hcancel
  rw [fillerCost_of_result h, cost_of_wins hwins]
  omega

/-- Then the discount is that of the coupon on the cart with its fillers. -/
theorem discounted_of_cost (h : optimize js input = .ok result) (hwins : Wins js input coupon fs)
    (hcost : fillerCost input.cartItems input.fillerCandidates result.finalItems = cost fs) :
    ∃ amount : ℤ,
      (optimizedCart input.cartItems input.fillerCandidates result).baseCost +
          (optimizedCart input.cartItems input.fillerCandidates result).fillerCost = amount ∧
        (optimizedCart input.cartItems input.fillerCandidates result).discountApplied =
          discount amount coupon := by
  obtain ⟨-, -, hbase, htotal⟩ := optimizedCart_eq h
  have hpaid := hwins.offer.total
  unfold payable at hpaid
  refine ⟨baseTotal input.cartItems + cost fs, ?_, ?_⟩
  · simp only [optimizedCart, hcost, hbase]
    push_cast
    rfl
  · simp only [optimizedCart, discountApplied, hcost, hbase, htotal, hpaid]
    push_cast
    ring

/-- Without a coupon there are no fillers and no discount. -/
theorem plain_of_result (h : optimize js input = .ok result)
    (hnone : (optimizedCart input.cartItems input.fillerCandidates result).couponCode = none) :
    (optimizedCart input.cartItems input.fillerCandidates result).fillerCost = 0 ∧
      (optimizedCart input.cartItems input.fillerCandidates result).discountApplied = 0 := by
  obtain ⟨-, hcode, hbase, htotal⟩ := optimizedCart_eq h
  cases won js input with
  | baseline hw =>
    have hzero : fillerCost input.cartItems input.fillerCandidates result.finalItems = 0 := by
      rw [fillerCost_of_result h, hw]
      rfl
    have htotal' : result.finalTotal = result.baseTotal := by
      rw [htotal, hw, hbase]
      rfl
    simp [optimizedCart, discountApplied, hzero, htotal']
  | offer hcoupon hoffer =>
    have hsome := hoffer.code
    simp only [optimizedCart, hcode] at hnone
    rw [hnone] at hsome
    cases hsome

/-- The books of what is found balance exactly where the misreadings of the winner cancel. -/
theorem balanced_of_result (h : optimize js input = .ok result) :
    Balanced js input (optimizedCart input.cartItems input.fillerCandidates result) ↔
      ((input.winner js).fillersAdded.map (misread input)).sum = 0 := by
  constructor
  · intro hbooks
    cases won js input with
    | baseline hw =>
      rw [hw]
      rfl
    | @offer coupon fs hcoupon hoffer =>
      have hwins : Wins js input coupon fs := ⟨hcoupon, hoffer⟩
      have hcost := hbooks.fillers coupon fs hwins
      simp only [optimizedCart, fillerCost_of_result h, Int.cast_inj] at hcost
      rw [sum_misread, hcost, cost_of_wins hwins]
      omega
  · intro hcancel
    have hcost : ∀ coupon fs, Wins js input coupon fs →
        fillerCost input.cartItems input.fillerCandidates result.finalItems = cost fs :=
      fun coupon fs hwins => fillerCost_of_cancel h hwins hcancel
    refine ⟨fun coupon fs hwins => ?_, fun coupon fs hwins => ?_, plain_of_result h, ?_⟩
    · simp only [optimizedCart, hcost coupon fs hwins]
    · exact discounted_of_cost h hwins (hcost coupon fs hwins)
    · simp only [optimizedCart, discountApplied]
      push_cast
      ring

/-- The misreadings of the winner cancel where each filler that may be added is read back at its price. -/
theorem sum_misread_winner (h : ¬ input.Free → ∀ f, input.Pool f → ReadBack input f) :
    ((input.winner js).fillersAdded.map (misread input)).sum = 0 := by
  by_cases hfree : input.Free
  · rw [OptimizationInput.winner, if_pos hfree]
    rfl
  cases won js input with
  | baseline hw =>
    rw [hw]
    rfl
  | @offer coupon fs hcoupon hoffer =>
    rw [fillersAdded_of_wins ⟨hcoupon, hoffer⟩, List.map_map]
    refine List.sum_eq_zero fun x hx => ?_
    obtain ⟨f, hf, rfl⟩ := List.mem_map.mp hx
    have hpool : input.Pool f := pool_of_plan hoffer.plan f hf
    exact (misread_eq_zero hpool).mpr (h hfree f hpool)

end Answer

/-! ### In the numbers of the code -/

section Computed

open Binary64

theorem fillerCandidateByItemId_numbers (candidates : List FillerCandidate) (itemId : String) :
    fillerCandidateByItemId (candidates.map (FillerCandidate.map Number.ofInt)) itemId =
      (fillerCandidateByItemId candidates itemId).map (FillerCandidate.map Number.ofInt) := by
  unfold fillerCandidateByItemId
  rw [← List.map_reverse, List.find?_map]
  rfl

theorem fillerItemCost_numbers {candidates : List FillerCandidate} (hsafe : ∀ f ∈ candidates, Safe f.price)
    {item : OrderedItem} (hquantity : Safe item.quantity) :
    fillerItemCost (candidates.map (FillerCandidate.map Number.ofInt)) (item.map Number.ofInt) =
      Number.ofInt (fillerItemCost candidates item) := by
  unfold fillerItemCost
  rw [show (item.map Number.ofInt).itemId = item.itemId from rfl, fillerCandidateByItemId_numbers]
  cases hf : fillerCandidateByItemId candidates item.itemId with
  | none => rfl
  | some f => exact Number.mul_ofInt (hsafe f (fillerCandidateByItemId_eq_some hf).1) hquantity

theorem fillerItemCost_nonneg {candidates : List FillerCandidate}
    (hprices : ∀ f ∈ candidates, FillerCandidateSchema f) {item : OrderedItem} (hquantity : 0 ≤ item.quantity) :
    0 ≤ fillerItemCost candidates item := by
  unfold fillerItemCost
  split
  · rename_i f hf
    exact Int.mul_nonneg (hprices f (fillerCandidateByItemId_eq_some hf).1).le hquantity
  · exact le_rfl

/-- What is read back of an order is read back by the code, if it is safe. -/
theorem fillerCost_numbers {cartItems : List CartItem} {candidates : List FillerCandidate}
    {items : List OrderedItem} (hsafe : ∀ f ∈ candidates, Safe f.price)
    (hprices : ∀ f ∈ candidates, FillerCandidateSchema f)
    (hitems : ∀ item ∈ items, 0 ≤ item.quantity ∧ Safe item.quantity)
    (hcost : Safe (fillerCost cartItems candidates items)) :
    fillerCost (cartItems.map (CartItem.map Number.ofInt)) (candidates.map (FillerCandidate.map Number.ofInt))
        (items.map (OrderedItem.map Number.ofInt)) =
      Number.ofInt (fillerCost cartItems candidates items) := by
  have hids : (cartItems.map (CartItem.map Number.ofInt)).map (·.itemId) = cartItems.map (·.itemId) :=
    List.map_map
  unfold fillerCost at hcost ⊢
  dsimp only at hcost ⊢
  rw [hids, List.filter_map, List.foldl_map]
  refine Number.foldl_add_ofInt (fun item hitem => ?_) (fun item hitem => ?_) le_rfl hcost
  · exact fillerItemCost_numbers hsafe (hitems item (List.mem_of_mem_filter hitem)).2
  · exact fillerItemCost_nonneg hprices (hitems item (List.mem_of_mem_filter hitem)).1

/-- Each line of the winner orders something. -/
theorem quantity_pos (hcart : ∀ item ∈ input.cartItems, CartItemSchema item) {item : OrderedItem}
    (h : item ∈ (input.winner js).items) : 0 < item.quantity := by
  rw [winner_items] at h
  rcases List.mem_append.mp h with h | h
  · obtain ⟨cartItem, hmem, rfl⟩ := List.mem_map.mp h
    exact (hcart cartItem hmem).2
  · obtain ⟨itemId, -, rfl⟩ := List.mem_map.mp h
    exact Int.one_pos

/-- The amounts of the cart are those that the code computes with its numbers. -/
structure ComputedBy (js : Runtime) (input : OptimizationInput) (result : OptimizationResult Number)
    (cart : OptimizedCart) : Prop where
  answer : optimize js input.numbers = .ok result
  items : result.finalItems = cart.items.map (OrderedItem.map Number.ofInt)
  couponCode : result.appliedCouponCode = cart.couponCode
  baseCost : result.baseTotal = .fin cart.baseCost
  fillerCost : fillerCost input.numbers.cartItems input.numbers.fillerCandidates result.finalItems =
    .fin cart.fillerCost
  discountApplied : discountApplied result (.fin cart.fillerCost) = .fin cart.discountApplied
  finalTotal : result.finalTotal = .fin cart.finalTotal

variable {result : OptimizationResult}

/-- What is read back of the fillers stays in the range, where each is read back at its price. -/
theorem fillerCost_le (h : optimize js input = .ok result)
    (hread : ¬ input.Free → ∀ f, input.Pool f → ReadBack input f) :
    0 ≤ fillerCost input.cartItems input.fillerCandidates result.finalItems ∧
      baseTotal input.cartItems + fillerCost input.cartItems input.fillerCandidates result.finalItems ≤
        input.most := by
  have hmost : baseTotal input.cartItems ≤ input.most := le_max_left ..
  cases won js input with
  | baseline hw =>
    rw [fillerCost_of_result h, hw]
    simpa [OptimizationInput.baseline] using hmost
  | @offer coupon fs hcoupon hoffer =>
    rw [fillerCost_of_cancel h ⟨hcoupon, hoffer⟩ (sum_misread_winner hread)]
    exact OptimizationInput.Exact.amount_of_plan hoffer.plan

/-- **The books of the code.** Where the numbers are exact, and each filler that may be added is read back
at its price, the amounts that the code computes are those of the cart. -/
theorem computed_of_result (hexact : input.Exact) (hcart : ∀ item ∈ input.cartItems, CartItemSchema item)
    (hprices : ∀ f ∈ input.fillerCandidates, FillerCandidateSchema f) (h : optimize js input = .ok result)
    (hread : ¬ input.Free → ∀ f, input.Pool f → ReadBack input f) :
    ∃ computed, ComputedBy js input computed
      (optimizedCart input.cartItems input.fillerCandidates result) := by
  obtain ⟨hitems, -, hbase, htotal⟩ := optimizedCart_eq h
  obtain ⟨hfiller, hle⟩ := fillerCost_le h hread
  have hB : 0 ≤ baseTotal input.cartItems := baseTotal_nonneg hcart
  have hnonneg : 0 ≤ (input.winner js).total := (buildResult_eq_ok (optimize_eq js input ▸ h)).1
  have hfillerSafe := hexact.safe_amount hfiller (by omega)
  have hamount := hexact.safe_amount (by omega) hle
  have hfinal : Safe result.finalTotal := htotal ▸ hexact.base.of_le hnonneg winner_le
  have hlines : ∀ item ∈ result.finalItems, 0 ≤ item.quantity ∧ Safe item.quantity := by
    intro item hitem
    rw [hitems] at hitem
    refine ⟨(quantity_pos hcart hitem).le, ?_⟩
    rw [winner_items] at hitem
    rcases List.mem_append.mp hitem with hline | hfiller
    · obtain ⟨cartItem, hmem, rfl⟩ := List.mem_map.mp hline
      exact (hexact.each.cartItems cartItem hmem).2
    · obtain ⟨itemId, -, rfl⟩ := List.mem_map.mp hfiller
      exact (by decide : Safe 1)
  have hbaseSafe : Safe result.baseTotal := hbase ▸ hexact.base
  have happlied : Safe (discountApplied result
      (fillerCost input.cartItems input.fillerCandidates result.finalItems)) := by
    have hwinner : (input.winner js).total ≤ baseTotal input.cartItems := winner_le
    unfold discountApplied
    rw [hbase, htotal]
    exact hamount.of_le (by omega) (by omega)
  refine ⟨result.numbers, hexact.optimize_numbers hcart h, rfl, rfl, Number.ofInt_eq hbaseSafe, ?_, ?_,
    Number.ofInt_eq hfinal⟩
  · exact (fillerCost_numbers hexact.each.fillerCandidates hprices hlines hfillerSafe).trans
      (Number.ofInt_eq hfillerSafe)
  · have hsum : Number.ofInt result.baseTotal +
          Number.ofInt (fillerCost input.cartItems input.fillerCandidates result.finalItems) =
        Number.ofInt (result.baseTotal +
          fillerCost input.cartItems input.fillerCandidates result.finalItems) :=
      Number.add_ofInt hbaseSafe hfillerSafe
    have hsumSafe : Safe (result.baseTotal +
        fillerCost input.cartItems input.fillerCandidates result.finalItems) := hbase ▸ hamount
    have hcomputed : Number.ofInt result.baseTotal +
          Number.ofInt (fillerCost input.cartItems input.fillerCandidates result.finalItems) -
          Number.ofInt result.finalTotal = Number.ofInt (discountApplied result
            (fillerCost input.cartItems input.fillerCandidates result.finalItems)) := by
      rw [hsum, Number.sub_ofInt hsumSafe hfinal, discountApplied]
    rw [Number.ofInt_eq happlied, Number.ofInt_eq hfillerSafe] at hcomputed
    exact hcomputed

end Computed

/-! ### A coupon that a filler reaches -/

/-- A coupon that takes off all of a cart of some amount, from this amount on. -/
def wholeCoupon (amount : ℤ) : Coupon where
  code := "WHOLE"
  discountType := .flat
  discountValue := amount
  maxDiscount := none
  minOrderValue := amount
  paymentModes := [.cod]
  isApplicable := none
  expiresAt := none

section Whole

variable {f : FillerCandidate}

/-- The coupon takes all of it off. -/
theorem payable_whole {g : FillerCandidate} (hprice : g.price = f.price) :
    payable (wholeCoupon (baseTotal input.cartItems + f.price)) (baseTotal input.cartItems + cost [g]) = 0 := by
  simp [payable, discount, wholeCoupon, cost, hprice]

variable (hf : input.Pool f)
include hf

/-- A filler that may be added reaches the threshold of this coupon. -/
theorem plan_self :
    Plan (baseTotal input.cartItems) (baseTotal input.cartItems + f.price) input.Pool [f] := by
  have hprice := (mem_of_inPool hf).2.2
  exact .filled (by omega) (.single hf (by omega))

/-- What reaches the threshold at the least cost is one filler at the price of `f`. -/
theorem eq_single_of_least {fs : List FillerCandidate}
    (hplan : Plan (baseTotal input.cartItems) (baseTotal input.cartItems + f.price) input.Pool fs)
    (hleast : ∀ fs', Plan (baseTotal input.cartItems) (baseTotal input.cartItems + f.price) input.Pool fs' →
      cost fs ≤ cost fs') : ∃ g, fs = [g] ∧ input.Pool g ∧ g.price = f.price := by
  have hprice := (mem_of_inPool hf).2.2
  have hle := hleast [f] (plan_self hf)
  cases hplan with
  | bare h => omega
  | filled _ hcloses =>
    cases hcloses with
    | @single g hg hgap =>
      refine ⟨g, rfl, hg, ?_⟩
      simp only [cost, List.map_cons, List.map_nil, List.sum_cons, List.sum_nil] at hle
      omega
    | pair hnone _ _ _ _ =>
      have := hnone f hf
      omega

variable (hbase : 0 < baseTotal input.cartItems)
  (hcoupons : input.coupons = [wholeCoupon (baseTotal input.cartItems + f.price)])
include hbase hcoupons

/-- The coupon is a contender, under which nothing is paid. -/
theorem exists_contender_whole : ∃ c ∈ input.contenders js input.cartLines, c.total = 0 := by
  have hroom := hf.2.2.2
  have hprice := hf.2.2.1
  have husable : Usable js input.remainingDailyBudget input.now
      (wholeCoupon (baseTotal input.cartItems + f.price)) :=
    ⟨nofun, rfl, .inr (by simp [wholeCoupon]), by simp only [wholeCoupon]; omega⟩
  rcases considered_consider js input input.cartLines
      (wholeCoupon (baseTotal input.cartItems + f.price)) with
    ⟨-, h, -⟩ | ⟨-, h, -⟩ | ⟨fs, -, hplan, hleast, hout⟩
  · exact absurd husable h
  · exact absurd (plan_self hf) (h [f])
  · obtain ⟨g, rfl, -, hg⟩ := eq_single_of_least hf hplan hleast
    have hpaid : payable (wholeCoupon (baseTotal input.cartItems + f.price))
        (baseTotal input.cartItems + cost [g]) = 0 := payable_whole hg
    have hcoupon : wholeCoupon (baseTotal input.cartItems + f.price) ∈ input.coupons := by
      rw [hcoupons]
      exact List.mem_singleton_self _
    have hwithin : 0 ≤ input.remainingDailyBudget := by omega
    obtain ⟨c, hcont, htotal⟩ := exists_contender_judge _ _ (hpaid.trans_lt hbase) (hpaid.trans_le hwithin)
    exact ⟨c, List.mem_filterMap.mpr ⟨_, List.mem_map_of_mem hcoupon, hout ▸ hcont⟩, htotal.trans hpaid⟩

/-- The winner adds one filler, at the price of `f`, and costs nothing. -/
theorem winner_whole : (input.winner js).total = 0 ∧
    ∃ g, input.Pool g ∧ g.price = f.price ∧ (input.winner js).fillersAdded = [g.itemId] := by
  have hfree : ¬ input.Free := by
    rintro (hempty | hzero)
    · rw [List.isEmpty_iff.mp hempty] at hbase
      exact absurd hbase (lt_irrefl 0)
    · omega
  obtain ⟨c, hc, htotal⟩ := exists_contender_whole hf hbase hcoupons
  have hle := winner_total_le hfree hc
  cases won js input with
  | baseline hw =>
    rw [hw, htotal] at hle
    exact absurd hle (not_le.mpr hbase)
  | @offer coupon fs hcoupon hoffer =>
    have hadded := fillersAdded_of_wins ⟨hcoupon, hoffer⟩
    obtain rfl := List.mem_singleton.mp (hcoupons ▸ hcoupon)
    obtain ⟨g, rfl, hg, hprice⟩ := eq_single_of_least hf hoffer.plan hoffer.least
    exact ⟨hoffer.total.trans (payable_whole hprice), g, hg, hprice, hadded⟩

end Whole

/-- Under this coupon the numbers are as exact as before. -/
theorem exact_whole {input' : OptimizationInput} {f : FillerCandidate} (h : input.Exact) (hf : input.Pool f)
    (hbase : 0 < baseTotal input.cartItems)
    (hinput : input' = { input with coupons := [wholeCoupon (baseTotal input.cartItems + f.price)] }) :
    input'.Exact := by
  subst hinput
  have hroom := hf.2.2.2
  have hprice := hf.2.2.1
  have hvalue : Binary64.Safe (baseTotal input.cartItems + f.price) :=
    h.each.remainingDailyBudget.of_le (by omega) (by omega)
  refine ⟨⟨h.each.cartItems, ?_, h.each.fillerCandidates, h.each.remainingDailyBudget⟩, h.base, h.room,
    h.most, ?_, ?_⟩
  · intro coupon hcoupon
    obtain rfl := List.mem_singleton.mp hcoupon
    exact ⟨hvalue, by simp [wholeCoupon], hvalue⟩
  · intro coupon hcoupon ht
    obtain rfl := List.mem_singleton.mp hcoupon
    cases ht
  · intro coupon hcoupon amount hamount hle
    obtain rfl := List.mem_singleton.mp hcoupon
    refine (h.safe_amount hamount hle).of_le ?_ ?_ <;> simp only [payable, discount, wholeCoupon] <;> omega

end

/-! ### What the service answers -/

variable {js : Runtime} {number : Json ℚ → Option ℚ} {request : OptimizeCartRequest}
  {gateway : Gateway} {cart : OptimizedCart}

/-- What is answered is found by the search. -/
theorem exists_result
    (h : (HackerService.optimize js number request).eval serveHacker gateway () = (.ok cart, ())) :
    ∃ result, HackerAlgorithm.optimize js (gateway.input number request) = .ok result ∧
      cart = optimizedCart request.cartItems (gateway.input number request).fillerCandidates result := by
  rw [optimize_under] at h
  cases hresult : HackerAlgorithm.optimize js (gateway.input number request) with
  | error message =>
    rw [hresult] at h
    cases h
  | ok result =>
    rw [hresult] at h
    cases h
    exact ⟨result, rfl, rfl⟩

/-- The books of what is answered balance, in the numbers of the code, whatever the coupons are under which
these are exact. -/
def BooksBalance (js : Runtime) (number : Json ℚ → Option ℚ) (request : OptimizeCartRequest)
    (gateway : Gateway) : Prop :=
  ∀ coupons cart, (({ gateway with coupons } : Gateway).input number request).Exact →
    (HackerService.optimize js number request).eval serveHacker { gateway with coupons } () = (.ok cart, ()) →
    Balanced js (({ gateway with coupons } : Gateway).input number request) cart ∧
      ∃ result, ComputedBy js (({ gateway with coupons } : Gateway).input number request) result cart

/-- The record of `wholeCoupon`. -/
def wholeRecord (amount : ℤ) : Json ℚ :=
  .obj [("code", .str "WHOLE"), ("discountType", .str "flat"), ("discountValue", .num amount),
    ("minCartValue", .num amount)]

theorem mapped_wholeRecord {amount : ℤ} (h : 0 ≤ amount) :
    mapFetchFoodCouponsResponse number (some (.arr [wholeRecord amount])) = .ok [wholeCoupon amount] := by
  have hread : nonnegativeInt number (some (.num (amount : ℚ))) = .ok (some amount) := by
    change Except.ok (asAmount (amount : ℚ)) = _
    rw [asAmount, if_pos ⟨by simp, by simpa using h⟩]
    simp
  have hrecord : RawCouponSchema number (wholeRecord amount) =
      .ok (some ⟨"WHOLE", amount, false, .flat, amount, none, none, none⟩) := by
    have hmin : (wholeRecord amount).get "minCartValue" = some (.num (amount : ℚ)) := rfl
    have hvalue : (wholeRecord amount).get "discountValue" = some (.num (amount : ℚ)) := rfl
    unfold RawCouponSchema
    rw [hmin, hvalue, hread]
    rfl
  rw [mapped_arr, List.mapM_cons, hrecord]
  rfl

/-- **When the books balance.** Where each filler that may be added is read back at its price, they do
whatever the coupons are under which the numbers are exact; and where they do, at each price of a filler
that may be added one is read back. -/
theorem balanced_whatever_coupons (js : Runtime) (number : Json ℚ → Option ℚ) (request : OptimizeCartRequest)
    (gateway : Gateway) (hcart : ∀ item ∈ request.cartItems, CartItemSchema item) :
    ((baseTotal request.cartItems ≠ 0 → ∀ f, (gateway.input number request).Pool f →
        ReadBack (gateway.input number request) f) → BooksBalance js number request gateway) ∧
    ((gateway.input number request).Exact → BooksBalance js number request gateway →
      0 < baseTotal request.cartItems → ∀ f, (gateway.input number request).Pool f →
        ∃ g, (gateway.input number request).Pool g ∧ g.price = f.price ∧
          ReadBack (gateway.input number request) g) := by
  constructor
  · intro h coupons cart hexact heval
    obtain ⟨result, hresult, rfl⟩ := exists_result heval
    have hread : ¬ (({ gateway with coupons } : Gateway).input number request).Free →
        ∀ f, (({ gateway with coupons } : Gateway).input number request).Pool f →
          ReadBack (({ gateway with coupons } : Gateway).input number request) f :=
      fun hfree => h fun hzero => hfree (.inr hzero)
    exact ⟨(balanced_of_result hresult).mpr (sum_misread_winner hread),
      computed_of_result hexact hcart (fillerCandidateSchema_readPages (by simp)) hresult hread⟩
  · intro hexact hbooks hbase f hf
    have hprice := (mem_of_inPool hf).2.2
    let whole : Gateway :=
      { gateway with
        coupons := .ok ⟨true, some (.arr [wholeRecord (baseTotal request.cartItems + f.price)])⟩ }
    have hmapped : mapFetchFoodCouponsResponse number
        (some (.arr [wholeRecord (baseTotal request.cartItems + f.price)])) =
        .ok [wholeCoupon (baseTotal request.cartItems + f.price)] := mapped_wholeRecord (by omega)
    have hcoupons : (whole.input number request).coupons =
        [wholeCoupon (baseTotal request.cartItems + f.price)] := by
      change whole.couponList number = _
      simp [whole, Gateway.couponList, Gateway.dataOf, Except.toOption, hmapped]
    have hwhole : ((whole.input number request).winner js).total = 0 ∧
        ∃ g, (whole.input number request).Pool g ∧ g.price = f.price ∧
          ((whole.input number request).winner js).fillersAdded = [g.itemId] :=
      winner_whole hf hbase hcoupons
    have hwholeExact : (whole.input number request).Exact :=
      exact_whole hexact hf hbase (congrArg (fun coupons => { gateway.input number request with coupons }) hcoupons)
    obtain ⟨htotal, g, hg, hgprice, hadded⟩ := hwhole
    obtain ⟨result, hresult⟩ := optimize_of_nonneg htotal.ge
    obtain ⟨hbalanced, -⟩ := hbooks whole.coupons
      (optimizedCart request.cartItems (whole.input number request).fillerCandidates result) hwholeExact (by
        rw [optimize_under]
        rw [hresult])
    have hcancel := (balanced_of_result hresult).mp hbalanced
    rw [hadded, List.map_singleton, List.sum_singleton] at hcancel
    exact ⟨g, hg, hgprice, (misread_eq_zero hg).mp hcancel⟩

/-! ### A side on the menu twice -/

/-- An item of a menu. -/
def menuItem (id : String) (price : ℚ) : Json ℚ :=
  .obj [("id", .str id), ("price", .num price), ("inStock", .bool true)]

/-- A gateway with a coupon of 100 paise from 250 paise on, and a menu of one page. -/
def oneCoupon (items : List (Json ℚ)) : Gateway where
  coupons := .ok ⟨true, some (.arr [.obj [("code", .str "FLAT100"), ("discountType", .str "flat"),
    ("discountValue", .num 100), ("minCartValue", .num 250)]])⟩
  menu page := .ok ⟨true, if page = 1 then some (.obj [("items", .arr items)]) else none⟩
  now := 0

/-- A request for a dish of 200 paise. -/
def mainRequest : OptimizeCartRequest where
  userId := "user-1"
  restaurantId := "rest-1"
  addressId := "addr-1"
  cartItems := [{ itemId := "main", price := 200, quantity := 1 }]
  remainingDailyBudget := 300

/-- The cart that is answered with the side for 60 paise; `read` is what is read back of it. -/
def cartWithSide (read : ℚ) : OptimizedCart where
  items := [⟨"main", 1⟩, ⟨"side", 1⟩]
  baseCost := 200
  fillerCost := read
  discountApplied := 40 + read
  finalTotal := 160
  savingsAchieved := 40
  couponCode := some "FLAT100"
  decisionLog := [⟨"FLAT100", .accepted, "accepted", some 160⟩]

/-- The coupon of these gateways. -/
def flat100 : Coupon where
  code := "FLAT100"
  discountType := .flat
  discountValue := 100
  maxDiscount := none
  minOrderValue := 250
  paymentModes := [.cod]
  isApplicable := none
  expiresAt := none

/-- A menu that lists the side once. -/
def onceListed : Gateway := oneCoupon [menuItem "side" 60]

theorem exact_onceListed : (onceListed.input (fun _ => none) mainRequest).Exact := by
  have hcoupons : ∀ coupon ∈ onceListed.couponList fun _ => none, CouponSchema coupon :=
    couponSchema_couponList
  exact .of_most ⟨by decide, by decide +kernel, by decide +kernel, by decide⟩ (by decide) (by decide)
    (by decide) hcoupons (by decide +kernel)

/-- The side is read back at its price. -/
theorem balanced_onceListed :
    Balanced asciiRuntime (onceListed.input (fun _ => none) mainRequest) (cartWithSide 60) ∧
      ∃ result, ComputedBy asciiRuntime (onceListed.input (fun _ => none) mainRequest) result
        (cartWithSide 60) := by
  refine (balanced_whatever_coupons asciiRuntime (fun _ => none) mainRequest onceListed (by decide)).1
    (fun _ f hf => ?_) onceListed.coupons (cartWithSide 60) exact_onceListed (by decide +kernel)
  have hmenu : (onceListed.input (fun _ => none) mainRequest).fillerCandidates =
      [⟨"side", 60, none, true⟩] := by decide +kernel
  have hmem := (mem_of_inPool hf).1
  rw [hmenu, List.mem_singleton] at hmem
  subst hmem
  unfold ReadBack
  rw [hmenu]
  exact ⟨by decide, fun g hg => by cases hg; rfl⟩

/-- A menu that lists the side at 60 and at 90 paise. -/
def twiceListed : Gateway := oneCoupon [menuItem "side" 60, menuItem "side" 90]

/-- The side is read back at 90 paise: the discount of 100 is booked as 130. -/
theorem not_balanced :
    ¬ ∀ (js : Runtime) (number : Json ℚ → Option ℚ) (request : OptimizeCartRequest)
      (gateway : Gateway) (cart : OptimizedCart),
      (HackerService.optimize js number request).eval serveHacker gateway () = (.ok cart, ()) →
      Balanced js (gateway.input number request) cart := by
  intro h
  have hbooks := h asciiRuntime (fun _ => none) mainRequest
    twiceListed (cartWithSide 90) (by decide +kernel)
  have hcode : ((twiceListed.input (fun _ => none) mainRequest).winner asciiRuntime).couponCode =
      some "FLAT100" := by decide +kernel
  cases won asciiRuntime (twiceListed.input (fun _ => none) mainRequest) with
  | baseline hw =>
    rw [hw] at hcode
    cases hcode
  | @offer coupon fs hcoupon hoffer =>
    obtain ⟨amount, hamount, hdiscount⟩ := hbooks.discounted coupon fs ⟨hcoupon, hoffer⟩
    have hcoupon' : coupon = flat100 := List.mem_singleton.mp hcoupon
    have h290 : amount = 290 := by
      have : (290 : ℚ) = amount := by rw [← hamount]; norm_num [cartWithSide]
      exact_mod_cast this.symm
    rw [hcoupon', h290] at hdiscount
    exact absurd hdiscount (by decide +kernel)

end Gusto.Hacker
