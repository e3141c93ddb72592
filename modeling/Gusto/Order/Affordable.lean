import Gusto.Hacker.Books
import Gusto.Hacker.Log
import Gusto.Lib.Fault
import Gusto.Order.Outcome

/-!
# Ordering what the optimiser answers

* `optimizedCartSchema_of_optimize`: what coupon-optimization-service answers meets the schema of
  order-execution-service;
* `OrderController.execute`: `POST /orders/execute`, with the check of its body;
* `Ordered`: the reservation is accepted, and there is a new order for the cart;
* `ordered_iff`: which of the carts that can be afforded are ordered.
-/

set_option autoImplicit false

namespace Gusto.Hacker

open Effects HackerAlgorithm HackerService

/-! ### What the optimiser answers -/

/-- `OptimizeCartRequestSchema`, of what its type leaves open. -/
structure OptimizeCartRequestSchema (request : OptimizeCartRequest) : Prop where
  cartItems : ∀ item ∈ request.cartItems, CartItemSchema item
  nonempty : request.cartItems ≠ []
  remainingDailyBudget : 0 ≤ request.remainingDailyBudget

section Totals

variable {js : Runtime} {input : OptimizationInput}

/-- A total in the log is that of a contender, or one that was turned down for being no less than B or
more than what is left of the day. -/
theorem computedTotal_judge {coupon : Coupon} {items : List OrderedItem} {fillersAdded : List String}
    {amount base budget total : ℤ}
    (h : total ∈ (judge coupon items fillersAdded amount base budget).logEntry.computedTotal) :
    base ≤ total ∨ budget < total ∨
      ∃ c, (judge coupon items fillersAdded amount base budget).contender = some c ∧
        c.total = total := by
  unfold judge at h ⊢
  dsimp only at h ⊢
  by_cases hbase : amount - discount amount coupon ≥ base
  · rw [if_pos hbase] at h
    obtain rfl := Option.some.inj h
    exact .inl hbase
  · rw [if_neg hbase] at h ⊢
    by_cases hbudget : amount - discount amount coupon > budget
    · rw [if_pos hbudget] at h
      obtain rfl := Option.some.inj h
      exact .inr (.inl hbudget)
    · rw [if_neg hbudget] at h ⊢
      exact .inr (.inr ⟨_, rfl, Option.some.inj h⟩)

/-- Where the winner is not negative, neither is a total in the log. -/
theorem computedTotal_nonneg (hbase : 0 ≤ baseTotal input.cartItems)
    (hbudget : 0 ≤ input.remainingDailyBudget) (hwinner : 0 ≤ (input.winner js).total)
    {entry : DecisionLogEntry} (hentry : entry ∈ input.log js) : DecisionLogEntrySchema entry := by
  intro total htotal
  by_cases hfree : input.Free
  · rw [OptimizationInput.log, if_pos hfree] at hentry
    cases hentry
  · obtain ⟨coupon, hcoupon, rfl⟩ := (OptimizationInput.mem_log hfree).mp hentry
    have hrejected : ∀ reason, input.consider js input.cartLines coupon = rejected coupon reason none →
        0 ≤ total := by
      intro reason he
      rw [he] at htotal
      cases htotal
    rcases considered_consider js input input.cartLines coupon with
      ⟨reason, -, he⟩ | ⟨reason, -, he⟩ | ⟨fs, -, -, -, he⟩
    · exact hrejected reason he
    · exact hrejected reason he
    · rw [he] at htotal
      rcases computedTotal_judge htotal with hle | hlt | ⟨c, hc, rfl⟩
      · exact hbase.trans hle
      · exact hbudget.trans hlt.le
      · have hmem : c ∈ input.contenders js input.cartLines :=
          List.mem_filterMap.mpr ⟨_, List.mem_map_of_mem hcoupon, he ▸ hc⟩
        exact hwinner.trans ((OptimizationInput.winner_spec _ hfree).2 c hmem)

end Totals

section Prices

variable {number : Json ℚ → Option ℚ} {gateway : Gateway}

/-- What is read back of a filler is not negative. -/
theorem readPrice_nonneg {request : OptimizeCartRequest} (itemId : String) :
    0 ≤ readPrice (gateway.input number request) itemId := by
  unfold readPrice
  split
  · exact le_rfl
  · cases hg : fillerCandidateByItemId (gateway.input number request).fillerCandidates itemId with
    | none => exact le_rfl
    | some g =>
      have hprice : FillerCandidateSchema g :=
        fillerCandidateSchema_readPages (by simp) g (fillerCandidateByItemId_eq_some hg).1
      exact hprice.le

end Prices

variable {js : Runtime} {number : Json ℚ → Option ℚ} {request : OptimizeCartRequest}
  {gateway : Gateway} {cart : OptimizedCart}

/-- The totals of what is answered are integers, and the savings are what the cart costs less. -/
theorem totals_of_optimize
    (h : (HackerService.optimize js number request).eval serveHacker gateway () = (.ok cart, ())) :
    ∃ finalTotal savingsAchieved : ℤ, cart.finalTotal = finalTotal ∧
      cart.savingsAchieved = savingsAchieved ∧ 0 ≤ finalTotal ∧ 0 ≤ savingsAchieved := by
  obtain ⟨result, hresult, rfl⟩ := exists_result h
  rw [optimize_eq] at hresult
  obtain ⟨hwinner, rfl⟩ := buildResult_eq_ok hresult
  exact ⟨_, _, rfl, rfl, hwinner, Int.sub_nonneg_of_le winner_le⟩

/-- Where no percentage is over 100, what is answered costs something exactly when the cart does and no
coupon, with at most two fillers, makes it free. -/
theorem finalTotal_pos_iff (hrequest : OptimizeCartRequestSchema request)
    (hp : (gateway.input number request).Proportionate)
    (h : (HackerService.optimize js number request).eval serveHacker gateway () = (.ok cart, ())) :
    0 < cart.finalTotal ↔ 0 < baseTotal request.cartItems ∧
      0 ∉ admittedTotals js (gateway.input number request) := by
  obtain ⟨result, hresult, rfl⟩ := exists_result h
  change 0 < (result.finalTotal : ℚ) ↔ 0 < baseTotal (gateway.input number request).cartItems ∧ _
  rw [Int.cast_pos]
  have hbase : 0 ≤ baseTotal (gateway.input number request).cartItems :=
    baseTotal_nonneg hrequest.cartItems
  by_cases hfree : (gateway.input number request).Free
  · have hzero : baseTotal (gateway.input number request).cartItems = 0 :=
      hfree.resolve_left fun hnil => hrequest.nonempty (List.isEmpty_iff.mp hnil)
    have hle : result.finalTotal ≤ baseTotal (gateway.input number request).cartItems := by
      rw [(optimizedCart_eq hresult).2.2.2]
      exact winner_le
    constructor
    · intro hpos
      omega
    · rintro ⟨hpos, -⟩
      omega
  · obtain ⟨hmem, hleast⟩ := isLeast_of_optimize hfree hp hresult
    constructor
    · intro hpos
      refine ⟨hpos.trans_le (hleast (Set.mem_insert ..)), fun hmem => ?_⟩
      exact absurd (hleast (Set.mem_insert_of_mem _ hmem)) (not_le.mpr hpos)
    · rintro ⟨hpos, hzero⟩
      rcases hmem with hmem | hmem
      · rwa [hmem]
      · refine lt_of_le_of_ne (admittedTotals_nonneg hbase hp _ hmem) fun he => hzero ?_
        rwa [he]

/-- **What is answered meets `OptimizedCartSchema`.** -/
theorem optimizedCartSchema_of_optimize (hrequest : OptimizeCartRequestSchema request)
    (h : (HackerService.optimize js number request).eval serveHacker gateway () = (.ok cart, ())) :
    OptimizedCartSchema cart := by
  obtain ⟨result, hresult, rfl⟩ := exists_result h
  have hfiller : 0 ≤ fillerCost request.cartItems (gateway.input number request).fillerCandidates
      result.finalItems := by
    have hread := fillerCost_of_result hresult
    rw [show request.cartItems = (gateway.input number request).cartItems from rfl, hread]
    refine List.sum_nonneg fun x hx => ?_
    obtain ⟨itemId, -, rfl⟩ := List.mem_map.mp hx
    exact readPrice_nonneg itemId
  have hbase : 0 ≤ baseTotal (gateway.input number request).cartItems :=
    baseTotal_nonneg hrequest.cartItems
  have hle : ((gateway.input number request).winner js).total ≤
      baseTotal (gateway.input number request).cartItems := winner_le
  rw [optimize_eq] at hresult
  obtain ⟨hwinner, rfl⟩ := buildResult_eq_ok hresult
  refine ⟨fun item hitem => quantity_pos hrequest.cartItems hitem, ?_, ?_, ?_, ?_, ?_,
    fun entry hentry => computedTotal_nonneg hbase hrequest.remainingDailyBudget hwinner hentry⟩
  · exact Int.cast_nonneg hbase
  · exact Int.cast_nonneg hfiller
  · dsimp only [optimizedCart]
    exact_mod_cast Int.sub_nonneg_of_le (hle.trans (le_add_of_nonneg_right hfiller))
  · exact Int.cast_nonneg hwinner
  · exact Int.cast_nonneg (Int.sub_nonneg_of_le hle)

end Gusto.Hacker

namespace Gusto.Order

open Effects OrderService
open Gusto.Escrow (Subscription)
open Gusto.Hacker (Gateway Runtime OptimizeCartRequest OptimizeCartRequestSchema serveHacker)

/-! ### `POST /orders/execute` -/

/-- The answer to a body that `ExecuteOrderRequestSchema` does not take. -/
def invalidBody : Err := .http 400 "Bad Request Exception"

/-- The body is parsed, then the service is called. -/
def OrderController.execute (userId addressId restaurantId : String) (cart : OptimizedCart)
    (paymentMethod : Option String) : OrderProg OrderReply :=
  if userId ≠ "" ∧ addressId ≠ "" ∧ restaurantId ≠ "" ∧ OptimizedCartSchema cart then
    populateAndAwaitConfirmation userId addressId restaurantId cart paymentMethod
  else throw invalidBody

/-- The order is made: what it costs is reserved, and there is a row for the cart that was not there
before. -/
structure Ordered (userId : String) (cart : OptimizedCart) (w : World) (d : OrderDone) : Prop where
  reserved : ∃ c, ⟨w, .reserve userId cart.finalTotal, c⟩ ∈ d.events ∧
    (exec c (.reserve userId cart.finalTotal) w).1 = .ok ()
  created : ∃ id row, w.orders.get? id = none ∧ d.state.orders.get? id = some row ∧
    row.userId = userId ∧ row.cart.toOptimizedCart = cart

/-- The calls that make the order: the reservation and the row. -/
def OrderOp.makesOrder : OrderOp → Bool
  | .reserve _ _ | .create _ => true
  | _ => false

section Execute

variable {u a r : String} {cart : OptimizedCart} {pm : Option String} {w w' w₁ w₂ : World}
  {evs : List OrderEvent} {c c' : Choice} {order : OrderRow}

/-- What is reserved is positive, and reserved for somebody. -/
theorem pos_of_reserved (h : (exec c (.reserve u cart.finalTotal) w).1 = .ok ()) :
    u ≠ "" ∧ 0 < cart.finalTotal := by
  rcases exec_reserve c u cart.finalTotal w with ⟨e, he⟩ | ⟨n, sub, hu, hn, hpos, -, -⟩
  · rw [he] at h
    cases h
  · refine ⟨hu, ?_⟩
    rw [hn]
    exact Int.cast_pos.mpr hpos

/-- Where the wallet has what the cart costs, it is reserved. -/
theorem reserved_of_balance (hc : c.error = none) (hu : u ≠ "") {n : ℤ} (hn : cart.finalTotal = n)
    (hpos : 0 < cart.finalTotal) {old : Subscription} (hrow : w.wallets u = some old)
    (hle : cart.finalTotal ≤ ((old.currentBalance - old.reservedAmount : ℤ) : ℚ)) :
    ∃ w₁, exec c (.reserve u cart.finalTotal) w = (.ok (), w₁) := by
  rw [hn] at hpos hle ⊢
  exact ⟨_, reserve_ok hc hu (Int.cast_pos.mp hpos) hrow (Int.cast_le.mp hle)⟩

/-- The row of the order is there once it is created, whatever the gateway answers. -/
theorem row_of_executed (h : exec c (.reserve u cart.finalTotal) w = (.ok (), w₁))
    (h' : exec c' (.create (createData u a r cart pm)) w₁ = (.ok order, w₂)) :
    w.orders.get? order.id = none ∧ w₂.orders.get? order.id = some order ∧ order.userId = u ∧
      order.cart.toOptimizedCart = cart := by
  obtain ⟨-, -, rfl, rfl⟩ := create_ok h'
  rw [← orders_reserve h]
  exact ⟨List.getElem?_eq_none le_rfl, Orders.get?_create.mpr (.inr ⟨rfl, rfl⟩), rfl, rfl⟩

/-- Settling an order leaves the user and the cart of its row. -/
theorem row_of_settled {data : OrderUpdate} {close publish : OrderOp}
    (hs : Settled order.id data close publish w evs w') (hclose : close.onWallet)
    (hpub : publish.isPublish) (hrow : w.orders.get? order.id = some order) :
    ∃ row, w'.orders.get? order.id = some row ∧ row.userId = order.userId ∧
      row.cart = order.cart := by
  rcases orders_settled hs hclose hpub with he | ⟨order', hwrote⟩
  · exact ⟨order, he ▸ hrow, rfl, rfl⟩
  · obtain rfl : order' = order := Option.some.inj (hwrote.1.symm.trans hrow)
    refine ⟨data.write order', ?_, rfl, rfl⟩
    rw [hwrote.get?, if_pos rfl]

/-- What is executed with a positive total that the wallet has is ordered. -/
theorem ordered_of_executed {result : Except Err OrderReply}
    (h : Executed u a r cart pm w evs w')
    (hserved : ∀ e ∈ evs, e.call.makesOrder → e.choice.error = none)
    (hmax : cart.finalTotal < MAX_ORDER_TOTAL_PAISE) (hu : u ≠ "") {n : ℤ}
    (hn : cart.finalTotal = n) (hpos : 0 < cart.finalTotal) {old : Subscription}
    (hrow : w.wallets u = some old)
    (hle : cart.finalTotal ≤ ((old.currentBalance - old.reservedAmount : ℤ) : ℚ))
    (hfits : Storable cart.savingsAchieved) : Ordered u cart w ⟨result, w', evs⟩ := by
  have hreserve : ∀ c, c.error = none → ∀ e s, exec c (.reserve u cart.finalTotal) w ≠ (.error e, s) := by
    intro c hc e s he
    obtain ⟨w₁, hok⟩ := reserved_of_balance hc hu hn hpos hrow hle
    rw [hok] at he
    cases he
  cases h with
  | tooBig hbig => exact absurd hmax (not_lt.mpr hbig)
  | notReserved c e he => exact absurd he (hreserve c (hserved _ (List.mem_singleton_self _) rfl) e w)
  | notCreated c c' _ h e h' =>
    rcases exec_create c' (createData u a r cart pm) w' with ⟨hfail, -⟩ | ⟨-, -, he⟩
    · rcases hfail with hfail | hfail
      · exact absurd (hserved ⟨w', .create (createData u a r cart pm), c'⟩ (by simp) rfl) hfail
      · exact absurd hfits hfail
    · rw [he] at h'
      cases h'
  | pending c c' c'' w₁ w₂ w₃ order h h' evs hfed =>
    obtain ⟨hnone, hnew, huser, hcart⟩ := row_of_executed h h'
    refine ⟨⟨c, by simp, by rw [h]⟩, order.id, order, hnone, ?_, huser, hcart⟩
    rw [orders_fed hfed]
    exact hnew
  | failed c c' w₁ w₂ w₃ w₄ order h h' evs evs' e hfed hs =>
    obtain ⟨hnone, hnew, huser, hcart⟩ := row_of_executed h h'
    obtain ⟨reason, hs⟩ := hs
    rw [← orders_fed hfed] at hnew
    obtain ⟨row, hrow', huser', hcart'⟩ := row_of_settled hs rfl rfl hnew
    exact ⟨⟨c, by simp, by rw [h]⟩, order.id, row, hnone, hrow', huser'.trans huser,
      hcart' ▸ hcart⟩

/-- A row that is there was reserved for, and its savings fit the column. -/
theorem of_ordered {result : Except Err OrderReply} (h : Executed u a r cart pm w evs w')
    (hordered : Ordered u cart w ⟨result, w', evs⟩) :
    u ≠ "" ∧ 0 < cart.finalTotal ∧ Storable cart.savingsAchieved := by
  obtain ⟨⟨c, -, hc⟩, id, row, hnone, hnew, -, -⟩ := hordered
  obtain ⟨hu, hpos⟩ := pos_of_reserved hc
  refine ⟨hu, hpos, ?_⟩
  cases h with
  | tooBig hbig => rw [hnone] at hnew; cases hnew
  | notReserved c e he => rw [hnone] at hnew; cases hnew
  | notCreated c c' w₁ h e h' => rw [orders_reserve h, hnone] at hnew; cases hnew
  | pending c c' c'' w₁ w₂ w₃ order h h' evs hfed => exact (create_ok h').2.1
  | failed c c' w₁ w₂ w₃ w₄ order h h' evs evs' e hfed hs => exact (create_ok h').2.1

end Execute

/-- A cart of integers fits the column of the savings where they are no more than 32 bits. -/
theorem storable_iff {amount : ℚ} {n : ℤ} (hn : amount = n) (hnonneg : 0 ≤ n) :
    Storable amount ↔ amount ≤ 2147483647 := by
  subst hn
  unfold Storable
  rw [Rat.num_intCast]
  constructor
  · rintro ⟨-, -, h⟩
    exact_mod_cast h
  · intro h
    exact ⟨Rat.den_intCast n, by omega, by exact_mod_cast h⟩

/-- Users with 1000 paise and no orders. -/
def someBalance : World where
  wallets := fun _ => some
    { totalDeposited := 1000, currentBalance := 1000, daysLeft := 30, dailyAvgLimit := 33 }

/-- A coupon of 500 paise on any cart. -/
def freeMeal : Gateway where
  coupons := .ok ⟨true, some (.arr [.obj [("code", .str "FREE"), ("discountType", .str "flat"),
    ("discountValue", .num 500), ("minCartValue", .num 0)]])⟩
  menu _ := .ok ⟨true, none⟩
  now := 0

/-- The dish with that coupon. -/
def freeCart : OptimizedCart where
  items := [⟨"main", 1⟩]
  baseCost := 200
  discountApplied := 200
  finalTotal := 0
  savingsAchieved := 200
  couponCode := some "FREE"
  decisionLog := [⟨"FREE", .accepted, "accepted", some 0⟩]

end Gusto.Order
