import Gusto.Lib.Local
import Gusto.Lib.Told
import Gusto.Meal.Services

/-!
# Only what was approved is ordered

* `Approved`: an APPROVE of the user has read a row that awaits approval, with the cart and its addresses;
* `Vouched`: what a call has to have behind it: an approved cart of its user, and for a placement a confirmation;
* `MealContract`: each request in flight, and each order of the table, was approved;
* `approvedOnly`: in every interleaving of the two services, whatever fails and whatever comes late, each call is
  vouched for.
-/

set_option autoImplicit false

namespace Gusto.Meal

open Effects Workflow.WorkflowService Order.OrderService
open Gusto.Workflow (WorkflowOp WorkflowCall WorkflowReply WorkflowRow WorkflowStates WorkflowProg RowId Decision
  ExecuteOrderRequest)
open Gusto.Order (OrderOp OrderRow OrderProg OrderCreate OrderUpdate OrderReply FoodTool StoredOrderCart OrderRequest
  OrderAnswer OrderController.execute)

/-! ### What was approved -/

/-- A thread of the request `tag` has read the row. -/
def ReadBy (os : List MealNote) (tag : MealCall) (id : RowId) (row : WorkflowRow) : Prop :=
  ∃ o ∈ os, o.tag = tag ∧ o.event.call = .workflow (.findUnique id) ∧ o.event.pre.rows id = some row

/-- An APPROVE of the user has read a row of the user that awaits approval, with the cart of the request and its
addresses. -/
def Approved (os : List MealNote) (request : ExecuteOrderRequest) : Prop :=
  ∃ id row, ReadBy os (.workflow request.userId (.handleUserDecision .APPROVE)) id row ∧
    id.userId = request.userId ∧ row.phase = .AWAITING_APPROVAL ∧ request.addressId = row.addressId ∧
    request.restaurantId = row.restaurantId ∧ request.cart = row.optimizedCart

/-- The cart of an order is one that its user has approved; how to pay is left open. -/
def CartApproved (os : List MealNote) (userId : String) (cart : StoredOrderCart) : Prop :=
  cart.paymentMethod = none ∧ Approved os
    { userId, addressId := some cart.addressId, restaurantId := some cart.restaurantId,
      cart := some cart.toOptimizedCart }

/-- The Food tool is called with what the cart has. -/
def OfCart (cart : StoredOrderCart) : FoodTool → Prop
  | .update_food_cart restaurantId addressId cartItems =>
    restaurantId = cart.restaurantId ∧ addressId = cart.addressId ∧ cartItems = cart.items
  | .apply_food_coupon couponCode addressId => cart.coupon = some couponCode ∧ addressId = cart.addressId
  | .get_food_cart addressId | .get_food_orders addressId => addressId = cart.addressId
  | .place_food_order addressId paymentMethod =>
    addressId = cart.addressId ∧ paymentMethod = cart.paymentMethod.filter (· ≠ "")
  | .track_food_order _ => True

/-- A call of order-execution-service has a cart of its user behind it that meets `F`; it makes an order only where
`executing`, and places one only where `confirming`. -/
def Vouches (F : String → StoredOrderCart → Prop) (executing confirming : Prop) : OrderOp → Prop
  | .create data => executing ∧ F data.userId data.cart
  | .reserve userId amount => executing ∧ ∃ cart, F userId cart ∧ cart.finalTotal = amount
  | .capture userId amount | .release userId amount => ∃ cart, F userId cart ∧ cart.finalTotal = amount
  | .food tool userId => (tool.isPlace → confirming) ∧ ∃ cart, F userId cart ∧ OfCart cart tool
  | .publishOrderPlaced event => ∃ cart, F event.userId cart ∧ cart.toOptimizedCart = event.cart
  | .requestConfirmation userId _ | .publishOrderFailed userId _ _ | .publishOrderDelivered userId _ =>
    ∃ cart, F userId cart
  | .findUnique _ | .update _ _ | .randomUUID | .now => True

/-- **What a call has behind it**, after the calls `os` and as a part of the request `tag`. -/
def Vouched (tag : MealCall) (os : List MealNote) : MealOp → Prop
  | .workflow (.executeOrder request) =>
    tag = .workflow request.userId (.handleUserDecision .APPROVE) ∧ Approved os request
  | .workflow _ | .accept => True
  | .order i => Vouches (CartApproved os) (tag = .execute) (∃ orderId, tag = .confirm orderId) i

theorem ReadBy.later {os os' : List MealNote} {tag : MealCall} {id : RowId} {row : WorkflowRow}
    (h : ReadBy os tag id row) (hos : os <+: os') : ReadBy os' tag id row := by
  obtain ⟨o, ho, hread⟩ := h
  exact ⟨o, hos.subset ho, hread⟩

theorem Approved.later {os os' : List MealNote} {request : ExecuteOrderRequest} (h : Approved os request)
    (hos : os <+: os') : Approved os' request := by
  obtain ⟨id, row, hread, hrow⟩ := h
  exact ⟨id, row, hread.later hos, hrow⟩

theorem CartApproved.later {os os' : List MealNote} {userId : String} {cart : StoredOrderCart}
    (h : CartApproved os userId cart) (hos : os <+: os') : CartApproved os' userId cart :=
  ⟨h.1, h.2.later hos⟩

/-! ### The contract -/

/-- Each request in flight was approved, and the cart of each order. -/
structure Sourced (os : List MealNote) (s : MealState) : Prop where
  flying : ∀ request ∈ s.inFlight, Approved os request
  orders : ∀ id order, s.orders.orders.get? id = some order → CartApproved os order.userId order.cart

def MealContract : Contract MealCall MealOp Err MealAnswer MealState MealChoice where
  inv := Sourced
  rely _ _ := True
  pre _ tag op os _ := Vouched tag os op
  post _ _ _ _ _ := True

section Contract

variable {os : List MealNote} {s : MealState} {c : MealChoice} {o : MealNote}

theorem Sourced.later {os' : List MealNote} (h : Sourced os s) (hos : os <+: os') : Sourced os' s :=
  ⟨fun request hr => (h.flying request hr).later hos, fun id order ho => (h.orders id order ho).later hos⟩

/-- A call of order-execution-service: a new row has an approved cart, and no row gets another one. -/
theorem Sourced.order {i : OrderOp} {executing confirming : Prop} (h : Sourced os s)
    (hi : Vouches (CartApproved os) executing confirming i) : Sourced os (exec c (.order i) s).2 := by
  refine ⟨h.flying, ?_⟩
  change ∀ id order, (Order.exec c.order i s.orders).2.orders.get? id = some order → _
  cases i with
  | create data =>
    rcases Order.exec_create c.order data s.orders with ⟨-, e, he⟩ | ⟨-, -, he⟩
    · rw [he]
      exact h.orders
    · rw [he]
      intro id order ho
      rcases Order.Orders.get?_create.mp ho with ho | ⟨-, rfl⟩
      · exact h.orders id order ho
      · exact hi.2
  | update id data =>
    rcases Order.exec_update c.order id data s.orders with ⟨row, t, he, hwrote⟩ | ⟨e, he⟩
    · rw [he]
      intro id' order ho
      rw [hwrote.get?] at ho
      split at ho
      · cases ho
        exact h.orders id row hwrote.1
      · exact h.orders id' order ho
    · rw [he]
      exact h.orders
  | _ =>
    rw [Order.orders_exec c.order s.orders rfl (by simp)]
    exact h.orders

/-- **A call** that is vouched for. -/
theorem mealContract_sound : MealContract.Sound exec where
  refl _ := trivial
  trans _ _ _ _ _ := trivial
  step os s tid tag op c hinv hpre := by
    refine ⟨?_, trivial⟩
    have hlater := List.prefix_append os [(⟨tid, tag, ⟨s, op, c⟩⟩ : MealNote)]
    refine Sourced.later ?_ hlater
    cases op with
    | workflow i =>
      refine ⟨fun request hr => ?_, hinv.orders⟩
      rcases mem_inFlight_workflow hr with hr | rfl
      · exact hinv.flying request hr
      · exact hpre.2
    | accept =>
      rcases exec_accept c s with ⟨request, -, he⟩ | he
      · rw [he]
        exact ⟨fun request' hr => hinv.flying request' (List.mem_of_mem_eraseIdx hr), hinv.orders⟩
      · rw [he]
        exact hinv
    | order i => exact hinv.order hpre

end Contract

/-! ### What is known of the answers -/

/-- What the thread of the request `tag` knows of an answer. -/
def Known (tag : MealCall) (os : List MealNote) : (op : MealOp) → Except Err op.Answer → Prop
  | .workflow (.findUnique id), .ok (some row) => ReadBy os tag id row
  | .accept, .ok request => Approved os request
  | .order (.findUnique _), .ok (some order) => CartApproved os order.userId order.cart
  | .order (.create data), .ok order => order.userId = data.userId
  | _, _ => True

theorem Known.later {tag : MealCall} {os os' : List MealNote} (hos : os <+: os') (op : MealOp)
    (r : Except Err op.Answer) (h : Known tag os op r) : Known tag os' op r := by
  cases r with
  | error e => cases op with
    | workflow i => cases i <;> trivial
    | accept => trivial
    | order i => cases i <;> trivial
  | ok a => cases op with
    | accept => exact Approved.later h hos
    | workflow i => cases i with
      | findUnique id => cases a with
        | none => trivial
        | some row => exact ReadBy.later h hos
      | _ => trivial
    | order i => cases i with
      | findUnique id => cases a with
        | none => trivial
        | some order => exact CartApproved.later h hos
      | create data => exact h
      | _ => trivial

theorem known_error {tag : MealCall} {os : List MealNote} {op : MealOp} (e : Err) : Known tag os op (.error e) := by
  cases op with
  | workflow i => cases i <;> trivial
  | accept => trivial
  | order i => cases i <;> trivial

/-- **What is answered** is known. -/
theorem known_exec {tid : ℕ} {tag : MealCall} {os : List MealNote} {s : MealState} (op : MealOp) (c : MealChoice)
    (hinv : Sourced os s) : Known tag (os ++ [⟨tid, tag, ⟨s, op, c⟩⟩]) op (exec c op s).1 := by
  have hlater := List.prefix_append os [(⟨tid, tag, ⟨s, op, c⟩⟩ : MealNote)]
  cases op with
  | accept =>
    rcases exec_accept c s with ⟨request, hget, he⟩ | he
    · rw [he]
      exact (hinv.flying request (List.mem_of_getElem? hget)).later hlater
    · rw [he]
      exact known_error _
  | workflow i =>
    rcases Workflow.exec_cases c.today c.workflow i s.rows with ⟨e, he⟩ | ⟨he, -⟩
    · change Known _ _ (.workflow i) (Workflow.exec c.today c.workflow i s.rows).1
      rw [he]
      exact known_error e
    · change Known _ _ (.workflow i) (Workflow.exec c.today c.workflow i s.rows).1
      rw [he]
      cases i with
      | findUnique id =>
        change Known _ _ (.workflow (.findUnique id)) (.ok (s.rows id))
        cases hrow : s.rows id with
        | none => trivial
        | some row => exact ⟨_, List.mem_append_right _ (List.mem_singleton_self _), rfl, rfl, hrow⟩
      | update id data =>
        simp only [Workflow.serve]
        cases s.rows id <;> trivial
      | _ => trivial
  | order i =>
    change Known _ _ (.order i) (Order.exec c.order i s.orders).1
    cases i with
    | findUnique id =>
      rcases Order.exec_findUnique c.order id s.orders with ⟨e, he⟩ | he
      · rw [he]
        exact known_error e
      · rw [he]
        change Known _ _ (.order (.findUnique id)) (.ok (s.orders.orders.get? id))
        cases hrow : s.orders.orders.get? id with
        | none => trivial
        | some order => exact (hinv.orders id order hrow).later hlater
    | create data =>
      rcases Order.exec_create c.order data s.orders with ⟨-, e, he⟩ | ⟨-, -, he⟩
      · rw [he]
        exact known_error e
      · rw [he]
        exact rfl
    | _ => cases (Order.exec c.order _ s.orders).1 <;> trivial

/-! ### What the programs ask -/

section Orders

variable {R : (i : OrderOp) → Except Err i.Answer → Prop} {F : String → StoredOrderCart → Prop}
  {executing confirming : Prop} {order : OrderRow}

theorem asks_markFailed {α : Type} {cart : StoredOrderCart} {reason : String} (h : F order.userId cart) :
    (markFailed order cart reason : OrderProg α).Asks R (Vouches F executing confirming) := by
  refine Prog.Asks.await_bind trivial fun _ _ => ?_
  refine Prog.Asks.attempt_bind (Prog.Asks.await ⟨_, h, rfl⟩) fun _ => ?_
  exact Prog.Asks.await_bind ⟨_, h⟩ fun _ _ => trivial

theorem asks_markPlaced {ref : String} (h : F order.userId order.cart) :
    (markPlaced order order.cart ref).Asks R (Vouches F executing confirming) := by
  refine Prog.Asks.await_bind trivial fun _ _ => Prog.Asks.await_bind trivial fun _ _ => ?_
  refine Prog.Asks.attempt_bind (Prog.Asks.await ⟨_, h, rfl⟩) fun _ => ?_
  exact Prog.Asks.await_bind ⟨_, h, rfl⟩ fun _ _ => trivial

theorem asks_reconcile {reason : String} (h : F order.userId order.cart) :
    (reconcileAmbiguousFailure order order.cart reason).Asks R (Vouches F executing confirming) := by
  refine Prog.Asks.attempt_bind (Prog.Asks.await ⟨by simp [FoodTool.isPlace], _, h, rfl⟩) fun r => ?_
  cases r <;> exact asks_markFailed h

/-- The calls that fill the cart at Swiggy's. -/
theorem asks_populate {userId : String} {cart : StoredOrderCart} (h : F userId cart) :
    (populate userId cart.addressId cart.restaurantId cart.toOptimizedCart).Asks R (Vouches F executing confirming) := by
  have hlook : (Order.food (.get_food_cart cart.addressId) userId >>= fun _ => pure ()).Asks R (Vouches F executing confirming) :=
    Prog.Asks.await_bind ⟨by simp [FoodTool.isPlace], cart, h, rfl⟩ fun _ _ => trivial
  refine Prog.Asks.await_bind ⟨by simp [FoodTool.isPlace], cart, h, rfl, rfl, rfl⟩ fun _ _ => ?_
  cases hcoupon : cart.coupon with
  | none => exact hlook
  | some couponCode =>
    exact Prog.Asks.await_bind ⟨by simp [FoodTool.isPlace], cart, h, hcoupon, rfl⟩ fun _ _ => hlook

/-- What follows once the row is there. -/
theorem asks_afterCreate {userId : String} {cart : StoredOrderCart} (h : F userId cart) (horder : F order.userId cart) :
    (afterCreate userId cart order).Asks R (Vouches F executing confirming) := by
  refine Prog.Asks.attempt_bind (asks_populate h) fun r => ?_
  cases r with
  | error e => exact asks_markFailed horder
  | ok _ =>
    refine Prog.Asks.attempt_bind (Prog.Asks.attempt_bind (Prog.Asks.await ⟨_, h⟩) fun _ => trivial) ?_
    exact fun _ => trivial

/-- `POST /orders/execute` of a cart that is vouched for. -/
theorem asks_execute {userId addressId restaurantId : String} {cart : OptimizedCart} (hexecuting : executing)
    (h : F userId { cart with addressId, restaurantId, paymentMethod := none })
    (hcreate : ∀ data order, R (.create data) (.ok order) → order.userId = data.userId) :
    (OrderController.execute userId addressId restaurantId cart none).Asks R (Vouches F executing confirming) := by
  unfold OrderController.execute
  split
  · rw [populateAndAwaitConfirmation_eq]
    split
    · trivial
    · refine ⟨⟨hexecuting, _, h, rfl⟩, fun r _ => ?_⟩
      cases r with
      | error e => trivial
      | ok _ =>
        refine ⟨⟨hexecuting, h⟩, fun r hr => ?_⟩
        cases r with
        | error e => trivial
        | ok order =>
          have huser := hcreate _ _ hr
          exact asks_afterCreate h (by rw [huser]; exact h)
  · trivial

section Find

variable (hfind : ∀ id order, R (.findUnique id) (.ok (some order)) → F order.userId order.cart)
include hfind

/-- `POST /orders/confirm`. -/
theorem asks_confirm (hconfirming : confirming) (id : ℕ) :
    (confirmAndPlace id).Asks R (Vouches F executing confirming) := by
  rw [confirmAndPlace_eq]
  refine ⟨trivial, fun r hr => ?_⟩
  rcases r with e | _ | order
  · trivial
  · trivial
  have h := hfind id order hr
  dsimp only
  split
  · refine ⟨⟨fun _ => hconfirming, _, h, rfl, rfl⟩, fun r _ => ?_⟩
    cases r with
    | error e => exact asks_reconcile h
    | ok result =>
      dsimp only [afterPlacement]
      split
      · split
        · exact asks_markPlaced h
        · exact Prog.Asks.await_bind trivial fun _ _ => asks_markPlaced h
      · exact asks_markFailed h
  · trivial

/-- `POST /orders/:orderId/poll-delivery`. -/
theorem asks_pollDelivery (id : ℕ) : (pollDeliveryStatus id).Asks R (Vouches F executing confirming) := by
  refine Prog.Asks.await_bind trivial fun row hr => ?_
  cases row with
  | none => trivial
  | some order =>
    have h := hfind id order hr
    cases href : order.swiggyOrderRef.filter (· ≠ "") with
    | none =>
      simp only [href]
      trivial
    | some ref =>
      simp only [href]
      refine Prog.Asks.await_bind ⟨by simp [FoodTool.isPlace], _, h, trivial⟩ fun tracked _ => ?_
      split
      · refine Prog.Asks.await_bind trivial fun _ _ => Prog.Asks.await_bind trivial fun _ _ => ?_
        exact Prog.Asks.await_bind ⟨_, h⟩ fun _ _ => trivial
      · trivial

end Find

/-- `GET /orders/:orderId/status`. -/
theorem asks_status (id : ℕ) : (getStatus id).Asks R (Vouches F executing confirming) := by
  refine Prog.Asks.await_bind trivial fun row _ => ?_
  cases row <;> trivial

end Orders

section Programs

variable {os : List MealNote}

/-- All that the workflow asks for but an order is vouched for. -/
theorem proposing_vouched (tag : MealCall) (userId : String) :
    Workflow.Proposing (fun i => Known tag os (.workflow i)) (fun i => Vouched tag os (.workflow i)) userId where
  plain i hi := by
    cases i with
    | executeOrder request => cases hi
    | _ => trivial
  analyze _ _ := trivial
  scout _ _ _ := trivial
  swap _ _ _ _ := trivial

/-- **An APPROVE** orders the cart of the row that it has read. -/
theorem asks_approve (userId : String) :
    (handleUserDecision userId .APPROVE).Asks
      (fun i => Known (.workflow userId (.handleUserDecision .APPROVE)) os (.workflow i))
      (fun i => Vouched (.workflow userId (.handleUserDecision .APPROVE)) os (.workflow i)) := by
  rw [handleUserDecision_eq]
  refine ⟨trivial, fun r _ => ?_⟩
  rcases r with e | date
  · trivial
  refine ⟨trivial, fun r hrow => ?_⟩
  rcases r with e | _ | row
  · trivial
  · trivial
  dsimp only
  split
  · rename_i hphase
    exact Workflow.asks_approve (proposing_vouched _ userId) ⟨rfl, _, row, hrow, rfl, hphase, rfl, rfl, rfl⟩
  · trivial

theorem asks_workflow (userId : String) (call : WorkflowCall) :
    (call.prog userId).Asks (fun i => Known (.workflow userId call) os (.workflow i))
      (fun i => Vouched (.workflow userId call) os (.workflow i)) := by
  by_cases happrove : call = .handleUserDecision .APPROVE
  · subst happrove
    exact asks_approve userId
  · exact Workflow.asks_prog (proposing_vouched _ userId) call fun h => absurd h happrove

/-- The order that is taken up. -/
theorem asks_executeBody {request : ExecuteOrderRequest} (h : Approved os request) :
    (executeBody request).Asks (fun i => Known .execute os (.order i)) (fun i => Vouched .execute os (.order i)) := by
  obtain ⟨userId, addressId, restaurantId, cart⟩ := request
  cases addressId with
  | none => trivial
  | some addressId =>
    cases restaurantId with
    | none => trivial
    | some restaurantId =>
      cases cart with
      | none => trivial
      | some cart => exact asks_execute (F := CartApproved os) rfl ⟨rfl, h⟩ fun data order hr => hr

/-- **A request** makes calls that are vouched for, by what it is answered. -/
theorem asks_call (call : MealCall) (os : List MealNote) :
    call.prog.Asks (Known call os) (Vouched call os) := by
  have hfind {tag : MealCall} : ∀ id order, Known tag os (.order (.findUnique id)) (.ok (some order)) →
      CartApproved os order.userId order.cart := fun id order h => h
  cases call with
  | workflow userId call =>
    exact Prog.Asks.bind (Prog.Asks.renamed (asks_workflow userId call)) fun _ => trivial
  | execute =>
    refine Prog.Asks.await_bind trivial fun request h => ?_
    exact Prog.Asks.bind (Prog.Asks.renamed (asks_executeBody h)) fun _ => trivial
  | confirm orderId =>
    refine Prog.Asks.bind (Prog.Asks.renamed (Prog.Asks.bind ?_ fun _ => trivial)) fun _ => trivial
    exact asks_confirm hfind ⟨orderId, rfl⟩ orderId
  | pollDelivery orderId =>
    refine Prog.Asks.bind (Prog.Asks.renamed (Prog.Asks.bind ?_ fun _ => trivial)) fun _ => trivial
    exact asks_pollDelivery hfind orderId
  | status orderId =>
    refine Prog.Asks.bind (Prog.Asks.renamed (Prog.Asks.bind ?_ fun _ => trivial)) fun _ => trivial
    exact asks_status orderId

end Programs

/-! ### Runs -/

section Runs

variable {calls : List MealCall} {s : MealState}

theorem serving_meets (h : Sourced [] s) : (serving calls s).Meets MealContract exec [] := by
  refine Pool.Meets.start h fun tid call _ => ?_
  refine Prog.Meets.of_asks (K := Known call) (A := Vouched call) (fun os os' op r hos hr => hr.later hos op r)
    (fun os s op c hinv _ => known_exec op c hinv) (fun os s op _ hop => hop) (fun _ _ _ => trivial) fun os _ => ?_
  exact asks_call call os

/-- Nothing is in flight, and there is no order. -/
theorem sourced_start {rows : WorkflowStates} {w : Order.World} (hw : w.orders.rows = []) :
    Sourced [] { rows, orders := w } := by
  refine ⟨fun request h => (by cases h), fun id order h => ?_⟩
  have hmem := Order.Orders.mem_rows h
  rw [hw] at hmem
  cases hmem

/-- **Only what was approved is ordered.** From a table with no orders, whatever requests of whatever users are
interleaved, whatever fails, and however late an order arrives that the workflow has sent: money is held, moved and
freed, an order is written down, Swiggy's cart is filled, food is ordered and a message is sent for a cart only that
an APPROVE of that user had read as awaiting approval, with its addresses and its price; an order is
made by an order of the workflow only, and placed by a confirmation only. -/
theorem approvedOnly (calls : List MealCall) (rows : WorkflowStates) (w : Order.World) (hw : w.orders.rows = [])
    (P : MealPool) (pre post : List MealNote) (o : MealNote)
    (hr : Run (Pool.step exec) anyStep (serving calls { rows, orders := w }) P (pre ++ o :: post)) :
    Vouched o.tag pre o.event.call :=
  (Contract.run_at mealContract_sound (serving_meets (sourced_start hw)) hr).2.1

end Runs

/-- A row of the user that awaits approval. -/
def oneProposal : WorkflowStates := fun id =>
  if id = ⟨"user-1", 0⟩ then some
    { phase := .AWAITING_APPROVAL, addressId := some "addr-1", restaurantId := some "rest-1",
      optimizedCart := some { items := [⟨"item-1", 2⟩], baseCost := 250, finalTotal := 250 } }
  else none

/-- A user who approves and, once the order is there, confirms. -/
def oneMeal : List MealCall := [.workflow "user-1" (.handleUserDecision .APPROVE), .execute, .confirm 0]

/-- The workflow gives the order up, which arrives all the same, and is placed. -/
def lateOrder : List (ℕ × MealChoice) :=
  [(0, {}), (0, {}), (0, {}), (0, { workflow := { error := some (.error "timeout") } }), (1, {}), (1, {}), (1, {}),
    (1, {}), (1, {}), (1, {}), (2, {}), (2, {})]

theorem approvedOnly_lateOrder : ∃ P pre o, Run (Pool.step exec) anyStep
      (serving oneMeal { rows := oneProposal, orders := Order.someBalance }) P (pre ++ [o]) ∧
    o.event.call = .order (.food (.place_food_order "addr-1" none) "user-1") ∧
    ∃ request, request.userId = "user-1" ∧ Approved pre request := by
  have hr := Run.of_runSteps .nil (show runSteps (Pool.step exec) anyStep lateOrder
    (serving oneMeal { rows := oneProposal, orders := Order.someBalance }) [] = some (_, _ ++ [_]) from rfl)
  obtain ⟨-, cart, ⟨-, happroved⟩, -⟩ :=
    approvedOnly oneMeal oneProposal Order.someBalance rfl _ _ [] _ hr
  exact ⟨_, _, _, hr, rfl, _, rfl, happroved⟩

end Gusto.Meal
