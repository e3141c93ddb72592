import Gusto.Lib.Translate
import Gusto.Order.Affordable
import Gusto.Order.Interleaved
import Gusto.Workflow.Requests

/-!
# From the proposal to the order

orchestrator-service and order-execution-service put together.  An order that orchestrator-service sends is in
flight until order-execution-service takes it up, and the two go on by themselves: the request may arrive or not,
and late, and the sender may be answered or give up, whatever becomes of it.

* `MealOp`, `MealState`, `exec`: the calls of the two services and what they act on;
* `MealCall.prog`: the handlers of the workflow, and the routes of the orders.
-/

set_option autoImplicit false

namespace Gusto.Meal

open Effects
open Gusto.Workflow (WorkflowOp WorkflowCall WorkflowReply WorkflowStates WorkflowChoice ExecuteOrderRequest)
open Gusto.Order (OrderOp OrderCall OrderRequest OrderAnswer OrderReply OrderProg OrderController.execute invalidBody)

/-! ### The calls -/

/-- A call of one of the two services, or the arrival of a request. -/
inductive MealOp
  | workflow (i : WorkflowOp)
  | accept
  | order (i : OrderOp)
  deriving DecidableEq, Repr

abbrev MealOp.Answer : MealOp → Type
  | .workflow i => i.Answer
  | .accept => ExecuteOrderRequest
  | .order i => i.Answer

abbrev MealProg (α : Type) : Type := Prog MealOp MealOp.Answer Err α

/-- What the two services act on, and the orders that are on their way from one to the other. -/
structure MealState where
  rows : WorkflowStates
  inFlight : List ExecuteOrderRequest := []
  orders : Order.World

/-- What the environment chooses for one call; of a request that is sent, whether it arrives, and of those in
flight, which is next. -/
structure MealChoice where
  today : ℤ := 0
  workflow : WorkflowChoice := {}
  arrives : Bool := true
  next : ℕ := 0
  order : Order.Choice := {}

/-- What a call puts on its way. -/
def sent (c : MealChoice) : WorkflowOp → List ExecuteOrderRequest
  | .executeOrder request => if c.arrives then [request] else []
  | _ => []

/-- Nothing is in flight. -/
def nothingArrives : Err := .error "nothing arrives"

/-- A call of a service is answered as it is there; a request is taken up once. -/
def exec : Handler MealOp MealOp.Answer Err MealState MealChoice := fun c op s =>
  match op with
  | .workflow i =>
    let r := Workflow.exec c.today c.workflow i s.rows
    (r.1, { s with rows := r.2, inFlight := s.inFlight ++ sent c i })
  | .accept =>
    match s.inFlight[c.next]? with
    | some request => (.ok request, { s with inFlight := s.inFlight.eraseIdx c.next })
    | none => (.error nothingArrives, s)
  | .order i =>
    let r := Order.exec c.order i s.orders
    (r.1, { s with orders := r.2 })

/-! ### The requests -/

/-- The body of `POST /orders/execute`, as orchestrator-service sends it: what it does not have is missing. -/
def executeBody (request : ExecuteOrderRequest) : OrderProg OrderReply :=
  match request.addressId, request.restaurantId, request.cart with
  | some addressId, some restaurantId, some cart =>
    OrderController.execute request.userId addressId restaurantId cart none
  | _, _, _ => throw invalidBody

/-- A request of a user to the workflow or about an order; `execute` is the one that orchestrator-service makes. -/
inductive MealCall
  | workflow (userId : String) (call : WorkflowCall)
  | execute
  | confirm (orderId : ℕ)
  | pollDelivery (orderId : ℕ)
  | status (orderId : ℕ)
  deriving DecidableEq, Repr

inductive MealAnswer
  | workflow (reply : WorkflowReply)
  | order (answer : OrderAnswer)
  deriving DecidableEq, Repr

/-- What order-execution-service does, as a part of the whole. -/
def onOrders {α : Type} (p : OrderProg α) : MealProg α := Prog.translate MealOp.order (fun _ a => a) p

/-- What orchestrator-service does, as a part of the whole. -/
def onRows {α : Type} (p : Workflow.WorkflowProg α) : MealProg α := Prog.translate MealOp.workflow (fun _ a => a) p

def MealCall.prog : MealCall → MealProg MealAnswer
  | .workflow userId call => MealAnswer.workflow <$> onRows (call.prog userId)
  | .execute => do
    let request ← Prog.await MealOp.accept
    let reply ← onOrders (executeBody request)
    return .order (.moved reply)
  | .confirm orderId => MealAnswer.order <$> onOrders (OrderRequest.prog (.call (.confirm orderId)))
  | .pollDelivery orderId => MealAnswer.order <$> onOrders (OrderRequest.prog (.pollDelivery orderId))
  | .status orderId => MealAnswer.order <$> onOrders (OrderRequest.prog (.status orderId))

abbrev MealPool : Type := Pool MealCall MealOp MealOp.Answer Err MealAnswer MealState
abbrev MealNote : Type := Note MealCall MealState MealOp MealChoice

/-- A thread for each request. -/
def serving (calls : List MealCall) (s : MealState) : MealPool := Pool.start MealCall.prog calls s

/-! ### What a call leaves -/

section Exec

variable {c : MealChoice} {s : MealState}

/-- A request is in flight after a call of the workflow where it was before, or where it is sent. -/
theorem mem_inFlight_workflow {i : WorkflowOp} {request : ExecuteOrderRequest}
    (h : request ∈ (exec c (.workflow i) s).2.inFlight) :
    request ∈ s.inFlight ∨ i = .executeOrder request := by
  rcases List.mem_append.mp h with h | h
  · exact .inl h
  · cases i with
    | executeOrder request' =>
      change request ∈ (if c.arrives then [request'] else []) at h
      split at h
      · exact .inr (by rw [List.mem_singleton.mp h])
      · cases h
    | _ => cases h

/-- A request that is taken up was in flight, and is so no more. -/
theorem exec_accept (c : MealChoice) (s : MealState) :
    (∃ request, s.inFlight[c.next]? = some request ∧
      exec c .accept s = (.ok request, { s with inFlight := s.inFlight.eraseIdx c.next })) ∨
    exec c .accept s = (.error nothingArrives, s) := by
  cases h : s.inFlight[c.next]? with
  | none => exact .inr (by simp only [exec, h])
  | some request => exact .inl ⟨request, rfl, by simp only [exec, h]⟩

end Exec

end Gusto.Meal
