import Gusto.Lib.Credit
import Gusto.Meal.Approved

/-!
# No order is made twice

An APPROVE may send one order, an order that is in flight is taken up once, and taken up it makes one row.

* `ordersOf`: the rows of a user, and the orders that are in flight for the user;
* `balanced_exec`: no call makes more of them than it has credits for;
* `ordersCounted`: in every interleaving there are no more new orders of a user than APPROVEs.
-/

set_option autoImplicit false

namespace Gusto.Meal

open Effects Workflow.WorkflowService Order.OrderService
open Gusto.Workflow (WorkflowCall WorkflowStates ExecuteOrderRequest)
open Gusto.Order (OrderOp OrderRow OrderProg Orders OrderController.execute)

/-! ### What is counted -/

/-- The rows of the user. -/
def rowsOf (userId : String) (t : Orders) : ℕ := t.rows.countP (·.userId = userId)

/-- The rows of the user, and the orders that are in flight for the user. -/
def ordersOf (userId : String) (s : MealState) : ℕ :=
  rowsOf userId s.orders.orders + s.inFlight.countP (·.userId = userId)

/-- An order that is sent, and a row that is made, cost a credit. -/
def cost (userId : String) : MealOp → ℕ
  | .workflow (.executeOrder request) => if request.userId = userId then 1 else 0
  | .order (.create data) => if data.userId = userId then 1 else 0
  | _ => 0

/-- An order that is taken up brings a credit. -/
def gain (userId : String) : (op : MealOp) → Except Err op.Answer → ℕ
  | .accept, .ok request => if request.userId = userId then 1 else 0
  | _, _ => 0

/-- The credits of a request: an APPROVE of the user has one. -/
def credits (userId : String) (call : MealCall) : ℕ :=
  if call = .workflow userId (.handleUserDecision .APPROVE) then 1 else 0

section Exec

variable {userId : String}

theorem rowsOf_wrote {t t' : Orders} {id : ℕ} {order : OrderRow} {data : Order.OrderUpdate}
    (h : Orders.Wrote t t' id order data) : rowsOf userId t' = rowsOf userId t := by
  obtain ⟨l₁, l₂, hrows, hset⟩ := split_of_getElem? h.1
  unfold rowsOf
  rw [h.2, hset, hrows]
  simp [Order.OrderUpdate.write, List.countP_cons]

theorem gain_order {i : OrderOp} {r : Except Err (MealOp.order i).Answer} : gain userId (.order i) r = 0 := rfl

/-- **A call** makes no more orders than it has credits for. -/
theorem balanced_exec (userId : String) : Balanced exec (cost userId) (gain userId) (ordersOf userId) := by
  intro c op s
  cases op with
  | workflow i =>
    change rowsOf userId s.orders.orders + (s.inFlight ++ sent c i).countP _ + 0 ≤ _
    rw [List.countP_append]
    have hsent : (sent c i).countP (·.userId = userId) ≤ cost userId (.workflow i) := by
      cases i with
      | executeOrder request =>
        by_cases harrives : c.arrives <;> by_cases huser : request.userId = userId <;>
          simp [sent, cost, harrives, huser]
      | _ => exact Nat.zero_le _
    unfold ordersOf
    omega
  | accept =>
    rcases exec_accept c s with ⟨request, hget, he⟩ | he
    · rw [he]
      change rowsOf userId s.orders.orders + (s.inFlight.eraseIdx c.next).countP _ +
        (if request.userId = userId then 1 else 0) ≤ _
      obtain ⟨hlt, rfl⟩ := List.getElem?_eq_some_iff.mp hget
      have hcount := (List.getElem_cons_eraseIdx_perm hlt).countP_eq (·.userId = userId)
      simp only [List.countP_cons, decide_eq_true_eq] at hcount
      unfold ordersOf
      omega
    · rw [he]
      exact Nat.le_refl _
  | order i =>
    rw [gain_order]
    change rowsOf userId (Order.exec c.order i s.orders).2.orders + s.inFlight.countP _ + 0 ≤ _
    have hrows : rowsOf userId (Order.exec c.order i s.orders).2.orders ≤
        rowsOf userId s.orders.orders + cost userId (.order i) := by
      cases i with
      | create data =>
        rcases Order.exec_create c.order data s.orders with ⟨-, e, he⟩ | ⟨-, -, he⟩
        · rw [he]
          exact Nat.le_add_right _ _
        · rw [he]
          refine Nat.le_of_eq ?_
          simp [rowsOf, Orders.create, Orders.newRow, cost, List.countP_append]
      | update id data =>
        rcases Order.exec_update c.order id data s.orders with ⟨row, t, he, hwrote⟩ | ⟨e, he⟩
        · rw [he]
          exact Nat.le_of_eq (rowsOf_wrote hwrote)
        · rw [he]
          exact Nat.le_add_right _ _
      | _ =>
        rw [Order.orders_exec c.order s.orders rfl (by simp)]
        exact Nat.le_add_right _ _
    unfold ordersOf
    omega

end Exec

/-! ### The credits of the requests -/

section Programs

variable {userId : String}

/-- Calls of order-execution-service that make no order are free. -/
theorem free_of_vouches {F : String → Order.StoredOrderCart → Prop} {executing confirming : Prop}
    (hexecuting : ¬ executing) (i : OrderOp) (h : Vouches F executing confirming i) :
    cost userId (.order i) = 0 := by
  cases i with
  | create data => exact absurd h.1 hexecuting
  | _ => rfl

theorem pays_of_vouches {α : Type} {executing confirming : Prop} (hexecuting : ¬ executing) {p : OrderProg α} {n : ℕ}
    (h : p.Asks AnyAnswer (Vouches (fun _ _ => True) executing confirming)) :
    p.Pays (fun i => cost userId (.order i)) (fun i => gain userId (.order i)) n :=
  Prog.pays_of_free (h.mono (free_of_vouches hexecuting))

/-- All that the workflow asks for but an order is free. -/
theorem proposing_free (user : String) :
    Workflow.Proposing AnyAnswer (fun i => cost userId (.workflow i) = 0) user where
  plain i hi := by
    cases i with
    | executeOrder request => cases hi
    | _ => rfl
  analyze _ _ := rfl
  scout _ _ _ := rfl
  swap _ _ _ _ := rfl

/-- **An APPROVE** sends one order. -/
theorem pays_approve (user : String) : (handleUserDecision user .APPROVE).Pays (fun i => cost userId (.workflow i))
    (fun i => gain userId (.workflow i)) (if user = userId then 1 else 0) := by
  rw [handleUserDecision_eq]
  refine ⟨Nat.zero_le _, fun r => ?_⟩
  rcases r with e | date
  · trivial
  refine ⟨Nat.zero_le _, fun r => ?_⟩
  rcases r with e | _ | row
  · trivial
  · trivial
  dsimp only
  split
  · dsimp only [onDecision]
    rw [approve_eq]
    refine ⟨Nat.zero_le _, fun r => ?_⟩
    rcases r with e | updated
    · trivial
    refine ⟨Nat.le_refl _, fun r => ?_⟩
    rcases r with e | order
    · trivial
    · exact Prog.pays_of_free (Workflow.asks_afterExecuteOrder (proposing_free user))
  · trivial

theorem pays_workflow (user : String) (call : WorkflowCall) :
    (call.prog user).Pays (fun i => cost userId (.workflow i)) (fun i => gain userId (.workflow i))
      (credits userId (.workflow user call)) := by
  by_cases happrove : call = .handleUserDecision .APPROVE
  · subst happrove
    refine (pays_approve user).mono ?_
    by_cases huser : user = userId <;> simp [credits, huser]
  · exact Prog.pays_of_free (Workflow.asks_prog (proposing_free user) call fun h => absurd h happrove)

/-- **An order that is taken up** makes one row. -/
theorem pays_executeBody (request : ExecuteOrderRequest) :
    (executeBody request).Pays (fun i => cost userId (.order i)) (fun i => gain userId (.order i))
      (if request.userId = userId then 1 else 0) := by
  obtain ⟨user, addressId, restaurantId, cart⟩ := request
  cases addressId with
  | none => trivial
  | some addressId =>
    cases restaurantId with
    | none => trivial
    | some restaurantId =>
      cases cart with
      | none => trivial
      | some cart =>
        dsimp only [executeBody, OrderController.execute]
        split
        · rw [populateAndAwaitConfirmation_eq]
          split
          · trivial
          · refine ⟨Nat.zero_le _, fun r => ?_⟩
            rcases r with e | _
            · trivial
            refine ⟨Nat.le_refl _, fun r => ?_⟩
            rcases r with e | order
            · trivial
            · have hafter : (afterCreate user { cart with addressId, restaurantId, paymentMethod := none } order).Asks
                  AnyAnswer (Vouches (fun _ _ => True) False False) := asks_afterCreate trivial trivial
              exact pays_of_vouches id hafter
        · trivial

/-- **A request** has credits enough. -/
theorem pays_call (call : MealCall) : call.prog.Pays (cost userId) (gain userId) (credits userId call) := by
  have hanswer {α : Type} {p : MealProg α} {f : α → MealAnswer} {n : ℕ} (h : p.Pays (cost userId) (gain userId) n) :
      (f <$> p).Pays (cost userId) (gain userId) n := h.bind (m := 0) fun _ => trivial
  have horder {α : Type} {p : OrderProg α} {f : α → MealAnswer} {n : ℕ}
      (h : p.Asks AnyAnswer (Vouches (fun _ _ => True) False True)) :
      (f <$> onOrders p).Pays (cost userId) (gain userId) n := hanswer (pays_of_vouches id h).renamed
  cases call with
  | workflow user call => exact hanswer (pays_workflow user call).renamed
  | execute =>
    refine ⟨Nat.zero_le _, fun r => ?_⟩
    rcases r with e | request
    · trivial
    · refine hanswer ((pays_executeBody request).renamed.mono ?_)
      exact Nat.le_add_left _ _
  | confirm orderId => exact horder (Prog.Asks.bind (asks_confirm (fun _ _ _ => trivial) trivial orderId) fun _ => trivial)
  | pollDelivery orderId =>
    exact horder (Prog.Asks.bind (asks_pollDelivery (fun _ _ _ => trivial) orderId) fun _ => trivial)
  | status orderId => exact horder (Prog.Asks.bind (asks_status orderId) fun _ => trivial)

end Programs

/-! ### Runs -/

/-- How many of the requests are APPROVEs of the user. -/
def approvals (userId : String) (calls : List MealCall) : ℕ :=
  calls.count (.workflow userId (.handleUserDecision .APPROVE))

theorem sum_credits (userId : String) (calls : List MealCall) :
    (calls.map (credits userId)).sum = approvals userId calls := by
  unfold approvals
  induction calls with
  | nil => rfl
  | cons call calls ih =>
    rw [List.map_cons, List.sum_cons, List.count_cons, ih]
    simp [credits, Nat.add_comm]

/-- **No order is made twice.** Whatever requests of whatever users are interleaved, whatever fails, and however
often the arrival of an order is looked for: at each moment the new orders of a user, with those in flight for the
user, are not more than the orders that were in flight and the APPROVEs of the user. -/
theorem ordersCounted (userId : String) (calls : List MealCall) (s : MealState) (P : MealPool) (os : List MealNote)
    (hr : Run (Pool.step exec) anyStep (serving calls s) P os) :
    ordersOf userId P.state ≤ ordersOf userId s + approvals userId calls := by
  rw [← sum_credits]
  exact balance_le_of_run (balanced_exec userId) (fun call _ => pays_call call) hr

/-- Two APPROVEs that both read the row as pending. -/
def twoApprovals : List MealCall :=
  [.workflow "user-1" (.handleUserDecision .APPROVE), .workflow "user-1" (.handleUserDecision .APPROVE), .execute,
    .execute]

/-- Both send their order, and each of the two is made. -/
theorem ordersCounted_twice : ∃ P os, Run (Pool.step exec) anyStep
      (serving twoApprovals { rows := oneProposal, orders := Order.someBalance }) P os ∧
    ordersOf "user-1" P.state = 2 ∧ ordersOf "user-1" P.state ≤ 0 + approvals "user-1" twoApprovals := by
  have hr := Run.of_runSteps .nil (show runSteps (Pool.step exec) anyStep
    [(0, {}), (1, {}), (0, {}), (1, {}), (0, {}), (1, {}), (0, {}), (1, {}), (2, {}), (2, {}), (2, {}), (3, {}),
      (3, {}), (3, {})]
    (serving twoApprovals { rows := oneProposal, orders := Order.someBalance }) [] = some (_, _) from rfl)
  exact ⟨_, _, hr, rfl, ordersCounted "user-1" twoApprovals _ _ _ hr⟩

end Gusto.Meal
