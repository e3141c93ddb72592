import Gusto.Escrow.Sequential
import Gusto.Order.Table

/-!
# What the order service acts on

`World` holds the wallets of escrow-service, the `orders` table, Swiggy's carts and the OrderPlaced
events that wait for their consumer; `exec` says what each call does to it.

The environment chooses, for each call, whether it fails (without effect) and what the gateway
answers.  A reservation, a capture or a release that does not fail runs the wallet's own code.
-/

set_option autoImplicit false

namespace Gusto.Order

open Effects
open Gusto.Escrow (Subscriptions Subscription WalletCall)

/-- The cart Swiggy keeps for a user at an address. -/
structure SwiggyCart where
  items : List OrderedItem := []
  coupon : Option String := none
  deriving DecidableEq, Repr

abbrev SwiggyCarts : Type := String → String → SwiggyCart

structure World where
  wallets : Subscriptions
  orders : Orders := {}
  carts : SwiggyCarts := fun _ _ => {}
  outbox : List OrderPlacedEvent := []

/-- What the environment chooses for one call. -/
structure Choice where
  error : Option Err := none
  response : McpToolResponse := { success := true }
  uuid : String := ""
  now : ℤ := 0

/-- The status column of the order. -/
def World.status (w : World) (o : ℕ) : Option OrderStatus := (w.orders.get? o).map (·.status)

/-! ### escrow-service -/

/-- The answer to a body that does not parse; the issues it lists are read by nobody. -/
def badRequest : Err := .axios (some ⟨400, none, none⟩) "Request failed with status code 400"

/-- A request to `WalletController`: the body is parsed, then the wallet's own code runs. -/
def walletRequest (c : String → ℤ → WalletCall) (userId : String) (amount : ℚ) (t : Subscriptions) :
    Except Err Unit × Subscriptions :=
  match positiveInt amount with
  | some n =>
    if userId = "" then (.error badRequest, t)
    else match (c userId n).prog.eval Escrow.exec none t with
      | (.ok _, t') => (.ok (), t')
      | (.error err, t') => (.error err.overHttp, t')
  | none => (.error badRequest, t)

/-! ### Swiggy -/

/-- What a Food tool that answers `success: true` does to the carts. -/
def FoodTool.effect (userId : String) (carts : SwiggyCarts) : FoodTool → SwiggyCarts
  | .update_food_cart _ addressId cartItems =>
    Function.update carts userId (Function.update (carts userId) addressId { items := cartItems })
  | .apply_food_coupon couponCode addressId =>
    Function.update carts userId (Function.update (carts userId) addressId
      { carts userId addressId with coupon := some couponCode })
  | .place_food_order addressId _ =>
    Function.update carts userId (Function.update (carts userId) addressId {})
  | .get_food_cart _ | .get_food_orders _ | .track_food_order _ => carts

/-! ### The handler -/

/-- What an `Int` column takes: an integer of 32 bits. -/
def Storable (amount : ℚ) : Prop :=
  amount.den = 1 ∧ -2147483648 ≤ amount.num ∧ amount.num ≤ 2147483647

instance : DecidablePred Storable := fun _ => inferInstanceAs (Decidable (_ ∧ _ ∧ _))

/-- What a call does that does not fail by itself. -/
def serve (c : Choice) : (i : OrderOp) → World → Except Err i.Answer × World
  | .findUnique id, w => (.ok (w.orders.get? id), w)
  | .create data, w =>
    if Storable data.savingsAchieved then
      (.ok (w.orders.newRow data), { w with orders := w.orders.create data })
    else (.error (.error "Invalid value for argument savingsAchieved."), w)
  | .update id data, w =>
    match w.orders.update id data with
    | .ok (order, orders) => (.ok order, { w with orders })
    | .error message => (.error (.error message), w)
  | .reserve userId amount, w =>
    let r := walletRequest .reserve userId amount w.wallets
    (r.1, { w with wallets := r.2 })
  | .capture userId amount, w =>
    let r := walletRequest .captureReservation userId amount w.wallets
    (r.1, { w with wallets := r.2 })
  | .release userId amount, w =>
    let r := walletRequest .releaseReservation userId amount w.wallets
    (r.1, { w with wallets := r.2 })
  | .food tool userId, w =>
    (.ok c.response,
      if c.response.success then { w with carts := tool.effect userId w.carts } else w)
  | .publishOrderPlaced event, w => (.ok (), { w with outbox := w.outbox ++ [event] })
  | .requestConfirmation _ _, w | .publishOrderFailed _ _ _, w | .publishOrderDelivered _ _, w =>
    (.ok (), w)
  | .randomUUID, w => (.ok c.uuid, w)
  | .now, w => (.ok c.now, w)

/-- The clock and `randomUUID` are the service's own and do not fail. -/
def OrderOp.Local : OrderOp → Prop
  | .randomUUID | .now => True
  | _ => False

instance : DecidablePred OrderOp.Local := fun i => by cases i <;> unfold OrderOp.Local <;> infer_instance

def exec : Handler OrderOp OrderOp.Answer Err World Choice := fun c i w =>
  match c.error with
  | some err => if i.Local then serve c i w else (.error err, w)
  | none => serve c i w

/-! ### What the calls leave alone -/

def FoodTool.isPlace : FoodTool → Bool
  | .place_food_order _ _ => true
  | _ => false

def OrderOp.isPlace : OrderOp → Bool
  | .food tool _ => tool.isPlace
  | _ => false

def OrderOp.isUpdate : OrderOp → Bool
  | .update _ _ => true
  | _ => false

def OrderOp.isCapture : OrderOp → Bool
  | .capture _ _ => true
  | _ => false

def OrderOp.isRelease : OrderOp → Bool
  | .release _ _ => true
  | _ => false

/-- Only writes to the table move orders. -/
theorem orders_exec (c : Choice) {i : OrderOp} (w : World) (h : i.isUpdate = false)
    (h' : ∀ data, i ≠ .create data) : (exec c i w).2.orders = w.orders := by
  unfold exec
  cases i with
  | update id data => cases h
  | create data => exact absurd rfl (h' data)
  | food tool u =>
    cases c.error with
    | some e => rfl
    | none =>
      change (if c.response.success then _ else _ : World).orders = _
      split <;> rfl
  | _ => cases c.error <;> rfl

theorem orders_food (c : Choice) (tool : FoodTool) (u : String) (w : World) :
    (exec c (.food tool u) w).2.orders = w.orders :=
  orders_exec c w rfl fun _ h => by cases h

theorem exec_findUnique (c : Choice) (id : ℕ) (w : World) :
    (∃ e, exec c (.findUnique id) w = (.error e, w)) ∨
      exec c (.findUnique id) w = (.ok (w.orders.get? id), w) := by
  unfold exec
  cases c.error with
  | some e => exact .inl ⟨e, rfl⟩
  | none => exact .inr rfl

/-- The clock and `randomUUID` always answer. -/
theorem exec_local (c : Choice) {i : OrderOp} (w : World) (h : i.Local) :
    ∃ a, exec c i w = (.ok a, w) := by
  unfold exec
  cases i with
  | randomUUID => cases c.error <;> exact ⟨c.uuid, rfl⟩
  | now => cases c.error <;> exact ⟨c.now, rfl⟩
  | _ => exact h.elim

/-- It asks for something and changes nothing. -/
def OrderOp.isAsk : OrderOp → Bool
  | .randomUUID | .now => true
  | .food (.get_food_cart _) _ | .food (.get_food_orders _) _ | .food (.track_food_order _) _ => true
  | _ => false

theorem exec_of_isAsk (c : Choice) {i : OrderOp} (w : World) (h : i.isAsk) : (exec c i w).2 = w := by
  unfold exec
  cases i with
  | randomUUID => cases c.error <;> rfl
  | now => cases c.error <;> rfl
  | food tool u =>
    cases c.error with
    | some e => rfl
    | none =>
      change (if c.response.success then _ else _ : World) = w
      cases tool <;> first | (cases h; done) | (split <;> rfl)
  | _ => cases h

/-- What a request to the wallet does: it is accepted, or it is refused and changes nothing. -/
def Requests (c : String → ℤ → WalletCall) (u : String) (amount : ℚ) (w : World)
    (r : Except Err Unit × World) : Prop :=
  (∃ e, r = (.error e, w)) ∨
    ∃ (n : ℤ) (sub : Subscription), u ≠ "" ∧ amount = n ∧ 0 < n ∧
      (c u n).Accepts (w.wallets u) sub ∧
      r = (.ok (), { w with wallets := Function.update w.wallets u (some sub) })

/-- Where its body parses, a request does what the wallet does. -/
theorem walletRequest_eq {c : String → ℤ → WalletCall} (hc : ∀ u n, (c u n).userId = u) {u : String}
    (hu : u ≠ "") {amount : ℚ} {n : ℤ} (hn : amount = n) (hpos : 0 < n) (t : Subscriptions) :
    walletRequest c u amount t =
      match (c u n).apply (t u) with
      | .ok sub => (.ok (), Function.update t u (some sub))
      | .error e => (.error e.overHttp, t) := by
  unfold walletRequest
  rw [positiveInt_eq_some.mpr ⟨hn, hpos⟩]
  simp only [hu, if_false]
  rw [WalletCall.eval_prog, hc]
  cases (c u n).apply (t u) <;> rfl

/-- A request that the wallet accepts. -/
theorem walletRequest_accepted {c : String → ℤ → WalletCall} (hc : ∀ u n, (c u n).userId = u)
    {u : String} (hu : u ≠ "") {n : ℤ} (hpos : 0 < n) {t : Subscriptions} {sub : Subscription}
    (h : (c u n).Accepts (t u) sub) :
    walletRequest c u n t = (.ok (), Function.update t u (some sub)) := by
  rw [walletRequest_eq hc hu rfl hpos, WalletCall.apply_of_accepts h]

theorem requests_of_walletRequest {c : String → ℤ → WalletCall} (hc : ∀ u n, (c u n).userId = u)
    (u : String) (amount : ℚ) (w : World) :
    Requests c u amount w ((walletRequest c u amount w.wallets).1,
      { w with wallets := (walletRequest c u amount w.wallets).2 }) := by
  by_cases hu : u = ""
  · refine .inl ⟨badRequest, ?_⟩
    unfold walletRequest
    cases positiveInt amount <;> simp [hu]
  · cases hn : positiveInt amount with
    | none =>
      refine .inl ⟨badRequest, ?_⟩
      unfold walletRequest
      rw [hn]
    | some n =>
      obtain ⟨hamount, hpos⟩ := positiveInt_eq_some.mp hn
      rw [walletRequest_eq hc hu hamount hpos]
      cases happly : (c u n).apply (w.wallets u) with
      | error e => exact .inl ⟨e.overHttp, rfl⟩
      | ok sub => exact .inr ⟨n, sub, hu, hamount, hpos, WalletCall.accepts_of_apply happly, rfl⟩

theorem exec_reserve (c : Choice) (u : String) (amount : ℚ) (w : World) :
    Requests .reserve u amount w (exec c (.reserve u amount) w) := by
  unfold exec
  cases c.error with
  | some e => exact .inl ⟨e, rfl⟩
  | none => exact requests_of_walletRequest (fun _ _ => rfl) u amount w

theorem exec_capture (c : Choice) (u : String) (amount : ℚ) (w : World) :
    Requests .captureReservation u amount w (exec c (.capture u amount) w) := by
  unfold exec
  cases c.error with
  | some e => exact .inl ⟨e, rfl⟩
  | none => exact requests_of_walletRequest (fun _ _ => rfl) u amount w

theorem exec_release (c : Choice) (u : String) (amount : ℚ) (w : World) :
    Requests .releaseReservation u amount w (exec c (.release u amount) w) := by
  unfold exec
  cases c.error with
  | some e => exact .inl ⟨e, rfl⟩
  | none => exact requests_of_walletRequest (fun _ _ => rfl) u amount w

/-- A reservation of what is available. -/
theorem reserve_ok {c : Choice} (hc : c.error = none) {u : String} (hu : u ≠ "") {n : ℤ}
    (hpos : 0 < n) {w : World} {old : Subscription} (hrow : w.wallets u = some old)
    (hle : n ≤ old.currentBalance - old.reservedAmount) :
    exec c (.reserve u n) w = (.ok (), { w with wallets := Function.update w.wallets u (some
      { old with reservedAmount := old.reservedAmount + n }) }) := by
  unfold exec serve
  rw [hc]
  simp only
  rw [walletRequest_accepted (fun _ _ => rfl) hu hpos (by rw [hrow]; exact .reserve hpos hle)]

/-- A capture of what is held. -/
theorem capture_ok {c : Choice} (hc : c.error = none) {u : String} (hu : u ≠ "") {n : ℤ}
    (hpos : 0 < n) {w : World} {old : Subscription} (hrow : w.wallets u = some old)
    (hle : n ≤ old.reservedAmount) :
    exec c (.capture u n) w = (.ok (), { w with wallets := Function.update w.wallets u (some
      { old with
        currentBalance := old.currentBalance - n
        reservedAmount := old.reservedAmount - n }) }) := by
  unfold exec serve
  rw [hc]
  simp only
  rw [walletRequest_accepted (fun _ _ => rfl) hu hpos
    (by rw [hrow]; exact .captureReservation hpos hle)]

/-- A release of what is held. -/
theorem release_ok {c : Choice} (hc : c.error = none) {u : String} (hu : u ≠ "") {n : ℤ}
    (hpos : 0 < n) {w : World} {old : Subscription} (hrow : w.wallets u = some old)
    (hle : n ≤ old.reservedAmount) :
    exec c (.release u n) w = (.ok (), { w with wallets := Function.update w.wallets u (some
      { old with reservedAmount := old.reservedAmount - n }) }) := by
  unfold exec serve
  rw [hc]
  simp only
  rw [walletRequest_accepted (fun _ _ => rfl) hu hpos
    (by rw [hrow]; exact .releaseReservation hpos hle)]

theorem exec_requestConfirmation (c : Choice) (u : String) (id : ℕ) (w : World) :
    (exec c (.requestConfirmation u id) w).2 = w := by
  unfold exec
  cases c.error <;> rfl

def OrderOp.isPublish : OrderOp → Bool
  | .publishOrderPlaced _ | .publishOrderFailed _ _ _ | .publishOrderDelivered _ _ => true
  | _ => false

/-- A published event waits for its consumer; nothing else changes. -/
theorem exec_publish (c : Choice) {i : OrderOp} (w : World) (h : i.isPublish) :
    ∃ events, (exec c i w).2 = { w with outbox := w.outbox ++ events } := by
  unfold exec
  cases i with
  | publishOrderPlaced event =>
    cases c.error with
    | some e => exact ⟨[], by rw [List.append_nil]; rfl⟩
    | none => exact ⟨[event], rfl⟩
  | publishOrderFailed u id reason => cases c.error <;> exact ⟨[], by rw [List.append_nil]; rfl⟩
  | publishOrderDelivered u id => cases c.error <;> exact ⟨[], by rw [List.append_nil]; rfl⟩
  | _ => cases h

def OrderOp.isFood : OrderOp → Bool
  | .food _ _ => true
  | _ => false

/-- Calls that do not go to the gateway leave the carts alone. -/
theorem carts_exec (c : Choice) {i : OrderOp} (w : World) (h : i.isFood = false) :
    (exec c i w).2.carts = w.carts := by
  unfold exec
  cases i with
  | food tool u => cases h
  | create data =>
    cases c.error with
    | some e => rfl
    | none =>
      change (if Storable data.savingsAchieved then _ else _ : Except Err OrderRow × World).2.carts = _
      split <;> rfl
  | update id data =>
    cases c.error with
    | some e => rfl
    | none =>
      simp only [serve]
      cases w.orders.update id data <;> rfl
  | _ => cases c.error <;> rfl

/-- A row is added; or `create` fails, or the row cannot be stored, and nothing changes. -/
theorem exec_create (c : Choice) (data : OrderCreate) (w : World) :
    ((c.error ≠ none ∨ ¬ Storable data.savingsAchieved) ∧ ∃ e, exec c (.create data) w = (.error e, w)) ∨
      (c.error = none ∧ Storable data.savingsAchieved ∧ exec c (.create data) w =
        (.ok (w.orders.newRow data), { w with orders := w.orders.create data })) := by
  unfold exec
  cases c.error with
  | some e => exact .inl ⟨.inl (by simp), e, rfl⟩
  | none =>
    by_cases hfits : Storable data.savingsAchieved
    · exact .inr ⟨rfl, hfits, if_pos hfits⟩
    · exact .inl ⟨.inr hfits, _, if_neg hfits⟩

/-- A row that was added. -/
theorem create_ok {c : Choice} {data : OrderCreate} {w w' : World} {order : OrderRow}
    (h : exec c (.create data) w = (.ok order, w')) :
    c.error = none ∧ Storable data.savingsAchieved ∧ order = w.orders.newRow data ∧
      w' = { w with orders := w.orders.create data } := by
  rcases exec_create c data w with ⟨-, e, he⟩ | ⟨herr, hfits, he⟩
  · rw [he] at h
    cases h
  · rw [he] at h
    cases h
    exact ⟨herr, hfits, rfl, rfl⟩

/-- It goes to the wallet. -/
def OrderOp.onWallet : OrderOp → Bool
  | .reserve _ _ | .capture _ _ | .release _ _ => true
  | _ => false

/-- Calls that do not go to the wallet leave it alone. -/
theorem wallets_exec (c : Choice) {i : OrderOp} (w : World) (h : i.onWallet = false) :
    (exec c i w).2.wallets = w.wallets := by
  unfold exec
  cases i with
  | reserve u a => cases h
  | capture u a => cases h
  | release u a => cases h
  | create data =>
    cases c.error with
    | some e => rfl
    | none =>
      change (if Storable data.savingsAchieved then _ else _ : Except Err OrderRow × World).2.wallets = _
      split <;> rfl
  | update id data =>
    cases c.error with
    | some e => rfl
    | none =>
      simp only [serve]
      cases w.orders.update id data <;> rfl
  | food tool u =>
    cases c.error with
    | some e => rfl
    | none =>
      change (if c.response.success then _ else _ : World).wallets = _
      split <;> rfl
  | _ => cases c.error <;> rfl

/-- An update writes its row, or it is refused and changes nothing. -/
theorem exec_update (c : Choice) (id : ℕ) (data : OrderUpdate) (w : World) :
    (∃ order t, exec c (.update id data) w = (.ok (data.write order), { w with orders := t }) ∧
      Orders.Wrote w.orders t id order data) ∨
    ∃ e, exec c (.update id data) w = (.error e, w) := by
  unfold exec
  cases c.error with
  | some e => exact .inr ⟨e, rfl⟩
  | none =>
    rcases w.orders.update_cases id data with ⟨order, t, h, hw⟩ | ⟨e, h⟩
    · refine .inl ⟨order, t, ?_, hw⟩
      simp only [serve, h]
    · refine .inr ⟨.error e, ?_⟩
      simp only [serve, h]

end Gusto.Order
