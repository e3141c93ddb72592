import Gusto.Order.World

/-!
# What a call of the order service does

Every way for a call to end, with the calls it made, the states it made them in and the last state:

* `Settled`: the status is written, then the hold is closed and the event published;
* `Confirmed`: `confirmAndPlace`;
* `Populated`, `Executed`: `populateAndAwaitConfirmation`.

`confirmed_of_run` and `executed_of_run` say that these are all; the proofs about runs of the service
go by cases on them and never unfold the programs.
-/

set_option autoImplicit false

namespace Gusto.Order

open Effects OrderService

abbrev OrderEvent : Type := Event World OrderOp Choice

/-! ### Writing the status -/

/-- The status is written, the hold closed and the event published; or the write is refused. -/
inductive Settled (id : ℕ) (data : OrderUpdate) (close publish : OrderOp) (w : World) :
    List OrderEvent → World → Prop
  | refused (c : Choice) (e : Err) (h : exec c (.update id data) w = (.error e, w)) :
    Settled id data close publish w [⟨w, .update id data, c⟩] w
  | closed (c c' c'' : Choice) (order : OrderRow) (t : Orders)
      (h : exec c (.update id data) w = (.ok (data.write order), { w with orders := t }))
      (hwrote : Orders.Wrote w.orders t id order data) :
    Settled id data close publish w
      [⟨w, .update id data, c⟩, ⟨{ w with orders := t }, close, c'⟩,
        ⟨(exec c' close { w with orders := t }).2, publish, c''⟩]
      (exec c'' publish (exec c' close { w with orders := t }).2).2

/-- What `markPlaced` writes. -/
abbrev placedData (swiggyOrderRef : String) (placedAt : ℤ) : OrderUpdate :=
  { status := .PLACED, swiggyOrderRef := some swiggyOrderRef, placedAt := some placedAt }

/-- The event `markPlaced` publishes. -/
abbrev placedEvent (order : OrderRow) (cart : StoredOrderCart) : OrderPlacedEvent :=
  { userId := order.userId, orderId := order.id, cart := cart.toOptimizedCart }

/-- A few questions that change nothing, and then as `Q` says. -/
def AsksThen (Q : List OrderEvent → World → Prop) (evs : List OrderEvent) (w' : World) : Prop :=
  ∃ asks rest, evs = asks ++ rest ∧ (∀ e ∈ asks, e.call.isAsk) ∧ Q rest w'

theorem AsksThen.nil {Q : List OrderEvent → World → Prop} {evs : List OrderEvent} {w' : World}
    (h : Q evs w') : AsksThen Q evs w' :=
  ⟨[], evs, rfl, by simp, h⟩

theorem AsksThen.cons {Q : List OrderEvent → World → Prop} {ask : OrderEvent}
    {evs : List OrderEvent} {w' : World} (hask : ask.call.isAsk) (h : AsksThen Q evs w') :
    AsksThen Q (ask :: evs) w' := by
  obtain ⟨asks, rest, rfl, hasks, hQ⟩ := h
  exact ⟨ask :: asks, rest, rfl, List.forall_mem_cons.mpr ⟨hask, hasks⟩, hQ⟩

/-- The order was placed, under some reference and at some time. -/
abbrev SettledPlaced (order : OrderRow) (cart : StoredOrderCart) (w : World)
    (evs : List OrderEvent) (w' : World) : Prop :=
  ∃ ref placedAt, Settled order.id (placedData ref placedAt)
    (.capture order.userId cart.finalTotal) (.publishOrderPlaced (placedEvent order cart)) w evs w'

/-- The order failed, for some reason. -/
abbrev SettledFailed (order : OrderRow) (cart : StoredOrderCart) (w : World)
    (evs : List OrderEvent) (w' : World) : Prop :=
  ∃ reason, Settled order.id { status := .FAILED } (.release order.userId cart.finalTotal)
    (.publishOrderFailed order.userId order.id reason) w evs w'

theorem wlp_markFailed {α : Type} (order : OrderRow) (cart : StoredOrderCart) (reason : String)
    (w : World) :
    (markFailed order cart reason : OrderProg α).wlp exec
      (fun evs _ w' => SettledFailed order cart w evs w') w := by
  refine Prog.wlp_await_bind.mpr fun c => ?_
  rcases exec_update c order.id { status := .FAILED } w with ⟨row, t, he, hwrote⟩ | ⟨e, he⟩
  · rw [he]
    refine Prog.wlp_attempt_bind.mpr fun c' => Prog.wlp_await_bind.mpr fun c'' => ?_
    have hclosed : SettledFailed order cart w _ _ := ⟨reason, .closed c c' c'' row t he hwrote⟩
    split <;> (rename_i h; rw [h] at hclosed; exact hclosed)
  · rw [he]
    exact ⟨reason, .refused c e he⟩

theorem wlp_markPlaced (order : OrderRow) (cart : StoredOrderCart) (ref : String) (w : World) :
    (markPlaced order cart ref).wlp exec
      (fun evs _ w' => AsksThen (SettledPlaced order cart w) evs w') w := by
  refine Prog.wlp_await_bind.mpr fun c₀ => ?_
  obtain ⟨placedAt, hnow⟩ := exec_local c₀ w (show OrderOp.now.Local from trivial)
  rw [hnow]
  refine Prog.wlp_await_bind.mpr fun c => ?_
  rcases exec_update c order.id (placedData ref placedAt) w with ⟨row, t, he, hwrote⟩ | ⟨e, he⟩
  · rw [he]
    refine Prog.wlp_attempt_bind.mpr fun c' => Prog.wlp_await_bind.mpr fun c'' => ?_
    have hclosed : SettledPlaced order cart w _ _ :=
      ⟨ref, placedAt, .closed c c' c'' row t he hwrote⟩
    split <;> (rename_i h; rw [h] at hclosed; exact .cons rfl (.nil hclosed))
  · rw [he]
    exact .cons rfl (.nil ⟨ref, placedAt, .refused c e he⟩)

theorem wlp_reconcile (order : OrderRow) (cart : StoredOrderCart) (reason : String) (w : World) :
    (reconcileAmbiguousFailure order cart reason).wlp exec
      (fun evs _ w' => AsksThen (SettledFailed order cart w) evs w') w := by
  refine Prog.wlp_attempt_bind.mpr fun c => ?_
  rw [exec_of_isAsk c w (by rfl)]
  rcases (exec c (.food (.get_food_orders cart.addressId) order.userId) w).1 with err | orders <;>
    exact Prog.wlp_mono (fun evs _ w' h => .cons rfl (.nil h)) (wlp_markFailed order cart _ w)

/-! ### `confirmAndPlace` -/

/-- The call that places the order. -/
abbrev placeCall (order : OrderRow) : OrderOp :=
  .food (.place_food_order order.cart.addressId (order.cart.paymentMethod.filter (· ≠ "")))
    order.userId

/-- Every way for `confirmAndPlace` to end. -/
inductive Confirmed (id : ℕ) (w : World) : List OrderEvent → World → Prop
  | rejected (c : Choice) (h : c.error ≠ none ∨ w.status id ≠ some .PENDING_CONFIRMATION) :
    Confirmed id w [⟨w, .findUnique id, c⟩] w
  | placed (c c' : Choice) (order : OrderRow) (hrow : w.orders.get? id = some order)
      (hst : order.status = .PENDING_CONFIRMATION) (herr : c'.error = none)
      (hsuccess : c'.response.success = true) (evs : List OrderEvent) (w' : World)
      (hs : AsksThen (SettledPlaced order order.cart (exec c' (placeCall order) w).2) evs w') :
    Confirmed id w (⟨w, .findUnique id, c⟩ :: ⟨w, placeCall order, c'⟩ :: evs) w'
  | failed (c c' : Choice) (order : OrderRow) (hrow : w.orders.get? id = some order)
      (hst : order.status = .PENDING_CONFIRMATION)
      (hfail : c'.error ≠ none ∨ c'.response.success = false) (evs : List OrderEvent) (w' : World)
      (hs : AsksThen (SettledFailed order order.cart w) evs w') :
    Confirmed id w (⟨w, .findUnique id, c⟩ :: ⟨w, placeCall order, c'⟩ :: evs) w'

theorem exec_food_error {c : Choice} {e : Err} (he : c.error = some e) (tool : FoodTool) (u : String)
    (w : World) : exec c (.food tool u) w = (.error e, w) := by
  unfold exec
  rw [he]
  rfl

theorem exec_food_ok {c : Choice} (he : c.error = none) (tool : FoodTool) (u : String) (w : World) :
    exec c (.food tool u) w = (.ok c.response,
      if c.response.success then { w with carts := tool.effect u w.carts } else w) := by
  unfold exec
  rw [he]
  rfl

/-- **Every run of `confirmAndPlace`.** -/
theorem wlp_confirmAndPlace (id : ℕ) (w : World) :
    (confirmAndPlace id).wlp exec (fun evs _ w' => Confirmed id w evs w') w := by
  rw [confirmAndPlace_eq]
  intro c
  rcases exec_findUnique c id w with ⟨e, he⟩ | he
  · rw [he]
    refine .rejected c (.inl fun h => ?_)
    unfold exec at he
    rw [h] at he
    cases he
  · rw [he]
    cases hrow : w.orders.get? id with
    | none => exact .rejected c (.inr (by simp [World.status, hrow]))
    | some order =>
      by_cases hst : order.status = .PENDING_CONFIRMATION
      · simp only [hst, if_true]
        intro c'
        obtain rfl := w.orders.id_eq id order hrow
        cases herr : c'.error with
        | some e =>
          rw [exec_food_error herr]
          refine Prog.wlp_mono ?_ (wlp_reconcile order order.cart (describeError e) w)
          exact fun evs _ w' h => .failed c c' order hrow hst (.inl (by simp [herr])) evs w' h
        | none =>
          have hexec := exec_food_ok herr (.place_food_order order.cart.addressId
            (order.cart.paymentMethod.filter (· ≠ ""))) order.userId w
          cases hs : c'.response.success with
          | true =>
            refine Prog.wlp_mono (fun evs _ w' h => .placed c c' order hrow hst herr hs evs w' h) ?_
            rw [hexec]
            generalize (if c'.response.success then _ else w : World) = w₁
            change (if c'.response.success then _ else _ : OrderProg OrderReply).wlp _ _ _
            rw [if_pos hs]
            split
            · exact wlp_markPlaced order order.cart _ _
            · refine Prog.wlp_await_bind.mpr fun c₀ => ?_
              obtain ⟨ref, href⟩ := exec_local c₀ w₁ (show OrderOp.randomUUID.Local from trivial)
              rw [href]
              exact Prog.wlp_mono (fun evs _ w' h => .cons rfl h)
                (wlp_markPlaced order order.cart ref _)
          | false =>
            rw [hexec, hs]
            change (if c'.response.success then _ else _ : OrderProg OrderReply).wlp _ _ _
            rw [if_neg (by simp [hs])]
            exact Prog.wlp_mono (fun evs _ w' h => .failed c c' order hrow hst (.inr hs) evs w' (.nil h))
              (wlp_markFailed order order.cart _ w)
      · simp only [hst, if_false]
        exact .rejected c (.inr (by simp [World.status, hrow, hst]))

/-! ### `populateAndAwaitConfirmation` -/

/-- The tools that `populate` calls, in order. -/
def populateTools (addressId restaurantId : String) (cart : OptimizedCart) : List FoodTool :=
  .update_food_cart restaurantId addressId cart.items ::
    ((cart.coupon.map fun couponCode => .apply_food_coupon couponCode addressId).toList ++
      [.get_food_cart addressId])

/-- Food tools called one after the other, until one throws. -/
def feed (userId : String) : List FoodTool → OrderProg Unit
  | [] => .ret ()
  | tool :: tools => do
    let _ ← food tool userId
    feed userId tools

theorem populate_eq (userId addressId restaurantId : String) (cart : OptimizedCart) :
    populate userId addressId restaurantId cart =
      feed userId (populateTools addressId restaurantId cart) := by
  unfold populate populateTools
  cases cart.coupon <;> rfl

/-- Every way for `feed` to end. -/
inductive Fed (userId : String) :
    List FoodTool → World → List OrderEvent → Except Err Unit → World → Prop
  | done (w : World) : Fed userId [] w [] (.ok ()) w
  | threw (tool : FoodTool) (tools : List FoodTool) (c : Choice) (e : Err) (w : World)
      (h : c.error = some e) :
    Fed userId (tool :: tools) w [⟨w, .food tool userId, c⟩] (.error e) w
  | answered (tool : FoodTool) (tools : List FoodTool) (c : Choice) (w : World)
      (h : c.error = none) (evs : List OrderEvent) (r : Except Err Unit) (w' : World)
      (hrest : Fed userId tools (exec c (.food tool userId) w).2 evs r w') :
    Fed userId (tool :: tools) w (⟨w, .food tool userId, c⟩ :: evs) r w'

theorem wlp_feed (userId : String) (tools : List FoodTool) (w : World) :
    (feed userId tools).wlp exec (fun evs r w' => Fed userId tools w evs r w') w := by
  induction tools generalizing w with
  | nil => exact .done w
  | cons tool tools ih =>
    refine Prog.wlp_await_bind.mpr fun c => ?_
    cases he : c.error with
    | some e =>
      rw [exec_food_error he]
      exact .threw tool tools c e w he
    | none =>
      have hexec := exec_food_ok he tool userId w
      rw [hexec]
      refine Prog.wlp_mono (fun evs r w' h => ?_) (ih _)
      exact .answered tool tools c w he evs r w' (by rw [hexec]; exact h)

theorem isFood_of_fed {u : String} {tools : List FoodTool} {w w' : World} {evs : List OrderEvent}
    {r : Except Err Unit} (h : Fed u tools w evs r w') : ∀ e ∈ evs, e.call.isFood := by
  induction h with
  | done w => simp
  | threw tool tools c e w h => simp [OrderOp.isFood]
  | answered tool tools c w h evs r w' hrest ih => exact List.forall_mem_cons.mpr ⟨rfl, ih⟩

/-- The row that `populateAndAwaitConfirmation` asks for. -/
abbrev createData (userId addressId restaurantId : String) (cart : OptimizedCart)
    (paymentMethod : Option String) : OrderCreate :=
  { userId, status := .PENDING_CONFIRMATION,
    cart := { cart with addressId, restaurantId, paymentMethod },
    savingsAchieved := cart.savingsAchieved }

/-- Every way for `populateAndAwaitConfirmation` to end. -/
inductive Executed (userId addressId restaurantId : String) (cart : OptimizedCart)
    (paymentMethod : Option String) (w : World) : List OrderEvent → World → Prop
  | tooBig (h : MAX_ORDER_TOTAL_PAISE ≤ cart.finalTotal) :
    Executed userId addressId restaurantId cart paymentMethod w [] w
  | notReserved (c : Choice) (e : Err) (h : exec c (.reserve userId cart.finalTotal) w = (.error e, w)) :
    Executed userId addressId restaurantId cart paymentMethod w
      [⟨w, .reserve userId cart.finalTotal, c⟩] w
  | notCreated (c c' : Choice) (w₁ : World)
      (h : exec c (.reserve userId cart.finalTotal) w = (.ok (), w₁)) (e : Err)
      (h' : exec c' (.create (createData userId addressId restaurantId cart paymentMethod)) w₁ =
        (.error e, w₁)) :
    Executed userId addressId restaurantId cart paymentMethod w
      [⟨w, .reserve userId cart.finalTotal, c⟩,
        ⟨w₁, .create (createData userId addressId restaurantId cart paymentMethod), c'⟩] w₁
  | pending (c c' c'' : Choice) (w₁ w₂ w₃ : World) (order : OrderRow)
      (h : exec c (.reserve userId cart.finalTotal) w = (.ok (), w₁))
      (h' : exec c' (.create (createData userId addressId restaurantId cart paymentMethod)) w₁ =
        (.ok order, w₂)) (evs : List OrderEvent)
      (hfed : Fed userId (populateTools addressId restaurantId cart) w₂ evs (.ok ()) w₃) :
    Executed userId addressId restaurantId cart paymentMethod w
      (⟨w, .reserve userId cart.finalTotal, c⟩ ::
        ⟨w₁, .create (createData userId addressId restaurantId cart paymentMethod), c'⟩ ::
        (evs ++ [⟨w₃, .requestConfirmation userId order.id, c''⟩])) w₃
  | failed (c c' : Choice) (w₁ w₂ w₃ w₄ : World) (order : OrderRow)
      (h : exec c (.reserve userId cart.finalTotal) w = (.ok (), w₁))
      (h' : exec c' (.create (createData userId addressId restaurantId cart paymentMethod)) w₁ =
        (.ok order, w₂)) (evs evs' : List OrderEvent) (e : Err)
      (hfed : Fed userId (populateTools addressId restaurantId cart) w₂ evs (.error e) w₃)
      (hs : SettledFailed order { cart with addressId, restaurantId, paymentMethod } w₃ evs' w₄) :
    Executed userId addressId restaurantId cart paymentMethod w
      (⟨w, .reserve userId cart.finalTotal, c⟩ ::
        ⟨w₁, .create (createData userId addressId restaurantId cart paymentMethod), c'⟩ ::
        (evs ++ evs')) w₄

/-- **Every run of `populateAndAwaitConfirmation`.** -/
theorem wlp_populateAndAwaitConfirmation (userId addressId restaurantId : String)
    (cart : OptimizedCart) (paymentMethod : Option String) (w : World) :
    (populateAndAwaitConfirmation userId addressId restaurantId cart paymentMethod).wlp exec
      (fun evs _ w' => Executed userId addressId restaurantId cart paymentMethod w evs w') w := by
  rw [populateAndAwaitConfirmation_eq]
  split
  · rename_i hbig
    exact .tooBig hbig
  · intro c
    rcases exec_reserve c userId cart.finalTotal w with ⟨e, he⟩ | ⟨n, sub, -, -, -, -, he⟩
    · rw [he]
      exact .notReserved c e he
    · rw [he]
      intro c'
      rcases exec_create c' (createData userId addressId restaurantId cart paymentMethod)
        { w with wallets := Function.update w.wallets userId (some sub) } with
        ⟨-, e, he'⟩ | ⟨-, -, he'⟩
      · rw [he']
        exact .notCreated c c' _ he e he'
      · rw [he']
        refine Prog.wlp_bind.mpr (Prog.wlp_attempt.mpr ?_)
        rw [populate_eq]
        refine Prog.wlp_mono (fun evs r w₃ hfed => ?_) (wlp_feed userId _ _)
        rcases r with e | _
        · refine Prog.wlp_mono (fun evs' _ w₄ hs => ?_) (wlp_markFailed _ _ _ w₃)
          exact .failed c c' _ _ w₃ w₄ _ he he' evs evs' e hfed hs
        · intro c''
          rw [exec_requestConfirmation]
          have hpend := Executed.pending c c' c'' _ _ w₃ _ he he' evs hfed
          rcases (exec c'' (.requestConfirmation userId _) w₃).1 with e | _ <;> exact hpend

/-! ### Whole calls -/

abbrev OrderDone : Type := Done World OrderOp Choice Err OrderReply

/-- A call of the order service, and what came of it. -/
abbrev OrderNote : Type := OrderCall × OrderDone

/-- One whole call. -/
abbrev orderStep : World → OrderCall × List Choice → Option (World × OrderNote) :=
  callStep exec OrderCall.prog

/-- The calls to the outside made in a run. -/
def eventsOf (os : List OrderNote) : List OrderEvent := os.flatMap (·.2.events)

theorem eventsOf_snoc (os : List OrderNote) (o : OrderNote) :
    eventsOf (os ++ [o]) = eventsOf os ++ o.2.events := by
  simp [eventsOf]

/-- What was made up to a call was made in the run. -/
theorem exists_of_mem_eventsOf {os pre post : List OrderNote} {o : OrderNote} {e : OrderEvent}
    (hos : os = pre ++ o :: post) (he : e ∈ eventsOf (pre ++ [o])) : ∃ o' ∈ os, e ∈ o'.2.events := by
  obtain ⟨o', ho', he'⟩ := List.mem_flatMap.mp he
  refine ⟨o', ?_, he'⟩
  rw [hos]
  rcases List.mem_append.mp ho' with h | h
  · exact List.mem_append_left _ h
  · rw [List.mem_singleton.mp h]
    simp

/-- The run up to a call and with it. -/
theorem run_upTo {ok : List OrderNote → World → OrderCall × List Choice → Prop} {w₀ w : World}
    {os pre post : List OrderNote} {o : OrderNote} (hrun : Run orderStep ok w₀ w os)
    (hos : os = pre ++ o :: post) : Run orderStep ok w₀ o.2.state (pre ++ [o]) := by
  obtain ⟨s₁, l, s₂, hr, hok, hs, -⟩ := hrun.split hos
  obtain rfl := (callStep_eq_some.mp hs).2.2
  exact .snoc l hr hok hs

/-- What every call to the outside keeps, every run of the service keeps. -/
theorem run_keeps {I : World → Prop} (hI : ∀ c i w, I w → I (exec c i w).2)
    {ok : List OrderNote → World → OrderCall × List Choice → Prop} {w₀ w : World}
    {os : List OrderNote} (hrun : Run orderStep ok w₀ w os) (h₀ : I w₀) : I w := by
  refine hrun.invariant (fun _ w => I w) h₀ fun os w l w' o hw _ hs => ?_
  obtain ⟨hr, -, rfl⟩ := callStep_eq_some.mp hs
  exact Prog.wlp_iff_run.mp (Prog.wlp_invariant hI hw) _ _ hr

theorem confirmed_of_run {id : ℕ} {cs : List Choice} {w : World} {d : OrderDone}
    (h : (OrderCall.confirm id).prog.run exec cs w = some d) : Confirmed id w d.events d.state :=
  Prog.wlp_iff_run.mp (wlp_confirmAndPlace id w) cs d h

theorem executed_of_run {u a r : String} {cart : OptimizedCart} {pm : Option String}
    {cs : List Choice} {w : World} {d : OrderDone}
    (h : (OrderCall.execute u a r cart pm).prog.run exec cs w = some d) :
    Executed u a r cart pm w d.events d.state :=
  Prog.wlp_iff_run.mp (wlp_populateAndAwaitConfirmation u a r cart pm w) cs d h

/-! ### The calls that are made -/

/-- It pays for an order, or announces that it is placed or delivered. -/
def OrderOp.closes : OrderOp → Bool
  | .capture _ _ | .publishOrderPlaced _ | .publishOrderDelivered _ _ => true
  | _ => false

theorem forall_settled {P : OrderOp → Prop} {id : ℕ} {data : OrderUpdate} {close publish : OrderOp}
    {w w' : World} {evs : List OrderEvent} (hs : Settled id data close publish w evs w')
    (hupdate : P (.update id data)) (hclose : P close) (hpub : P publish) :
    ∀ e ∈ evs, P e.call := by
  cases hs with
  | refused c e h => simpa using hupdate
  | closed c c' c'' order t h hwrote =>
    simp only [List.forall_mem_cons]
    exact ⟨hupdate, hclose, hpub, List.forall_mem_nil _⟩

/-- `populateAndAwaitConfirmation` makes no such call. -/
theorem closes_executed {u a r : String} {cart : OptimizedCart} {pm : Option String} {w w' : World}
    {evs : List OrderEvent} (h : Executed u a r cart pm w evs w') :
    ∀ e ∈ evs, e.call.closes = false := by
  have hfood {i : OrderOp} (hi : i.isFood) : i.closes = false := by
    cases i <;> first | rfl | cases hi
  cases h with
  | tooBig h => exact List.forall_mem_nil _
  | notReserved c e h => simp [OrderOp.closes]
  | notCreated c c' w₁ h e h' => simp [OrderOp.closes]
  | pending c c' c'' w₁ w₂ w₃ order h h' evs hfed =>
    simp only [List.forall_mem_cons, List.forall_mem_append]
    exact ⟨rfl, rfl, fun e he => hfood (isFood_of_fed hfed e he), rfl, List.forall_mem_nil _⟩
  | failed c c' w₁ w₂ w₃ w₄ order h h' evs evs' e hfed hs =>
    obtain ⟨reason, hs⟩ := hs
    simp only [List.forall_mem_cons, List.forall_mem_append]
    exact ⟨rfl, rfl, fun e he => hfood (isFood_of_fed hfed e he),
      forall_settled (P := fun i => i.closes = false) hs rfl rfl rfl⟩

/-! ### The rows that stay -/

theorem orders_fed {u : String} {tools : List FoodTool} {w w' : World} {evs : List OrderEvent}
    {r : Except Err Unit} (h : Fed u tools w evs r w') : w'.orders = w.orders := by
  induction h with
  | done w => rfl
  | threw tool tools c e w h => rfl
  | answered tool tools c w h evs r w' hrest ih => exact ih.trans (orders_food c tool u w)

/-- The status is written to the row of the order, or the table stays. -/
theorem orders_settled {id : ℕ} {data : OrderUpdate} {close publish : OrderOp} {w w' : World}
    {evs : List OrderEvent} (hs : Settled id data close publish w evs w')
    (hclose : close.onWallet) (hpub : publish.isPublish) :
    w'.orders = w.orders ∨ ∃ order, Orders.Wrote w.orders w'.orders id order data := by
  cases hs with
  | refused c e h => exact .inl rfl
  | closed c c' c'' order t h hwrote =>
    right
    rw [orders_exec c'' _ (by cases publish <;> first | rfl | cases hpub)
        (by rintro data rfl; cases hpub),
      orders_exec c' _ (by cases close <;> first | rfl | cases hclose)
        (by rintro data rfl; cases hclose)]
    exact ⟨order, hwrote⟩

/-- Writing the status of an order leaves the other rows. -/
theorem row_settled {id : ℕ} {data : OrderUpdate} {close publish : OrderOp} {w w' : World}
    {evs : List OrderEvent} (hs : Settled id data close publish w evs w')
    (hclose : close.onWallet) (hpub : publish.isPublish) {id' : ℕ} (hne : id' ≠ id) :
    w'.orders.get? id' = w.orders.get? id' := by
  rcases orders_settled hs hclose hpub with he | ⟨order, hwrote⟩
  · rw [he]
  · rw [hwrote.get?, if_neg hne]

/-- The row of an order that is not pending. -/
theorem row_confirmed {id id' : ℕ} {w w' : World} {evs : List OrderEvent} {row : OrderRow}
    (h : Confirmed id' w evs w') (hrow : w.orders.get? id = some row)
    (hst : row.status ≠ .PENDING_CONFIRMATION) : w'.orders.get? id = some row := by
  have hne : ∀ order, w.orders.get? id' = some order → order.status = .PENDING_CONFIRMATION →
      id ≠ order.id := by
    rintro order horder hpend rfl
    rw [w.orders.id_eq id' order horder, horder] at hrow
    cases hrow
    exact hst hpend
  rw [← hrow]
  cases h with
  | rejected c h => rfl
  | placed c c' order horder hpend herr hsuccess evs w' h =>
    rw [← orders_food c' (.place_food_order order.cart.addressId
      (order.cart.paymentMethod.filter (· ≠ ""))) order.userId w]
    obtain ⟨asks, rest, -, -, ref, placedAt, hs⟩ := h
    exact row_settled hs rfl rfl (hne order horder hpend)
  | failed c c' order horder hpend hfail evs w' h =>
    obtain ⟨asks, rest, -, -, reason, hs⟩ := h
    exact row_settled hs rfl rfl (hne order horder hpend)

section Execute

variable {u a r : String} {cart : OptimizedCart} {pm : Option String} {w w' w₁ w₂ : World}
  {c c' : Choice} {evs : List OrderEvent} {row order : OrderRow} {id : ℕ}

theorem orders_reserve (h : exec c (.reserve u cart.finalTotal) w = (.ok (), w₁)) :
    w₁.orders = w.orders := by
  have := orders_exec (i := .reserve u cart.finalTotal) c w rfl fun data h => by cases h
  rw [h] at this
  exact this

/-- The row of a new order is a row of its own. -/
theorem row_created (h : exec c (.reserve u cart.finalTotal) w = (.ok (), w₁))
    (h' : exec c' (.create (createData u a r cart pm)) w₁ = (.ok order, w₂))
    (hrow : w.orders.get? id = some row) : w₂.orders.get? id = some row ∧ id ≠ order.id := by
  rw [← orders_reserve h] at hrow
  obtain ⟨-, -, rfl, rfl⟩ := create_ok h'
  exact ⟨Orders.get?_create.mpr (.inl hrow), (Orders.get?_lt hrow).ne⟩

/-- Every row that is there. -/
theorem row_executed (h : Executed u a r cart pm w evs w') (hrow : w.orders.get? id = some row) :
    w'.orders.get? id = some row := by
  cases h with
  | tooBig h => exact hrow
  | notReserved c e h => exact hrow
  | notCreated c c' w₁ h e h' =>
    rw [orders_reserve h]
    exact hrow
  | pending c c' c'' w₁ w₂ w₃ order h h' evs hfed =>
    rw [orders_fed hfed]
    exact (row_created h h' hrow).1
  | failed c c' w₁ w₂ w₃ w₄ order h h' evs evs' e hfed hs =>
    obtain ⟨hrow₂, hne⟩ := row_created h h' hrow
    obtain ⟨reason, hs⟩ := hs
    rw [row_settled hs rfl rfl hne, orders_fed hfed]
    exact hrow₂

end Execute

theorem row_call {w w' : World} {l : OrderCall × List Choice} {o : OrderNote} {id : ℕ}
    {row : OrderRow} (h : orderStep w l = some (w', o)) (hrow : w.orders.get? id = some row)
    (hst : row.status ≠ .PENDING_CONFIRMATION) : w'.orders.get? id = some row := by
  obtain ⟨call, cs⟩ := l
  obtain ⟨hr, -, rfl⟩ := callStep_eq_some.mp h
  cases call with
  | execute u a r cart pm => exact row_executed (executed_of_run hr) hrow
  | confirm id' => exact row_confirmed (confirmed_of_run hr) hrow hst

/-- **An order that is not pending keeps its row** through every run. -/
theorem row_run {ok : List OrderNote → World → OrderCall × List Choice → Prop} {w w' : World}
    {os : List OrderNote} (hrun : Run orderStep ok w w' os) {id : ℕ} {row : OrderRow}
    (hrow : w.orders.get? id = some row) (hst : row.status ≠ .PENDING_CONFIRMATION) :
    w'.orders.get? id = some row :=
  hrun.invariant (fun _ w => w.orders.get? id = some row) hrow fun _ _ _ _ _ hw _ h =>
    row_call h hw hst

end Gusto.Order
