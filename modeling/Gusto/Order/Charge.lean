import Gusto.Order.Holds

/-!
# What an order costs

An order that is placed is paid for by the capture of its hold.  The OrderPlaced event that follows
goes to escrow-service, whose consumer debits the order's total.

* `chargeStep`: whole calls of the order service, and deliveries of the events they published;
* `ChargedOnce`: a placed order costs its total, a failed one nothing;
* `chargedOnce_iff`: this holds of a run exactly when every debit that a delivery asks for overdraws
  the balance, and is refused;
* `not_chargedOnce`: an order that is paid for twice.
-/

set_option autoImplicit false

namespace Gusto.Order

open Effects OrderService
open Gusto.Escrow (Subscription Subscriptions WalletCall)

/-! ### Calls and deliveries -/

/-- `registerOrderPlacedConsumer`.  The debit of an amount that is no integer fails at the column. -/
def consumeOrderPlaced (event : OrderPlacedEvent) (t : Subscriptions) : Subscriptions :=
  if event.cart.finalTotal.den = 1 then
    ((WalletCall.debit event.userId event.cart.finalTotal.num
      event.cart.savingsAchieved.num).prog.eval Escrow.exec none t).2
  else t

inductive ChargeLabel
  | call (call : OrderCall) (choices : List Choice)
  /-- The `n`-th event that waits is delivered. -/
  | deliver (n : ℕ)

inductive ChargeStep
  | called (o : OrderNote)
  | delivered (event : OrderPlacedEvent)

/-- A step, with the worlds before and after it. -/
structure ChargeNote where
  what : ChargeStep
  before : World
  after : World

/-- The world after a delivery: the event waits no more, and its consumer has run. -/
def deliver (n : ℕ) (event : OrderPlacedEvent) (w : World) : World :=
  { w with wallets := consumeOrderPlaced event w.wallets, outbox := w.outbox.eraseIdx n }

/-- One whole call of the order service, or one delivery. -/
def chargeStep (w : World) : ChargeLabel → Option (World × ChargeNote)
  | .call call choices => (orderStep w (call, choices)).map fun r => (r.1, ⟨.called r.2, w, r.1⟩)
  | .deliver n => (w.outbox[n]?).map fun event =>
    (deliver n event w, ⟨.delivered event, w, deliver n event w⟩)

/-! ### What is asked -/

/-- What the user has. -/
def balanceOf (w : World) (u : String) : ℚ :=
  (((w.wallets u).map (·.currentBalance)).getD 0 : ℤ)

/-- The order that a step is about: the one it makes, confirms, or delivers the event of. -/
def ChargeNote.about (n : ChargeNote) : Option ℕ :=
  match n.what with
  | .called (.execute _ _ _ _ _, _) =>
    if n.before.orders.rows.length < n.after.orders.rows.length then
      some n.before.orders.rows.length
    else none
  | .called (.confirm id, _) => some id
  | .delivered event => some event.orderId

/-- What a step costs the user, where it is about the order. -/
def ChargeNote.cost (u : String) (id : ℕ) (n : ChargeNote) : ℚ :=
  if n.about = some id then balanceOf n.before u - balanceOf n.after u else 0

/-- What the order has cost the user, capture and consumption together. -/
def charged (u : String) (id : ℕ) (ns : List ChargeNote) : ℚ := (ns.map (·.cost u id)).sum

/-- A placed order has cost its total, and a failed one nothing. -/
structure ChargedOnce (w : World) (ns : List ChargeNote) : Prop where
  placed : ∀ id order, w.orders.get? id = some order → order.status = .PLACED →
    charged order.userId id ns = order.cart.finalTotal
  failed : ∀ id order, w.orders.get? id = some order → order.status = .FAILED →
    charged order.userId id ns = 0

/-! ### The condition -/

/-- Nothing fails by itself; what the gateway answers, or throws, is left open. -/
def Undisturbed (n : ChargeNote) : Prop :=
  match n.what with
  | .called o => ∀ e ∈ o.2.events, e.call.isFood = false → e.choice.error = none
  | .delivered _ => True

instance : DecidablePred Undisturbed := fun n => by
  obtain ⟨what, before, after⟩ := n
  cases what <;> unfold Undisturbed <;> infer_instance

/-- Where the step delivers an event, its total is more than the user has. -/
def Overdraws (n : ChargeNote) : Prop :=
  ∀ event, n.what = .delivered event → ∀ sub, n.before.wallets event.userId = some sub →
    (sub.currentBalance : ℚ) < event.cart.finalTotal

/-! ### What does not charge -/

/-- It pays for an order, or has it paid for. -/
def OrderOp.charges : OrderOp → Bool
  | .capture _ _ | .publishOrderPlaced _ => true
  | _ => false

theorem balanceOf_congr (w w' : World) (h : w'.wallets = w.wallets) (u : String) :
    balanceOf w' u = balanceOf w u := by
  unfold balanceOf
  rw [h]

theorem balanceOf_update {w : World} {v : String} {sub : Subscription} (u : String) :
    balanceOf { w with wallets := Function.update w.wallets v (some sub) } u =
      if v = u then (sub.currentBalance : ℚ) else balanceOf w u := by
  unfold balanceOf
  by_cases h : v = u
  · subst h
    simp
  · simp [h, Function.update_of_ne (Ne.symm h)]

/-- A request that leaves the balance of its row leaves every balance. -/
theorem balance_requests {c : String → ℤ → WalletCall} {v : String} {amount : ℚ} {w : World}
    {r : Except Err Unit × World} (h : Requests c v amount w r)
    (hkeep : ∀ n row sub, (c v n).Accepts row sub →
      ∃ old, row = some old ∧ sub.currentBalance = old.currentBalance) (u : String) :
    balanceOf r.2 u = balanceOf w u ∧ r.2.outbox = w.outbox := by
  rcases h with ⟨e, rfl⟩ | ⟨n, sub, -, -, -, hacc, rfl⟩
  · exact ⟨rfl, rfl⟩
  · obtain ⟨old, hrow, hsub⟩ := hkeep n _ sub hacc
    refine ⟨?_, rfl⟩
    rw [balanceOf_update, hsub]
    split
    · subst_vars
      simp [balanceOf, hrow]
    · rfl

/-- Only a capture moves a balance, and only OrderPlaced waits for its consumer. -/
theorem balance_exec (c : Choice) (i : OrderOp) (w : World) (h : i.charges = false) (u : String) :
    balanceOf (exec c i w).2 u = balanceOf w u ∧ (exec c i w).2.outbox = w.outbox := by
  cases i with
  | capture v amount => cases h
  | publishOrderPlaced event => cases h
  | reserve v amount =>
    exact balance_requests (exec_reserve c v amount w)
      (fun n row sub hacc => by cases hacc; exact ⟨_, rfl, rfl⟩) u
  | release v amount =>
    exact balance_requests (exec_release c v amount w)
      (fun n row sub hacc => by cases hacc; exact ⟨_, rfl, rfl⟩) u
  | create data =>
    rcases exec_create c data w with ⟨-, e, he⟩ | ⟨-, -, he⟩ <;> rw [he] <;> exact ⟨rfl, rfl⟩
  | update id data =>
    rcases exec_update c id data w with ⟨order, t, he, -⟩ | ⟨e, he⟩ <;> rw [he] <;> exact ⟨rfl, rfl⟩
  | food tool v =>
    cases he : c.error with
    | some e => rw [exec_food_error he]; exact ⟨rfl, rfl⟩
    | none =>
      rw [exec_food_ok he]
      simp only
      split <;> exact ⟨rfl, rfl⟩
  | _ =>
    unfold exec
    cases c.error <;> exact ⟨rfl, rfl⟩

/-- A call of the service that makes no charging call. -/
theorem balance_run {p : OrderProg OrderReply} {cs : List Choice} {w : World} {d : OrderDone}
    (h : p.run exec cs w = some d) (hevs : ∀ e ∈ d.events, e.call.charges = false) :
    (∀ u, balanceOf d.state u = balanceOf w u) ∧ d.state.outbox = w.outbox := by
  have hwlp : p.wlp exec (fun evs _ w' => (∀ e ∈ evs, e.call.charges = false) →
      (balanceOf w', w'.outbox) = (balanceOf w, w.outbox)) w :=
    Prog.wlp_frame (f := fun w => (balanceOf w, w.outbox)) (P := fun i => i.charges = false)
      fun c i w hi => Prod.ext (funext fun u => (balance_exec c i w hi u).1)
        (balance_exec c i w hi "").2
  have hframe := Prog.wlp_iff_run.mp hwlp cs d h hevs
  exact ⟨fun u => congrFun (congrArg Prod.fst hframe) u, congrArg Prod.snd hframe⟩

/-! ### One call -/

/-- What the order has been charged for when it is placed. -/
def placedPart (u : String) (row : Option OrderRow) : ℚ :=
  match row with
  | some order => if order.userId = u ∧ order.status = .PLACED then order.cart.finalTotal else 0
  | none => 0

/-- What a call does to the balances, the events that wait, and what the orders have cost: nothing;
or it places an order, captures its total and publishes its event. -/
inductive CallEffect (w w' : World) (call : OrderCall) : Prop
  | quiet (hbal : ∀ u, balanceOf w' u = balanceOf w u) (hout : w'.outbox = w.outbox)
      (hplaced : ∀ u id, placedPart u (w'.orders.get? id) = placedPart u (w.orders.get? id))
  | placed (order : OrderRow) (data : OrderUpdate) (n : ℤ) (hcall : call = .confirm order.id)
      (hpos : 0 < n) (hn : order.cart.finalTotal = n) (hst : order.status = .PENDING_CONFIRMATION)
      (hdata : data.status = .PLACED) (hrow : w.orders.get? order.id = some order)
      (hget : ∀ id, w'.orders.get? id =
        if id = order.id then some (data.write order) else w.orders.get? id)
      (hout : w'.outbox = w.outbox ++ [placedEvent order order.cart])
      (hbal : ∀ u, balanceOf w' u = balanceOf w u - if order.userId = u then (n : ℚ) else 0)

theorem placedPart_of_status {order : OrderRow} (h : order.status ≠ .PLACED) (u : String) :
    placedPart u (some order) = 0 := if_neg fun hc => h hc.2

theorem placedPart_wrote {t t' : Orders} {id : ℕ} {order : OrderRow} {data : OrderUpdate}
    (hwrote : Orders.Wrote t t' id order data) (hst : order.status ≠ .PLACED)
    (hdata : data.status ≠ .PLACED) (u : String) (id' : ℕ) :
    placedPart u (t'.get? id') = placedPart u (t.get? id') := by
  rw [hwrote.get?]
  split
  · subst_vars
    rw [hwrote.1, placedPart_of_status hst, placedPart_of_status]
    exact hdata
  · rfl

theorem placedPart_create {t : Orders} {data : OrderCreate} (hdata : data.status ≠ .PLACED)
    (u : String) (id : ℕ) : placedPart u ((t.create data).get? id) = placedPart u (t.get? id) := by
  cases hrow : t.get? id with
  | some order => rw [Orders.get?_create.mpr (.inl hrow)]
  | none =>
    cases hrow' : (t.create data).get? id with
    | none => rfl
    | some order =>
      rcases Orders.get?_create.mp hrow' with h | ⟨-, rfl⟩
      · rw [hrow] at h
        cases h
      · exact placedPart_of_status hdata u

/-- Writing a final status other than PLACED. -/
theorem placedPart_settled {id : ℕ} {data : OrderUpdate} {close publish : OrderOp} {w w' : World}
    {evs : List OrderEvent} {order : OrderRow} (hs : Settled id data close publish w evs w')
    (hclose : close.onWallet) (hpub : publish.isPublish) (hrow : w.orders.get? id = some order)
    (hst : order.status ≠ .PLACED) (hdata : data.status ≠ .PLACED) (u : String) (id' : ℕ) :
    placedPart u (w'.orders.get? id') = placedPart u (w.orders.get? id') := by
  by_cases hid : id' = id
  · subst hid
    cases hs with
    | refused c e h => rfl
    | closed c c' c'' order' t h hwrote =>
      obtain rfl : order' = order := Option.some.inj (hwrote.1.symm.trans hrow)
      rw [orders_exec c'' _ (by cases publish <;> first | rfl | cases hpub)
          (by rintro data rfl; cases hpub),
        orders_exec c' _ (by cases close <;> first | rfl | cases hclose)
          (by rintro data rfl; cases hclose)]
      exact placedPart_wrote hwrote hst hdata u _
  · rw [row_settled hs hclose hpub hid]

theorem charges_of_isAsk {i : OrderOp} (h : i.isAsk) : i.charges = false := by
  cases i <;> first | rfl | cases h

theorem charges_of_closes {i : OrderOp} (h : i.closes = false) : i.charges = false := by
  cases i <;> first | rfl | cases h

/-- `populateAndAwaitConfirmation` places nothing. -/
theorem placedPart_executed {u a r : String} {cart : OptimizedCart} {pm : Option String} {w w' : World}
    {evs : List OrderEvent} (h : Executed u a r cart pm w evs w') (v : String) (id : ℕ) :
    placedPart v (w'.orders.get? id) = placedPart v (w.orders.get? id) := by
  cases h with
  | tooBig h => rfl
  | notReserved c e h => rfl
  | notCreated c c' w₁ h e h' => rw [orders_reserve h]
  | pending c c' c'' w₁ w₂ w₃ order h h' evs hfed =>
    obtain ⟨-, -, -, rfl⟩ := create_ok h'
    rw [orders_fed hfed, ← orders_reserve h]
    exact placedPart_create (fun h => by cases h) v id
  | failed c c' w₁ w₂ w₃ w₄ order h h' evs evs' e hfed hs =>
    obtain ⟨reason, hs⟩ := hs
    obtain ⟨-, -, rfl, rfl⟩ := create_ok h'
    rw [placedPart_settled hs rfl rfl (by rw [orders_fed hfed]; exact Orders.get?_newRow _ _)
      (fun h => by cases h) nofun, orders_fed hfed, ← orders_reserve h]
    exact placedPart_create (fun h => by cases h) v id

/-- The order is placed: its hold is captured, and its event waits for the consumer. -/
theorem effect_settledPlaced {order : OrderRow} {w w' : World} {evs : List OrderEvent}
    {ref : String} {placedAt : ℤ}
    (hs : Settled order.id (placedData ref placedAt)
      (.capture order.userId order.cart.finalTotal)
      (.publishOrderPlaced (placedEvent order order.cart)) w evs w')
    (hserved : ∀ e ∈ evs, e.call.isFood = false → e.choice.error = none)
    (hrow : w.orders.get? order.id = some order) (hst : order.status = .PENDING_CONFIRMATION)
    (hok : PendingOk w) (hback : ∀ u, 0 ≤ slack w u) : CallEffect w w' (.confirm order.id) := by
  cases hs with
  | refused c e h => exact .quiet (fun u => rfl) rfl fun u id => rfl
  | closed c c' c'' order' t h hwrote =>
    obtain rfl : order' = order := Option.some.inj (hwrote.1.symm.trans hrow)
    simp only [List.forall_mem_cons] at hserved
    obtain ⟨-, hc', hc'', -⟩ := hserved
    obtain ⟨hu, n, hpos, hn⟩ := hok order'.id order' hrow hst
    have hheld := held_of_pending hok hback hrow hst
    rw [hn] at hheld
    obtain ⟨old, hold, hle⟩ := row_of_reserved hpos hheld
    have hcapture := capture_ok (w := { w with orders := t }) (hc' rfl) hu hpos hold hle
    rw [hn, hcapture]
    have hpublish : ∀ w : World, (exec c'' (.publishOrderPlaced (placedEvent order' order'.cart)) w).2 =
        { w with outbox := w.outbox ++ [placedEvent order' order'.cart] } := fun w => by
      unfold exec
      rw [hc'' rfl]
      rfl
    rw [hpublish]
    refine .placed order' (placedData ref placedAt) n rfl hpos hn hst rfl hrow hwrote.get? rfl
      fun u => ?_
    refine (balanceOf_update u).trans ?_
    split
    · subst_vars
      simp [balanceOf, hold]
    · simp [balanceOf]

theorem CallEffect.of_before {w w₁ w' : World} {call : OrderCall} (hw : w₁.wallets = w.wallets)
    (ho : w₁.orders = w.orders) (hout : w₁.outbox = w.outbox) (h : CallEffect w₁ w' call) :
    CallEffect w w' call := by
  have hbal : ∀ u, balanceOf w₁ u = balanceOf w u := balanceOf_congr w w₁ hw
  cases h with
  | quiet hbal' hout' hplaced =>
    exact .quiet (fun u => (hbal' u).trans (hbal u)) (hout'.trans hout)
      fun u id => by rw [hplaced, ho]
  | placed order data n hcall hpos hn hst hdata hrow hget hout' hbal' =>
    exact .placed order data n hcall hpos hn hst hdata (ho ▸ hrow)
      (fun id => by rw [hget, ho]) (by rw [hout', hout]) (fun u => by rw [hbal', hbal])

/-- `confirmAndPlace` charges the order it places. -/
theorem effect_confirmed {id : ℕ} {cs : List Choice} {w : World} {d : OrderDone}
    (h : (OrderCall.confirm id).prog.run exec cs w = some d)
    (hserved : ∀ e ∈ d.events, e.call.isFood = false → e.choice.error = none)
    (hok : PendingOk w) (hback : ∀ u, 0 ≤ slack w u) : CallEffect w d.state (.confirm id) := by
  have hbal := balance_run h
  have hconf := confirmed_of_run h
  obtain ⟨result, w', evs⟩ := d
  simp only at hserved hbal hconf ⊢
  cases hconf with
  | rejected c h => exact .quiet (fun u => rfl) rfl fun u id => rfl
  | placed c c' order hrow hst herr hsuccess evs w' hs =>
    obtain rfl := w.orders.id_eq id order hrow
    obtain ⟨asks, rest, rfl, -, ref, placedAt, hs⟩ := hs
    have ho : (exec c' (placeCall order) w).2.orders = w.orders := orders_food c' _ _ w
    have hw : (exec c' (placeCall order) w).2.wallets = w.wallets := wallets_exec c' w rfl
    refine .of_before hw ho (balance_exec c' _ w rfl "").2 ?_
    refine effect_settledPlaced hs (fun e he => hserved e (by simp [he])) (ho ▸ hrow) hst ?_ ?_
    · unfold PendingOk
      rw [ho]
      exact hok
    · intro u
      rw [slack_congr w _ hw ho]
      exact hback u
  | failed c c' order hrow hst hfail evs w' hs =>
    obtain rfl := w.orders.id_eq id order hrow
    obtain ⟨asks, rest, rfl, hasks, reason, hs⟩ := hs
    obtain ⟨hbal, hout⟩ := hbal (by
      simp only [List.forall_mem_cons, List.forall_mem_append]
      exact ⟨rfl, rfl, fun e he => charges_of_isAsk (hasks e he),
        forall_settled (P := fun i => i.charges = false) hs rfl rfl rfl⟩)
    exact .quiet hbal hout fun u id =>
      placedPart_settled hs rfl rfl hrow (by rw [hst]; nofun) nofun u id

theorem effect_call {w w' : World} {l : OrderCall × List Choice} {o : OrderNote}
    (h : orderStep w l = some (w', o))
    (hserved : ∀ e ∈ o.2.events, e.call.isFood = false → e.choice.error = none)
    (hok : PendingOk w) (hback : ∀ u, 0 ≤ slack w u) : CallEffect w w' o.1 := by
  obtain ⟨hr, hl, rfl⟩ := callStep_eq_some.mp h
  obtain ⟨call, cs⟩ := l
  rw [hl]
  cases call with
  | execute u a r cart pm =>
    have hexecuted := executed_of_run hr
    obtain ⟨hbal, hout⟩ := balance_run hr fun e he =>
      charges_of_closes (closes_executed hexecuted e he)
    exact .quiet hbal hout (placedPart_executed hexecuted)
  | confirm id => exact effect_confirmed hr hserved hok hback

/-! ### One delivery -/

/-- The debit of the event is accepted. -/
def Debits (event : OrderPlacedEvent) (t : Subscriptions) : Prop :=
  ∃ n : ℤ, 0 < n ∧ event.cart.finalTotal = n ∧
    ∃ sub, t event.userId = some sub ∧ n ≤ sub.currentBalance

/-- The consumer takes the total off the balance, or it is refused and changes nothing. -/
theorem consume_cases (event : OrderPlacedEvent) (t : Subscriptions) :
    (∃ (n : ℤ) (sub : Subscription), 0 < n ∧ event.cart.finalTotal = n ∧
      t event.userId = some sub ∧ n ≤ sub.currentBalance ∧ consumeOrderPlaced event t =
        Function.update t event.userId (some { sub with currentBalance := sub.currentBalance - n })) ∨
      (¬ Debits event t ∧ consumeOrderPlaced event t = t) := by
  unfold consumeOrderPlaced
  by_cases hden : event.cart.finalTotal.den = 1
  · have hnum : event.cart.finalTotal = event.cart.finalTotal.num :=
      ((Rat.den_eq_one_iff _).mp hden).symm
    rw [if_pos hden, WalletCall.eval_prog, show (WalletCall.debit event.userId
      event.cart.finalTotal.num event.cart.savingsAchieved.num).userId = event.userId from rfl]
    cases happly : (WalletCall.debit event.userId event.cart.finalTotal.num
        event.cart.savingsAchieved.num).apply (t event.userId) with
    | ok sub =>
      have hacc := WalletCall.accepts_of_apply happly
      generalize hrow : t event.userId = row at hacc
      cases hacc with
      | @debit u a s old pos le => exact .inl ⟨_, old, pos, hnum, rfl, le, rfl⟩
    | error e =>
      refine .inr ⟨?_, rfl⟩
      rintro ⟨n, hpos, hn, sub, hrow, hle⟩
      have hacc : (WalletCall.debit event.userId n event.cart.savingsAchieved.num).Accepts
          (some sub) _ := .debit hpos hle
      have hn' : event.cart.finalTotal.num = n := by simp [hn]
      rw [← hrow, ← hn'] at hacc
      rw [WalletCall.apply_of_accepts hacc] at happly
      cases happly
  · refine .inr ⟨?_, if_neg hden⟩
    rintro ⟨n, -, hn, -⟩
    rw [hn] at hden
    exact hden rfl

/-- Its consumer takes the total from its user, and nothing from others. -/
theorem balance_deliver_of_debits {n : ℕ} {event : OrderPlacedEvent} {w : World}
    (h : Debits event w.wallets) (u : String) :
    balanceOf (deliver n event w) u =
      balanceOf w u - if event.userId = u then event.cart.finalTotal else 0 := by
  rcases consume_cases event w.wallets with ⟨m, sub, -, hm, hrow, -, hcons⟩ | ⟨hnot, -⟩
  · unfold deliver
    rw [hcons]
    refine (balanceOf_update u).trans ?_
    split
    · subst_vars
      simp [balanceOf, hrow, hm]
    · simp
  · exact absurd h hnot

theorem deliver_of_not_debits {n : ℕ} {event : OrderPlacedEvent} {w : World}
    (h : ¬ Debits event w.wallets) : (deliver n event w).wallets = w.wallets := by
  rcases consume_cases event w.wallets with ⟨m, sub, hpos, hm, hrow, hle, -⟩ | ⟨-, hcons⟩
  · exact absurd ⟨m, hpos, hm, sub, hrow, hle⟩ h
  · exact hcons

/-- What is held stays. -/
theorem reserved_deliver (n : ℕ) (event : OrderPlacedEvent) (w : World) (u : String) :
    reservedOf (deliver n event w) u = reservedOf w u := by
  rcases consume_cases event w.wallets with ⟨m, sub, -, -, hrow, -, hcons⟩ | ⟨-, hcons⟩
  · unfold deliver
    rw [hcons]
    refine (reservedOf_update u).trans ?_
    split
    · subst_vars
      simp [reservedOf, hrow]
    · rfl
  · exact reservedOf_congr w _ hcons u

/-! ### Runs -/

/-- The event is that of a placed order, for a positive amount of paise. -/
def Placed (w : World) (event : OrderPlacedEvent) : Prop :=
  ∃ row, w.orders.get? event.orderId = some row ∧ row.status = .PLACED ∧
    event = placedEvent row row.cart ∧ ∃ n : ℤ, 0 < n ∧ row.cart.finalTotal = n

/-- What a call costs. -/
def callCost (u : String) (id : ℕ) (n : ChargeNote) : ℚ :=
  match n.what with
  | .called _ => n.cost u id
  | .delivered _ => 0

/-- What a delivery costs. -/
def deliveryCost (u : String) (id : ℕ) (n : ChargeNote) : ℚ :=
  match n.what with
  | .called _ => 0
  | .delivered _ => n.cost u id

theorem charged_eq (u : String) (id : ℕ) (ns : List ChargeNote) :
    charged u id ns = (ns.map (callCost u id)).sum + (ns.map (deliveryCost u id)).sum := by
  rw [← List.sum_map_add]
  refine congrArg List.sum (List.map_congr_left fun n _ => ?_)
  unfold callCost deliveryCost
  cases n.what <;> simp

/-- **The invariant**: the calls have charged each order what it is to cost, and the events that wait
or were delivered are those of placed orders. -/
structure Charges (ns : List ChargeNote) (w : World) : Prop where
  pendingOk : PendingOk w
  backed : ∀ u, 0 ≤ slack w u
  waiting : ∀ event ∈ w.outbox, Placed w event
  delivered : ∀ n ∈ ns, ∀ event, n.what = .delivered event → Placed w event
  called : ∀ u id, (ns.map (callCost u id)).sum = placedPart u (w.orders.get? id)

theorem Placed.mono {w w' : World} {event : OrderPlacedEvent} (h : Placed w event)
    (hkeep : ∀ row, w.orders.get? event.orderId = some row → row.status = .PLACED →
      w'.orders.get? event.orderId = some row) : Placed w' event := by
  obtain ⟨row, hrow, hst, heq, hn⟩ := h
  exact ⟨row, hkeep row hrow hst, hst, heq, hn⟩

/-- What a call costs the order it is about. -/
theorem callCost_of_effect {w w' : World} {o : OrderNote} (h : CallEffect w w' o.1) (u : String)
    (id : ℕ) : callCost u id ⟨.called o, w, w'⟩ =
      placedPart u (w'.orders.get? id) - placedPart u (w.orders.get? id) := by
  unfold callCost ChargeNote.cost
  cases h with
  | quiet hbal hout hplaced => simp [hbal, hplaced]
  | placed order data n hcall hpos hn hst hdata hrow hget hout hbal =>
    obtain ⟨call, d⟩ := o
    obtain rfl : call = .confirm order.id := hcall
    simp only [ChargeNote.about, Option.some.injEq, hbal, hget]
    by_cases hid : id = order.id
    · subst hid
      simp [hrow, placedPart, hst, OrderUpdate.write, hdata, hn]
    · simp [hid, Ne.symm hid]

theorem Charges.call {ns : List ChargeNote} {w w' : World} {l : OrderCall × List Choice}
    {o : OrderNote} (hI : Charges ns w) (h : orderStep w l = some (w', o))
    (hserved : ∀ e ∈ o.2.events, e.call.isFood = false → e.choice.error = none) :
    Charges (ns ++ [⟨.called o, w, w'⟩]) w' := by
  have hbooks := books_call h hI.pendingOk hI.backed
  have heffect := effect_call h hserved hI.pendingOk hI.backed
  have hkeep : ∀ event, Placed w event → Placed w' event := fun event hp =>
    hp.mono fun row hrow hst => row_call h hrow (by rw [hst]; nofun)
  refine ⟨hbooks.pendingOk, fun u => ?_, ?_, fun n hn event hw => ?_, fun u id => ?_⟩
  · rw [hbooks.slack]
    exact add_nonneg (hI.backed u) (List.sum_nonneg (lostPart_nonneg hbooks.lost u))
  · cases heffect with
    | quiet hbal hout hplaced => exact fun event he => hkeep event (hI.waiting event (hout ▸ he))
    | placed order data n hcall hpos hn hst hdata hrow hget hout hbal =>
      intro event he
      rw [hout] at he
      rcases List.mem_append.mp he with he | he
      · exact hkeep event (hI.waiting event he)
      · obtain rfl := List.mem_singleton.mp he
        exact ⟨data.write order, by rw [hget, if_pos rfl], hdata, rfl, n, hpos, hn⟩
  · rcases List.mem_append.mp hn with hn | hn
    · exact hkeep event (hI.delivered n hn event hw)
    · obtain rfl := List.mem_singleton.mp hn
      cases hw
  · rw [List.map_append, List.sum_append, hI.called, List.map_singleton, List.sum_singleton,
      callCost_of_effect heffect]
    ring

theorem Charges.deliver {ns : List ChargeNote} {w : World} {k : ℕ} {event : OrderPlacedEvent}
    (hI : Charges ns w) (h : w.outbox[k]? = some event) :
    Charges (ns ++ [⟨.delivered event, w, Order.deliver k event w⟩]) (Order.deliver k event w) := by
  have hkeep : ∀ event', Placed w event' → Placed (Order.deliver k event w) event' :=
    fun event' hp => hp
  refine ⟨hI.pendingOk, fun u => ?_, fun event' he => ?_, fun n hn event' hw => ?_, fun u id => ?_⟩
  · unfold slack
    rw [reserved_deliver, pendingTotal_congr w (Order.deliver k event w) rfl]
    exact hI.backed u
  · exact hkeep event' (hI.waiting event' (List.mem_of_mem_eraseIdx he))
  · rcases List.mem_append.mp hn with hn | hn
    · exact hkeep event' (hI.delivered n hn event' hw)
    · obtain rfl := List.mem_singleton.mp hn
      cases hw
      exact hkeep event (hI.waiting event (List.mem_of_getElem? h))
  · rw [List.map_append, List.sum_append, hI.called]
    simp [callCost, Order.deliver]

/-- **The charges of a run.** -/
theorem charges_run {t : Subscriptions} {carts : SwiggyCarts} {w : World} {ns : List ChargeNote}
    (hheld : ∀ u sub, t u = some sub → 0 ≤ sub.reservedAmount)
    (hrun : Run chargeStep anyStep { wallets := t, carts := carts } w ns)
    (hserved : ∀ n ∈ ns, Undisturbed n) : Charges ns w := by
  refine hrun.invariant_of_forall hserved (fun ns w => Charges ns w) ?_ ?_
  · have hnone : ∀ id, ({ wallets := t, carts := carts } : World).orders.get? id = none := fun id => rfl
    have hfresh : Fresh { wallets := t, carts := carts } :=
      ⟨fun id order hrow => absurd hrow (by rw [hnone]; nofun), hheld⟩
    refine ⟨fun id order hrow hst => absurd hst (hfresh.noPending id order hrow), fun u => ?_,
      by simp, by simp, fun u id => ?_⟩
    · unfold slack
      rw [pendingTotal_fresh hfresh, sub_zero]
      exact reservedOf_fresh hfresh u
    · rw [hnone]
      rfl
  · intro ns w l w' n hI hn hs
    cases l with
    | call call choices =>
      obtain ⟨⟨w₁, o⟩, h, heq⟩ := Option.map_eq_some_iff.mp hs
      cases heq
      exact hI.call h hn
    | deliver k =>
      obtain ⟨event, h, heq⟩ := Option.map_eq_some_iff.mp hs
      cases heq
      exact hI.deliver h

/-- A delivery note is that of a delivery. -/
theorem after_of_delivered {t : Subscriptions} {carts : SwiggyCarts} {w : World}
    {ns : List ChargeNote} (hrun : Run chargeStep anyStep { wallets := t, carts := carts } w ns) :
    ∀ n ∈ ns, ∀ event, n.what = .delivered event → ∃ k, n.after = deliver k event n.before := by
  refine hrun.forall_mem fun w l w' n hs event hw => ?_
  cases l with
  | call call choices =>
    obtain ⟨r, -, heq⟩ := Option.map_eq_some_iff.mp hs
    cases heq
    cases hw
  | deliver k =>
    obtain ⟨event', -, heq⟩ := Option.map_eq_some_iff.mp hs
    cases heq
    cases hw
    exact ⟨k, rfl⟩

/-- A delivery costs nothing where its debit is refused, and its total where it is not. -/
theorem deliveryCost_cases {n : ChargeNote} {event : OrderPlacedEvent} (hw : n.what = .delivered event)
    {k : ℕ} (hafter : n.after = deliver k event n.before) :
    (¬ Debits event n.before.wallets ∧ ∀ u id, deliveryCost u id n = 0) ∨
      (Debits event n.before.wallets ∧ ∀ u id, deliveryCost u id n =
        if event.orderId = id ∧ event.userId = u then event.cart.finalTotal else 0) := by
  have hcost : ∀ u id, deliveryCost u id n =
      if event.orderId = id then balanceOf n.before u - balanceOf n.after u else 0 := fun u id => by
    simp [deliveryCost, ChargeNote.cost, ChargeNote.about, hw]
  by_cases hd : Debits event n.before.wallets
  · refine .inr ⟨hd, fun u id => ?_⟩
    rw [hcost, hafter, balance_deliver_of_debits hd]
    split
    · simp [*]
    · simp [*]
  · refine .inl ⟨hd, fun u id => ?_⟩
    rw [hcost, hafter, balanceOf_congr _ _ (deliver_of_not_debits hd)]
    simp

theorem deliveryCost_nonneg {n : ChargeNote}
    (hafter : ∀ event, n.what = .delivered event → ∃ k, n.after = deliver k event n.before)
    (u : String) (id : ℕ) : 0 ≤ deliveryCost u id n := by
  cases hw : n.what with
  | called o => simp [deliveryCost, hw]
  | delivered event =>
    obtain ⟨k, hk⟩ := hafter event hw
    rcases deliveryCost_cases hw hk with ⟨-, hc⟩ | ⟨⟨m, hpos, hm, -⟩, hc⟩
    · rw [hc]
    · rw [hc]
      split
      · rw [hm]
        exact_mod_cast hpos.le
      · exact le_rfl

/-- A delivery costs no more than all deliveries together. -/
theorem deliveryCost_le_sum {ns : List ChargeNote} (hafter : ∀ n ∈ ns, ∀ event,
      n.what = .delivered event → ∃ k, n.after = deliver k event n.before)
    {n : ChargeNote} (hn : n ∈ ns) (u : String) (id : ℕ) :
    deliveryCost u id n ≤ (ns.map (deliveryCost u id)).sum := by
  refine List.single_le_sum (fun x hx => ?_) _ (List.mem_map_of_mem hn)
  obtain ⟨n', hn', rfl⟩ := List.mem_map.mp hx
  exact deliveryCost_nonneg (hafter n' hn') _ _

/-- A delivery that asks for more than there is costs nothing. -/
theorem deliveryCost_of_overdraws {n : ChargeNote}
    (hafter : ∀ event, n.what = .delivered event → ∃ k, n.after = deliver k event n.before)
    (h : Overdraws n) (u : String) (id : ℕ) : deliveryCost u id n = 0 := by
  cases hw : n.what with
  | called o => simp [deliveryCost, hw]
  | delivered event =>
    obtain ⟨k, hk⟩ := hafter event hw
    rcases deliveryCost_cases hw hk with ⟨-, hc⟩ | ⟨⟨m, hpos, hm, sub, hsub, hle⟩, -⟩
    · exact hc u id
    · have := h event hw sub hsub
      rw [hm] at this
      exact absurd hle (not_le.mpr (by exact_mod_cast this))

/-- **When an order is paid for once.** In any run of whole calls and deliveries in which nothing fails
by itself, each placed order costs its total and each failed one nothing, exactly when each delivery
finds less than its total on the balance, and is refused. -/
theorem chargedOnce_iff {t : Subscriptions} {carts : SwiggyCarts} {w : World} {ns : List ChargeNote}
    (hheld : ∀ u sub, t u = some sub → 0 ≤ sub.reservedAmount)
    (hrun : Run chargeStep anyStep { wallets := t, carts := carts } w ns)
    (hserved : ∀ n ∈ ns, Undisturbed n) : ChargedOnce w ns ↔ ∀ n ∈ ns, Overdraws n := by
  have hI := charges_run hheld hrun hserved
  have hafter := after_of_delivered hrun
  constructor
  · intro h n hn event hw sub hsub
    by_contra hle
    obtain ⟨row, hrow, hst, heq, m, hpos, hm⟩ := hI.delivered n hn event hw
    subst heq
    have hdebits : Debits (placedEvent row row.cart) n.before.wallets :=
      ⟨m, hpos, hm, sub, hsub, by
        have := not_lt.mp hle
        rw [show (placedEvent row row.cart).cart.finalTotal = m from hm] at this
        exact_mod_cast this⟩
    obtain ⟨k, hk⟩ := hafter n hn _ hw
    have hcost : deliveryCost row.userId row.id n = m := by
      rcases deliveryCost_cases hw hk with ⟨hnot, -⟩ | ⟨-, hc⟩
      · exact absurd hdebits hnot
      · rw [hc, if_pos ⟨rfl, rfl⟩]
        exact hm
    have hsum := deliveryCost_le_sum hafter hn row.userId row.id
    have hcharged := h.placed row.id row hrow hst
    rw [charged_eq, hI.called, hrow, placedPart, if_pos ⟨rfl, hst⟩, hm] at hcharged
    rw [hcost] at hsum
    have : (0 : ℚ) < m := by exact_mod_cast hpos
    linarith
  · intro h
    have hzero : ∀ u id, (ns.map (deliveryCost u id)).sum = 0 := fun u id => by
      refine List.sum_eq_zero fun x hx => ?_
      obtain ⟨n, hn, rfl⟩ := List.mem_map.mp hx
      exact deliveryCost_of_overdraws (hafter n hn) (h n hn) u id
    constructor
    · intro id order hrow hst
      rw [charged_eq, hI.called, hzero, hrow, add_zero]
      exact if_pos ⟨rfl, hst⟩
    · intro id order hrow hst
      rw [charged_eq, hI.called, hzero, hrow, add_zero]
      exact placedPart_of_status (by rw [hst]; nofun) _

/-! ### With and without the money for a second charge -/

/-- An order that is made and placed, and its event delivered. -/
def placedAndDelivered : List ChargeLabel :=
  [.call (.execute "user-1" "addr-1" "rest-1" smallCart none) [{}, {}, {}, {}, {}],
    .call (.confirm 0) [{}, {}, {}, {}, {}, {}, {}], .deliver 0]

/-- A user with 1000 paise pays 250 twice. -/
theorem not_chargedOnce :
    ¬ ∀ (t : Subscriptions) (carts : SwiggyCarts) (w : World) ns,
      (∀ u sub, t u = some sub → 0 ≤ sub.reservedAmount) →
      Run chargeStep anyStep { wallets := t, carts := carts } w ns →
      (∀ n ∈ ns, Undisturbed n) → w.outbox = [] → ChargedOnce w ns := by
  intro h
  have hsteps : runSteps chargeStep anyStep placedAndDelivered
    { wallets := oneUser.wallets, carts := fun _ _ => {} } [] = some (_, _) := rfl
  have honce := h _ _ _ _ fresh_oneUser.held (Run.of_runSteps .nil hsteps) (by decide) rfl
  exact absurd (honce.placed 0 _ rfl rfl) (by decide +kernel)

/-- The wallets of users with 400 paise. -/
def poor : Subscriptions := fun _ => some
  { totalDeposited := 400, currentBalance := 400, daysLeft := 30, dailyAvgLimit := 13 }

/-- A user with 400 paise pays 250 once: the second charge is refused. -/
theorem chargedOnce_iff_poor :
    ∃ w ns, runSteps chargeStep anyStep placedAndDelivered { wallets := poor } [] = some (w, ns) ∧
      (ChargedOnce w ns ↔ ∀ n ∈ ns, Overdraws n) := by
  have hsteps : runSteps chargeStep anyStep placedAndDelivered { wallets := poor } [] =
    some (_, _) := rfl
  exact ⟨_, _, hsteps, chargedOnce_iff (by rintro u sub ⟨⟩; decide) (Run.of_runSteps .nil hsteps)
    (by decide)⟩

end Gusto.Order
