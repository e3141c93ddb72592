import Gusto.Order.Outcome
import Mathlib.Tactic.Linarith

/-!
# Holds and pending orders

Each pending order has its total held in escrow-service.  The reservation, the row and the two ways
to close the hold are separate calls, and each may fail.

* `HoldsMatch`: what is held since the start is the sum over the pending orders;
* `holdsMatch_iff`: this holds after every call of a run exactly when no row that follows an accepted
  reservation is lost, and no capture and no release;
* `reserved_eq_pending_add_stuck`: where no row is lost, what is held besides the pending orders is
  what captures and releases left behind that escrow-service rejected;
* `not_holdsMatch`: a rejected capture leaves a hold that no pending order accounts for.
-/

set_option autoImplicit false

namespace Gusto.Order

open Effects OrderService
open Gusto.Escrow (Subscription WalletCall)

/-! ### What is asked -/

/-- What is held for the user. -/
def reservedOf (w : World) (u : String) : ℚ :=
  (((w.wallets u).map (·.reservedAmount)).getD 0 : ℤ)

/-- The total of the order, where it is a pending order of the user. -/
def pendingPart (u : String) (order : OrderRow) : ℚ :=
  if order.userId = u ∧ order.status = .PENDING_CONFIRMATION then order.cart.finalTotal else 0

/-- What the pending orders of the user come to. -/
def pendingTotal (w : World) (u : String) : ℚ := w.orders.total (pendingPart u)

/-- Since `w₀`, as much has been held for the user as the pending orders come to. -/
def HoldsMatch (w₀ w : World) (u : String) : Prop :=
  reservedOf w u - reservedOf w₀ u = pendingTotal w u

/-- A world before the first order: nothing is pending, and nothing negative is held. -/
structure Fresh (w : World) : Prop where
  noPending : ∀ id order, w.orders.get? id = some order → order.status ≠ .PENDING_CONFIRMATION
  held : ∀ u sub, w.wallets u = some sub → 0 ≤ sub.reservedAmount

/-! ### The condition -/

/-- The call follows an accepted reservation and is to account for it: for whom, and how much. -/
def OrderOp.hold : OrderOp → Option (String × ℚ)
  | .create data => some (data.userId, data.cart.finalTotal)
  | .capture userId amount | .release userId amount => some (userId, amount)
  | _ => none

/-- The row cannot be stored: its column takes no fraction, and no more than 32 bits. -/
def OrderOp.Unstorable : OrderOp → Prop
  | .create data => ¬ Storable data.savingsAchieved
  | _ => False

instance (i : OrderOp) : Decidable i.Unstorable :=
  match i with
  | .create data => inferInstanceAs (Decidable (¬ Storable data.savingsAchieved))
  | .findUnique .. | .update .. | .reserve .. | .capture .. | .release .. | .food .. | .requestConfirmation ..
  | .publishOrderPlaced .. | .publishOrderFailed .. | .publishOrderDelivered .. | .randomUUID | .now =>
    inferInstanceAs (Decidable False)

/-- A row, a capture or a release that was lost. -/
def Lost (e : OrderEvent) : Prop :=
  e.call.hold ≠ none ∧ (e.choice.error ≠ none ∨ e.call.Unstorable)

instance : DecidablePred Lost := fun e => by unfold Lost; infer_instance

/-- What is left held for the user by a call that was lost. -/
def lostPart (u : String) (e : OrderEvent) : ℚ :=
  if Lost e then
    match e.call.hold with
    | some (v, amount) => if v = u then amount else 0
    | none => 0
  else 0

/-- What is left held for the user by the lost calls. -/
def lostTotal (u : String) (evs : List OrderEvent) : ℚ := (evs.map (lostPart u)).sum

/-! ### The wallet's part -/

/-- What is held beyond what the pending orders come to. -/
def slack (w : World) (u : String) : ℚ := reservedOf w u - pendingTotal w u

theorem reservedOf_congr (w w' : World) (h : w'.wallets = w.wallets) (u : String) :
    reservedOf w' u = reservedOf w u := by
  unfold reservedOf
  rw [h]

theorem pendingTotal_congr (w w' : World) (h : w'.orders = w.orders) (u : String) :
    pendingTotal w' u = pendingTotal w u := by
  unfold pendingTotal
  rw [h]

theorem slack_congr (w w' : World) (hw : w'.wallets = w.wallets) (ho : w'.orders = w.orders)
    (u : String) : slack w' u = slack w u := by
  unfold slack
  rw [reservedOf_congr w w' hw, pendingTotal_congr w w' ho]

theorem reservedOf_update {w : World} {v : String} {sub : Subscription} (u : String) :
    reservedOf { w with wallets := Function.update w.wallets v (some sub) } u =
      if v = u then (sub.reservedAmount : ℚ) else reservedOf w u := by
  unfold reservedOf
  by_cases h : v = u
  · subst h
    simp
  · simp [h, Function.update_of_ne (Ne.symm h)]

/-- An accepted reservation. -/
theorem reserve_accepted {c : Choice} {u : String} {amount : ℚ} {w w' : World}
    (h : exec c (.reserve u amount) w = (.ok (), w')) :
    u ≠ "" ∧ (∃ n : ℤ, 0 < n ∧ amount = n) ∧ w'.orders = w.orders ∧ w'.carts = w.carts ∧
      w'.outbox = w.outbox ∧
      ∀ v, reservedOf w' v = reservedOf w v + if u = v then amount else 0 := by
  rcases exec_reserve c u amount w with ⟨e, he⟩ | ⟨n, sub, hu, hn, hpos, hacc, he⟩
  · rw [he] at h
    cases h
  · rw [he] at h
    cases h
    refine ⟨hu, ⟨n, hpos, hn⟩, rfl, rfl, rfl, fun v => ?_⟩
    rw [reservedOf_update]
    generalize hrow : w.wallets u = row at hacc
    cases hacc with
    | @reserve u a old pos le =>
      split
      · subst_vars
        simp [reservedOf, hrow]
      · simp

/-- The row that holds an amount. -/
theorem row_of_reserved {w : World} {u : String} {n : ℤ} (hpos : 0 < n)
    (hn : (n : ℚ) ≤ reservedOf w u) : ∃ old, w.wallets u = some old ∧ n ≤ old.reservedAmount := by
  unfold reservedOf at hn
  cases hrow : w.wallets u with
  | none =>
    rw [hrow] at hn
    simp at hn
    omega
  | some old =>
    rw [hrow] at hn
    exact ⟨old, rfl, by simpa using hn⟩

theorem reservedOf_closed {w : World} {u : String} {old sub : Subscription} {n : ℤ}
    (hrow : w.wallets u = some old) (hsub : sub.reservedAmount = old.reservedAmount - n) (v : String) :
    reservedOf { w with wallets := Function.update w.wallets u (some sub) } v =
      reservedOf w v - if u = v then (n : ℚ) else 0 := by
  rw [reservedOf_update, hsub]
  split
  · subst_vars
    simp [reservedOf, hrow]
  · simp

/-- What closes the hold of an order. -/
def Closes (close : OrderOp) (u : String) (amount : ℚ) : Prop :=
  close = .capture u amount ∨ close = .release u amount

/-- Capture and release both take a hold off, where it is there. -/
theorem close_holds {close : OrderOp} {u : String} {n : ℤ} (hclose : Closes close u n) (c : Choice)
    {w : World} (hu : u ≠ "") (hpos : 0 < n) (hn : (n : ℚ) ≤ reservedOf w u) :
    (exec c close w).2.orders = w.orders ∧ ∀ v, reservedOf (exec c close w).2 v =
      reservedOf w v - if u = v ∧ c.error = none then (n : ℚ) else 0 := by
  obtain ⟨old, hrow, hle⟩ := row_of_reserved hpos hn
  cases hc : c.error with
  | some e =>
    have he : (exec c close w).2 = w := by
      unfold exec
      rw [hc]
      rcases hclose with rfl | rfl <;> rfl
    rw [he]
    exact ⟨rfl, fun v => by simp⟩
  | none =>
    simp only [and_true]
    rcases hclose with rfl | rfl
    · rw [capture_ok hc hu hpos hrow hle]
      exact ⟨rfl, reservedOf_closed hrow rfl⟩
    · rw [release_ok hc hu hpos hrow hle]
      exact ⟨rfl, reservedOf_closed hrow rfl⟩

/-! ### One call -/

/-- A pending order is for a positive amount of paise, and for somebody. -/
def PendingOk (w : World) : Prop :=
  ∀ id order, w.orders.get? id = some order → order.status = .PENDING_CONFIRMATION →
    order.userId ≠ "" ∧ ∃ n : ℤ, 0 < n ∧ order.cart.finalTotal = n

theorem pendingPart_nonneg {w : World} (h : PendingOk w) (u : String) (id : ℕ) (order : OrderRow)
    (hrow : w.orders.get? id = some order) : 0 ≤ pendingPart u order := by
  unfold pendingPart
  split
  · rename_i hc
    obtain ⟨-, n, hpos, hn⟩ := h id order hrow hc.2
    rw [hn]
    exact_mod_cast hpos.le
  · exact le_rfl

/-- **What one call does to the books.** What is lost is the only thing that moves the slack. -/
structure Books (w w' : World) (evs : List OrderEvent) : Prop where
  slack : ∀ u, slack w' u = slack w u + lostTotal u evs
  pendingOk : PendingOk w'
  lost : ∀ e ∈ evs, Lost e → ∃ u amount, e.call.hold = some (u, amount) ∧ 0 < amount

theorem lostPart_of_not {e : OrderEvent} (h : ¬ Lost e) (u : String) : lostPart u e = 0 := if_neg h

theorem not_lost_of_hold {e : OrderEvent} (h : e.call.hold = none) : ¬ Lost e := fun hl => hl.1 h

theorem lostTotal_eq_zero {u : String} {evs : List OrderEvent} (h : ∀ e ∈ evs, ¬ Lost e) :
    lostTotal u evs = 0 := by
  unfold lostTotal
  refine List.sum_eq_zero fun x hx => ?_
  obtain ⟨e, he, rfl⟩ := List.mem_map.mp hx
  exact lostPart_of_not (h e he) u

theorem lostTotal_append (u : String) (evs evs' : List OrderEvent) :
    lostTotal u (evs ++ evs') = lostTotal u evs + lostTotal u evs' := by
  simp [lostTotal]

theorem lostTotal_cons (u : String) (e : OrderEvent) (evs : List OrderEvent) :
    lostTotal u (e :: evs) = lostPart u e + lostTotal u evs := by
  simp [lostTotal]

/-- A call that keeps the tables and loses nothing. -/
theorem Books.of_same {w w' : World} {evs : List OrderEvent} (hok : PendingOk w)
    (hw : w'.wallets = w.wallets) (ho : w'.orders = w.orders) (hevs : ∀ e ∈ evs, ¬ Lost e) :
    Books w w' evs := by
  refine ⟨fun u => ?_, ?_, fun e he hl => absurd hl (hevs e he)⟩
  · rw [slack_congr w w' hw ho, lostTotal_eq_zero hevs, add_zero]
  · unfold PendingOk
    rw [ho]
    exact hok

theorem Books.trans {w w' w'' : World} {evs evs' : List OrderEvent} (h : Books w w' evs)
    (h' : Books w' w'' evs') : Books w w'' (evs ++ evs') := by
  refine ⟨fun u => ?_, h'.pendingOk, fun e he => ?_⟩
  · rw [h'.slack, h.slack, lostTotal_append, add_assoc]
  · rcases List.mem_append.mp he with he | he
    · exact h.lost e he
    · exact h'.lost e he

theorem not_lost_publish {i : OrderOp} (h : i.isPublish) (w : World) (c : Choice) :
    ¬ Lost ⟨w, i, c⟩ :=
  not_lost_of_hold (by cases i <;> first | rfl | cases h)

theorem pendingPart_of_pending {order : OrderRow} (hst : order.status = .PENDING_CONFIRMATION)
    (u : String) : pendingPart u order = if order.userId = u then order.cart.finalTotal else 0 := by
  simp [pendingPart, hst]

/-- The lost part of the call that closes a hold. -/
theorem lostPart_close {close : OrderOp} {v : String} {amount : ℚ} (hclose : Closes close v amount)
    (w : World) (c : Choice) (u : String) :
    lostPart u ⟨w, close, c⟩ = if v = u ∧ c.error ≠ none then amount else 0 := by
  rcases hclose with rfl | rfl <;> by_cases hc : c.error = none <;>
    simp [lostPart, Lost, OrderOp.hold, OrderOp.Unstorable, hc]

/-- Where nothing is missing, what is held covers each pending order. -/
theorem held_of_pending {w : World} {id : ℕ} {order : OrderRow} (hok : PendingOk w)
    (hback : ∀ u, 0 ≤ slack w u) (hrow : w.orders.get? id = some order)
    (hst : order.status = .PENDING_CONFIRMATION) :
    order.cart.finalTotal ≤ reservedOf w order.userId := by
  have hle := Orders.le_total (pendingPart_nonneg hok order.userId) hrow
  rw [pendingPart_of_pending hst, if_pos rfl] at hle
  exact hle.trans (sub_nonneg.mp (hback order.userId))

/-- An order that is written to a final status is not pending any more. -/
theorem slack_wrote {w : World} {t : Orders} {id : ℕ} {order : OrderRow} {data : OrderUpdate}
    (hwrote : Orders.Wrote w.orders t id order data) (hst : order.status = .PENDING_CONFIRMATION)
    (hdata : data.status ≠ .PENDING_CONFIRMATION) (u : String) :
    slack { w with orders := t } u =
      slack w u + if order.userId = u then order.cart.finalTotal else 0 := by
  have hzero : pendingPart u (data.write order) = 0 := if_neg fun hc => hdata hc.2
  unfold slack pendingTotal
  rw [Orders.total_wrote _ hwrote, hzero, pendingPart_of_pending hst,
    reservedOf_congr w { w with orders := t } rfl]
  ring

/-- A hold that is closed is not held any more. -/
theorem slack_close {close : OrderOp} {v : String} {n : ℤ} (hclose : Closes close v n) (c : Choice)
    {w : World} (hv : v ≠ "") (hpos : 0 < n) (hn : (n : ℚ) ≤ reservedOf w v) (u : String) :
    slack (exec c close w).2 u =
      slack w u - if v = u ∧ c.error = none then (n : ℚ) else 0 := by
  obtain ⟨horders, hreserved⟩ := close_holds hclose c hv hpos hn
  unfold slack
  rw [hreserved, pendingTotal_congr _ _ horders]
  ring

/-- Writing a final status over a pending order, and closing its hold. -/
theorem books_settled {id : ℕ} {data : OrderUpdate} {close publish : OrderOp} {w w' : World}
    {evs : List OrderEvent} (hs : Settled id data close publish w evs w') {order : OrderRow}
    (hrow : w.orders.get? id = some order) (hst : order.status = .PENDING_CONFIRMATION)
    (hdata : data.status ≠ .PENDING_CONFIRMATION)
    (hclose : Closes close order.userId order.cart.finalTotal) (hpub : publish.isPublish)
    (hok : PendingOk w) (hback : ∀ u, 0 ≤ slack w u) : Books w w' evs := by
  obtain ⟨hu, n, hpos, hn⟩ := hok id order hrow hst
  cases hs with
  | refused c e h => exact .of_same hok rfl rfl (by simpa using not_lost_of_hold rfl)
  | closed c c' c'' order' t h hwrote =>
    obtain rfl : order' = order := Option.some.inj (hwrote.1.symm.trans hrow)
    -- what is held covers the hold of this order
    have hheld : (n : ℚ) ≤ reservedOf { w with orders := t } order'.userId := by
      rw [← hn, reservedOf_congr w { w with orders := t } rfl]
      exact held_of_pending hok hback hrow hst
    have hwritten := slack_wrote hwrote hst hdata
    rw [hn] at hclose hwritten
    have hclosed := slack_close hclose c' hu hpos hheld
    obtain ⟨horders, -⟩ := close_holds hclose c' hu hpos hheld
    generalize hw₂ : (exec c' close { w with orders := t }).2 = w₂ at horders hclosed ⊢
    -- the event changes nothing here
    obtain ⟨events, hpubs⟩ := exec_publish c'' w₂ hpub
    rw [hpubs]
    refine ⟨fun u => ?_, ?_, ?_⟩
    · refine (slack_congr w₂ _ rfl rfl u).trans ?_
      rw [hclosed, hwritten, lostTotal_cons, lostTotal_cons, lostTotal_cons,
        lostPart_close hclose, lostPart_of_not (not_lost_of_hold rfl),
        lostPart_of_not (not_lost_publish hpub _ _)]
      simp only [lostTotal, List.map_nil, List.sum_nil]
      by_cases hv : order'.userId = u <;> by_cases hc : c'.error = none <;> simp [hv, hc]
    · intro id' order'' hget hst'
      change w₂.orders.get? id' = _ at hget
      rw [horders, hwrote.get?] at hget
      split at hget
      · cases hget
        exact absurd hst' hdata
      · exact hok id' order'' hget hst'
    · have hamount : close.hold = some (order'.userId, (n : ℚ)) := by
        rcases hclose with rfl | rfl <;> rfl
      simp only [List.forall_mem_cons]
      exact ⟨fun hl => absurd hl (not_lost_of_hold rfl),
        fun _ => ⟨_, _, hamount, by exact_mod_cast hpos⟩,
        fun hl => absurd hl (not_lost_publish hpub _ _), by simp⟩

theorem not_lost_ask {e : OrderEvent} (h : e.call.isAsk) : ¬ Lost e := by
  refine not_lost_of_hold ?_
  revert h
  cases e.call with
  | food tool u => intro _; rfl
  | randomUUID => intro _; rfl
  | now => intro _; rfl
  | _ => intro h; cases h

theorem books_asksThen {Q : List OrderEvent → World → Prop} {w w' : World} {evs : List OrderEvent}
    (hs : AsksThen Q evs w') (hok : PendingOk w) (hQ : ∀ rest, Q rest w' → Books w w' rest) :
    Books w w' evs := by
  obtain ⟨asks, rest, rfl, hasks, h⟩ := hs
  exact (Books.of_same hok rfl rfl fun e he => not_lost_ask (hasks e he)).trans (hQ rest h)

theorem books_settledFailed {order : OrderRow} {w w' : World} {evs : List OrderEvent}
    (hs : SettledFailed order order.cart w evs w') (hrow : w.orders.get? order.id = some order)
    (hst : order.status = .PENDING_CONFIRMATION) (hok : PendingOk w) (hback : ∀ u, 0 ≤ slack w u) :
    Books w w' evs := by
  obtain ⟨reason, hs⟩ := hs
  exact books_settled hs hrow hst nofun (.inr rfl) rfl hok hback

theorem books_settledPlaced {order : OrderRow} {w w' : World} {evs : List OrderEvent}
    (hs : SettledPlaced order order.cart w evs w') (hrow : w.orders.get? order.id = some order)
    (hst : order.status = .PENDING_CONFIRMATION) (hok : PendingOk w) (hback : ∀ u, 0 ≤ slack w u) :
    Books w w' evs := by
  obtain ⟨ref, placedAt, hs⟩ := hs
  exact books_settled hs hrow hst nofun (.inl rfl) rfl hok hback

theorem backed_of_books {w w' : World} {evs : List OrderEvent} (h : Books w w' evs)
    (hevs : ∀ e ∈ evs, ¬ Lost e) (hback : ∀ u, 0 ≤ slack w u) (u : String) : 0 ≤ slack w' u := by
  rw [h.slack, lostTotal_eq_zero hevs, add_zero]
  exact hback u

/-- `confirmAndPlace` and the books. -/
theorem books_confirmed {id : ℕ} {w w' : World} {evs : List OrderEvent} (h : Confirmed id w evs w')
    (hok : PendingOk w) (hback : ∀ u, 0 ≤ slack w u) : Books w w' evs := by
  cases h with
  | rejected c h => exact .of_same hok rfl rfl (by simpa using not_lost_of_hold rfl)
  | placed c c' order hrow hst herr hsuccess evs w' hs =>
    obtain rfl := w.orders.id_eq id order hrow
    have hcalls : ∀ e ∈ [(⟨w, .findUnique order.id, c⟩ : OrderEvent), ⟨w, placeCall order, c'⟩],
        ¬ Lost e := by simpa using ⟨not_lost_of_hold rfl, not_lost_of_hold rfl⟩
    have horders : (exec c' (placeCall order) w).2.orders = w.orders := orders_food c' _ _ w
    have hsame : Books w (exec c' (placeCall order) w).2 _ :=
      .of_same hok (wallets_exec c' w rfl) horders hcalls
    refine hsame.trans (books_asksThen hs hsame.pendingOk fun rest h => ?_)
    exact books_settledPlaced h (by rw [horders]; exact hrow) hst hsame.pendingOk
      (backed_of_books hsame hcalls hback)
  | failed c c' order hrow hst hfail evs w' hs =>
    obtain rfl := w.orders.id_eq id order hrow
    have hsame : Books w w [⟨w, .findUnique order.id, c⟩, ⟨w, placeCall order, c'⟩] :=
      .of_same hok rfl rfl (by simpa using ⟨not_lost_of_hold rfl, not_lost_of_hold rfl⟩)
    exact hsame.trans (books_asksThen hs hok fun rest h => books_settledFailed h hrow hst hok hback)

/-- Feeding the Swiggy cart moves neither the wallets nor the orders, and loses nothing. -/
theorem fed_same {u : String} {tools : List FoodTool} {w w' : World} {evs : List OrderEvent}
    {r : Except Err Unit} (h : Fed u tools w evs r w') :
    w'.wallets = w.wallets ∧ w'.orders = w.orders ∧ ∀ e ∈ evs, ¬ Lost e := by
  refine ⟨?_, orders_fed h, fun e he => ?_⟩
  · induction h with
    | done w => rfl
    | threw tool tools c e w h => rfl
    | answered tool tools c w h evs r w' hrest ih => exact ih.trans (wallets_exec c w rfl)
  · have hfood := isFood_of_fed h e he
    refine not_lost_of_hold ?_
    revert hfood
    cases e.call <;> first | (intro _; rfl) | (intro h; cases h)

section Execute

variable {u a r : String} {cart : OptimizedCart} {pm : Option String} {w w₁ w₂ : World} {c c' : Choice}

/-- A reservation is accepted, and its row is lost. -/
theorem books_notCreated {e : Err} (hok : PendingOk w)
    (h : exec c (.reserve u cart.finalTotal) w = (.ok (), w₁))
    (h' : exec c' (.create (createData u a r cart pm)) w₁ = (.error e, w₁)) :
    Books w w₁ [⟨w, .reserve u cart.finalTotal, c⟩, ⟨w₁, .create (createData u a r cart pm), c'⟩] := by
  obtain ⟨hu, ⟨n, hpos, hn⟩, horders, -, -, hreserved⟩ := reserve_accepted h
  have hlost : Lost ⟨w₁, .create (createData u a r cart pm), c'⟩ := by
    rcases exec_create c' (createData u a r cart pm) w₁ with ⟨hl, -⟩ | ⟨-, -, he⟩
    · exact ⟨nofun, hl⟩
    · rw [he] at h'
      cases h'
  refine ⟨fun v => ?_, ?_, ?_⟩
  · rw [lostTotal_cons, lostTotal_cons, lostPart_of_not (not_lost_of_hold rfl)]
    unfold slack
    rw [hreserved, pendingTotal_congr w w₁ horders, lostPart, if_pos hlost]
    simp [OrderOp.hold, lostTotal]
    ring
  · unfold PendingOk
    rw [horders]
    exact hok
  · simp only [List.forall_mem_cons]
    exact ⟨fun hl => absurd hl (not_lost_of_hold rfl),
      fun _ => ⟨u, cart.finalTotal, rfl, by rw [hn]; exact_mod_cast hpos⟩, by simp⟩

/-- A reservation is accepted, and its row is there. -/
theorem books_created {order : OrderRow} (hok : PendingOk w)
    (h : exec c (.reserve u cart.finalTotal) w = (.ok (), w₁))
    (h' : exec c' (.create (createData u a r cart pm)) w₁ = (.ok order, w₂)) :
    Books w w₂ [⟨w, .reserve u cart.finalTotal, c⟩, ⟨w₁, .create (createData u a r cart pm), c'⟩] ∧
      w₂.orders.get? order.id = some order ∧ order.userId = u ∧
      order.status = .PENDING_CONFIRMATION ∧
      order.cart = { cart with addressId := a, restaurantId := r, paymentMethod := pm } ∧
      ∀ v, slack w₂ v = slack w v := by
  obtain ⟨hu, ⟨n, hpos, hn⟩, horders, -, -, hreserved⟩ := reserve_accepted h
  obtain ⟨herr, hfits, rfl, rfl⟩ := create_ok h'
  have hlost : ¬ Lost ⟨w₁, .create (createData u a r cart pm), c'⟩ := by
    rintro ⟨-, hl | hl⟩
    · exact hl herr
    · exact hl hfits
  have hslack : ∀ v, slack { w₁ with orders := w₁.orders.create (createData u a r cart pm) } v =
      slack w v := fun v => by
    unfold slack pendingTotal
    rw [Orders.total_create, horders]
    change reservedOf w₁ v - _ = _
    rw [hreserved]
    simp [pendingPart, Orders.newRow]
  refine ⟨⟨fun v => ?_, ?_, ?_⟩, Orders.get?_newRow _ _, rfl, rfl, rfl, hslack⟩
  · rw [lostTotal_cons, lostTotal_cons, lostPart_of_not (not_lost_of_hold rfl),
      lostPart_of_not hlost, hslack]
    simp [lostTotal]
  · intro id order hget hst
    rcases Orders.get?_create.mp hget with hget | ⟨-, rfl⟩
    · exact hok id order (horders ▸ hget) hst
    · exact ⟨hu, n, hpos, hn⟩
  · simp only [List.forall_mem_cons]
    exact ⟨fun hl => absurd hl (not_lost_of_hold rfl), fun hl => absurd hl hlost, by simp⟩

/-- `populateAndAwaitConfirmation` and the books. -/
theorem books_executed {w' : World} {evs : List OrderEvent} (h : Executed u a r cart pm w evs w')
    (hok : PendingOk w) (hback : ∀ u, 0 ≤ slack w u) : Books w w' evs := by
  cases h with
  | tooBig h => exact .of_same hok rfl rfl (by simp)
  | notReserved c e h => exact .of_same hok rfl rfl (by simpa using not_lost_of_hold rfl)
  | notCreated c c' w₁ h e h' => exact books_notCreated hok h h'
  | pending c c' c'' w₁ w₂ w₃ order h h' evs hfed =>
    obtain ⟨hbooks, -⟩ := books_created hok h h'
    obtain ⟨hw, ho, hevs⟩ := fed_same hfed
    refine hbooks.trans (.of_same hbooks.pendingOk hw ho fun e he => ?_)
    rcases List.mem_append.mp he with he | he
    · exact hevs e he
    · rw [List.mem_singleton.mp he]
      exact not_lost_of_hold rfl
  | failed c c' w₁ w₂ w₃ w₄ order h h' evs evs' e hfed hs =>
    obtain ⟨hbooks, hrow, hu, hst, hcart, hslack⟩ := books_created hok h h'
    obtain ⟨hw, ho, hevs⟩ := fed_same hfed
    have hfed' : Books w₂ w₃ evs := .of_same hbooks.pendingOk hw ho hevs
    refine hbooks.trans (hfed'.trans ?_)
    rw [← hcart] at hs
    refine books_settledFailed hs (by rw [ho]; exact hrow) hst hfed'.pendingOk ?_
    exact backed_of_books hfed' hevs fun v => by rw [hslack]; exact hback v

end Execute

/-! ### Runs -/

theorem books_call {w w' : World} {l : OrderCall × List Choice} {o : OrderNote}
    (h : orderStep w l = some (w', o)) (hok : PendingOk w) (hback : ∀ u, 0 ≤ slack w u) :
    Books w w' o.2.events := by
  obtain ⟨hrun, -, rfl⟩ := callStep_eq_some.mp h
  obtain ⟨call, cs⟩ := l
  cases call with
  | execute u a r cart pm => exact books_executed (executed_of_run hrun) hok hback
  | confirm id => exact books_confirmed (confirmed_of_run hrun) hok hback

theorem lostPart_nonneg {evs : List OrderEvent}
    (h : ∀ e ∈ evs, Lost e → ∃ u amount, e.call.hold = some (u, amount) ∧ 0 < amount) (u : String) :
    ∀ x ∈ evs.map (lostPart u), 0 ≤ x := by
  intro x hx
  obtain ⟨e, he, rfl⟩ := List.mem_map.mp hx
  by_cases hl : Lost e
  · obtain ⟨v, amount, hcall, hpos⟩ := h e he hl
    unfold lostPart
    rw [if_pos hl, hcall]
    simp only
    split
    · exact hpos.le
    · exact le_rfl
  · rw [lostPart_of_not hl]

theorem pendingTotal_fresh {w : World} (h : Fresh w) (u : String) : pendingTotal w u = 0 := by
  refine List.sum_eq_zero fun x hx => ?_
  obtain ⟨order, ho, rfl⟩ := List.mem_map.mp hx
  obtain ⟨id, hid⟩ := List.mem_iff_getElem?.mp ho
  exact if_neg fun hc => h.noPending id order hid hc.2

theorem reservedOf_fresh {w : World} (h : Fresh w) (u : String) : 0 ≤ reservedOf w u := by
  unfold reservedOf
  cases hrow : w.wallets u with
  | none => simp
  | some sub => simpa using h.held u sub hrow

/-- **The books of a run.** -/
theorem books_run {w₀ w : World} {os : List OrderNote} (hrun : Run orderStep anyStep w₀ w os)
    (hfresh : Fresh w₀) : Books w₀ w (eventsOf os) := by
  have hpending : PendingOk w₀ := fun id order hrow hst => absurd hst (hfresh.noPending id order hrow)
  have hback₀ : ∀ u, 0 ≤ slack w₀ u := fun u => by
    unfold slack
    rw [pendingTotal_fresh hfresh, sub_zero]
    exact reservedOf_fresh hfresh u
  refine hrun.invariant (fun os w => Books w₀ w (eventsOf os)) ?_ ?_
  · exact .of_same hpending rfl rfl (by simp [eventsOf])
  · intro os w l w' o hI _ hs
    rw [eventsOf_snoc]
    refine hI.trans (books_call hs hI.pendingOk fun u => ?_)
    rw [hI.slack]
    exact add_nonneg (hback₀ u) (List.sum_nonneg (lostPart_nonneg hI.lost u))

/-- What is held and not pending is what was lost. -/
theorem holdsMatch_iff_lostTotal {w₀ w : World} {os : List OrderNote}
    (hrun : Run orderStep anyStep w₀ w os) (hfresh : Fresh w₀) (u : String) :
    HoldsMatch w₀ w u ↔ lostTotal u (eventsOf os) = 0 := by
  have hslack := (books_run hrun hfresh).slack u
  unfold slack at hslack
  rw [pendingTotal_fresh hfresh] at hslack
  unfold HoldsMatch
  constructor <;> intro h <;> linarith

/-- **When holds match pending orders.** In a run from a fresh world, what is held is what the pending
orders come to, after every call, exactly when no row that follows an accepted reservation is lost, and
no capture and no release. -/
theorem holdsMatch_iff {w₀ w : World} {os : List OrderNote} (hrun : Run orderStep anyStep w₀ w os)
    (hfresh : Fresh w₀) :
    (∀ o ∈ os, ∀ u, HoldsMatch w₀ o.2.state u) ↔ ∀ o ∈ os, ∀ e ∈ o.2.events, ¬ Lost e := by
  constructor
  · intro hmatch o ho e he hl
    obtain ⟨pre, post, hos⟩ := List.append_of_mem ho
    have hr := run_upTo hrun hos
    have hmem : e ∈ eventsOf (pre ++ [o]) := by
      rw [eventsOf_snoc]
      exact List.mem_append_right _ he
    have hbooks := books_run hr hfresh
    obtain ⟨u, amount, hcall, hpos⟩ := hbooks.lost e hmem hl
    have hpart : lostPart u e = amount := by
      unfold lostPart
      rw [if_pos hl, hcall]
      exact if_pos rfl
    have hle : lostPart u e ≤ lostTotal u (eventsOf (pre ++ [o])) :=
      List.single_le_sum (lostPart_nonneg hbooks.lost u) _ (List.mem_map_of_mem hmem)
    rw [(holdsMatch_iff_lostTotal hr hfresh u).mp (hmatch o ho u), hpart] at hle
    exact absurd hpos (not_lt.mpr hle)
  · intro hkept o ho u
    obtain ⟨pre, post, hos⟩ := List.append_of_mem ho
    refine (holdsMatch_iff_lostTotal (run_upTo hrun hos) hfresh u).mpr
      (lostTotal_eq_zero fun e he => ?_)
    obtain ⟨o', ho', he'⟩ := exists_of_mem_eventsOf hos he
    exact hkept o' ho' e he'

/-! ### Holds that stay -/

/-- The hold that stays for the user because its capture or its release was rejected. -/
def stuckPart (u : String) (e : OrderEvent) : ℚ :=
  match e.call with
  | .capture v amount | .release v amount => if v = u ∧ e.choice.error ≠ none then amount else 0
  | _ => 0

/-- The holds that stay for the user. -/
def stuckTotal (u : String) (evs : List OrderEvent) : ℚ := (evs.map (stuckPart u)).sum

def OrderOp.isCreate : OrderOp → Bool
  | .create _ => true
  | _ => false

/-- No row that follows an accepted reservation is lost. -/
def RowsKept (os : List OrderNote) : Prop :=
  ∀ o ∈ os, ∀ e ∈ o.2.events, e.call.isCreate → ¬ Lost e

theorem lostPart_eq_stuckPart {e : OrderEvent} (h : e.call.isCreate → ¬ Lost e) (u : String) :
    lostPart u e = stuckPart u e := by
  obtain ⟨w, i, c⟩ := e
  cases i with
  | create data => exact lostPart_of_not (h rfl) u
  | capture v amount =>
    rw [lostPart_close (.inl rfl)]
    rfl
  | release v amount =>
    rw [lostPart_close (.inr rfl)]
    rfl
  | _ => exact lostPart_of_not (not_lost_of_hold rfl) u

/-- **Every hold is accounted for.** Where no row is lost, after every call what is held since the
start is what the pending orders come to and what the rejected captures and releases left behind. -/
theorem reserved_eq_pending_add_stuck {w₀ w : World} {os : List OrderNote}
    (hrun : Run orderStep anyStep w₀ w os) (hfresh : Fresh w₀) (hrows : RowsKept os) :
    ∀ pre o post, os = pre ++ o :: post → ∀ u,
      reservedOf o.2.state u - reservedOf w₀ u =
        pendingTotal o.2.state u + stuckTotal u (eventsOf (pre ++ [o])) := by
  intro pre o post hos u
  have hlost : lostTotal u (eventsOf (pre ++ [o])) = stuckTotal u (eventsOf (pre ++ [o])) := by
    unfold lostTotal stuckTotal
    refine congrArg List.sum (List.map_congr_left fun e he => lostPart_eq_stuckPart ?_ u)
    obtain ⟨o', ho', he'⟩ := exists_of_mem_eventsOf hos he
    exact hrows o' ho' e he'
  have hslack := (books_run (run_upTo hrun hos) hfresh).slack u
  unfold slack at hslack
  rw [pendingTotal_fresh hfresh, hlost] at hslack
  linarith

/-! ### With and without a rejection -/

/-- A user with 1000 paise and no orders. -/
def oneUser : World where
  wallets := fun _ => some
    { totalDeposited := 1000, currentBalance := 1000, daysLeft := 30, dailyAvgLimit := 33 }

theorem fresh_oneUser : Fresh oneUser :=
  ⟨by simp [oneUser, Orders.get?], by rintro u sub ⟨⟩; decide⟩

/-- A cart of 250 paise. -/
def smallCart : OptimizedCart := { items := [⟨"item-1", 2⟩], baseCost := 250, finalTotal := 250 }

/-- An order that is made, and a confirmation whose capture is rejected. -/
def rejectedCapture : List (OrderCall × List Choice) :=
  [(.execute "user-1" "addr-1" "rest-1" smallCart none, [{}, {}, {}, {}, {}]),
    (.confirm 0, [{}, {}, {}, {}, {}, { error := some (.error "timeout") }, {}])]

/-- The hold of the placed order stays, and is accounted for. -/
theorem reserved_eq_pending_add_stuck_rejectedCapture :
    ∃ w os, runSteps orderStep anyStep rejectedCapture oneUser [] = some (w, os) ∧
      ∀ pre o post, os = pre ++ o :: post → ∀ u,
        reservedOf o.2.state u - reservedOf oneUser u =
          pendingTotal o.2.state u + stuckTotal u (eventsOf (pre ++ [o])) := by
  have hsteps : runSteps orderStep anyStep rejectedCapture oneUser [] = some (_, _) := rfl
  exact ⟨_, _, hsteps, reserved_eq_pending_add_stuck (Run.of_runSteps .nil hsteps) fresh_oneUser
    (by unfold RowsKept; decide)⟩

/-- The capture of the placed order is rejected: 250 paise stay held, for no pending order. -/
theorem not_holdsMatch :
    ¬ ∀ (w₀ w : World) os, Fresh w₀ → Run orderStep anyStep w₀ w os →
      ∀ o ∈ os, ∀ u, HoldsMatch w₀ o.2.state u := by
  intro h
  have hrun := Run.of_runSteps .nil
    (show runSteps orderStep anyStep rejectedCapture oneUser [] = some (_, _) from rfl)
  have hmatch := h _ _ _ fresh_oneUser hrun _ (List.mem_of_getLast? rfl) "user-1"
  unfold HoldsMatch at hmatch
  exact absurd hmatch (by decide +kernel)

end Gusto.Order
