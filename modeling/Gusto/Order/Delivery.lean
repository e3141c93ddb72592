import Gusto.Order.Outcome

/-!
# Deliveries

* `Polled`: every way for `pollDeliveryStatus` to end;
* `deliveryStep`: whole calls of the order service, polls among them;
* `RowStep`: what one call may make of a row; `row_step`: it makes nothing else of it;
* `DeliveredOnce`: a delivery is recorded once, and what is final stays;
* `deliveredOnce_of_run`: so it is in every run in which no poll is told of a delivery again.
-/

set_option autoImplicit false

namespace Gusto.Order

open Effects OrderService

/-! ### `pollDeliveryStatus` -/

/-- What `track_food_order` answers of an order that has been delivered. -/
def SaysDelivered (response : McpToolResponse) : Prop :=
  (response.data.bind (·.status)).map toUpperCase = some "DELIVERED"

instance : DecidablePred SaysDelivered := fun _ => inferInstanceAs (Decidable (_ = _))

/-- What `pollDeliveryStatus` writes. -/
abbrev deliveredData (deliveredAt : ℤ) : OrderUpdate :=
  { status := .DELIVERED, deliveredAt := some deliveredAt }

def OrderOp.isDelivered : OrderOp → Bool
  | .publishOrderDelivered _ _ => true
  | _ => false

/-- Every way for `pollDeliveryStatus` to end: nothing is written, or the order is delivered. -/
inductive Polled (id : ℕ) (w : World) : List OrderEvent → World → Prop
  | idle (evs : List OrderEvent) (h : ∀ e ∈ evs, e.call.isDelivered = false) : Polled id w evs w
  | delivered (c c₁ c₂ c₃ c₄ : Choice) (order : OrderRow) (ref : String) (deliveredAt : ℤ) (t : Orders)
      (href : order.swiggyOrderRef = some ref) (herr : c₁.error = none)
      (htold : SaysDelivered c₁.response)
      (hwrote : Orders.Wrote w.orders t id order (deliveredData deliveredAt)) :
    Polled id w
      [⟨w, .findUnique id, c⟩, ⟨w, .food (.track_food_order ref) order.userId, c₁⟩, ⟨w, .now, c₂⟩,
        ⟨w, .update id (deliveredData deliveredAt), c₃⟩,
        ⟨{ w with orders := t }, .publishOrderDelivered order.userId id, c₄⟩]
      { w with orders := t }

theorem exec_publishOrderDelivered (c : Choice) (u : String) (id : ℕ) (w : World) :
    (exec c (.publishOrderDelivered u id) w).2 = w := by
  unfold exec
  cases c.error <;> rfl

/-- **Every run of `pollDeliveryStatus`.** -/
theorem wlp_pollDeliveryStatus (id : ℕ) (w : World) :
    (pollDeliveryStatus id).wlp exec (fun evs _ w' => Polled id w evs w') w := by
  refine Prog.wlp_await_bind.mpr fun c => ?_
  rcases exec_findUnique c id w with ⟨e, he⟩ | he
  · rw [he]
    exact .idle _ (by simp [OrderOp.isDelivered])
  · rw [he]
    cases hrow : w.orders.get? id with
    | none => exact .idle _ (by simp [OrderOp.isDelivered])
    | some order =>
      obtain rfl := w.orders.id_eq id order hrow
      cases href : order.swiggyOrderRef.filter (· ≠ "") with
      | none =>
        simp only [href]
        exact .idle _ (by simp [OrderOp.isDelivered])
      | some ref =>
        simp only [href]
        refine Prog.wlp_await_bind.mpr fun c₁ => ?_
        have hask := exec_of_isAsk c₁ (i := .food (.track_food_order ref) order.userId) w rfl
        cases herr : c₁.error with
        | some e =>
          rw [exec_food_error herr]
          exact .idle _ (by simp [OrderOp.isDelivered])
        | none =>
          rw [exec_food_ok herr] at hask ⊢
          simp only at hask ⊢
          rw [hask]
          by_cases htold : SaysDelivered c₁.response
          · rw [if_pos (show _ = _ from htold)]
            refine Prog.wlp_await_bind.mpr fun c₂ => ?_
            obtain ⟨deliveredAt, hnow⟩ := exec_local c₂ w (show OrderOp.now.Local from trivial)
            rw [hnow]
            refine Prog.wlp_await_bind.mpr fun c₃ => ?_
            rcases exec_update c₃ order.id (deliveredData deliveredAt) w with
              ⟨row, t, he, hwrote⟩ | ⟨e, he⟩
            · rw [he]
              obtain rfl : row = order := Option.some.inj (hwrote.1.symm.trans hrow)
              refine Prog.wlp_await_bind.mpr fun c₄ => ?_
              have hdone := Polled.delivered c c₁ c₂ c₃ c₄ row ref deliveredAt t
                (Option.eq_some_of_filter_eq_some href) herr htold hwrote
              have hpub := exec_publishOrderDelivered c₄ row.userId row.id { w with orders := t }
              split <;> (rename_i h; rw [h] at hpub; simp only at hpub; subst hpub; exact hdone)
            · rw [he]
              exact .idle _ (by simp [OrderOp.isDelivered])
          · rw [if_neg (show ¬ _ = _ from htold)]
            exact .idle _ (by simp [OrderOp.isDelivered])

theorem polled_of_run {id : ℕ} {cs : List Choice} {w : World}
    {d : Done World OrderOp Choice Err PollReply}
    (h : (pollDeliveryStatus id).run exec cs w = some d) : Polled id w d.events d.state :=
  Prog.wlp_iff_run.mp (wlp_pollDeliveryStatus id w) cs d h

/-! ### What one call makes of a row -/

/-- A call leaves a row, or places it, or fails it, or delivers it. -/
inductive RowStep (row : OrderRow) : OrderRow → Prop
  | same : RowStep row row
  | placed (ref : String) (placedAt : ℤ) (h : row.status = .PENDING_CONFIRMATION) :
    RowStep row ((placedData ref placedAt).write row)
  | failed (h : row.status = .PENDING_CONFIRMATION) :
    RowStep row (({ status := .FAILED } : OrderUpdate).write row)
  | delivered (deliveredAt : ℤ) (h : row.status = .PLACED) :
    RowStep row ((deliveredData deliveredAt).write row)

/-- Only what has been placed has a ref, and only what has been delivered a time of delivery. -/
structure RowOk (row : OrderRow) : Prop where
  ref : row.swiggyOrderRef ≠ none → row.status = .PLACED ∨ row.status = .DELIVERED
  deliveredAt : row.deliveredAt ≠ none → row.status = .DELIVERED

section Row

variable {w w' : World} {evs : List OrderEvent} {id : ℕ} {row row' : OrderRow}

theorem RowStep.ok (h : RowStep row row') (hok : RowOk row) : RowOk row' := by
  cases h with
  | same => exact hok
  | placed ref placedAt hst =>
    refine ⟨fun _ => .inl rfl, fun hd => ?_⟩
    have := hok.deliveredAt hd
    rw [hst] at this
    cases this
  | failed hst =>
    refine ⟨fun hr => ?_, fun hd => ?_⟩
    · have := hok.ref hr
      rw [hst] at this
      simp at this
    · have := hok.deliveredAt hd
      rw [hst] at this
      cases this
  | delivered deliveredAt hst => exact ⟨fun _ => .inr rfl, fun _ => rfl⟩

/-- The table stays, or one row of it moves. -/
inductive TableStep (t t' : Orders) : Prop
  | same (h : t' = t)
  | wrote {order : OrderRow} {data : OrderUpdate} {id : ℕ} (h : Orders.Wrote t t' id order data)
      (hstep : RowStep order (data.write order))

theorem TableStep.rowStep {t t' : Orders} (h : TableStep t t') (hrow : t.get? id = some row) :
    ∃ row', t'.get? id = some row' ∧ RowStep row row' := by
  cases h with
  | same h => exact ⟨row, h ▸ hrow, .same⟩
  | @wrote order data id' h hstep =>
    rw [h.get?]
    by_cases hid : id = id'
    · rw [if_pos hid]
      obtain rfl : order = row := Option.some.inj (h.1.symm.trans (hid ▸ hrow))
      exact ⟨_, rfl, hstep⟩
    · rw [if_neg hid]
      exact ⟨row, hrow, .same⟩

theorem TableStep.none {t t' : Orders} (h : TableStep t t') (hnone : t.get? id = none) :
    t'.get? id = none := by
  cases h with
  | same h => exact h ▸ hnone
  | wrote h hstep =>
    rw [h.get?, if_neg]
    · exact hnone
    · rintro rfl
      rw [h.1] at hnone
      cases hnone

theorem tableStep_confirmed (h : Confirmed id w evs w') : TableStep w.orders w'.orders := by
  cases h with
  | rejected c h => exact .same rfl
  | placed c c' order horder hst herr hsuccess evs w' h =>
    obtain ⟨asks, rest, -, -, ref, placedAt, hs⟩ := h
    obtain rfl := w.orders.id_eq id order horder
    have hfood := orders_food c' (.place_food_order order.cart.addressId
      (order.cart.paymentMethod.filter (· ≠ ""))) order.userId w
    have hsettled := orders_settled hs rfl rfl
    rw [hfood] at hsettled
    rcases hsettled with he | ⟨order', hwrote⟩
    · exact .same he
    · obtain rfl : order' = order := Option.some.inj (hwrote.1.symm.trans horder)
      exact .wrote hwrote (.placed ref placedAt hst)
  | failed c c' order horder hst hfail evs w' h =>
    obtain ⟨asks, rest, -, -, reason, hs⟩ := h
    obtain rfl := w.orders.id_eq id order horder
    rcases orders_settled hs rfl rfl with he | ⟨order', hwrote⟩
    · exact .same he
    · obtain rfl : order' = order := Option.some.inj (hwrote.1.symm.trans horder)
      exact .wrote hwrote (.failed hst)

/-- A row that a call adds has neither a ref nor a time of delivery. -/
theorem rowOk_executed {u a r : String} {cart : OptimizedCart} {pm : Option String}
    (h : Executed u a r cart pm w evs w') (hnone : w.orders.get? id = none)
    (hrow : w'.orders.get? id = some row) : RowOk row := by
  -- the row as it is created, in a table that had none for the order
  have hnew : ∀ {w₁ w₂ : World} {c c' : Choice} {order : OrderRow},
      exec c (.reserve u cart.finalTotal) w = (.ok (), w₁) →
      exec c' (.create (createData u a r cart pm)) w₁ = (.ok order, w₂) →
      ∀ row, w₂.orders.get? id = some row → row.swiggyOrderRef = none ∧ row.deliveredAt = none := by
    intro w₁ w₂ c c' order h h' row hrow
    obtain ⟨-, -, -, rfl⟩ := create_ok h'
    rcases Orders.get?_create.mp hrow with hold | ⟨-, rfl⟩
    · rw [orders_reserve h, hnone] at hold
      cases hold
    · exact ⟨rfl, rfl⟩
  have hblank : row.swiggyOrderRef = none ∧ row.deliveredAt = none → RowOk row := fun hb =>
    ⟨fun hr => absurd hb.1 hr, fun hd => absurd hb.2 hd⟩
  cases h with
  | tooBig h => rw [hnone] at hrow; cases hrow
  | notReserved c e h => rw [hnone] at hrow; cases hrow
  | notCreated c c' w₁ h e h' => rw [orders_reserve h, hnone] at hrow; cases hrow
  | pending c c' c'' w₁ w₂ w₃ order h h' evs hfed =>
    rw [orders_fed hfed] at hrow
    exact hblank (hnew h h' row hrow)
  | failed c c' w₁ w₂ w₃ w₄ order h h' evs evs' e hfed hs =>
    obtain ⟨reason, hs⟩ := hs
    rcases orders_settled hs rfl rfl with he | ⟨order', hwrote⟩
    · rw [he, orders_fed hfed] at hrow
      exact hblank (hnew h h' row hrow)
    · rw [hwrote.get?] at hrow
      rw [orders_fed hfed] at hwrote hrow
      split at hrow
      · rename_i hid
        cases hrow
        exact hblank (hnew h h' order' (hid ▸ hwrote.1))
      · exact hblank (hnew h h' row hrow)

end Row

/-! ### What announces a delivery -/

section Calls

variable {w w' : World} {evs : List OrderEvent} {id : ℕ}

theorem isDelivered_of_isAsk {i : OrderOp} (h : i.isAsk) : i.isDelivered = false := by
  cases i <;> first | rfl | cases h

theorem isDelivered_of_closes {i : OrderOp} (h : i.closes = false) : i.isDelivered = false := by
  cases i <;> first | rfl | cases h

theorem isDelivered_confirmed (h : Confirmed id w evs w') :
    ∀ e ∈ evs, e.call.isDelivered = false := by
  cases h with
  | rejected c h => simp [OrderOp.isDelivered]
  | placed c c' order horder hst herr hsuccess evs w' h =>
    obtain ⟨asks, rest, rfl, hasks, ref, placedAt, hs⟩ := h
    simp only [List.forall_mem_cons, List.forall_mem_append]
    exact ⟨rfl, rfl, fun e he => isDelivered_of_isAsk (hasks e he),
      forall_settled (P := fun i => i.isDelivered = false) hs rfl rfl rfl⟩
  | failed c c' order horder hst hfail evs w' h =>
    obtain ⟨asks, rest, rfl, hasks, reason, hs⟩ := h
    simp only [List.forall_mem_cons, List.forall_mem_append]
    exact ⟨rfl, rfl, fun e he => isDelivered_of_isAsk (hasks e he),
      forall_settled (P := fun i => i.isDelivered = false) hs rfl rfl rfl⟩

end Calls

/-! ### Whole calls -/

inductive DeliveryCall
  | move (call : OrderCall)
  | poll (orderId : ℕ)

/-- A call, with the worlds before and after it and the calls it made. -/
structure DeliveryNote where
  call : DeliveryCall
  before : World
  events : List OrderEvent
  after : World

/-- One whole call: `POST /orders/execute`, `/orders/confirm` or `/orders/:orderId/poll-delivery`. -/
def deliveryStep (w : World) (l : DeliveryCall × List Choice) : Option (World × DeliveryNote) :=
  match l.1 with
  | .move call => (call.prog.run exec l.2 w).map fun d => (d.state, ⟨l.1, w, d.events, d.state⟩)
  | .poll orderId =>
    ((pollDeliveryStatus orderId).run exec l.2 w).map fun d =>
      (d.state, ⟨l.1, w, d.events, d.state⟩)

/-- It publishes that the order has been delivered. -/
def publishes (id : ℕ) (e : OrderEvent) : Bool :=
  match e.call with
  | .publishOrderDelivered _ id' => id' = id && e.choice.error.isNone
  | _ => false

/-- The times that a run publishes the delivery of an order. -/
def published (id : ℕ) (ns : List DeliveryNote) : ℕ :=
  (ns.flatMap (·.events)).countP (publishes id)

/-- What may become of a row. -/
structure Advances (row row' : OrderRow) : Prop where
  deliveredAt : row.deliveredAt ≠ none → row'.deliveredAt = row.deliveredAt
  status : row'.status = row.status ∨
    row.status = .PENDING_CONFIRMATION ∧ (row'.status = .PLACED ∨ row'.status = .FAILED) ∨
    row.status = .PLACED ∧ row'.status = .DELIVERED
  final : row.status = .FAILED ∨ row.status = .DELIVERED → row' = row

/-- Of no order the delivery is published twice, and each call does to each row what may be done. -/
structure DeliveredOnce (ns : List DeliveryNote) : Prop where
  published : ∀ id, published id ns ≤ 1
  moves : ∀ n ∈ ns, ∀ id row, n.before.orders.get? id = some row →
    ∃ row', n.after.orders.get? id = some row' ∧ Advances row row'

def OrderOp.isTrack : OrderOp → Bool
  | .food (.track_food_order _) _ => true
  | _ => false

/-- The status that a poll finds. -/
def DeliveryNote.found (n : DeliveryNote) : Option OrderStatus :=
  match n.call with
  | .poll orderId => n.before.status orderId
  | .move _ => none

/-- A poll that finds its order DELIVERED is told that it has been delivered. -/
def ToldAgain (n : DeliveryNote) : Prop :=
  n.found = some .DELIVERED ∧
    ∃ e ∈ n.events, e.call.isTrack = true ∧ e.choice.error = none ∧ SaysDelivered e.choice.response

instance : DecidablePred ToldAgain := fun n =>
  inferInstanceAs (Decidable (_ ∧ ∃ e ∈ n.events, _ ∧ _ ∧ _))

theorem RowStep.moves {row row' : OrderRow} (h : RowStep row row') (hok : RowOk row) :
    Advances row row' := by
  cases h with
  | same => exact ⟨fun _ => rfl, .inl rfl, fun _ => rfl⟩
  | placed ref placedAt hst =>
    exact ⟨fun _ => rfl, .inr (.inl ⟨hst, .inl rfl⟩), fun hf => by simp [hst] at hf⟩
  | failed hst => exact ⟨fun _ => rfl, .inr (.inl ⟨hst, .inr rfl⟩), fun hf => by simp [hst] at hf⟩
  | delivered deliveredAt hst =>
    refine ⟨fun hd => ?_, .inr (.inr ⟨hst, rfl⟩), fun hf => by simp [hst] at hf⟩
    have := hok.deliveredAt hd
    rw [hst] at this
    cases this

/-! ### One step -/

/-- 1 where the order is DELIVERED. -/
def deliveries (w : World) (id : ℕ) : ℕ := if w.status id = some .DELIVERED then 1 else 0

/-- What one call does to the rows, and to the delivery of each order. -/
structure DeliveryEffect (w w' : World) (evs : List OrderEvent) : Prop where
  rows : ∀ id row, w.orders.get? id = some row →
    ∃ row', w'.orders.get? id = some row' ∧ RowStep row row'
  new : ∀ id row, w.orders.get? id = none → w'.orders.get? id = some row → RowOk row
  published : ∀ id, evs.countP (publishes id) + deliveries w id ≤ deliveries w' id

section Effect

variable {w w' : World} {evs : List OrderEvent} {id : ℕ}

/-- A DELIVERED row stays so. -/
theorem deliveries_le
    (hrows : ∀ id row, w.orders.get? id = some row →
      ∃ row', w'.orders.get? id = some row' ∧ RowStep row row') (id : ℕ) :
    deliveries w id ≤ deliveries w' id := by
  by_cases hd : w.status id = some .DELIVERED
  · obtain ⟨row, hrow, hst⟩ := Option.map_eq_some_iff.mp hd
    obtain ⟨row', hrow', hstep⟩ := hrows id row hrow
    have hst' : row'.status = .DELIVERED := by
      cases hstep with
      | same => exact hst
      | placed _ _ h => simp [hst] at h
      | failed h => simp [hst] at h
      | delivered _ h => rfl
    have hd' : w'.status id = some .DELIVERED := by rw [World.status, hrow', Option.map_some, hst']
    simp [deliveries, hd, hd']
  · simp [deliveries, hd]

/-- A call that announces no delivery. -/
theorem countP_publishes (h : ∀ e ∈ evs, e.call.isDelivered = false) :
    evs.countP (publishes id) = 0 := by
  refine List.countP_eq_zero.mpr fun e he => ?_
  have := h e he
  unfold publishes
  cases hc : e.call <;> simp_all [OrderOp.isDelivered]

theorem effect_of_quiet (h : ∀ e ∈ evs, e.call.isDelivered = false)
    (hrows : ∀ id row, w.orders.get? id = some row →
      ∃ row', w'.orders.get? id = some row' ∧ RowStep row row')
    (hnew : ∀ id row, w.orders.get? id = none → w'.orders.get? id = some row → RowOk row) :
    DeliveryEffect w w' evs :=
  ⟨hrows, hnew, fun id => by rw [countP_publishes h, Nat.zero_add]; exact deliveries_le hrows id⟩

theorem effect_of_table (h : ∀ e ∈ evs, e.call.isDelivered = false)
    (ht : TableStep w.orders w'.orders) : DeliveryEffect w w' evs :=
  effect_of_quiet h (fun _ _ hrow => ht.rowStep hrow) fun id row hnone hrow => by
    rw [ht.none hnone] at hrow
    cases hrow

/-- A poll that delivers an order for the first time. -/
theorem effect_polled (h : Polled id w evs w')
    (hok : ∀ row, w.orders.get? id = some row → RowOk row)
    (hfirst : w.status id = some .DELIVERED → ∀ e ∈ evs, e.call.isTrack = true →
      e.choice.error = none → ¬ SaysDelivered e.choice.response) : DeliveryEffect w w' evs := by
  cases h with
  | idle evs h => exact effect_of_table h (.same rfl)
  | delivered c c₁ c₂ c₃ c₄ order ref deliveredAt t href herr htold hwrote =>
    have hst : order.status = .PLACED := by
      rcases (hok order hwrote.1).ref (by simp [href]) with hst | hst
      · exact hst
      · exact absurd htold (hfirst (by rw [World.status, hwrote.1, Option.map_some, hst]) _
          (List.mem_cons_of_mem _ (List.mem_cons_self ..)) rfl herr)
    have ht : TableStep w.orders t := .wrote hwrote (.delivered deliveredAt hst)
    refine ⟨fun _ _ hrow => ht.rowStep hrow, fun id' row hnone hrow => ?_, fun id' => ?_⟩
    · rw [ht.none hnone] at hrow
      cases hrow
    · by_cases hid : id = id'
      · subst hid
        have hbefore : w.status id ≠ some .DELIVERED := by
          rw [World.status, hwrote.1, Option.map_some, hst]
          decide
        have hafter : World.status { w with orders := t } id = some .DELIVERED := by
          rw [World.status, hwrote.get?, if_pos rfl]
          rfl
        rw [deliveries, deliveries, if_neg hbefore, if_pos hafter]
        simp only [List.countP_cons, List.countP_nil, publishes]
        cases c₄.error <;> simp
      · have hquiet : [(⟨w, .findUnique id, c⟩ : OrderEvent),
            ⟨w, .food (.track_food_order ref) order.userId, c₁⟩, ⟨w, .now, c₂⟩,
            ⟨w, .update id (deliveredData deliveredAt), c₃⟩,
            ⟨{ w with orders := t }, .publishOrderDelivered order.userId id, c₄⟩].countP
              (publishes id') = 0 := by simp [publishes, hid]
        rw [hquiet, Nat.zero_add]
        exact deliveries_le (fun _ _ hrow => ht.rowStep hrow) id'

/-- **One call**: unless a poll is told of a delivery again, each row moves as it may, and a delivery
is published only of an order that becomes DELIVERED. -/
theorem effect_of_step {l : DeliveryCall × List Choice} {n : DeliveryNote}
    (hok : ∀ id row, w.orders.get? id = some row → RowOk row)
    (h : deliveryStep w l = some (w', n)) (hn : ¬ ToldAgain n) :
    n.before = w ∧ n.after = w' ∧ DeliveryEffect w w' n.events := by
  obtain ⟨call, cs⟩ := l
  cases call with
  | move call =>
    obtain ⟨d, hd, he⟩ := Option.map_eq_some_iff.mp h
    cases he
    refine ⟨rfl, rfl, ?_⟩
    cases call with
    | execute u a r cart pm =>
      have hex := executed_of_run hd
      exact effect_of_quiet (fun e he => isDelivered_of_closes (closes_executed hex e he))
        (fun id row hrow => ⟨row, row_executed hex hrow, .same⟩)
        fun id row hnone hrow => rowOk_executed hex hnone hrow
    | confirm id =>
      have hcon := confirmed_of_run hd
      exact effect_of_table (isDelivered_confirmed hcon) (tableStep_confirmed hcon)
  | poll id =>
    obtain ⟨d, hd, he⟩ := Option.map_eq_some_iff.mp h
    cases he
    refine ⟨rfl, rfl, effect_polled (polled_of_run hd) (hok id) ?_⟩
    intro hst e he htrack herr htold
    exact hn ⟨hst, e, he, htrack, herr, htold⟩

end Effect

/-! ### Runs -/

/-- **A delivery is recorded once** in every run from a table without orders in which no poll of a
DELIVERED order is told again that it has been delivered. -/
theorem deliveredOnce_of_run (w₀ w : World) (ns : List DeliveryNote) (h₀ : w₀.orders.rows = [])
    (hrun : Run deliveryStep anyStep w₀ w ns) (hns : ∀ n ∈ ns, ¬ ToldAgain n) :
    DeliveredOnce ns := by
  have hinv := hrun.invariant_of_forall hns
    (fun ns w => (∀ id row, w.orders.get? id = some row → RowOk row) ∧
      (∀ id, published id ns ≤ deliveries w id) ∧ DeliveredOnce ns) ?_ ?_
  · exact hinv.2.2
  · refine ⟨fun id row hrow => ?_, fun id => Nat.zero_le _, fun id => Nat.zero_le _, by simp⟩
    simp [Orders.get?, h₀] at hrow
  · rintro ns w l w' n ⟨hok, hpub, -, hmoves⟩ hn hs
    obtain ⟨hbefore, hafter, hrows, hnew, hcount⟩ := effect_of_step hok hs hn
    have hpub' : ∀ id, published id (ns ++ [n]) ≤ deliveries w' id := by
      intro id
      have h1 := hpub id
      have h2 := hcount id
      unfold published at h1 ⊢
      simp only [List.flatMap_append, List.flatMap_singleton, List.countP_append]
      omega
    refine ⟨fun id row hrow => ?_, hpub', fun id => (hpub' id).trans ?_, fun m hm => ?_⟩
    · cases hold : w.orders.get? id with
      | none => exact hnew id row hold hrow
      | some old =>
        obtain ⟨row', hrow', hstep⟩ := hrows id old hold
        rw [hrow] at hrow'
        cases hrow'
        exact hstep.ok (hok id old hold)
    · unfold deliveries
      split <;> omega
    · rcases List.mem_append.mp hm with hm | hm
      · exact hmoves m hm
      · rw [List.mem_singleton.mp hm, hbefore, hafter]
        intro id row hrow
        obtain ⟨row', hrow', hstep⟩ := hrows id row hrow
        exact ⟨row', hrow', hstep.moves (hok id row hrow)⟩

/-- A user with 1000 paise and no orders. -/
def noOrders : World where
  wallets := fun _ => some
    { totalDeposited := 1000, currentBalance := 1000, daysLeft := 30, dailyAvgLimit := 33 }

/-- A poll at the time `t`, answered that the order has been delivered. -/
def pollAt (t : ℤ) : DeliveryCall × List Choice :=
  (.poll 0, [{}, { response := { success := true, data := some { status := some "DELIVERED" } } },
    { now := t }, {}, {}])

/-- An order of 250 paise that is made, placed, and polled once it has been delivered. -/
def firstPoll : List (DeliveryCall × List Choice) :=
  [(.move (.execute "user-1" "addr-1" "rest-1"
      { items := [⟨"item-1", 2⟩], baseCost := 250, finalTotal := 250 } none), [{}, {}, {}, {}, {}]),
    (.move (.confirm 0), [{}, {}, { uuid := "swiggy-1" }, { now := 1 }, {}, {}, {}]), pollAt 2]

theorem deliveredOnce_of_run_firstPoll :
    ∃ w ns, runSteps deliveryStep anyStep firstPoll noOrders [] = some (w, ns) ∧
      published 0 ns = 1 ∧ DeliveredOnce ns := by
  have hrun : (runSteps deliveryStep anyStep firstPoll noOrders []).any
      (fun r => published 0 r.2 = 1 ∧ ∀ n ∈ r.2, ¬ ToldAgain n) := by decide +kernel
  obtain ⟨⟨w, ns⟩, hsteps, hns⟩ := (Option.any_eq_true _ _).mp hrun
  obtain ⟨hone, htold⟩ := of_decide_eq_true hns
  exact ⟨w, ns, hsteps, hone,
    deliveredOnce_of_run noOrders w ns rfl (Run.of_runSteps .nil hsteps) htold⟩

/-- Polled again, the delivery is published again. -/
theorem not_deliveredOnce :
    ¬ ∀ (w₀ w : World) (ns : List DeliveryNote), w₀.orders.rows = [] →
      Run deliveryStep anyStep w₀ w ns → DeliveredOnce ns := by
  intro h
  have hrun : (runSteps deliveryStep anyStep (firstPoll ++ [pollAt 3]) noOrders []).any
      (fun r => published 0 r.2 = 2) := by decide +kernel
  obtain ⟨⟨w, ns⟩, hsteps, hns⟩ := (Option.any_eq_true _ _).mp hrun
  have hone := (h noOrders w ns rfl (Run.of_runSteps .nil hsteps)).published 0
  have htwo := of_decide_eq_true hns
  simp only at htwo
  omega

end Gusto.Order
