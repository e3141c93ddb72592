import Gusto.Order.Cart
import Gusto.Order.Holds

/-!
# A refused population

`populateAndAwaitConfirmation` fails the order where the gateway throws, and looks at no answer, while
`confirmAndPlace` fails the order where the answer is `success: false` too.

* `PopulationChecked`: an order whose population was refused fails, and is never placed;
* `populationChecked_iff`: this holds of a run exactly when no population gets through without an
  error of which a part was answered `success: false`;
* `not_populationChecked`: an order is placed whose cart Swiggy refused.
-/

set_option autoImplicit false

namespace Gusto.Order

open Effects OrderService
open Gusto.Escrow (WalletCall)

/-! ### What is asked -/

def OrderOp.isApplyCoupon : OrderOp → Bool
  | .food (.apply_food_coupon _ _) _ => true
  | _ => false

/-- The call was made and answered. -/
def Accepted (e : OrderEvent) : Prop := (exec e.choice e.call e.pre).1.isOk

/-- The gateway answered `success: true`. -/
def Succeeded (e : OrderEvent) : Prop :=
  e.choice.error = none ∧ e.choice.response.success = true

/-- The row of the order `id` was created. -/
def Creates (evs : List OrderEvent) (id : ℕ) : Prop :=
  ∃ e ∈ evs, e.call.isCreate ∧ Accepted e ∧ e.pre.orders.rows.length = id

/-- It fills the cart. -/
def OrderOp.fills : OrderOp → Bool
  | .food (.update_food_cart _ _ _) _ | .food (.apply_food_coupon _ _) _ => true
  | _ => false

/-- Swiggy took the items and, where there is one, the coupon. -/
def Populated (cart : OptimizedCart) (evs : List OrderEvent) : Prop :=
  (∃ e ∈ evs, e.call.isUpdateCart ∧ Succeeded e) ∧
    (cart.coupon ≠ none → ∃ e ∈ evs, e.call.isApplyCoupon ∧ Succeeded e)

/-- `place_food_order` was invoked for the order `id`. -/
def Places (id : ℕ) (o : OrderNote) : Prop :=
  o.1 = .confirm id ∧ ∃ e ∈ o.2.events, e.call.isPlace

/-- The order has FAILED, and its hold was released. -/
structure FailedAndReleased (id : ℕ) (userId : String) (cart : OptimizedCart) (d : OrderDone) :
    Prop where
  failed : d.state.status id = some .FAILED
  released : ∃ e ∈ d.events, e.call = .release userId cart.finalTotal ∧ Accepted e

/-- In the run, an order is placed only if its cart was populated; otherwise it has failed when the
call that made it ends. -/
structure PopulationChecked (os : List OrderNote) : Prop where
  placed : ∀ d ∈ os, ∀ u a r cart pm, d.1 = .execute u a r cart pm → ∀ id,
    Creates d.2.events id → (∃ o ∈ os, Places id o) → Populated cart d.2.events
  refused : ∀ d ∈ os, ∀ u a r cart pm, d.1 = .execute u a r cart pm → ∀ id,
    Creates d.2.events id → ¬ Populated cart d.2.events → FailedAndReleased id u cart d.2

/-! ### The condition -/

/-- The gateway threw nothing, and answered `success: false` to a part of the population. -/
def SilentlyRefused (evs : List OrderEvent) : Prop :=
  (∀ e ∈ evs, e.call.isFood → e.choice.error = none) ∧
    ∃ e ∈ evs, e.call.fills ∧ e.choice.response.success = false

/-- Neither a write of a status nor a release fails by itself. -/
def Served (evs : List OrderEvent) : Prop :=
  ∀ e ∈ evs, e.call.isUpdate ∨ e.call.isRelease → e.choice.error = none

/-! ### Filling the cart -/

/-- Where nothing was thrown, every tool was called and answered. -/
theorem answered_of_fed {u : String} {tools : List FoodTool} {w w' : World} {evs : List OrderEvent}
    {r : Except Err Unit} (h : Fed u tools w evs r w') (hr : r = .ok ()) :
    List.Forall₂ (fun tool e => e.call = .food tool u ∧ e.choice.error = none) tools evs := by
  induction h with
  | done w => exact .nil
  | threw tool tools c e w h => cases hr
  | answered tool tools c w h evs r w' hrest ih => exact .cons ⟨rfl, h⟩ (ih hr)

theorem threw_of_fed {u : String} {tools : List FoodTool} {w w' : World} {evs : List OrderEvent}
    {r : Except Err Unit} {e : Err} (h : Fed u tools w evs r w') (hr : r = .error e) :
    ∃ e ∈ evs, e.call.isFood ∧ e.choice.error ≠ none := by
  induction h with
  | done w => cases hr
  | threw tool tools c e w h => exact ⟨_, List.mem_singleton_self _, rfl, by simp [h]⟩
  | answered tool tools c w h evs r w' hrest ih =>
    obtain ⟨e, he, h⟩ := ih hr
    exact ⟨e, List.mem_cons_of_mem _ he, h⟩

/-- A population that nothing was thrown in: its cart is populated, or it was refused silently. -/
theorem populated_of_fed {u a r : String} {cart : OptimizedCart} {w w' : World}
    {evs : List OrderEvent} (h : Fed u (populateTools a r cart) w evs (.ok ()) w') :
    (∀ e ∈ evs, e.choice.error = none) ∧
      (Populated cart evs ↔ ¬ ∃ e ∈ evs, e.call.fills ∧ e.choice.response.success = false) := by
  have hall := answered_of_fed h rfl
  unfold populateTools at hall
  unfold Populated Succeeded
  cases hc : cart.coupon with
  | none =>
    simp only [hc, Option.map_none, Option.toList_none, List.nil_append,
      List.forall₂_cons_left_iff, List.forall₂_nil_left_iff] at hall
    obtain ⟨e₁, _, ⟨h₁, he₁⟩, ⟨e₂, _, ⟨h₂, he₂⟩, rfl, rfl⟩, rfl⟩ := hall
    simp [h₁, h₂, he₁, he₂, OrderOp.isUpdateCart, OrderOp.isApplyCoupon,
      OrderOp.fills]
  | some code =>
    simp only [hc, Option.map_some, Option.toList_some, List.cons_append, List.nil_append,
      List.forall₂_cons_left_iff, List.forall₂_nil_left_iff] at hall
    obtain ⟨e₁, _, ⟨h₁, he₁⟩, ⟨e₂, _, ⟨h₂, he₂⟩, ⟨e₃, _, ⟨h₃, he₃⟩, rfl, rfl⟩, rfl⟩, rfl⟩ := hall
    simp [h₁, h₂, h₃, he₁, he₂, he₃, OrderOp.isUpdateCart, OrderOp.isApplyCoupon,
      OrderOp.fills]

/-! ### What stays -/

/-- No call makes a held amount negative. -/
theorem held_exec (c : Choice) (i : OrderOp) (w : World) (h : ∀ u, 0 ≤ reservedOf w u) (u : String) :
    0 ≤ reservedOf (exec c i w).2 u := by
  have hold : ∀ u old, w.wallets u = some old → 0 ≤ old.reservedAmount := fun u old hrow => by
    have := h u
    simpa [reservedOf, hrow] using this
  have hreq : ∀ {call : String → ℤ → WalletCall} {v : String} {amount : ℚ}
      {r : Except Err Unit × World}, Requests call v amount w r →
      (∀ n old sub, 0 ≤ old.reservedAmount → (call v n).Accepts (some old) sub →
        0 ≤ sub.reservedAmount) →
      (∀ n sub, ¬ (call v n).Accepts none sub) → 0 ≤ reservedOf r.2 u := by
    rintro call v amount r (⟨e, rfl⟩ | ⟨n, sub, -, -, -, hacc, rfl⟩) hkeep hnone
    · exact h u
    · rw [reservedOf_update]
      split
      · cases hrow : w.wallets v with
        | none =>
          rw [hrow] at hacc
          exact absurd hacc (hnone n sub)
        | some old =>
          rw [hrow] at hacc
          exact_mod_cast hkeep n old sub (hold v old hrow) hacc
      · exact h u
  cases i with
  | reserve v amount =>
    refine hreq (exec_reserve c v amount w) (fun n old sub hn hacc => ?_) (by rintro n sub ⟨⟩)
    cases hacc with
    | reserve pos le => simp only; omega
  | capture v amount =>
    refine hreq (exec_capture c v amount w) (fun n old sub hn hacc => ?_) (by rintro n sub ⟨⟩)
    cases hacc with
    | captureReservation pos le => simp only; omega
  | release v amount =>
    refine hreq (exec_release c v amount w) (fun n old sub hn hacc => ?_) (by rintro n sub ⟨⟩)
    cases hacc with
    | releaseReservation pos le => simp only; omega
  | _ =>
    rw [reservedOf_congr w _ (wallets_exec c w rfl)]
    exact h u

/-- No row is deleted. -/
theorem length_exec (n : ℕ) (c : Choice) (i : OrderOp) (w : World)
    (h : n ≤ w.orders.rows.length) : n ≤ (exec c i w).2.orders.rows.length := by
  cases i with
  | create data =>
    rcases exec_create c data w with ⟨-, e, he⟩ | ⟨-, -, he⟩
    · rw [he]
      exact h
    · rw [he]
      simp only [Orders.create, List.length_append]
      omega
  | update id data =>
    rcases exec_update c id data w with ⟨order, t, he, hwrote⟩ | ⟨e, he⟩
    · rw [he, hwrote.2, List.length_set]
      exact h
    · rw [he]
      exact h
  | _ =>
    rw [orders_exec c w rfl fun data h => by cases h]
    exact h

section Execute

variable {u a r : String} {cart : OptimizedCart} {pm : Option String} {w w' w₁ w₂ : World}
  {c c' : Choice} {evs : List OrderEvent}

/-- An order is failed, nothing being in the way: the row is FAILED and the release is accepted. -/
theorem failed_of_settled {order : OrderRow} {reason : String} {n : ℤ}
    (hs : Settled order.id { status := .FAILED } (.release order.userId n)
      (.publishOrderFailed order.userId order.id reason) w evs w')
    (hserved : Served evs) (hrow : w.orders.get? order.id = some order) (hu : order.userId ≠ "")
    (hpos : 0 < n) (hn : (n : ℚ) ≤ reservedOf w order.userId) :
    w'.status order.id = some .FAILED ∧
      ∃ e ∈ evs, e.call = .release order.userId n ∧ Accepted e := by
  cases hs with
  | refused c e h =>
    have hc : c.error = none := hserved _ (List.mem_singleton_self _) (.inl rfl)
    obtain ⟨t, ht, -⟩ := @Orders.update_of_no_ref w.orders order.id order { status := .FAILED } hrow rfl
    unfold exec serve at h
    rw [hc] at h
    simp only [ht] at h
    cases h
  | closed c c' c'' order' t h hwrote =>
    have hc' : c'.error = none :=
      hserved _ (List.mem_cons_of_mem _ (List.mem_cons_self ..)) (.inr rfl)
    obtain ⟨old, hold, hle⟩ := row_of_reserved hpos hn
    have hrelease := release_ok (w := { w with orders := t }) hc' hu hpos hold hle
    refine ⟨?_, _, List.mem_cons_of_mem _ (List.mem_cons_self ..), rfl, ?_⟩
    · unfold World.status
      rw [orders_exec c'' _ rfl (fun data h => by cases h), hrelease]
      simp [hwrote.get?, OrderUpdate.write]
    · unfold Accepted
      rw [hrelease]
      rfl

end Execute

/-! ### The call that makes an order -/

theorem fills_of_settled {id : ℕ} {data : OrderUpdate} {close publish : OrderOp} {w w' : World}
    {evs : List OrderEvent} (hs : Settled id data close publish w evs w')
    (hclose : close.onWallet) (hpub : publish.isPublish) : ∀ e ∈ evs, e.call.fills = false := by
  have hclose' : close.fills = false := by cases close <;> first | rfl | cases hclose
  have hpub' : publish.fills = false := by cases publish <;> first | rfl | cases hpub
  cases hs with
  | refused c e h => simp [OrderOp.fills]
  | closed c c' c'' order t h hwrote =>
    simp only [List.forall_mem_cons]
    exact ⟨rfl, hclose', hpub', by simp⟩

theorem fills_of_isAsk {i : OrderOp} (h : i.isAsk) : i.fills = false := by
  cases i with
  | food tool u => cases tool <;> first | rfl | cases h
  | _ => rfl

theorem fills_of_confirmed {id : ℕ} {w w' : World} {evs : List OrderEvent}
    (h : Confirmed id w evs w') : ∀ e ∈ evs, e.call.fills = false := by
  have hthen : ∀ {Q : List OrderEvent → World → Prop} {evs : List OrderEvent} {w' : World},
      AsksThen Q evs w' → (∀ rest, Q rest w' → ∀ e ∈ rest, e.call.fills = false) →
      ∀ e ∈ evs, e.call.fills = false := by
    rintro Q evs w' ⟨asks, rest, rfl, hasks, hQ⟩ hrest e he
    rcases List.mem_append.mp he with he | he
    · exact fills_of_isAsk (hasks e he)
    · exact hrest rest hQ e he
  cases h with
  | rejected c h => simp [OrderOp.fills]
  | placed c c' order hrow hst herr hsuccess evs w' hs =>
    simp only [List.forall_mem_cons]
    exact ⟨rfl, rfl, hthen hs fun rest ⟨ref, placedAt, h⟩ => fills_of_settled h rfl rfl⟩
  | failed c c' order hrow hst hfail evs w' hs =>
    simp only [List.forall_mem_cons]
    exact ⟨rfl, rfl, hthen hs fun rest ⟨reason, h⟩ => fills_of_settled h rfl rfl⟩

theorem isCreate_of_isFood {i : OrderOp} (h : i.isFood) : i.isCreate = false := by
  cases i <;> first | rfl | cases h

theorem not_creates {evs : List OrderEvent} (h : ∀ e ∈ evs, e.call.isCreate = false) (id : ℕ) :
    ¬ Creates evs id := by
  rintro ⟨e, he, hcreate, -⟩
  rw [h e he] at hcreate
  cases hcreate

theorem not_silentlyRefused {evs : List OrderEvent} (h : ∀ e ∈ evs, e.call.fills = false) :
    ¬ SilentlyRefused evs := by
  rintro ⟨-, e, he, hfills, -⟩
  rw [h e he] at hfills
  cases hfills

section NewOrder

variable {u a r : String} {cart : OptimizedCart} {pm : Option String} {w w₁ w₂ : World}
  {c c' : Choice} {order : OrderRow}

/-- The row that is created, and the only one. -/
theorem creates_iff {evs : List OrderEvent}
    (h' : exec c' (.create (createData u a r cart pm)) w₁ = (.ok order, w₂))
    (hevs : ∀ e ∈ evs, e.call.isCreate = false) (id : ℕ) :
    Creates (⟨w, .reserve u cart.finalTotal, c⟩ ::
      ⟨w₁, .create (createData u a r cart pm), c'⟩ :: evs) id ↔ order.id = id := by
  have hid : w₁.orders.rows.length = order.id := by
    rw [(create_ok h').2.2.1]
    rfl
  constructor
  · rintro ⟨e, he, hcreate, -, rfl⟩
    rcases List.mem_cons.mp he with rfl | he
    · cases hcreate
    · rcases List.mem_cons.mp he with rfl | he
      · exact hid.symm
      · rw [hevs e he] at hcreate
        cases hcreate
  · rintro rfl
    refine ⟨_, List.mem_cons_of_mem _ (List.mem_cons_self ..), rfl, ?_, hid⟩
    unfold Accepted
    rw [h']
    rfl

/-- What becomes of a new order: its call ends with it pending, and then the gateway threw nothing; or
with it failed and its hold released, and then the gateway threw. -/
inductive NewOrder (id : ℕ) (u : String) (cart : OptimizedCart) (d : OrderDone) : Prop
  | pending (h : d.state.status id = some .PENDING_CONFIRMATION)
      (hiff : Populated cart d.events ↔ ¬ SilentlyRefused d.events)
  | failed (hthrew : ¬ SilentlyRefused d.events) (h : FailedAndReleased id u cart d)

theorem new_id (h : exec c (.reserve u cart.finalTotal) w = (.ok (), w₁))
    (h' : exec c' (.create (createData u a r cart pm)) w₁ = (.ok order, w₂)) :
    w.orders.rows.length = order.id := by
  obtain ⟨-, -, horders, -⟩ := reserve_accepted h
  rw [(create_ok h').2.2.1, ← horders]
  rfl

theorem new_order_pending {w₃ : World} {c'' : Choice} {evs : List OrderEvent} {r' : Except Err OrderReply}
    (h' : exec c' (.create (createData u a r cart pm)) w₁ = (.ok order, w₂))
    (hfed : Fed u (populateTools a r cart) w₂ evs (.ok ()) w₃) :
    NewOrder order.id u cart ⟨r', w₃, ⟨w, .reserve u cart.finalTotal, c⟩ ::
      ⟨w₁, .create (createData u a r cart pm), c'⟩ ::
        (evs ++ [⟨w₃, .requestConfirmation u order.id, c''⟩])⟩ := by
  obtain ⟨herr, hiff⟩ := populated_of_fed hfed
  refine .pending ?_ ?_
  · obtain ⟨-, -, rfl, rfl⟩ := create_ok h'
    rw [World.status, (fed_same hfed).2.1]
    simp only [Orders.get?_newRow]
    rfl
  · have hpop : Populated cart (⟨w, .reserve u cart.finalTotal, c⟩ ::
        ⟨w₁, .create (createData u a r cart pm), c'⟩ ::
          (evs ++ [⟨w₃, .requestConfirmation u order.id, c''⟩])) ↔ Populated cart evs := by
      simp [Populated, OrderOp.isUpdateCart, OrderOp.isApplyCoupon]
    rw [hpop, hiff]
    unfold SilentlyRefused
    rw [and_iff_right]
    · simp [OrderOp.fills]
    · simp only [List.forall_mem_cons, List.forall_mem_append]
      exact ⟨by simp [OrderOp.isFood], by simp [OrderOp.isFood], fun e he _ => herr e he, by simp [OrderOp.isFood], by simp⟩

theorem new_order_failed {w₃ w₄ : World} {evs evs' : List OrderEvent} {e : Err}
    {r' : Except Err OrderReply} (hheld : ∀ u, 0 ≤ reservedOf w u)
    (h : exec c (.reserve u cart.finalTotal) w = (.ok (), w₁))
    (h' : exec c' (.create (createData u a r cart pm)) w₁ = (.ok order, w₂))
    (hfed : Fed u (populateTools a r cart) w₂ evs (.error e) w₃)
    (hs : SettledFailed order { cart with addressId := a, restaurantId := r, paymentMethod := pm } w₃
      evs' w₄) (hserved : Served evs') :
    NewOrder order.id u cart ⟨r', w₄, ⟨w, .reserve u cart.finalTotal, c⟩ ::
      ⟨w₁, .create (createData u a r cart pm), c'⟩ :: (evs ++ evs')⟩ := by
  obtain ⟨hu, ⟨n, hpos, hn⟩, -, -, -, hreserved⟩ := reserve_accepted h
  obtain ⟨hw₃, ho₃, -⟩ := fed_same hfed
  obtain ⟨-, -, rfl, rfl⟩ := create_ok h'
  have hheld₃ : (n : ℚ) ≤ reservedOf w₃ u := by
    rw [reservedOf_congr _ w₃ hw₃]
    change _ ≤ reservedOf w₁ u
    rw [hreserved, if_pos rfl, hn]
    linarith [hheld u]
  obtain ⟨reason, hs⟩ := hs
  simp only [hn] at hs
  obtain ⟨hst, e', he', hcall, hacc⟩ := failed_of_settled hs hserved
    (by rw [ho₃]; exact Orders.get?_newRow _ _) hu hpos hheld₃
  refine .failed ?_ ⟨hst, e', by simp [he'], by rw [hn]; exact hcall, hacc⟩
  rintro ⟨herr, -⟩
  obtain ⟨e'', he'', hfood, hne⟩ := threw_of_fed hfed rfl
  exact hne (herr e'' (by simp [he'']) hfood)

end NewOrder

/-- **The call that makes an order**, or makes none and fills no cart. -/
theorem new_order {u a r : String} {cart : OptimizedCart} {pm : Option String} {w : World}
    {d : OrderDone} (h : Executed u a r cart pm w d.events d.state)
    (hheld : ∀ u, 0 ≤ reservedOf w u) (hserved : Served d.events) :
    (¬ SilentlyRefused d.events ∧ ∀ id, ¬ Creates d.events id) ∨
      ∃ new, (∀ id, Creates d.events id ↔ new = id) ∧ w.orders.rows.length = new ∧
        NewOrder new u cart d := by
  obtain ⟨result, w', evs⟩ := d
  simp only at h hserved ⊢
  cases h with
  | tooBig h => exact .inl ⟨not_silentlyRefused (by simp), not_creates (by simp)⟩
  | notReserved c e h =>
    exact .inl ⟨not_silentlyRefused (by simp [OrderOp.fills]),
      not_creates (by simp [OrderOp.isCreate])⟩
  | notCreated c c' w₁ h e h' =>
    refine .inl ⟨not_silentlyRefused (by simp [OrderOp.fills]), ?_⟩
    rintro id ⟨e', he, hcreate, hacc, -⟩
    rcases List.mem_cons.mp he with rfl | he
    · cases hcreate
    · rw [List.mem_singleton.mp he, Accepted, h'] at hacc
      cases hacc
  | pending c c' c'' w₁ w₂ w₃ order h h' evs hfed =>
    refine .inr ⟨order.id, creates_iff h' ?_, new_id h h', new_order_pending h' hfed⟩
    simp only [List.forall_mem_append, List.forall_mem_singleton]
    exact ⟨fun e he => isCreate_of_isFood (isFood_of_fed hfed e he), rfl⟩
  | failed c c' w₁ w₂ w₃ w₄ order h h' evs evs' e hfed hs =>
    refine .inr ⟨order.id, creates_iff h' ?_, new_id h h', new_order_failed hheld h h' hfed hs
      fun e he => hserved e (by simp [he])⟩
    simp only [List.forall_mem_append]
    obtain ⟨reason, hs⟩ := hs
    refine ⟨fun e he => isCreate_of_isFood (isFood_of_fed hfed e he), ?_⟩
    cases hs <;> simp [OrderOp.isCreate]

/-! ### Runs -/

/-- What is placed was pending. -/
theorem pending_of_places {w w' : World} {l : OrderCall × List Choice} {o : OrderNote} {id : ℕ}
    (h : orderStep w l = some (w', o)) (hplaces : Places id o) :
    w.status id = some .PENDING_CONFIRMATION := by
  obtain ⟨hcall, e, he, hp⟩ := hplaces
  obtain ⟨hr, hl, -⟩ := callStep_eq_some.mp h
  obtain ⟨call, cs⟩ := l
  obtain rfl : call = .confirm id := hl.symm.trans hcall
  have hconf := confirmed_of_run hr
  generalize o.2.events = evs at he hconf
  cases hconf with
  | rejected c h =>
    rw [List.mem_singleton.mp he] at hp
    cases hp
  | placed c c' order hrow hst herr hsuccess evs w' hs => simp [World.status, hrow, hst]
  | failed c c' order hrow hst hfail evs w' hs => simp [World.status, hrow, hst]

/-- An order that fails in the call that makes it is never placed. -/
theorem not_places_of_failed {w₀ w w₁ : World} {pre post : List OrderNote} {d : OrderNote} {id : ℕ}
    {u a r : String} {cart : OptimizedCart} {pm : Option String}
    (hpre : Run orderStep anyStep w₀ w pre) (hd : d.1 = .execute u a r cart pm)
    (hid : w.orders.rows.length = id) (hpost : Run orderStep anyStep d.2.state w₁ post)
    (hfailed : d.2.state.status id = some .FAILED) : ¬ ∃ o ∈ pre ++ d :: post, Places id o := by
  rintro ⟨o, ho, hplaces⟩
  rcases List.mem_append.mp ho with ho | ho
  · -- before the call the order is not there
    obtain ⟨pre', post', hos⟩ := List.append_of_mem ho
    obtain ⟨w₂, l, w₃, -, -, hs, hr⟩ := hpre.split hos
    have hpend := pending_of_places hs hplaces
    obtain ⟨order, hrow, -⟩ := Option.map_eq_some_iff.mp hpend
    have hlt := Orders.get?_lt hrow
    obtain ⟨hcall, -, rfl⟩ := callStep_eq_some.mp hs
    have hle := Prog.wlp_iff_run.mp (Prog.wlp_invariant (length_exec _) le_rfl) _ _ hcall
    have hle' := run_keeps (length_exec w₂.orders.rows.length) hr hle
    omega
  · rcases List.mem_cons.mp ho with rfl | ho
    · cases hd.symm.trans hplaces.1
    · -- after it the order is not pending
      obtain ⟨pre', post', hos⟩ := List.append_of_mem ho
      obtain ⟨w₂, l, w₃, hr, -, hs, -⟩ := hpost.split hos
      obtain ⟨row, hrow, hst⟩ := Option.map_eq_some_iff.mp hfailed
      have hpend := pending_of_places hs hplaces
      rw [World.status, row_run hr hrow (by rw [hst]; decide), Option.map_some, hst] at hpend
      cases hpend

/-- What becomes of an order in the run in which it is made: one that fails is never placed. -/
theorem new_order_of_run {w₀ w : World} {os : List OrderNote} {d : OrderNote} {u a r : String}
    {cart : OptimizedCart} {pm : Option String} (hrun : Run orderStep anyStep w₀ w os)
    (hheld : ∀ u, 0 ≤ reservedOf w₀ u) (hserved : ∀ o ∈ os, Served o.2.events) (hd : d ∈ os)
    (hl : d.1 = .execute u a r cart pm) :
    (¬ SilentlyRefused d.2.events ∧ ∀ id, ¬ Creates d.2.events id) ∨
      ∃ new, (∀ id, Creates d.2.events id ↔ new = id) ∧ NewOrder new u cart d.2 ∧
        (FailedAndReleased new u cart d.2 → ¬ ∃ o ∈ os, Places new o) := by
  obtain ⟨pre, post, hos⟩ := List.append_of_mem hd
  obtain ⟨w₁, ⟨call, cs⟩, w₂, hr, -, hs, hpost⟩ := hrun.split hos
  obtain ⟨hcall, hl', rfl⟩ := callStep_eq_some.mp hs
  obtain rfl : call = .execute u a r cart pm := hl'.symm.trans hl
  rcases new_order (executed_of_run hcall) (run_keeps held_exec hr hheld) (hserved d hd) with
    hnone | ⟨new, hcreates, hlen, hnew⟩
  · exact .inl hnone
  · refine .inr ⟨new, hcreates, hnew, fun h => ?_⟩
    rw [hos]
    exact not_places_of_failed hr hl hlen hpost h.failed

/-- A confirmation fills no cart. -/
theorem not_silentlyRefused_confirm {w₀ w : World} {os : List OrderNote}
    (hrun : Run orderStep anyStep w₀ w os) :
    ∀ o ∈ os, ∀ id, o.1 = .confirm id → ¬ SilentlyRefused o.2.events := by
  refine hrun.forall_mem fun w l w' o hs id hl => ?_
  obtain ⟨hcall, hl', -⟩ := callStep_eq_some.mp hs
  obtain ⟨call, cs⟩ := l
  obtain rfl : call = .confirm id := hl'.symm.trans hl
  exact not_silentlyRefused (fills_of_confirmed (confirmed_of_run hcall))

/-- **When a refused population stops the order.** Where no status write and no release fails by
itself, in any run of whole calls an order is placed only if its cart was populated, and has failed
otherwise, exactly when no population that the gateway threw nothing at was answered `success: false`
in a part. -/
theorem populationChecked_iff {w₀ w : World} {os : List OrderNote}
    (hrun : Run orderStep anyStep w₀ w os) (hheld : ∀ u, 0 ≤ reservedOf w₀ u)
    (hserved : ∀ o ∈ os, Served o.2.events) :
    PopulationChecked os ↔ ∀ o ∈ os, ¬ SilentlyRefused o.2.events := by
  constructor
  · intro h d hd hsilent
    cases hl : d.1 with
    | confirm id => exact not_silentlyRefused_confirm hrun d hd id hl hsilent
    | execute u a r cart pm =>
      rcases new_order_of_run hrun hheld hserved hd hl with ⟨hnot, -⟩ | ⟨new, hcreates, hnew, -⟩
      · exact hnot hsilent
      · cases hnew with
        | failed hthrew h => exact hthrew hsilent
        | pending hpend hiff =>
          have hfailed := (h.refused d hd u a r cart pm hl new ((hcreates new).mpr rfl)
            fun hpop => hiff.mp hpop hsilent).failed
          rw [hpend] at hfailed
          cases hfailed
  · intro h
    have hnew : ∀ d ∈ os, ∀ u a r cart pm, d.1 = .execute u a r cart pm → ∀ id,
        Creates d.2.events id → Populated cart d.2.events ∨
          (FailedAndReleased id u cart d.2 ∧ ¬ ∃ o ∈ os, Places id o) := by
      intro d hd u a r cart pm hl id hid
      rcases new_order_of_run hrun hheld hserved hd hl with ⟨-, hnone⟩ | ⟨new, hcreates, hnew, hnot⟩
      · exact absurd hid (hnone id)
      · obtain rfl := (hcreates id).mp hid
        cases hnew with
        | pending hpend hiff => exact .inl (hiff.mpr (h d hd))
        | failed hthrew h => exact .inr ⟨h, hnot h⟩
    constructor
    · intro d hd u a r cart pm hl id hid hplaces
      rcases hnew d hd u a r cart pm hl id hid with h | ⟨-, hnot⟩
      · exact h
      · exact absurd hplaces hnot
    · intro d hd u a r cart pm hl id hid hpop
      rcases hnew d hd u a r cart pm hl id hid with h | ⟨h, -⟩
      · exact absurd h hpop
      · exact h

/-! ### With and without a refusal -/

/-- An order whose `update_food_cart` is answered with `answer`. -/
def orderingWith (answer : McpToolResponse) : OrderCall × List Choice :=
  (.execute "user-1" "addr-1" "rest-1" (cartOf "idli") none,
    [{}, {}, { response := answer }, {}, {}])

theorem held_shopper (u : String) : 0 ≤ reservedOf shopper u := by
  simp [reservedOf, shopper]

/-- A population that succeeds, and a placement. -/
theorem populationChecked_iff_populated :
    ∃ w os, runSteps orderStep anyStep [orderingWith { success := true }, confirmation 0 "ref-1"]
        shopper [] = some (w, os) ∧
      (PopulationChecked os ↔ ∀ o ∈ os, ¬ SilentlyRefused o.2.events) := by
  have hsteps : runSteps orderStep anyStep
    [orderingWith { success := true }, confirmation 0 "ref-1"] shopper [] = some (_, _) := rfl
  exact ⟨_, _, hsteps, populationChecked_iff (Run.of_runSteps .nil hsteps) held_shopper
    (by unfold Served; decide)⟩

/-- `update_food_cart` is answered `success: false`; the order stays pending and is placed. -/
theorem not_populationChecked :
    ¬ ∀ (w₀ w : World) os, Run orderStep anyStep w₀ w os → (∀ u, 0 ≤ reservedOf w₀ u) →
      (∀ o ∈ os, Served o.2.events) → PopulationChecked os := by
  intro h
  have hsteps : runSteps orderStep anyStep
    [orderingWith { success := false }, confirmation 0 "ref-1"] shopper [] = some (_, _) := rfl
  have hchecked := h _ _ _ (Run.of_runSteps .nil hsteps) held_shopper (by unfold Served; decide)
  have hpopulated := hchecked.placed _ (List.mem_cons_self ..) "user-1" "addr-1" "rest-1"
    (cartOf "idli") none rfl 0
    ⟨_, List.mem_cons_of_mem _ (List.mem_cons_self ..), rfl, rfl, rfl⟩
    ⟨_, List.mem_of_getLast? rfl, rfl, _, List.mem_cons_of_mem _ (List.mem_cons_self ..), rfl⟩
  unfold Populated Succeeded at hpopulated
  exact absurd hpopulated (by decide)

end Gusto.Order
