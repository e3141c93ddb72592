import Gusto.Lib.Pool
import Gusto.Order.World

/-!
# One placement per order

Calls of `confirmAndPlace` in threads of their own, whose calls to the table, the gateway and
escrow-service interleave.  The only guard is the read of the status; `place_food_order` and the
write of the status follow it as separate calls.

* `PlacedOnce`: an order is placed at most once, and not both captured and released;
* `placedOnce_of_guarded`: this holds of every interleaving in which no call reads an order as
  pending while another one is between its own read and its write, and no status write is refused;
* `not_placedOnce`: it fails of others.
-/

set_option autoImplicit false

namespace Gusto.Order

open Effects OrderService

abbrev ConfirmPool : Type := Pool ℕ OrderOp OrderOp.Answer Err OrderReply World
abbrev ConfirmThread : Type := Thread ℕ OrderOp OrderOp.Answer Err OrderReply
abbrev ConfirmNote : Type := Note ℕ World OrderOp Choice

/-- A call of `confirmAndPlace` for each of `ids`, over the world `w`. -/
def confirming (ids : List ℕ) (w : World) : ConfirmPool := Pool.start confirmAndPlace ids w

/-! ### What is asked -/

/-- How many calls of the kind `kind` were made for the order. -/
def callsFor (o : ℕ) (kind : OrderOp → Bool) (os : List ConfirmNote) : ℕ :=
  os.countP fun n => n.tag = o ∧ kind n.event.call

/-- The order was placed at most once, and not both captured and released. -/
structure PlacedOnce (o : ℕ) (os : List ConfirmNote) : Prop where
  once : callsFor o OrderOp.isPlace os ≤ 1
  either : callsFor o OrderOp.isCapture os = 0 ∨ callsFor o OrderOp.isRelease os = 0

/-! ### Where a call has come to -/

/-- Before its read; having read the order as pending; having placed it; having written the status;
with nothing left that counts. -/
inductive Phase
  | reading
  | placing
  | settling
  | closing
  | done
  deriving DecidableEq

/-- The phase of a call that is about to make the call `i`. -/
def OrderOp.phase : OrderOp → Phase
  | .findUnique _ | .reserve _ _ | .create _ => .reading
  | .food tool _ => if tool.isPlace then .placing else .settling
  | .randomUUID | .now | .update _ _ => .settling
  | .capture _ _ | .release _ _ => .closing
  | .requestConfirmation _ _ | .publishOrderPlaced _ | .publishOrderFailed _ _ _
  | .publishOrderDelivered _ _ => .done

/-- The phase of what is left of a call. -/
def phaseOf (p : OrderProg OrderReply) : Phase := (p.head.map OrderOp.phase).getD .done

@[simp] theorem phase_call {i : OrderOp} {k : Except Err i.Answer → OrderProg OrderReply} :
    phaseOf (.call i k) = i.phase := rfl
@[simp] theorem phase_ret {a : OrderReply} : phaseOf (.ret a) = .done := rfl
@[simp] theorem phase_throw {e : Err} : phaseOf (.throw e) = .done := rfl

/-- It has read the order as pending and has not written the status. -/
def InWindow (p : OrderProg OrderReply) : Prop := phaseOf p = .placing ∨ phaseOf p = .settling

instance (p : OrderProg OrderReply) : Decidable (InWindow p) :=
  inferInstanceAs (Decidable (_ ∨ _))

/-- A read that finds the order pending is made while no other call for it is between its read and
its write, and a status write is not refused. -/
def Guarded (_ : List ConfirmNote) (P : ConfirmPool) (l : ℕ × Choice) : Prop :=
  ∀ th ∈ P.threads[l.1]?,
    (phaseOf th.prog = .reading → l.2.error = none →
      P.state.status th.tag = some .PENDING_CONFIRMATION →
      ∀ th' ∈ P.threads, th'.tag = th.tag → ¬ InWindow th'.prog) ∧
    ∀ i ∈ th.prog.head, i.isUpdate → (exec l.2 i P.state).1.isOk

instance (os : List ConfirmNote) (P : ConfirmPool) (l : ℕ × Choice) : Decidable (Guarded os P l) :=
  inferInstanceAs (Decidable (∀ th ∈ P.threads[l.1]?, _ ∧ _))

/-! ### The shapes of a call -/

/-- Nothing is left to do that counts. -/
def Done (p : OrderProg OrderReply) : Prop := p.Always fun q => phaseOf q = .done

/-- Having written the status: one call to escrow-service, and done. -/
inductive Closing : OrderProg OrderReply → Prop
  | call {i : OrderOp} {k : Except Err i.Answer → OrderProg OrderReply} (hi : i.phase = .closing)
      (hk : ∀ r, Done (k r)) : Closing (.call i k)

/-- Having placed the order `o`: on to the write of its status, which is not pending any more. -/
inductive Settling (o : ℕ) : OrderProg OrderReply → Prop
  | ask {i : OrderOp} {k : Except Err i.Answer → OrderProg OrderReply} (hi : i.Local)
      (hk : ∀ a, Settling o (k (.ok a))) : Settling o (.call i k)
  | reconcile {tool : FoodTool} {u : String}
      {k : Except Err McpToolResponse → OrderProg OrderReply} (hi : tool.isPlace = false)
      (hk : ∀ r, Settling o (k r)) : Settling o (.call (.food tool u) k)
  | write {data : OrderUpdate} {k : Except Err OrderRow → OrderProg OrderReply}
      (hs : data.status ≠ .PENDING_CONFIRMATION) (hok : ∀ order, Closing (k (.ok order)))
      (herr : ∀ e, Done (k (.error e))) : Settling o (.call (.update o data) k)

/-- Having read the order as pending. -/
inductive Placing (o : ℕ) : OrderProg OrderReply → Prop
  | call {tool : FoodTool} {u : String} {k : Except Err McpToolResponse → OrderProg OrderReply}
      (hi : tool.isPlace = true) (hk : ∀ r, Settling o (k r)) : Placing o (.call (.food tool u) k)

/-- Before the read of the status. -/
inductive Reading (o : ℕ) : OrderProg OrderReply → Prop
  | call {k : Except Err (Option OrderRow) → OrderProg OrderReply}
      (hpending : ∀ order, order.id = o → order.status = .PENDING_CONFIRMATION →
        Placing o (k (.ok (some order))))
      (hother : ∀ order, order.status ≠ .PENDING_CONFIRMATION → Done (k (.ok (some order))))
      (hnone : Done (k (.ok none))) (herr : ∀ e, Done (k (.error e))) :
      Reading o (.call (.findUnique o) k)

/-- What a call for the order `o` may look like. -/
inductive Shape (o : ℕ) (p : OrderProg OrderReply) : Prop
  | reading (h : Reading o p)
  | placing (h : Placing o p)
  | settling (h : Settling o p)
  | closing (h : Closing p)
  | done (h : Done p)

theorem closing_publish {i : OrderOp} {k : Except Err i.Answer → OrderProg OrderReply}
    (hi : i.phase = .done) (hk : ∀ r, phaseOf (k r) = .done ∧ (k r).head = none) :
    Done (.call i k) := by
  refine ⟨hi, fun r => ?_⟩
  obtain ⟨h, hhead⟩ := hk r
  cases hp : k r with
  | ret a => exact rfl
  | throw e => exact rfl
  | call j k' => rw [hp] at hhead; cases hhead

theorem settling_markFailed {order : OrderRow} {cart : StoredOrderCart} {reason : String} :
    Settling order.id (markFailed order cart reason) := by
  refine .write (by simp) (fun row => .call rfl fun r => ?_) fun e => rfl
  cases r <;> exact closing_publish rfl fun r => by cases r <;> exact ⟨rfl, rfl⟩

theorem settling_markPlaced {order : OrderRow} {cart : StoredOrderCart} {ref : String} :
    Settling order.id (markPlaced order cart ref) := by
  refine .ask trivial fun at' => .write (by simp) (fun row => .call rfl fun r => ?_) fun e => rfl
  cases r <;> exact closing_publish rfl fun r => by cases r <;> exact ⟨rfl, rfl⟩

theorem settling_reconcile {order : OrderRow} {cart : StoredOrderCart} {reason : String} :
    Settling order.id (reconcileAmbiguousFailure order cart reason) := by
  refine .reconcile rfl fun r => ?_
  cases r <;> exact settling_markFailed

theorem settling_afterPlacement {order : OrderRow} (r : Except Err McpToolResponse) :
    Settling order.id (afterPlacement order r) := by
  rcases r with err | result
  · exact settling_reconcile
  · change Settling order.id (if result.success then _ else _)
    split
    · split
      · exact settling_markPlaced
      · exact .ask trivial fun ref => settling_markPlaced
    · exact settling_markFailed

theorem reading_confirmAndPlace (o : ℕ) : Reading o (confirmAndPlace o) := by
  rw [confirmAndPlace_eq]
  refine .call (fun order hid hst => ?_) (fun order hst => ?_) rfl fun e => rfl
  · subst hid
    simp only [hst, if_true]
    exact .call rfl settling_afterPlacement
  · simp only [hst, if_false]
    rfl

/-! ### One step -/

/-- What a step of a call for the order `o` does, as far as the guard is concerned: the phases it
leaves and enters, and the status of the order. -/
inductive Moves (o : ℕ) (w w' : World) : Phase → Phase → Prop
  | read (hst : w.status o = some .PENDING_CONFIRMATION)
      (hw : w'.status o = some .PENDING_CONFIRMATION) : Moves o w w' .reading .placing
  | rejected (hw : w'.status o = w.status o) : Moves o w w' .reading .done
  | place (hw : w'.status o = w.status o) : Moves o w w' .placing .settling
  | ask (hw : w'.status o = w.status o) : Moves o w w' .settling .settling
  | write (hw : w'.status o ≠ some .PENDING_CONFIRMATION) : Moves o w w' .settling .closing
  | close (hw : w'.status o = w.status o) : Moves o w w' .closing .done
  | done (hw : w'.status o = w.status o) : Moves o w w' .done .done

theorem status_exec (c : Choice) {i : OrderOp} (w : World) (h : i.isUpdate = false)
    (h' : ∀ data, i ≠ .create data) (o : ℕ) : (exec c i w).2.status o = w.status o := by
  unfold World.status
  rw [orders_exec c w h h']

theorem status_food (c : Choice) (tool : FoodTool) (u : String) (w : World) (o : ℕ) :
    (exec c (.food tool u) w).2.status o = w.status o := by
  unfold World.status
  rw [orders_food]

theorem Done.step {i : OrderOp} {k : Except Err i.Answer → OrderProg OrderReply}
    (h : Done (.call i k)) (r : Except Err i.Answer) : i.phase = .done ∧ Done (k r) :=
  ⟨h.1, h.2 r⟩

theorem Done.phase {p : OrderProg OrderReply} (h : Done p) : phaseOf p = .done := Prog.Always.self h

theorem Settling.phase {o : ℕ} {p : OrderProg OrderReply} (h : Settling o p) :
    phaseOf p = .settling := by
  cases h with
  | @ask i k hi hk => cases i <;> first | rfl | exact hi.elim
  | reconcile hi hk => simp [OrderOp.phase, hi]
  | write hs hok herr => rfl

theorem Closing.phase {p : OrderProg OrderReply} (h : Closing p) : phaseOf p = .closing := by
  cases h with
  | call hi hk => exact hi

theorem Placing.phase {o : ℕ} {p : OrderProg OrderReply} (h : Placing o p) :
    phaseOf p = .placing := by
  cases h with
  | call hi hk => simp [OrderOp.phase, hi]

theorem Reading.phase {o : ℕ} {p : OrderProg OrderReply} (h : Reading o p) :
    phaseOf p = .reading := by
  cases h with
  | call hpending hother hnone herr => rfl

/-- What one step of a call for the order `o` leaves: a shape, a move, and the other orders as they
were. -/
structure Steps (o : ℕ) (w w' : World) (φ : Phase) (p : OrderProg OrderReply) : Prop where
  shape : Shape o p
  moves : Moves o w w' φ (phaseOf p)
  frame : ∀ o' ≠ o, w'.status o' = w.status o'

section Step

variable {o : ℕ} {w w' : World} {φ : Phase} {p : OrderProg OrderReply}

theorem Done.steps (h : Done p) (hm : Moves o w w' φ .done)
    (hf : ∀ o' ≠ o, w'.status o' = w.status o') : Steps o w w' φ p :=
  ⟨.done h, by rw [h.phase]; exact hm, hf⟩

theorem Placing.steps (h : Placing o p) (hm : Moves o w w' φ .placing)
    (hf : ∀ o' ≠ o, w'.status o' = w.status o') : Steps o w w' φ p :=
  ⟨.placing h, by rw [h.phase]; exact hm, hf⟩

theorem Settling.steps (h : Settling o p) (hm : Moves o w w' φ .settling)
    (hf : ∀ o' ≠ o, w'.status o' = w.status o') : Steps o w w' φ p :=
  ⟨.settling h, by rw [h.phase]; exact hm, hf⟩

theorem Closing.steps (h : Closing p) (hm : Moves o w w' φ .closing)
    (hf : ∀ o' ≠ o, w'.status o' = w.status o') : Steps o w w' φ p :=
  ⟨.closing h, by rw [h.phase]; exact hm, hf⟩

variable {i : OrderOp} {k : Except Err i.Answer → OrderProg OrderReply}

theorem Reading.step {k : Except Err (Option OrderRow) → OrderProg OrderReply}
    (h : Reading o (.call (.findUnique o) k)) (c : Choice) (w : World) :
    Steps o w (exec c (.findUnique o) w).2 .reading (k (exec c (.findUnique o) w).1) := by
  cases h with
  | call hpending hother hnone herr =>
    rcases exec_findUnique c o w with ⟨e, he⟩ | he
    · rw [he]
      exact (herr e).steps (.rejected rfl) fun _ _ => rfl
    · rw [he]
      cases hrow : w.orders.get? o with
      | none => exact hnone.steps (.rejected rfl) fun _ _ => rfl
      | some order =>
        by_cases hst : order.status = .PENDING_CONFIRMATION
        · have hpend : w.status o = some .PENDING_CONFIRMATION := by simp [World.status, hrow, hst]
          exact (hpending order (w.orders.id_eq o order hrow) hst).steps (.read hpend hpend)
            fun _ _ => rfl
        · exact (hother order hst).steps (.rejected rfl) fun _ _ => rfl

theorem Settling.step (h : Settling o (.call i k)) (c : Choice) (w : World)
    (hw : i.isUpdate → (exec c i w).1.isOk) :
    Steps o w (exec c i w).2 .settling (k (exec c i w).1) := by
  cases h with
  | ask hi hk =>
    obtain ⟨a, ha⟩ := exec_local c w hi
    rw [ha]
    exact (hk a).steps (.ask rfl) fun _ _ => rfl
  | @reconcile tool u k hi hk =>
    exact (hk _).steps (.ask (status_food c tool u w o)) fun o' _ => status_food c tool u w o'
  | @write data k hs hok herr =>
    rcases exec_update c o data w with ⟨order, t, he, hwrote⟩ | ⟨e, he⟩
    · rw [he]
      refine (hok _).steps (.write ?_) fun o' ho' => ?_
      · simp [World.status, hwrote.get?, OrderUpdate.write, hs]
      · simp [World.status, hwrote.get?, ho']
    · have := hw rfl
      rw [he] at this
      cases this

theorem status_exec_of_phase (c : Choice) (w : World) (h : i.phase = .closing ∨ i.phase = .done)
    (o : ℕ) : (exec c i w).2.status o = w.status o := by
  refine status_exec c w ?_ ?_ o
  · cases i <;> first | rfl | (rcases h with h | h <;> cases h)
  · rintro data rfl
    rcases h with h | h <;> cases h

/-- **One step of a call.** Where its status write is not refused, it moves from phase to phase as
`Moves` says, and writes no other order. -/
theorem Shape.step (h : Shape o (.call i k)) (c : Choice) (w : World)
    (hw : i.isUpdate → (exec c i w).1.isOk) :
    Steps o w (exec c i w).2 i.phase (k (exec c i w).1) := by
  cases h with
  | reading h =>
    have hcall := h
    cases hcall with
    | call hpending hother hnone herr => exact h.step c w
  | placing h =>
    have hphase := h.phase
    cases h with
    | @call tool u k hi hk =>
      rw [show (OrderOp.food tool u).phase = .placing from hphase]
      exact (hk _).steps (.place (status_food c tool u w o)) fun o' _ => status_food c tool u w o'
  | settling h =>
    rw [show i.phase = .settling from h.phase]
    exact h.step c w hw
  | closing h =>
    cases h with
    | call hi hk =>
      have hstatus := status_exec_of_phase c w (.inl hi)
      rw [hi]
      exact (hk _).steps (.close (hstatus o)) fun o' _ => hstatus o'
  | done h =>
    have hi : i.phase = .done := h.1
    have hstatus := status_exec_of_phase c w (.inr hi)
    rw [hi]
    exact Done.steps (h.2 _) (.done (hstatus o)) fun o' _ => hstatus o'

end Step

/-! ### Counting -/

/-- How many calls for the order are in the phase `φ`. -/
def inPhase (o : ℕ) (φ : Phase) (ths : List ConfirmThread) : ℕ :=
  ths.countP fun th => th.tag = o ∧ phaseOf th.prog = φ

theorem inPhase_perm {o : ℕ} {φ : Phase} {ths rest : List ConfirmThread} {th : ConfirmThread}
    (h : ths.Perm (th :: rest)) :
    inPhase o φ ths = inPhase o φ rest + if th.tag = o ∧ phaseOf th.prog = φ then 1 else 0 := by
  unfold inPhase
  rw [h.countP_eq, List.countP_cons]
  simp

theorem inPhase_eq_zero {o : ℕ} {φ : Phase} {ths : List ConfirmThread} :
    inPhase o φ ths = 0 ↔ ∀ th ∈ ths, th.tag = o → phaseOf th.prog ≠ φ := by
  simp [inPhase, List.countP_eq_zero]

/-- How many calls that belong to the phase `φ` were made for the order. -/
def made (o : ℕ) (φ : Phase) (os : List ConfirmNote) : ℕ :=
  callsFor o (fun i => i.phase = φ) os

theorem made_snoc {o : ℕ} {φ : Phase} {os : List ConfirmNote} {n : ConfirmNote} :
    made o φ (os ++ [n]) = made o φ os + if n.tag = o ∧ n.event.call.phase = φ then 1 else 0 := by
  simp [made, callsFor, List.countP_append, List.countP_singleton]

theorem isPlace_iff {i : OrderOp} : i.isPlace ↔ i.phase = .placing := by
  cases i with
  | food tool u => cases tool <;> simp [OrderOp.isPlace, OrderOp.phase, FoodTool.isPlace]
  | _ => simp [OrderOp.isPlace, OrderOp.phase]

/-- **The invariant of one order.** While it is pending, at most one call is between its read and its
write, and the placements are those of calls that have yet to write.  Once it is not, no call is, and
at most one closes the hold. -/
structure Once (o : ℕ) (os : List ConfirmNote) (P : ConfirmPool) : Prop where
  pending : P.state.status o = some .PENDING_CONFIRMATION →
    inPhase o .placing P.threads + inPhase o .settling P.threads ≤ 1 ∧
    made o .placing os = inPhase o .settling P.threads ∧
    inPhase o .closing P.threads + made o .closing os = 0
  settled : P.state.status o ≠ some .PENDING_CONFIRMATION →
    inPhase o .placing P.threads + inPhase o .settling P.threads = 0 ∧
    made o .placing os ≤ 1 ∧
    inPhase o .closing P.threads + made o .closing os ≤ 1

/-- A step for another order. -/
theorem Once.of_ne {o : ℕ} {os : List ConfirmNote} {P P' : ConfirmPool} {n : ConfirmNote}
    {th th' : ConfirmThread} {rest : List ConfirmThread} (hI : Once o os P)
    (hP : P.threads.Perm (th :: rest)) (hP' : P'.threads.Perm (th' :: rest))
    (hth : th.tag ≠ o) (hth' : th'.tag ≠ o) (hn : n.tag ≠ o)
    (hstatus : P'.state.status o = P.state.status o) : Once o (os ++ [n]) P' := by
  have hin : ∀ φ, inPhase o φ P'.threads = inPhase o φ P.threads := fun φ => by
    rw [inPhase_perm hP, inPhase_perm hP']
    simp [hth, hth']
  have hmade : ∀ φ, made o φ (os ++ [n]) = made o φ os := fun φ => by
    rw [made_snoc]
    simp [hn]
  refine ⟨fun h => ?_, fun h => ?_⟩ <;> simp only [hin, hmade] <;> rw [hstatus] at h
  · exact hI.pending h
  · exact hI.settled h

/-- A step for the order itself. -/
theorem Once.of_moves {o : ℕ} {os : List ConfirmNote} {P P' : ConfirmPool} {n : ConfirmNote}
    {th th' : ConfirmThread} {rest : List ConfirmThread} (hI : Once o os P)
    (hP : P.threads.Perm (th :: rest)) (hP' : P'.threads.Perm (th' :: rest))
    (hth : th.tag = o) (hth' : th'.tag = o) (hn : n.tag = o)
    (hphase : n.event.call.phase = phaseOf th.prog)
    (hmove : Moves o P.state P'.state (phaseOf th.prog) (phaseOf th'.prog))
    (hguard : phaseOf th.prog = .reading → phaseOf th'.prog = .placing →
      inPhase o .placing P.threads + inPhase o .settling P.threads = 0) : Once o (os ++ [n]) P' := by
  have hin : ∀ φ, inPhase o φ P.threads =
      inPhase o φ rest + if phaseOf th.prog = φ then 1 else 0 := fun φ => by
    rw [inPhase_perm hP, hth]
    simp
  have hin' : ∀ φ, inPhase o φ P'.threads =
      inPhase o φ rest + if phaseOf th'.prog = φ then 1 else 0 := fun φ => by
    rw [inPhase_perm hP', hth']
    simp
  have hmade : ∀ φ, made o φ (os ++ [n]) = made o φ os + if phaseOf th.prog = φ then 1 else 0 :=
    fun φ => by
      rw [made_snoc, hn, hphase]
      simp
  obtain ⟨hpend, hset⟩ := hI
  simp only [hin] at hpend hset hguard
  refine ⟨?_, ?_⟩ <;> simp only [hin', hmade] <;>
    generalize phaseOf th.prog = φ at * <;> generalize phaseOf th'.prog = ψ at *
  · intro h
    cases hmove with
    | read hst hw =>
      have := hpend hst
      have := hguard rfl rfl
      simp at *
      omega
    | rejected hw => have := hpend (hw ▸ h); simp at *; omega
    | place hw => have := hpend (hw ▸ h); simp at *; omega
    | ask hw => have := hpend (hw ▸ h); simp at *; omega
    | write hw => exact absurd h hw
    | close hw => have := hpend (hw ▸ h); simp at *
    | done hw => have := hpend (hw ▸ h); simp at *; omega
  · intro h
    cases hmove with
    | read hst hw => exact absurd hw h
    | rejected hw => have := hset (hw ▸ h); simp at *; omega
    | place hw => have := hset (hw ▸ h); simp at *
    | ask hw => have := hset (hw ▸ h); simp at *
    | write hw =>
      by_cases hp : P.state.status o = some .PENDING_CONFIRMATION
      · have := hpend hp
        simp at *
        omega
      · have := hset hp
        simp at *
    | close hw => have := hset (hw ▸ h); simp at *; omega
    | done hw => have := hset (hw ▸ h); simp at *; omega

/-! ### Runs -/

theorem Shape.reading_of_phase {o : ℕ} {p : OrderProg OrderReply} (h : Shape o p)
    (hp : phaseOf p = .reading) : Reading o p := by
  cases h with
  | reading h => exact h
  | placing h => rw [h.phase] at hp; cases hp
  | settling h => rw [h.phase] at hp; cases hp
  | closing h => rw [h.phase] at hp; cases hp
  | done h => rw [h.phase] at hp; cases hp

/-- A read that fails places nothing. -/
theorem Reading.failed {o : ℕ} {i : OrderOp} {k : Except Err i.Answer → OrderProg OrderReply}
    (h : Reading o (.call i k)) {c : Choice} {e : Err} (he : c.error = some e) (w : World) :
    phaseOf (k (exec c i w).1) = .done := by
  cases h with
  | call hpending hother hnone herr =>
    have : (exec c (.findUnique o) w).1 = .error e := by unfold exec; rw [he]; rfl
    rw [this]
    exact (herr e).phase

/-- The invariant of a run: every thread has a shape, and every order is placed once. -/
def PlacesOnce (os : List ConfirmNote) (P : ConfirmPool) : Prop :=
  (∀ th ∈ P.threads, Shape th.tag th.prog) ∧ ∀ o, Once o os P

theorem placesOnce_start (ids : List ℕ) (w : World) : PlacesOnce [] (confirming ids w) := by
  have hshape : ∀ th ∈ (confirming ids w).threads, Reading th.tag th.prog := fun th hth => by
    rw [(Pool.start_threads hth).2]
    exact reading_confirmAndPlace th.tag
  have hzero : ∀ o φ, φ ≠ .reading → inPhase o φ (confirming ids w).threads = 0 := fun o φ hφ =>
    inPhase_eq_zero.mpr fun th hth _ h => hφ (h ▸ (hshape th hth).phase)
  refine ⟨fun th hth => .reading (hshape th hth), fun o => ⟨fun _ => ?_, fun _ => ?_⟩⟩ <;>
    simp [hzero, made, callsFor]

/-- **The step of the invariant.** -/
theorem PlacesOnce.step {os : List ConfirmNote} {P P' : ConfirmPool} {l : ℕ × Choice}
    {n : ConfirmNote} (hI : PlacesOnce os P) (hok : Guarded os P l)
    (h : P.step exec l = some (P', n)) : PlacesOnce (os ++ [n]) P' := by
  obtain ⟨c, i, k, rest, hget, hP, hset, hP', hstate, rfl⟩ := Pool.step_cases h
  obtain ⟨hread, hwrite⟩ := hok _ hget
  have hshape : Shape c (.call i k) := hI.1 _ (hP.mem_iff.mpr (List.mem_cons_self ..))
  obtain ⟨hshape', hmoves, hframe⟩ := hshape.step l.2 P.state (hwrite i rfl)
  rw [← hstate] at hmoves hframe
  refine ⟨Pool.forall_of_perm hP hP' hI.1 hshape', fun o => ?_⟩
  by_cases ho : c = o
  · subst ho
    refine (hI.2 c).of_moves hP hP' rfl rfl rfl rfl hmoves fun hr hp => ?_
    -- the read found the order pending, so the guard applies
    have hst : P.state.status c = some .PENDING_CONFIRMATION := by
      have hm : Moves c P.state P'.state .reading .placing := by
        rw [← hr, ← hp]
        exact hmoves
      cases hm with
      | read hst hw => exact hst
    have herr : l.2.error = none := by
      cases he : l.2.error with
      | none => rfl
      | some e =>
        rw [(hshape.reading_of_phase hr).failed he P.state] at hp
        cases hp
    have hwindow := hread hr herr hst
    rw [Nat.add_eq_zero_iff, inPhase_eq_zero, inPhase_eq_zero]
    exact ⟨fun th hth ht hφ => hwindow th hth ht (.inl hφ),
      fun th hth ht hφ => hwindow th hth ht (.inr hφ)⟩
  · exact (hI.2 o).of_ne hP hP' ho ho ho (hframe o (Ne.symm ho))

theorem callsFor_cons {o : ℕ} {kind : OrderOp → Bool} {n : ConfirmNote} {os : List ConfirmNote} :
    callsFor o kind (n :: os) =
      callsFor o kind os + if n.tag = o ∧ kind n.event.call then 1 else 0 := by
  simp [callsFor, List.countP_cons]

/-- Two kinds of calls of one phase, no call being of both. -/
theorem callsFor_add_le {o : ℕ} {φ : Phase} {kind kind' : OrderOp → Bool}
    (h : ∀ i, kind i → i.phase = φ ∧ kind' i = false) (h' : ∀ i, kind' i → i.phase = φ)
    (os : List ConfirmNote) : callsFor o kind os + callsFor o kind' os ≤ made o φ os := by
  unfold made
  induction os with
  | nil => simp [callsFor]
  | cons n os ih =>
    simp only [callsFor_cons, decide_eq_true_eq]
    by_cases hk : kind n.event.call
    · obtain ⟨h1, h2⟩ := h _ hk
      simp only [hk, h1, h2, and_true, Bool.false_eq_true, and_false, if_false]
      omega
    · by_cases hk' : kind' n.event.call
      · simp only [hk, hk', h' _ hk', and_true, Bool.false_eq_true, and_false, if_false]
        omega
      · simp only [hk, hk', Bool.false_eq_true, and_false, if_false]
        omega

theorem PlacesOnce.placedOnce {os : List ConfirmNote} {P : ConfirmPool} (hI : PlacesOnce os P)
    (o : ℕ) : PlacedOnce o os := by
  have hplace : callsFor o OrderOp.isPlace os = made o .placing os := by
    unfold made callsFor
    simp only [isPlace_iff, decide_eq_true_eq]
  have hclose : callsFor o OrderOp.isCapture os + callsFor o OrderOp.isRelease os ≤
      made o .closing os :=
    callsFor_add_le
      (fun i hi => by cases i <;> simp_all [OrderOp.isCapture, OrderOp.isRelease, OrderOp.phase])
      (fun i hi => by cases i <;> simp_all [OrderOp.isRelease, OrderOp.phase]) os
  by_cases hst : P.state.status o = some .PENDING_CONFIRMATION
  · have := (hI.2 o).pending hst
    exact ⟨by omega, by omega⟩
  · have := (hI.2 o).settled hst
    exact ⟨by omega, by omega⟩

/-- **One placement per order.** However calls of `confirmAndPlace` interleave, and whatever the
gateway answers, if no call reads an order as pending while another one is between its own read and
its write, and no status write is refused, then every order is placed at most once, and not both
captured and released. -/
theorem placedOnce_of_guarded (ids : List ℕ) (w : World) {P : ConfirmPool} {os : List ConfirmNote}
    (hrun : Run (Pool.step exec) Guarded (confirming ids w) P os) (o : ℕ) : PlacedOnce o os :=
  (hrun.invariant PlacesOnce (placesOnce_start ids w)
    fun _ _ _ _ _ hI hok h => hI.step hok h).placedOnce o

/-! ### With and without the guard -/

/-- A user with one pending order of 250 paise, which are held. -/
def oneOrder : World where
  wallets := Function.update (fun _ => none) "user-1" (some
    { totalDeposited := 1000, currentBalance := 1000, reservedAmount := 250, daysLeft := 30,
      dailyAvgLimit := 33 })
  orders := Orders.create {}
    { userId := "user-1", status := .PENDING_CONFIRMATION, savingsAchieved := 0,
      cart := { items := [⟨"item-1", 2⟩], baseCost := 250, finalTotal := 250, addressId := "addr-1",
                restaurantId := "rest-1", paymentMethod := none } }

/-- A second call that waits until the first has written the status is turned away. -/
theorem placedOnce_oneOrder :
    ∃ P os, Run (Pool.step exec) Guarded (confirming [0, 0] oneOrder) P os ∧
      callsFor 0 OrderOp.isPlace os = 1 ∧ PlacedOnce 0 os := by
  have hrun := Run.of_runSteps .nil (show runSteps (Pool.step exec) Guarded
    [(0, {}), (0, {}), (0, {}), (0, {}), (0, {}), (1, {}), (0, {})] (confirming [0, 0] oneOrder) [] =
      some (_, _) from rfl)
  exact ⟨_, _, hrun, rfl, placedOnce_of_guarded _ _ hrun 0⟩

/-- Both calls read the order as pending, and both place it. -/
theorem not_placedOnce :
    ¬ ∀ (ids : List ℕ) (w : World) P os, Run (Pool.step exec) anyStep (confirming ids w) P os →
      ∀ o, PlacedOnce o os := by
  intro h
  have hrun := Run.of_runSteps .nil (show runSteps (Pool.step exec) anyStep
    [(0, {}), (1, {}), (0, {}), (1, {})] (confirming [0, 0] oneOrder) [] = some (_, _) from rfl)
  exact absurd (h _ _ _ _ hrun 0).once (by decide)

end Gusto.Order
