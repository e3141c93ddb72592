import Gusto.Workflow.Programs

/-!
# What a failed decision leaves

A handler of the workflow is run to its end in an environment that says of each call whether it
fails and what it answers.  No handler makes one call twice, so an environment is a pattern of
failures.

* `KeepsRow`: where the handler throws, the row of the day is what it was;
* `Completes`: the pattern of failures under which nothing fails after the row has been written;
* `keepsRow_iff`: on a row that awaits approval these are the same.

`swap` writes the row when all else has succeeded; `approve` and `skip` write it first.
-/

set_option autoImplicit false

namespace Gusto.Workflow

open Effects WorkflowService

/-! ### A handler in an environment -/

/-- What each call meets. -/
abbrev Env : Type := WorkflowOp → WorkflowChoice

/-- How the calls act in an environment. -/
def under (today : ℤ) : Handler WorkflowOp WorkflowOp.Answer Err WorkflowStates Env :=
  fun env i t => exec today (env i) i t

/-- What a handler answers, and the table it leaves. -/
def WorkflowCall.outcome (call : WorkflowCall) (userId : String) (today : ℤ) (env : Env)
    (t : WorkflowStates) : Except Err WorkflowReply × WorkflowStates :=
  (call.prog userId).eval (under today) env t

/-- The calls to the table. -/
def WorkflowOp.onTable : WorkflowOp → Bool
  | .findUnique _ | .upsert _ _ _ | .update _ _ => true
  | _ => false

/-- The table answers. -/
def Env.TableServed (env : Env) : Prop := ∀ i : WorkflowOp, i.onTable → (env i).error = none

/-- Where the handler throws, it leaves the row of the day as it was. -/
def KeepsRow (call : WorkflowCall) (userId : String) (today : ℤ) (env : Env)
    (t : WorkflowStates) : Prop :=
  ∀ err, (call.outcome userId today env t).1 = .error err →
    (call.outcome userId today env t).2 ⟨userId, startOfUtcDay today⟩ =
      t ⟨userId, startOfUtcDay today⟩

/-- The rollover of a skip succeeds, and the row says which item was skipped. -/
def SkipCompletes (env : Env) (userId : String) (shortlist : Option ShortlistState) : Prop :=
  (env (.rollover userId)).error = none ∧ shortlist.isSome

/-- Nothing fails once the row has been written: the order of an APPROVE is placed; the rollover
succeeds of a SKIP, of a finalize, and of a SWAP that finds nothing else on the menu. -/
def Completes (env : Env) (userId : String) (row : WorkflowRow) : WorkflowCall → Prop
  | .handleUserDecision .APPROVE =>
    (env (.executeOrder
      { userId, addressId := row.addressId, restaurantId := row.restaurantId,
        cart := row.optimizedCart })).error = none
  | .handleUserDecision .SKIP | .finalizeIfPending => SkipCompletes env userId row.shortlist
  | .handleUserDecision .SWAP => ∀ shortlist, row.shortlist = some shortlist →
    let fetch := env (.get_restaurant_menu row.addressId row.restaurantId userId)
    fetch.error = none →
    selectNextCandidate (parseMenu row.restaurantId fetch.menu) shortlist.rankedItems
      (row.rejectedItemIds.getD [] ++ [shortlist.currentItem.itemId]) = none →
    (env (.rollover userId)).error = none
  | .runScoutPhase _ _ | .sendReminderIfPending => True

/-! ### One call -/

section Calls

variable {today : ℤ} {env : Env} {t : WorkflowStates} {α β : Type}

theorem under_ok {i : WorkflowOp} (h : (env i).error = none) :
    under today env i t = serve today (env i) i t := by
  unfold under exec
  rw [h]

theorem under_error {i : WorkflowOp} {err : Err} (h : (env i).error = some err) (hi : i ≠ .now) :
    under today env i t = (.error err, t) := by
  unfold under exec
  rw [h]
  exact if_neg hi

theorem under_now : under today env .now t = serve today (env .now) .now t := by
  unfold under exec
  cases (env .now).error with
  | none => rfl
  | some err => exact if_pos rfl

theorem under_update {id : RowId} {data : WorkflowUpdate} {row : WorkflowRow}
    (henv : env.TableServed) (hrow : t id = some row) :
    under today env (.update id data) t =
      (.ok (data.write row), Function.update t id (some (data.write row))) := by
  rw [under_ok (henv _ rfl)]
  simp only [serve, hrow]

/-- The program throws only where it leaves the row. -/
def Leaves (id : RowId) (row : WorkflowRow) (x : Except Err α × WorkflowStates) : Prop :=
  ∀ err, x.1 = .error err → x.2 id = some row

variable {id : RowId} {row : WorkflowRow}

@[simp] theorem leaves_ok {a : α} : Leaves id row (.ok a, t) := by
  intro err h
  cases h

@[simp] theorem leaves_error {err : Err} :
    Leaves id row (α := α) (.error err, t) ↔ t id = some row :=
  ⟨fun h => h err rfl, fun h _ _ => h⟩

theorem leaves_bind_ret {p : WorkflowProg α} {f : α → β} :
    Leaves id row ((p >>= fun a => .ret (f a)).eval (under today) env t) ↔
      Leaves id row (p.eval (under today) env t) := by
  induction p generalizing t with
  | ret a => simp [Prog.eval]
  | throw e => simp [Prog.eval]
  | call i k ih => exact ih _

/-- A call to a service: where it fails, the handler throws. -/
theorem leaves_request {i : WorkflowOp} {k : Except Err i.Answer → WorkflowProg α}
    {answer : i.Answer} {mapped : Err → Err} (hi : i ≠ .now)
    (hserve : serve today (env i) i t = (.ok answer, t)) (hk : ∀ err, k (.error err) = .throw (mapped err)) :
    Leaves id row ((Prog.call i k).eval (under today) env t) ↔
      ((env i).error = none → Leaves id row ((k (.ok answer)).eval (under today) env t)) ∧
        ((env i).error ≠ none → t id = some row) := by
  rw [Prog.eval_call]
  cases h : (env i).error with
  | none =>
    rw [under_ok h, hserve]
    simp
  | some err =>
    rw [under_error h hi, hk]
    simp

/-- A call whose failure does not matter. -/
theorem leaves_bestEffort {i : WorkflowOp} {p : WorkflowProg α} (hi : i ≠ .now)
    (hserve : (serve today (env i) i t).2 = t) :
    Leaves id row ((Prog.call i fun _ => p : WorkflowProg α).eval (under today) env t) ↔
      Leaves id row (p.eval (under today) env t) := by
  rw [Prog.eval_call]
  cases h : (env i).error with
  | none => rw [under_ok h, hserve]
  | some err => rw [under_error h hi]

end Calls

/-! ### The decisions -/

section Decisions

variable {today : ℤ} {env : Env} {t : WorkflowStates} {id : RowId} {row : WorkflowRow}
  {userId : String} {addressId restaurantId : Option String} {cart : Option OptimizedCart}

/-- An update that changes the phase changes the row. -/
theorem write_ne {data : WorkflowUpdate} (hphase : data.phase ≠ row.phase) :
    data.write row ≠ row :=
  fun h => hphase (congrArg WorkflowRow.phase h)

theorem leaves_skip {shortlist : Option ShortlistState} (henv : env.TableServed)
    (hrow : t id = some row) (hphase : row.phase = .AWAITING_APPROVAL) :
    Leaves id row ((skip id userId shortlist).eval (under today) env t) ↔
      SkipCompletes env userId shortlist := by
  have hne : WorkflowUpdate.write { phase := .SKIPPED, decision := some .SKIP } row ≠ row :=
    write_ne (by rw [hphase]; decide)
  rw [skip_eq, Prog.eval_call, under_update henv hrow]
  dsimp only [afterSkip]
  rw [leaves_request (i := .rollover userId) nofun rfl fun _ => rfl,
    leaves_bestEffort (i := .publishMealSkipped userId) nofun rfl]
  unfold SkipCompletes
  cases shortlist with
  | none => simp [hne]
  | some shortlist => simp [hne]

theorem leaves_approve {shortlist : Option ShortlistState} (henv : env.TableServed)
    (hrow : t id = some row) (hphase : row.phase = .AWAITING_APPROVAL) :
    Leaves id row
      ((approve id userId addressId restaurantId cart shortlist).eval (under today) env t) ↔
      (env (.executeOrder { userId, addressId, restaurantId, cart })).error = none := by
  have hne : WorkflowUpdate.write { phase := .APPROVED, decision := some .APPROVE } row ≠ row :=
    write_ne (by rw [hphase]; decide)
  rw [approve_eq, Prog.eval_call, under_update henv hrow]
  dsimp only
  rw [leaves_request (i := .executeOrder _) nofun rfl fun _ => rfl]
  have hlast : Leaves id row ((afterExecuteOrder id userId restaurantId shortlist
      (env (.executeOrder { userId, addressId, restaurantId, cart })).order).eval (under today) env
      (Function.update t id (some
        (WorkflowUpdate.write { phase := .APPROVED, decision := some .APPROVE } row)))) := by
    unfold afterExecuteOrder
    rw [Prog.eval_call, under_update henv (Function.update_self ..)]
    cases shortlist with
    | none => simp
    | some shortlist => simp
  simp [hne, hlast]

/-- A proposal is stored when nothing can fail any more. -/
theorem leaves_storeProposal {menuItems : List MenuItem} {shortlist : ShortlistState}
    {rejectedItemIds : List String} {optimizedCart : OptimizedCart} (henv : env.TableServed)
    (hrow : t id = some row) :
    Leaves id row ((storeProposal id userId menuItems shortlist rejectedItemIds true
      optimizedCart).eval (under today) env t) := by
  rw [storeProposal_eq, Prog.eval_call, under_update henv hrow]
  simp [announce]

theorem leaves_swap {rejectedItemIds : List String} {shortlist : ShortlistState}
    (henv : env.TableServed) (hrow : t id = some row) (hphase : row.phase = .AWAITING_APPROVAL) :
    Leaves id row ((swap id userId addressId restaurantId (some shortlist) rejectedItemIds).eval
      (under today) env t) ↔
      ((env (.get_restaurant_menu addressId restaurantId userId)).error = none →
        selectNextCandidate (parseMenu restaurantId
            (env (.get_restaurant_menu addressId restaurantId userId)).menu) shortlist.rankedItems
          (rejectedItemIds ++ [shortlist.currentItem.itemId]) = none →
        (env (.rollover userId)).error = none) := by
  rw [swap_eq, leaves_request (i := .get_restaurant_menu _ _ _) nofun rfl fun _ => rfl,
    and_iff_left fun _ => hrow]
  refine imp_congr_right fun _ => ?_
  dsimp only [afterSwapMenu]
  cases hnext : selectNextCandidate (parseMenu restaurantId
      (env (.get_restaurant_menu addressId restaurantId userId)).menu) shortlist.rankedItems
      (rejectedItemIds ++ [shortlist.currentItem.itemId]) with
  | none =>
    rw [leaves_bind_ret, leaves_skip henv hrow hphase]
    simp [SkipCompletes]
  | some proposal =>
    refine iff_of_true ?_ nofun
    dsimp only
    rw [leaves_request (i := .getSubscription userId) nofun rfl fun _ => rfl,
      leaves_request (i := .optimizeCart _) nofun rfl fun _ => rfl]
    exact ⟨fun _ => ⟨fun _ => leaves_storeProposal henv hrow, fun _ => hrow⟩, fun _ => hrow⟩

end Decisions

/-! ### The handlers -/

section Handlers

variable {today : ℤ} {env : Env} {t : WorkflowStates} {row : WorkflowRow} {userId : String}

/-- A handler goes on with the row it finds. -/
theorem eval_onRow {f : RowId → Option WorkflowRow → WorkflowProg WorkflowReply}
    (henv : env.TableServed) :
    (onRow userId f).eval (under today) env t =
      (f ⟨userId, startOfUtcDay today⟩ (t ⟨userId, startOfUtcDay today⟩)).eval (under today) env t := by
  rw [onRow, Prog.eval_call, under_now]
  dsimp only [serve]
  rw [startOfUtcDay_now, Prog.eval_call, under_ok (henv _ rfl)]
  rfl

theorem keepsRow_iff_leaves {call : WorkflowCall}
    (hrow : t ⟨userId, startOfUtcDay today⟩ = some row) :
    KeepsRow call userId today env t ↔ Leaves ⟨userId, startOfUtcDay today⟩ row
      ((call.prog userId).eval (under today) env t) := by
  unfold KeepsRow WorkflowCall.outcome Leaves
  rw [hrow]

/-- **Decisions that fail.** On a row that awaits approval a handler that throws leaves the row as
it was, if and only if nothing fails once the row has been written. -/
theorem keepsRow_iff {call : WorkflowCall} (henv : env.TableServed)
    (hrow : t ⟨userId, startOfUtcDay today⟩ = some row) (hphase : row.phase = .AWAITING_APPROVAL) :
    KeepsRow call userId today env t ↔ Completes env userId row call := by
  rw [keepsRow_iff_leaves hrow]
  cases call with
  | runScoutPhase addressId restaurantId =>
    refine iff_of_true ?_ trivial
    rw [WorkflowCall.prog, runScoutPhase_eq, eval_onRow henv, hrow]
    simp [hphase, hrow]
  | sendReminderIfPending =>
    refine iff_of_true ?_ trivial
    rw [WorkflowCall.prog, sendReminderIfPending_eq, eval_onRow henv, hrow]
    simp [hphase]
  | finalizeIfPending =>
    rw [WorkflowCall.prog, finalizeIfPending_eq, eval_onRow henv, hrow]
    dsimp only
    rw [if_pos hphase, leaves_bind_ret, leaves_skip henv hrow hphase]
    rfl
  | handleUserDecision decision =>
    rw [WorkflowCall.prog, handleUserDecision_eq, eval_onRow henv, hrow]
    dsimp only
    rw [if_pos hphase]
    cases decision with
    | APPROVE => exact leaves_approve henv hrow hphase
    | SKIP =>
      rw [onDecision, leaves_bind_ret, leaves_skip henv hrow hphase]
      rfl
    | SWAP =>
      unfold onDecision Completes
      cases hs : row.shortlist with
      | none => simp [swap, canTransition, TRANSITIONS, hrow]
      | some shortlist => simp [leaves_swap henv hrow hphase]

end Handlers

/-! ### An order that fails -/

/-- order-execution-service answers no request. -/
def orderFails : Env
  | .executeOrder _ => { error := some (.error "fetch failed") }
  | _ => {}

theorem orderFails_tableServed : orderFails.TableServed := by
  intro i hi
  cases i <;> first | rfl | cases hi

theorem keepsRow_finalize :
    KeepsRow .finalizeIfPending "u" 0 orderFails (fun _ => some proposedRow) :=
  (keepsRow_iff orderFails_tableServed rfl rfl).mpr ⟨rfl, rfl⟩

/-- An APPROVE whose order fails leaves a row that is APPROVED. -/
theorem not_keepsRow : ¬ ∀ (call : WorkflowCall) (userId : String) (today : ℤ) (env : Env)
    (t : WorkflowStates) (row : WorkflowRow), env.TableServed →
    t ⟨userId, startOfUtcDay today⟩ = some row → row.phase = .AWAITING_APPROVAL →
    KeepsRow call userId today env t := by
  intro h
  have hkeeps := h (.handleUserDecision .APPROVE) "u" 0 orderFails (fun _ => some proposedRow)
    proposedRow orderFails_tableServed rfl rfl
  exact absurd (hkeeps (mapUpstreamError (.error "fetch failed")) (by decide)) (by decide)

end Gusto.Workflow
