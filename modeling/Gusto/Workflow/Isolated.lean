import Gusto.Lib.Local
import Gusto.Workflow.Programs

/-!
# The days of different users

Handlers of any users, whose calls to the table and to the services interleave and may fail, over any days.

* `execOn`: a call, on a day that is chosen with it;
* `workflow_parts`: a call concerns the rows of its user only;
* `workflows_isolated`: what the handlers of one user do beside those of others, they do alone, whatever
  the rows of the others are.
-/

set_option autoImplicit false

namespace Gusto.Workflow

open Effects WorkflowService

/-- A call on a day, which is chosen with what it is answered. -/
def execOn : Handler WorkflowOp WorkflowOp.Answer Err WorkflowStates (ℤ × WorkflowChoice) := fun c => exec c.1 c.2

/-- The user that a call names; the clock and the ranking name none. -/
def WorkflowOp.userId : WorkflowOp → Option String
  | .now | .analyze _ => none
  | .findUnique id | .upsert id _ _ | .update id _ => some id.userId
  | .getSubscription userId | .rollover userId | .getPreferenceProfile userId
  | .get_restaurant_menu _ _ userId | .sendMenuOfTheDay userId _ | .publishScoutCompleted userId
  | .publishMenuProposed userId _ | .publishMealSkipped userId => some userId
  | .optimizeCart request => some request.userId
  | .executeOrder request => some request.userId
  | .publishMealApproved event => some event.userId

/-- A call touches the rows of the user it names. -/
def Names (i : WorkflowOp) (userId : String) : Prop := i.userId = some userId

/-- The rows of a user, by day. -/
def rowsOf (userId : String) (t : WorkflowStates) : ℤ → Option WorkflowRow := fun cycleDate => t ⟨userId, cycleDate⟩

variable {today : ℤ}

theorem rowsOf_update_of_ne {t : WorkflowStates} {id : RowId} {row : Option WorkflowRow} {u : String}
    (h : id.userId ≠ u) : rowsOf u (Function.update t id row) = rowsOf u t := by
  funext day
  refine Function.update_of_ne ?_ _ _
  rintro rfl
  exact h rfl

theorem rowsOf_update {t t' : WorkflowStates} {id : RowId} {row : Option WorkflowRow}
    (h : rowsOf id.userId t = rowsOf id.userId t') :
    rowsOf id.userId (Function.update t id row) = rowsOf id.userId (Function.update t' id row) := by
  funext day
  by_cases hday : (⟨id.userId, day⟩ : RowId) = id
  · simp [rowsOf, hday]
  · have hsame : t ⟨id.userId, day⟩ = t' ⟨id.userId, day⟩ := congrFun h day
    simp [rowsOf, Function.update_of_ne hday, hsame]

variable {c : WorkflowChoice} {i : WorkflowOp} {t t' : WorkflowStates} {u : String}

theorem serve_frame (hno : ¬ Names i u) : rowsOf u (serve today c i t).2 = rowsOf u t := by
  cases i with
  | upsert id addressId restaurantId => exact rowsOf_update_of_ne fun h => hno (congrArg some h)
  | update id data =>
    cases hrow : t id with
    | none => simp only [serve, hrow]
    | some row =>
      simp only [serve, hrow]
      exact rowsOf_update_of_ne fun h => hno (congrArg some h)
  | _ => rfl

theorem serve_agree (hconcerns : Concerns Names u i) (hview : rowsOf u t = rowsOf u t') :
    (serve today c i t).1 = (serve today c i t').1 ∧
      rowsOf u (serve today c i t).2 = rowsOf u (serve today c i t').2 := by
  have hrow (id : RowId) (hid : id.userId = u) : t id = t' id := by
    subst hid
    exact congrFun hview id.cycleDate
  cases i with
  | findUnique id =>
    exact ⟨congrArg Except.ok (hrow id (hconcerns _ rfl)), hview⟩
  | upsert id addressId restaurantId =>
    obtain rfl : id.userId = u := hconcerns _ rfl
    simp only [serve, hrow id rfl]
    exact ⟨trivial, rowsOf_update hview⟩
  | update id data =>
    obtain rfl : id.userId = u := hconcerns _ rfl
    cases h : t' id with
    | none =>
      simp only [serve, hrow id rfl, h]
      exact ⟨trivial, hview⟩
    | some row =>
      simp only [serve, hrow id rfl, h]
      exact ⟨trivial, rowsOf_update hview⟩
  | _ => exact ⟨rfl, hview⟩

/-- **The rows of each user** are parts of the table. -/
theorem workflow_parts : Parts execOn Names rowsOf where
  frame {c i t u} hno := by
    unfold execOn exec
    split
    · split
      · exact serve_frame hno
      · rfl
    · exact serve_frame hno
  agree {c i t t' u} hconcerns hview := by
    unfold execOn exec
    split
    · split
      · exact serve_agree hconcerns hview
      · exact ⟨rfl, hview⟩
    · exact serve_agree hconcerns hview

/-! ### The handlers -/

section Handlers

/-- The calls of the handlers of a user. -/
abbrev Own (u : String) (p : WorkflowProg WorkflowReply) : Prop := p.Asks AnyAnswer (Concerns Names u)

variable {α : Type}

/-- A call that names its user, and what comes after it. -/
theorem own_named {k : Except Err i.Answer → WorkflowProg α} (h : i.userId = some u)
    (hk : ∀ r, (k r).Asks AnyAnswer (Concerns Names u)) : (Prog.call i k).Asks AnyAnswer (Concerns Names u) :=
  ⟨fun _ hu => Option.some.inj (hu.symm.trans h), fun r _ => hk r⟩

/-- A call that names none. -/
theorem own_unnamed {k : Except Err i.Answer → WorkflowProg α} (h : i.userId = none)
    (hk : ∀ r, (k r).Asks AnyAnswer (Concerns Names u)) : (Prog.call i k).Asks AnyAnswer (Concerns Names u) :=
  ⟨fun _ hu => absurd (hu.symm.trans h) (Option.some_ne_none _), fun r _ => hk r⟩

variable {id : RowId} {addressId restaurantId : Option String} {shortlist : Option ShortlistState}
  {cart : Option OptimizedCart}

theorem own_onRow {f : RowId → Option WorkflowRow → WorkflowProg WorkflowReply}
    (h : ∀ day row, Own u (f ⟨u, day⟩ row)) : Own u (onRow u f) := by
  refine own_unnamed rfl fun r => ?_
  cases r with
  | error e => trivial
  | ok date =>
    refine own_named rfl fun r => ?_
    cases r with
    | error e => trivial
    | ok row => exact h _ row

theorem own_skip (hid : id.userId = u) : (skip id u shortlist).Asks AnyAnswer (Concerns Names u) := by
  rw [skip_eq]
  refine own_named (congrArg some hid) fun r => ?_
  cases r with
  | error e => trivial
  | ok updated =>
    refine own_named rfl fun r => ?_
    cases r with
    | error e => trivial
    | ok _ =>
      refine own_named rfl fun _ => ?_
      cases shortlist <;> trivial

theorem own_approve (hid : id.userId = u) : Own u (approve id u addressId restaurantId cart shortlist) := by
  rw [approve_eq]
  refine own_named (congrArg some hid) fun r => ?_
  cases r with
  | error e => trivial
  | ok _ =>
    refine own_named rfl fun r => ?_
    cases r with
    | error e => trivial
    | ok order =>
      refine own_named (congrArg some hid) fun r => ?_
      cases r with
      | error e => trivial
      | ok updated =>
        cases shortlist with
        | none => trivial
        | some shortlist => exact own_named rfl fun _ => trivial

theorem own_storeProposal {menuItems : List MenuItem} {shortlist : ShortlistState} {rejectedItemIds : List String}
    {skipScoutCompleted : Bool} {optimizedCart : OptimizedCart} (hid : id.userId = u) :
    Own u (storeProposal id u menuItems shortlist rejectedItemIds skipScoutCompleted optimizedCart) := by
  have hannounce (reply : WorkflowReply) : Own u (announce u menuItems optimizedCart reply) :=
    own_named rfl fun _ => own_named rfl fun _ => trivial
  rw [storeProposal_eq]
  refine own_named (congrArg some hid) fun r => ?_
  cases r with
  | error e => trivial
  | ok updated =>
    cases skipScoutCompleted with
    | true => exact hannounce _
    | false => exact own_named rfl fun _ => hannounce _

theorem own_swap {rejectedItemIds : List String} (hid : id.userId = u) :
    Own u (swap id u addressId restaurantId shortlist rejectedItemIds) := by
  cases shortlist with
  | none => trivial
  | some shortlist =>
    rw [swap_eq]
    refine own_named rfl fun r => ?_
    cases r with
    | error e => trivial
    | ok response =>
      simp only [afterSwapMenu]
      cases selectNextCandidate (parseMenu restaurantId response) shortlist.rankedItems
          (rejectedItemIds ++ [shortlist.currentItem.itemId]) with
      | none => exact (own_skip hid).bind fun _ => trivial
      | some proposal =>
        refine own_named rfl fun r => ?_
        cases r with
        | error e => trivial
        | ok subscription =>
          refine own_named rfl fun r => ?_
          cases r with
          | error e => trivial
          | ok optimizedCart => exact own_storeProposal hid

theorem own_scout {addressId restaurantId : String} (hid : id.userId = u) :
    Own u (scout id u addressId restaurantId) := by
  refine own_named (congrArg some hid) fun r => ?_
  cases r with
  | error e => trivial
  | ok _ =>
    refine own_named rfl fun r => ?_
    cases r with
    | error e => trivial
    | ok subscription =>
      refine own_named rfl fun r => ?_
      cases r with
      | error e => trivial
      | ok profile =>
        refine own_named rfl fun r => ?_
        cases r with
        | error e => trivial
        | ok response =>
          refine own_unnamed rfl fun r => ?_
          cases r with
          | error e => trivial
          | ok rankedItems =>
            simp only [afterAnalyze]
            cases selectNextCandidate (parseMenu (some restaurantId) response) rankedItems [] with
            | none => trivial
            | some proposal =>
              refine own_named rfl fun r => ?_
              cases r with
              | error e => trivial
              | ok optimizedCart => exact own_storeProposal hid

/-- The handlers name the user they were called for. -/
theorem own_prog (u : String) (call : WorkflowCall) : Own u (call.prog u) := by
  cases call with
  | runScoutPhase addressId restaurantId =>
    simp only [WorkflowCall.prog, runScoutPhase_eq]
    refine own_onRow fun day row => ?_
    cases row with
    | none => exact own_scout rfl
    | some row =>
      by_cases hphase : row.phase = .SCOUTING
      · simp only [if_pos hphase]
        exact own_scout rfl
      · simp only [if_neg hphase]
        trivial
  | handleUserDecision decision =>
    simp only [WorkflowCall.prog, handleUserDecision_eq]
    refine own_onRow fun day row => ?_
    cases row with
    | none => trivial
    | some row =>
      by_cases hphase : row.phase = .AWAITING_APPROVAL
      · simp only [if_pos hphase]
        cases decision with
        | APPROVE => exact own_approve rfl
        | SWAP => exact own_swap rfl
        | SKIP => exact (own_skip rfl).bind fun _ => trivial
      · simp only [if_neg hphase]
        trivial
  | sendReminderIfPending =>
    simp only [WorkflowCall.prog, sendReminderIfPending_eq]
    refine own_onRow fun day row => ?_
    cases row with
    | none => trivial
    | some row =>
      by_cases hphase : row.phase = .AWAITING_APPROVAL
      · simp only [if_pos hphase]
        exact own_named rfl fun _ => trivial
      · simp only [if_neg hphase]
        trivial
  | finalizeIfPending =>
    simp only [WorkflowCall.prog, finalizeIfPending_eq]
    refine own_onRow fun day row => ?_
    cases row with
    | none => trivial
    | some row =>
      by_cases hphase : row.phase = .AWAITING_APPROVAL
      · simp only [if_pos hphase]
        exact (own_skip rfl).bind fun _ => trivial
      · simp only [if_neg hphase]
        trivial

end Handlers

/-! ### Interleavings -/

/-- A handler, with the user it is called for. -/
abbrev UserCall : Type := String × WorkflowCall

/-- Handlers of any users, over one table. -/
abbrev UsersPool : Type := Pool UserCall WorkflowOp WorkflowOp.Answer Err WorkflowReply WorkflowStates
abbrev UsersNote : Type := Note UserCall WorkflowStates WorkflowOp (ℤ × WorkflowChoice)

/-- The handlers that are called at once. -/
def handlers (calls : List UserCall) (t : WorkflowStates) : UsersPool :=
  Pool.start (fun c => c.2.prog c.1) calls t

/-- **Isolation.** The handlers of one user, interleaved with those of others, end as they can end alone, with
the same rows, having made the same calls on the same days: whatever the others do, and whatever is in their
rows. -/
theorem workflows_isolated (calls : List UserCall) (t t' : WorkflowStates) (P : UsersPool)
    (os : List UsersNote) (hr : Run (Pool.step execOn) anyStep (handlers calls t) P os) (userId : String)
    (hrows : rowsOf userId t' = rowsOf userId t) :
    ∃ Q os', Run (Pool.step execOn) anyStep (handlers (calls.filter fun c => c.1 = userId) t') Q os' ∧
      Q.threads = P.threads.filter (fun th => th.tag.1 = userId) ∧
      rowsOf userId Q.state = rowsOf userId P.state ∧
      os'.map Note.deed = (os.filter fun o => o.tag.1 = userId).map Note.deed := by
  obtain ⟨Q, os', hr', hproj, hdeeds⟩ := workflow_parts.project (Pool.Asks.start fun c _ => own_prog c.1 c.2)
    (projects_start hrows) hr
  exact ⟨Q, os', hr', hproj.threads, hproj.view, hdeeds⟩

/-- The table where all users have a proposal of the first day. -/
def twoProposals : WorkflowStates := fun id => if id.cycleDate = 0 then some proposedRow else none

theorem workflows_isolated_two : ∃ P os, Run (Pool.step execOn) anyStep
      (handlers [("user-a", .handleUserDecision .APPROVE), ("user-b", .finalizeIfPending)] twoProposals) P os ∧
    os.length = 8 ∧ ∃ Q os', Run (Pool.step execOn) anyStep
        (handlers [("user-a", .handleUserDecision .APPROVE)] twoProposals) Q os' ∧
      rowsOf "user-a" Q.state = rowsOf "user-a" P.state := by
  have hr := Run.of_runSteps .nil (show runSteps (Pool.step execOn) anyStep
    [(0, 0, {}), (1, 0, {}), (1, 0, {}), (0, 0, {}), (1, 0, {}), (0, 0, {}),
      (0, 0, { error := some (.error "timeout") }), (1, 0, {})]
    (handlers [("user-a", .handleUserDecision .APPROVE), ("user-b", .finalizeIfPending)] twoProposals) [] =
      some (_, _) from rfl)
  obtain ⟨Q, os', hr', -, hrows, -⟩ := workflows_isolated _ _ twoProposals _ _ hr "user-a" rfl
  exact ⟨_, _, hr, rfl, Q, os', hr', hrows⟩

end Gusto.Workflow
