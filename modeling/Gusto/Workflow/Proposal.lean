import Gusto.Workflow.Cycle
import Gusto.Workflow.Decision

/-!
# What a handler leaves to be approved

* `AwaitsAfter`: after a handler the row of the day awaits approval only if it did before and was not
  written, or a scout or a SWAP has put up a proposal;
* `PutUp`: what such a row holds, by what the services answered;
* `awaitsAfter`: every handler, in every environment;
* `not_awaiting_of_finalized`: a finalize that succeeds leaves no row that awaits approval;
* `outcome_frame`: the rows of other users and days stay as they are.
-/

set_option autoImplicit false

namespace Gusto.Workflow

open Effects WorkflowService

/-! ### What an environment answers -/

namespace Env

variable (env : Env) (userId : String)

/-- The menu of the gateway. -/
def menu (addressId restaurantId : Option String) : List MenuItem :=
  parseMenu restaurantId (env (.get_restaurant_menu addressId restaurantId userId)).menu

/-- The subscription of escrow-service. -/
def subscription : EscrowSubscription := (env (.getSubscription userId)).subscription

/-- What the agent is asked. -/
def analysis (addressId restaurantId : String) : ScoutAnalysisRequest where
  preferenceProfile := parsePreferenceProfile (env (.getPreferenceProfile userId)).profile
  menuItems := env.menu userId (some addressId) (some restaurantId)
  weeklyBudget := weeklyBudget (env.subscription userId)

/-- What the optimiser is asked for a proposal. -/
def cartRequest (addressId restaurantId : Option String) (proposal : MenuItem) :
    OptimizeCartRequest where
  userId
  restaurantId
  addressId
  cartItems := [{ itemId := proposal.itemId, price := proposal.price, quantity := 1 }]
  remainingDailyBudget := (env.subscription userId).dailyAvgLimit

end Env

/-- The row of the day of `today`. -/
def todaysRow (userId : String) (today : ℤ) : RowId := ⟨userId, startOfUtcDay today⟩

/-- The cart of the optimiser for a proposal. -/
def Env.proposedCart (env : Env) (userId : String) (addressId restaurantId : Option String)
    (proposal : MenuItem) : OptimizedCart :=
  (env (.optimizeCart (env.cartRequest userId addressId restaurantId proposal))).optimizedCart

/-- What is written of a proposal. -/
def proposalUpdate (rankedItems : List RankedMenuItem) (rejectedItemIds : List String)
    (proposal : MenuItem) (optimizedCart : OptimizedCart) : WorkflowUpdate where
  phase := .AWAITING_APPROVAL
  shortlist := some { rankedItems, currentItem := proposal }
  optimizedCart := some optimizedCart
  rejectedItemIds := some rejectedItemIds

/-- The calls for a proposal are answered, once the proposal is known: the menu and the subscription,
the optimiser, and the write. -/
structure Served (env : Env) (id : RowId) (addressId restaurantId : Option String)
    (rankedItems : List RankedMenuItem) (rejectedItemIds : List String) (proposal : MenuItem) :
    Prop where
  found : (env (.findUnique id)).error = none
  menu : (env (.get_restaurant_menu addressId restaurantId id.userId)).error = none
  subscription : (env (.getSubscription id.userId)).error = none
  optimized :
    (env (.optimizeCart (env.cartRequest id.userId addressId restaurantId proposal))).error = none
  stored : (env (.update id (proposalUpdate rankedItems rejectedItemIds proposal
    (env.proposedCart id.userId addressId restaurantId proposal)))).error = none

/-- A row with a proposal: the next candidate of the ranked items, with the cart of the optimiser. -/
structure PutUp (env : Env) (id : RowId) (addressId restaurantId : Option String)
    (rankedItems : List RankedMenuItem) (rejectedItemIds : List String) (proposal : MenuItem)
    (row : WorkflowRow) : Prop where
  served : Served env id addressId restaurantId rankedItems rejectedItemIds proposal
  selected : selectNextCandidate (env.menu id.userId addressId restaurantId) rankedItems
    rejectedItemIds = some proposal
  phase : row.phase = .AWAITING_APPROVAL
  shortlist : row.shortlist = some { rankedItems, currentItem := proposal }
  cart : row.optimizedCart = some (env.proposedCart id.userId addressId restaurantId proposal)

/-- What the agent answers about a menu. -/
def Env.rankedItems (env : Env) (userId addressId restaurantId : String) : List RankedMenuItem :=
  (env (.analyze (env.analysis userId addressId restaurantId))).rankedItems

/-- The calls of a scout are answered, up to the ranking of the menu. -/
structure Ranked (env : Env) (id : RowId) (addressId restaurantId : String) : Prop where
  upserted : (env (.upsert id addressId restaurantId)).error = none
  profile : (env (.getPreferenceProfile id.userId)).error = none
  analyzed : (env (.analyze (env.analysis id.userId addressId restaurantId))).error = none

/-- The day has not been scouted. -/
def Unscouted (before : Option WorkflowRow) : Prop := ∀ old, before = some old → old.phase = .SCOUTING

/-- A scout that puts up a proposal: the day had not been scouted, and the menu was ranked. -/
structure Scouts (env : Env) (id : RowId) (addressId restaurantId : String)
    (before : Option WorkflowRow) (proposal : MenuItem) (row : WorkflowRow) : Prop where
  unscouted : Unscouted before
  ranked : Ranked env id addressId restaurantId
  put : PutUp env id (some addressId) (some restaurantId)
    (env.rankedItems id.userId addressId restaurantId) [] proposal row

/-- A SWAP that puts up a proposal: the next one of the shortlist. -/
structure Swaps (env : Env) (id : RowId) (before : WorkflowRow) (shortlist : ShortlistState)
    (proposal : MenuItem) (row : WorkflowRow) : Prop where
  awaits : before.phase = .AWAITING_APPROVAL
  stored : before.shortlist = some shortlist
  put : PutUp env id before.addressId before.restaurantId shortlist.rankedItems
    (before.rejectedItemIds.getD [] ++ [shortlist.currentItem.itemId]) proposal row

/-- What a handler makes of the row of a day that awaits approval after it. -/
inductive AwaitsAfter (env : Env) (id : RowId) (before : Option WorkflowRow) :
    WorkflowCall → Option WorkflowRow → Prop
  | kept {call : WorkflowCall} {after : Option WorkflowRow}
      (h : ∀ row, after = some row → row.phase = .AWAITING_APPROVAL → before = some row) :
      AwaitsAfter env id before call after
  | scouted {addressId restaurantId : String} {proposal : MenuItem} {row : WorkflowRow}
      (h : Scouts env id addressId restaurantId before proposal row) :
      AwaitsAfter env id before (.runScoutPhase addressId restaurantId) (some row)
  | swapped {old row : WorkflowRow} {shortlist : ShortlistState} {proposal : MenuItem}
      (hold : before = some old) (h : Swaps env id old shortlist proposal row) :
      AwaitsAfter env id before (.handleUserDecision .SWAP) (some row)

/-! ### One call -/

section Calls

variable {today : ℤ} {env : Env} {t : WorkflowStates} {α : Type}
  {P : Except Err α × WorkflowStates → Prop}

/-- A call to a service, which leaves the table: it fails, or it is answered. -/
theorem eval_service {i : WorkflowOp} {k : Except Err i.Answer → WorkflowProg α}
    {answer : i.Answer} (hi : i ≠ .now) (hserve : serve today (env i) i t = (.ok answer, t))
    (herr : ∀ err, P ((k (.error err)).eval (under today) env t))
    (hok : (env i).error = none → P ((k (.ok answer)).eval (under today) env t)) :
    P ((Prog.call i k).eval (under today) env t) := by
  rw [Prog.eval_call]
  cases h : (env i).error with
  | none =>
    rw [under_ok h, hserve]
    exact hok h
  | some err =>
    rw [under_error h hi]
    exact herr err

/-- A call that is answered. -/
theorem eval_served {i : WorkflowOp} {k : Except Err i.Answer → WorkflowProg α}
    (h : (env i).error = none)
    (hk : P ((k (serve today (env i) i t).1).eval (under today) env (serve today (env i) i t).2)) :
    P ((Prog.call i k).eval (under today) env t) := by
  rw [Prog.eval_call, under_ok h]
  exact hk

/-- A write to the row: it fails, or the row is there and is written. -/
theorem eval_update {id : RowId} {data : WorkflowUpdate}
    {k : Except Err WorkflowRow → WorkflowProg α}
    (herr : ∀ err, P ((k (.error err)).eval (under today) env t))
    (hok : (env (.update id data)).error = none → ∀ row, t id = some row →
      P ((k (.ok (data.write row))).eval (under today) env
        (Function.update t id (some (data.write row))))) :
    P ((Prog.call (.update id data) k).eval (under today) env t) := by
  rw [Prog.eval_call]
  cases h : (env (.update id data)).error with
  | none =>
    rw [under_ok h]
    simp only [serve]
    cases hrow : t id with
    | none => exact herr _
    | some row => exact hok h row hrow
  | some err =>
    rw [under_error h (by simp)]
    exact herr err

/-- A call whose answer does not matter. -/
theorem eval_sent {i : WorkflowOp} {p : WorkflowProg α} (hi : i ≠ .now)
    (hserve : (serve today (env i) i t).2 = t) (h : P (p.eval (under today) env t)) :
    P ((Prog.call i fun _ => p).eval (under today) env t) := by
  rw [Prog.eval_call]
  cases he : (env i).error with
  | none => rw [under_ok he, hserve]; exact h
  | some err => rw [under_error he hi]; exact h

/-- A handler goes on with the row it finds, if it can read it. -/
theorem eval_handler {userId : String} {f : RowId → Option WorkflowRow → WorkflowProg WorkflowReply}
    {P : Except Err WorkflowReply × WorkflowStates → Prop} (herr : ∀ err, P (.error err, t))
    (hok : (env (.findUnique (todaysRow userId today))).error = none →
      ∀ row, t (todaysRow userId today) = row →
        P ((f (todaysRow userId today) row).eval (under today) env t)) :
    P ((onRow userId f).eval (under today) env t) := by
  rw [onRow, Prog.eval_call, under_now]
  dsimp only [serve]
  rw [startOfUtcDay_now]
  exact eval_service (i := .findUnique _) (by simp) rfl herr fun hfound => hok hfound _ rfl

end Calls

/-! ### The programs -/

section Programs

variable {today : ℤ} {env : Env} {t : WorkflowStates} {id : RowId} {userId : String}
  {addressId restaurantId : Option String}

/-- What is left to be approved was there before. -/
def Kept {α : Type} (id : RowId) (t : WorkflowStates) (x : Except Err α × WorkflowStates) : Prop :=
  ∀ row, x.2 id = some row → row.phase = .AWAITING_APPROVAL → t id = some row

theorem kept_refl {α : Type} {r : Except Err α} : Kept id t (r, t) := fun _ h _ => h

/-- A row that is written with another phase does not await approval. -/
theorem kept_written {α : Type} {r : Except Err α} {t' : WorkflowStates} {row : WorkflowRow}
    (h : row.phase ≠ .AWAITING_APPROVAL) : Kept id t (r, Function.update t' id (some row)) := by
  intro row' hrow' hphase
  have hrow : Function.update t' id (some row) id = some row' := hrow'
  rw [Function.update_self] at hrow
  cases hrow
  exact absurd hphase h

theorem kept_skip {shortlist : Option ShortlistState} {β : Type} {f : SkipReply → β} :
    Kept id t
      ((skip id userId shortlist >>= fun reply => .ret (f reply)).eval (under today) env t) := by
  rw [skip_eq, Prog.call_bind]
  refine eval_update (fun err => kept_refl) fun _ row hrow => ?_
  refine eval_service (i := .rollover userId) nofun rfl (fun err => kept_written nofun) fun _ => ?_
  refine eval_sent (i := .publishMealSkipped userId) nofun rfl ?_
  cases shortlist <;> exact kept_written nofun

theorem kept_approve {cart : Option OptimizedCart} {shortlist : Option ShortlistState} :
    Kept id t ((approve id userId addressId restaurantId cart shortlist).eval (under today) env t) := by
  rw [approve_eq]
  refine eval_update (fun err => kept_refl) fun _ row hrow => ?_
  refine eval_service (i := .executeOrder _) (by simp) rfl (fun err => kept_written nofun) fun _ => ?_
  refine eval_update (fun err => kept_written nofun) fun _ row hrow => ?_
  cases shortlist with
  | none => exact kept_written nofun
  | some shortlist => exact eval_sent (i := .publishMealApproved _) (by simp) rfl (kept_written nofun)

/-- A proposal that is stored, on the row that was there; nothing is stored where there was none. -/
theorem awaits_storeProposal {P : Except Err WorkflowReply × WorkflowStates → Prop}
    {menuItems : List MenuItem} {rankedItems : List RankedMenuItem} {rejectedItemIds : List String}
    {proposal : MenuItem} {skipScoutCompleted : Bool} {optimizedCart : OptimizedCart}
    (herr : ∀ err, P (.error err, t))
    (hok : (env (.update id
        (proposalUpdate rankedItems rejectedItemIds proposal optimizedCart))).error = none →
      ∀ old reply, t id = some old → P (.ok reply, Function.update t id (some
        ((proposalUpdate rankedItems rejectedItemIds proposal optimizedCart).write old)))) :
    P ((storeProposal id userId menuItems { rankedItems, currentItem := proposal } rejectedItemIds
      skipScoutCompleted optimizedCart).eval (under today) env t) := by
  rw [storeProposal_eq]
  refine eval_update herr fun hstored row hrow => ?_
  have hannounce : ∀ reply, P ((announce userId menuItems optimizedCart reply).eval (under today) env
      (Function.update t id (some
        ((proposalUpdate rankedItems rejectedItemIds proposal optimizedCart).write row)))) :=
    fun reply => eval_sent (i := .publishMenuProposed _ _) (by simp) rfl
      (eval_sent (i := .sendMenuOfTheDay _ _) (by simp) rfl (hok hstored row reply hrow))
  cases skipScoutCompleted with
  | true => exact hannounce _
  | false => exact eval_sent (i := .publishScoutCompleted _) (by simp) rfl (hannounce _)

/-- What is known of the row after a program. -/
def Awaits (env : Env) (id : RowId) (before : Option WorkflowRow) (call : WorkflowCall)
    (x : Except Err WorkflowReply × WorkflowStates) : Prop :=
  AwaitsAfter env id before call (x.2 id)

theorem Kept.awaits {call : WorkflowCall} {x : Except Err WorkflowReply × WorkflowStates}
    (h : Kept id t x) : Awaits env id (t id) call x := .kept h

/-- A SWAP on a row with a shortlist. -/
theorem awaits_swap {old : WorkflowRow} {shortlist : ShortlistState}
    (hfound : (env (.findUnique id)).error = none) (hold : t id = some old)
    (hphase : old.phase = .AWAITING_APPROVAL) (hsl : old.shortlist = some shortlist) :
    Awaits env id (t id) (.handleUserDecision .SWAP)
      ((swap id id.userId old.addressId old.restaurantId (some shortlist)
        (old.rejectedItemIds.getD [])).eval (under today) env t) := by
  rw [swap_eq]
  refine eval_service (i := .get_restaurant_menu _ _ _) (by simp) rfl (fun err => kept_refl.awaits)
    fun hmenu => ?_
  dsimp only [afterSwapMenu]
  cases hsel : selectNextCandidate (parseMenu old.restaurantId
      (env (.get_restaurant_menu old.addressId old.restaurantId id.userId)).menu)
      shortlist.rankedItems (old.rejectedItemIds.getD [] ++ [shortlist.currentItem.itemId]) with
  | none => exact kept_skip.awaits
  | some proposal =>
    refine eval_service (i := .getSubscription id.userId) nofun rfl (fun err => kept_refl.awaits)
      fun hsub => ?_
    refine eval_service (i := .optimizeCart _) (by simp) rfl (fun err => kept_refl.awaits)
      fun hopt => ?_
    refine awaits_storeProposal (fun err => kept_refl.awaits) fun hstored old' reply hold' => ?_
    unfold Awaits
    dsimp only
    rw [Function.update_self]
    exact .swapped hold ⟨hphase, hsl, ⟨hfound, hmenu, hsub, hopt, hstored⟩, hsel, rfl, rfl, rfl⟩

/-- A scout of a day that has not been scouted: the upsert leaves a row that is being scouted. -/
theorem awaits_scout {addressId restaurantId : String}
    (hfound : (env (.findUnique id)).error = none) (hbefore : Unscouted (t id)) :
    Awaits env id (t id) (.runScoutPhase addressId restaurantId)
      ((scout id id.userId addressId restaurantId).eval (under today) env t) := by
  unfold scout
  rw [Prog.eval_call]
  cases hup : (env (.upsert id addressId restaurantId)).error with
  | some err =>
    rw [under_error hup nofun]
    exact kept_refl.awaits
  | none =>
    rw [under_ok hup]
    dsimp only [serve]
    generalize hrow : ({ (t id).getD { phase := .SCOUTING } with
      addressId := some addressId, restaurantId := some restaurantId } : WorkflowRow) = row
    -- from here on a failure leaves a row that is being scouted
    have hscouting : row.phase ≠ .AWAITING_APPROVAL := by
      rw [← hrow]
      cases hold : t id with
      | none => nofun
      | some old => simp [hbefore old hold]
    refine eval_service (i := .getSubscription id.userId) nofun rfl
      (fun err => (kept_written hscouting).awaits) fun hsub => ?_
    refine eval_service (i := .getPreferenceProfile id.userId) nofun rfl
      (fun err => (kept_written hscouting).awaits) fun hprofile => ?_
    refine eval_service (i := .get_restaurant_menu _ _ _) (by simp) rfl
      (fun err => (kept_written hscouting).awaits) fun hmenu => ?_
    refine eval_service (i := .analyze _) (by simp) rfl
      (fun err => (kept_written hscouting).awaits) fun hanalyzed => ?_
    dsimp only [afterAnalyze]
    cases hsel : selectNextCandidate (env.menu id.userId (some addressId) (some restaurantId))
        (env.rankedItems id.userId addressId restaurantId) [] with
    | none =>
      rw [Env.menu, Env.rankedItems, Env.analysis, Env.menu, Env.subscription] at hsel
      rw [hsel]
      exact (kept_written hscouting).awaits
    | some proposal =>
      rw [Env.menu, Env.rankedItems, Env.analysis, Env.menu, Env.subscription] at hsel
      rw [hsel]
      refine eval_service (i := .optimizeCart _) (by simp) rfl
        (fun err => (kept_written hscouting).awaits) fun hopt => ?_
      refine awaits_storeProposal (fun err => (kept_written hscouting).awaits)
        fun hstored old' reply hold' => ?_
      unfold Awaits
      dsimp only
      rw [Function.update_self]
      exact .scouted ⟨hbefore, ⟨hup, hprofile, hanalyzed⟩, ⟨hfound, hmenu, hsub, hopt, hstored⟩,
        hsel, rfl, rfl, rfl⟩

/-- A decision on a row that awaits approval. -/
theorem awaits_onDecision {row : WorkflowRow} {decision : Decision}
    (hfound : (env (.findUnique id)).error = none) (hrow : t id = some row)
    (hphase : row.phase = .AWAITING_APPROVAL) :
    Awaits env id (t id) (.handleUserDecision decision)
      ((onDecision id id.userId row decision).eval (under today) env t) := by
  cases decision with
  | APPROVE => exact kept_approve.awaits
  | SKIP => exact kept_skip.awaits
  | SWAP =>
    unfold onDecision
    cases hsl : row.shortlist with
    -- a row without a shortlist is not swapped
    | none => exact kept_refl.awaits
    | some shortlist => exact awaits_swap hfound hrow hphase hsl

/-- The row awaits approval. -/
def Awaiting {α : Type} (id : RowId) (x : Except Err α × WorkflowStates) : Prop :=
  ∃ row, x.2 id = some row ∧ row.phase = .AWAITING_APPROVAL

/-- A proposal that is written awaits approval, whatever becomes of what is sent. -/
theorem awaiting_storeProposal {menuItems : List MenuItem} {rankedItems : List RankedMenuItem}
    {rejectedItemIds : List String} {proposal : MenuItem} {skipScoutCompleted : Bool}
    {optimizedCart : OptimizedCart} {old : WorkflowRow} (hold : t id = some old)
    (hstored : (env (.update id
      (proposalUpdate rankedItems rejectedItemIds proposal optimizedCart))).error = none) :
    Awaiting id ((storeProposal id userId menuItems { rankedItems, currentItem := proposal }
      rejectedItemIds skipScoutCompleted optimizedCart).eval (under today) env t) := by
  have hwritten {r : Except Err WorkflowReply} : Awaiting id (r, Function.update t id (some
      ((proposalUpdate rankedItems rejectedItemIds proposal optimizedCart).write old))) :=
    ⟨_, Function.update_self .., rfl⟩
  have hannounce : ∀ reply, Awaiting id ((announce userId menuItems optimizedCart reply).eval
      (under today) env (Function.update t id (some
        ((proposalUpdate rankedItems rejectedItemIds proposal optimizedCart).write old)))) :=
    fun reply => eval_sent (i := .publishMenuProposed _ _) (by simp) rfl
      (eval_sent (i := .sendMenuOfTheDay _ _) (by simp) rfl hwritten)
  rw [storeProposal_eq]
  refine eval_served hstored ?_
  simp only [serve, hold]
  cases skipScoutCompleted with
  | true => exact hannounce _
  | false => exact eval_sent (i := .publishScoutCompleted _) (by simp) rfl (hannounce _)

/-- A scout whose calls are answered puts up what it finds. -/
theorem awaiting_scout {addressId restaurantId : String} {proposal : MenuItem}
    (hranked : Ranked env id addressId restaurantId)
    (hselected : selectNextCandidate (env.menu id.userId (some addressId) (some restaurantId))
      (env.rankedItems id.userId addressId restaurantId) [] = some proposal)
    (hserved : Served env id (some addressId) (some restaurantId)
      (env.rankedItems id.userId addressId restaurantId) [] proposal) :
    Awaiting id ((scout id id.userId addressId restaurantId).eval (under today) env t) := by
  unfold scout
  refine eval_served hranked.upserted (eval_served hserved.subscription ?_)
  refine eval_served hranked.profile (eval_served hserved.menu ?_)
  refine eval_served hranked.analyzed ?_
  dsimp only [serve, afterAnalyze]
  rw [Env.menu, Env.rankedItems, Env.analysis, Env.menu, Env.subscription] at hselected
  rw [hselected]
  refine eval_served hserved.optimized ?_
  exact awaiting_storeProposal (Function.update_self ..) hserved.stored

/-- Where the program succeeds, nothing is left to be approved. -/
def Closed {α : Type} (id : RowId) (x : Except Err α × WorkflowStates) : Prop :=
  ∀ reply, x.1 = .ok reply → ∀ row, x.2 id = some row → row.phase ≠ .AWAITING_APPROVAL

theorem closed_error {α : Type} {err : Err} : Closed id ((.error err, t) : Except Err α × _) := by
  intro reply h
  cases h

theorem closed_written {α : Type} {r : Except Err α} {row : WorkflowRow}
    (h : row.phase ≠ .AWAITING_APPROVAL) : Closed id (r, Function.update t id (some row)) := by
  intro reply _ row' hrow'
  have hrow : Function.update t id (some row) id = some row' := hrow'
  rw [Function.update_self] at hrow
  cases hrow
  exact h

theorem closed_skip {shortlist : Option ShortlistState} {β : Type} {f : SkipReply → β} :
    Closed id
      ((skip id userId shortlist >>= fun reply => .ret (f reply)).eval (under today) env t) := by
  rw [skip_eq, Prog.call_bind]
  refine eval_update (fun err => closed_error) fun _ row hrow => ?_
  refine eval_service (i := .rollover userId) nofun rfl (fun err => closed_written nofun) fun _ => ?_
  refine eval_sent (i := .publishMealSkipped userId) nofun rfl ?_
  cases shortlist <;> exact closed_written nofun

end Programs

/-! ### The handlers -/

section Handlers

variable {today : ℤ} {env : Env} {t : WorkflowStates} {userId : String}

/-- **What is left to be approved** by a handler. -/
theorem awaitsAfter (call : WorkflowCall) :
    AwaitsAfter env (todaysRow userId today) (t (todaysRow userId today)) call
      ((call.outcome userId today env t).2 (todaysRow userId today)) := by
  change Awaits env (todaysRow userId today) (t (todaysRow userId today)) call
    (call.outcome userId today env t)
  unfold WorkflowCall.outcome
  cases call with
  | runScoutPhase addressId restaurantId =>
    rw [WorkflowCall.prog, runScoutPhase_eq]
    refine eval_handler (fun err => kept_refl.awaits) fun hfound row hrow => ?_
    cases row with
    | none => exact awaits_scout hfound (by simp [Unscouted, hrow])
    | some row =>
      dsimp only
      split
      · rename_i hphase
        exact awaits_scout hfound fun old hold => (Option.some.inj (hrow.symm.trans hold)) ▸ hphase
      · exact kept_refl.awaits
  | handleUserDecision decision =>
    rw [WorkflowCall.prog, handleUserDecision_eq]
    refine eval_handler (fun err => kept_refl.awaits) fun hfound row hrow => ?_
    cases row with
    | none => exact kept_refl.awaits
    | some row =>
      dsimp only
      split
      · rename_i hphase
        exact awaits_onDecision hfound hrow hphase
      · exact kept_refl.awaits
  | sendReminderIfPending =>
    rw [WorkflowCall.prog, sendReminderIfPending_eq]
    refine eval_handler (fun err => kept_refl.awaits) fun hfound row hrow => ?_
    cases row with
    | none => exact kept_refl.awaits
    | some row =>
      dsimp only
      split
      · exact eval_sent (i := .sendMenuOfTheDay _ _) (by simp) rfl kept_refl.awaits
      · exact kept_refl.awaits
  | finalizeIfPending =>
    rw [WorkflowCall.prog, finalizeIfPending_eq]
    refine eval_handler (fun err => kept_refl.awaits) fun hfound row hrow => ?_
    cases row with
    | none => exact kept_refl.awaits
    | some row =>
      dsimp only
      split
      · exact kept_skip.awaits
      · exact kept_refl.awaits

/-- **A scout that is answered** puts up a proposal on a day that has not been scouted. -/
theorem awaiting_runScoutPhase {addressId restaurantId : String} {proposal : MenuItem}
    (hunscouted : Unscouted (t (todaysRow userId today)))
    (hranked : Ranked env (todaysRow userId today) addressId restaurantId)
    (hselected : selectNextCandidate (env.menu userId (some addressId) (some restaurantId))
      (env.rankedItems userId addressId restaurantId) [] = some proposal)
    (hserved : Served env (todaysRow userId today) (some addressId) (some restaurantId)
      (env.rankedItems userId addressId restaurantId) [] proposal) :
    ∃ row, ((WorkflowCall.runScoutPhase addressId restaurantId).outcome userId today env t).2
      (todaysRow userId today) = some row ∧ row.phase = .AWAITING_APPROVAL := by
  change Awaiting (todaysRow userId today)
    ((WorkflowCall.runScoutPhase addressId restaurantId).outcome userId today env t)
  have hscout : Awaiting (todaysRow userId today)
      ((scout (todaysRow userId today) userId addressId restaurantId).eval (under today) env t) :=
    awaiting_scout hranked hselected hserved
  unfold WorkflowCall.outcome
  rw [WorkflowCall.prog, runScoutPhase_eq, onRow, Prog.eval_call, under_now]
  dsimp only [serve]
  rw [startOfUtcDay_now]
  refine eval_served hserved.found ?_
  dsimp only [serve]
  cases hrow : t (todaysRow userId today) with
  | none =>
    rw [todaysRow] at hrow
    rw [hrow]
    exact hscout
  | some row =>
    have hphase := hunscouted row hrow
    rw [todaysRow] at hrow
    rw [hrow]
    dsimp only
    rw [if_pos hphase]
    exact hscout

/-- A finalize that succeeds leaves nothing to be approved. -/
theorem not_awaiting_of_finalized {reply : WorkflowReply}
    (h : (WorkflowCall.finalizeIfPending.outcome userId today env t).1 = .ok reply) :
    ∀ row, (WorkflowCall.finalizeIfPending.outcome userId today env t).2 (todaysRow userId today) =
      some row → row.phase ≠ .AWAITING_APPROVAL := by
  have hclosed : Closed (todaysRow userId today)
      (WorkflowCall.finalizeIfPending.outcome userId today env t) := by
    unfold WorkflowCall.outcome
    rw [WorkflowCall.prog, finalizeIfPending_eq]
    refine eval_handler (fun err => closed_error) fun _ row hrow => ?_
    cases row with
    | none => exact fun _ _ row hrow' => by cases hrow.symm.trans hrow'
    | some row =>
      dsimp only
      split
      · exact closed_skip
      · rename_i hphase
        exact fun _ _ row' hrow' => by
          cases hrow.symm.trans hrow'
          exact hphase
  exact hclosed reply h

/-- A call about one row leaves the others. -/
theorem exec_frame {id id' : RowId} {c : WorkflowChoice} {i : WorkflowOp} (hi : i.on id)
    (hne : id' ≠ id) : (exec today c i t).2 id' = t id' := by
  rcases exec_cases today c i t with ⟨err, he⟩ | ⟨he, -⟩
  · rw [he]
  · rw [he]
    cases i with
    | upsert id'' addressId restaurantId =>
      obtain rfl := hi
      exact Function.update_of_ne hne _ _
    | update id'' data =>
      obtain ⟨rfl, -⟩ := hi
      dsimp only [serve]
      cases t id'' with
      | none => rfl
      | some row => exact Function.update_of_ne hne _ _
    | _ => rfl

theorem Shape.frame {α : Type} {id id' : RowId} {p : WorkflowProg α} (hp : Shape id p)
    (hid : id.cycleDate = startOfUtcDay today) (hne : id' ≠ id) (t : WorkflowStates) :
    (p.eval (under today) env t).2 id' = t id' := by
  induction hp generalizing t with
  | ret a => rfl
  | throw e => rfl
  | @call i k hi hs h ih =>
    rw [Prog.eval_call]
    exact (ih _ (onDay_exec hid (env i) i t) _).trans (exec_frame hi hne)

/-- **Frame**: a handler leaves the rows of other users and of other days. -/
theorem outcome_frame {id' : RowId} (call : WorkflowCall) (hne : id' ≠ todaysRow userId today) :
    (call.outcome userId today env t).2 id' = t id' :=
  (shape_prog call).frame rfl hne t

end Handlers

end Gusto.Workflow
