import Gusto.Lib.Pool
import Gusto.Workflow.Programs

/-!
# One outcome per meal cycle

Calls of the handlers for one user and one day in threads of their own, whose calls to the table and
to the services interleave.  A handler checks the phase when it reads the row; what it writes later
it writes whatever the phase has become.

* `OneOutcome`: one order at most, not an order and a rollover, and no way back from a decision;
* `oneOutcome_of_undisturbed`: this holds of every interleaving in which no decision is written
  between the read of the row by a handler and its own write;
* `not_oneOutcome`: it fails of others.
-/

set_option autoImplicit false

namespace Gusto.Workflow

open Effects WorkflowService

abbrev CyclePool : Type := Pool WorkflowCall WorkflowOp WorkflowOp.Answer Err WorkflowReply WorkflowStates
abbrev CycleThread : Type := Thread WorkflowCall WorkflowOp WorkflowOp.Answer Err WorkflowReply
abbrev CycleNote : Type := Note WorkflowCall WorkflowStates WorkflowOp WorkflowChoice

/-- A thread for each of `calls`, of one user, over the table `t`. -/
def cycle (userId : String) (calls : List WorkflowCall) (t : WorkflowStates) : CyclePool :=
  Pool.start (WorkflowCall.prog userId) calls t

/-! ### What is asked -/

/-- The phase of the row, where there is one. -/
def phaseAt (id : RowId) (t : WorkflowStates) : Option WorkflowPhase := (t id).map (·.phase)

/-- The day has been decided. -/
def Decided (phase : Option WorkflowPhase) : Prop :=
  phase = some .APPROVED ∨ phase = some .EXECUTING ∨ phase = some .SKIPPED

instance : DecidablePred Decided := fun _ => inferInstanceAs (Decidable (_ ∨ _ ∨ _))

/-- The phase that a call finds. -/
def before (id : RowId) (n : CycleNote) : Option WorkflowPhase := phaseAt id n.event.pre

/-- The phase that a call leaves. -/
def after (today : ℤ) (id : RowId) (n : CycleNote) : Option WorkflowPhase :=
  phaseAt id (exec today n.event.choice n.event.call n.event.pre).2

def WorkflowOp.isExecuteOrder : WorkflowOp → Bool
  | .executeOrder _ => true
  | _ => false

def WorkflowOp.isRollover : WorkflowOp → Bool
  | .rollover _ => true
  | _ => false

/-- How many calls of the kind `kind` were made. -/
def callsOf (kind : WorkflowOp → Bool) (os : List CycleNote) : ℕ :=
  os.countP fun n => kind n.event.call

/-- The phase stays or goes along an edge of `TRANSITIONS`. -/
def AlongEdge (phase next : Option WorkflowPhase) : Prop :=
  next = phase ∨ ∃ p q, phase = some p ∧ next = some q ∧ canTransition p q

/-- One outcome of the day: at most one order is executed, an order and a rollover are not both made,
a phase that is decided goes along the edges, and never back to AWAITING_APPROVAL. -/
structure OneOutcome (today : ℤ) (id : RowId) (os : List CycleNote) : Prop where
  once : callsOf WorkflowOp.isExecuteOrder os ≤ 1
  either : callsOf WorkflowOp.isExecuteOrder os = 0 ∨ callsOf WorkflowOp.isRollover os = 0
  edges : ∀ n ∈ os, Decided (before id n) → AlongEdge (before id n) (after today id n)
  final : os.Pairwise fun n m => Decided (before id n) → after today id m ≠ some .AWAITING_APPROVAL

/-! ### The condition -/

/-- A write of a proposal or a decision. -/
def WorkflowOp.writes (id : RowId) : WorkflowOp → Bool
  | .update id' data => id' = id ∧ data.phase ≠ .EXECUTING
  | _ => false

/-- A decision that was written. -/
def decides (id : RowId) (n : CycleNote) : Bool :=
  match n.event.call with
  | .update id' data =>
    id' = id ∧ (data.phase = .APPROVED ∨ data.phase = .SKIPPED) ∧ n.event.choice.error = none
  | _ => false

/-- The call by which the thread `tid` reads the row. -/
def readBy (id : RowId) (tid : ℕ) (n : CycleNote) : Bool :=
  n.tid = tid ∧ n.event.call = .findUnique id

/-- The calls made since the thread `tid` read the row, the last one first. -/
def sinceRead (id : RowId) (tid : ℕ) (os : List CycleNote) : List CycleNote :=
  os.reverse.takeWhile fun n => !readBy id tid n

/-- A handler that writes a proposal or a decision does so before any decision has been written since
it read the row. -/
def Undisturbed (id : RowId) (os : List CycleNote) (P : CyclePool) (l : ℕ × WorkflowChoice) : Prop :=
  ∀ th ∈ P.threads[l.1]?, ∀ i ∈ th.prog.head, i.writes id → l.2.error = none →
    ∀ n ∈ sinceRead id l.1 os, decides id n = false

instance (id : RowId) (os : List CycleNote) (P : CyclePool) (l : ℕ × WorkflowChoice) :
    Decidable (Undisturbed id os P l) :=
  inferInstanceAs (Decidable (∀ th ∈ P.threads[l.1]?, _))

theorem sinceRead_snoc {id : RowId} {tid : ℕ} {os : List CycleNote} {n : CycleNote} :
    sinceRead id tid (os ++ [n]) = if readBy id tid n then [] else n :: sinceRead id tid os := by
  unfold sinceRead
  rw [List.reverse_append, List.reverse_singleton, List.singleton_append, List.takeWhile_cons]
  cases readBy id tid n <;> rfl

/-! ### Where a handler has come to -/

/-- Before its read; having read the row as undecided; having written APPROVED; having the order;
having written SKIPPED; with nothing left that counts. -/
inductive Stage
  | reading
  | deciding
  | ordering
  | executing
  | rolling
  | done
  deriving DecidableEq

/-- The stage of a handler that is about to make the call `i`. -/
def WorkflowOp.stage : WorkflowOp → Stage
  | .now | .findUnique _ => .reading
  | .upsert _ _ _ | .getSubscription _ | .getPreferenceProfile _ | .get_restaurant_menu _ _ _
  | .analyze _ | .optimizeCart _ => .deciding
  | .update _ data => if data.phase = .EXECUTING then .executing else .deciding
  | .executeOrder _ => .ordering
  | .rollover _ => .rolling
  | .sendMenuOfTheDay _ _ | .publishScoutCompleted _ | .publishMenuProposed _ _
  | .publishMealApproved _ | .publishMealSkipped _ => .done

section Shapes

variable {α β : Type}

/-- The stage of what is left of a handler. -/
def stageOf (p : WorkflowProg α) : Stage := (p.head.map WorkflowOp.stage).getD .done

@[simp] theorem stageOf_call {i : WorkflowOp} {k : Except Err i.Answer → WorkflowProg α} :
    stageOf (.call i k) = i.stage := rfl
@[simp] theorem stageOf_ret {a : α} : stageOf (.ret a : WorkflowProg α) = .done := rfl
@[simp] theorem stageOf_throw {e : Err} : stageOf (.throw e : WorkflowProg α) = .done := rfl

/-- The stage that follows the write of a phase. -/
def written : WorkflowPhase → Stage
  | .APPROVED => .ordering
  | .SKIPPED => .rolling
  | _ => .done

/-- The stages that may follow the answer to a call. -/
def WorkflowOp.next : (i : WorkflowOp) → i.Answer → Stage → Prop
  | .now, _, s => s = .reading
  | .findUnique _, row, s => s = .done ∨ s = .deciding ∧ ¬ Decided (row.map (·.phase))
  | .upsert _ _ _, _, s | .getSubscription _, _, s | .getPreferenceProfile _, _, s
  | .get_restaurant_menu _ _ _, _, s | .analyze _, _, s | .optimizeCart _, _, s =>
    s = .done ∨ s = .deciding
  | .update _ data, _, s => s = written data.phase
  | .executeOrder _, _, s => s = .executing
  | .rollover _, _, s | .sendMenuOfTheDay _ _, _, s | .publishScoutCompleted _, _, s
  | .publishMenuProposed _ _, _, s | .publishMealApproved _, _, s | .publishMealSkipped _, _, s =>
    s = .done

/-- The stages that may follow a call: after a failure there is nothing left that counts. -/
def Next (i : WorkflowOp) : Except Err i.Answer → Stage → Prop
  | .ok answer, s => i.next answer s
  | .error _, s => s = .done

/-- The calls to the table are about the row `id`, and an update writes one of the phases that the
handlers write. -/
def WorkflowOp.on (id : RowId) : WorkflowOp → Prop
  | .findUnique id' | .upsert id' _ _ => id' = id
  | .update id' data => id' = id ∧
    (data.phase = .AWAITING_APPROVAL ∨ data.phase = .APPROVED ∨ data.phase = .SKIPPED ∨
      data.phase = .EXECUTING)
  | _ => True

/-- What a call may answer on the day of the row: the clock is on that day. -/
def OnDay (id : RowId) : (i : WorkflowOp) → Except Err i.Answer → Prop
  | .now, .ok date => startOfUtcDay date = id.cycleDate
  | _, _ => True

/-- What a handler for the row `id` may look like, on the day of that row. -/
inductive Shape (id : RowId) : WorkflowProg α → Prop
  | ret (a : α) : Shape id (.ret a)
  | throw (e : Err) : Shape id (.throw e)
  | call {i : WorkflowOp} {k : Except Err i.Answer → WorkflowProg α} (hi : i.on id)
      (hs : ∀ r, OnDay id i r → Next i r (stageOf (k r)))
      (h : ∀ r, OnDay id i r → Shape id (k r)) : Shape id (.call i k)

variable {id : RowId} {userId : String}

/-- A call, from what each of its answers leads to. -/
theorem Shape.intro {i : WorkflowOp} {k : Except Err i.Answer → WorkflowProg α} (hi : i.on id)
    (h : ∀ r, OnDay id i r → Next i r (stageOf (k r)) ∧ Shape id (k r)) : Shape id (.call i k) :=
  .call hi (fun r hr => (h r hr).1) fun r hr => (h r hr).2

theorem stageOf_bind_ret {p : WorkflowProg α} {f : α → β} :
    stageOf (p >>= fun a => .ret (f a)) = stageOf p := by
  cases p <;> rfl

theorem Shape.bind_ret {p : WorkflowProg α} (f : α → β) (h : Shape id p) :
    Shape id (p >>= fun a => .ret (f a)) := by
  induction h with
  | ret a => exact .ret _
  | throw e => exact .throw e
  | call hi hs h ih =>
    refine .call hi (fun r hr => ?_) ih
    have := hs r hr
    rwa [← stageOf_bind_ret (f := f)] at this

theorem next_done {i : WorkflowOp} (hs : i.stage = .done) (r : Except Err i.Answer) :
    Next i r .done := by
  cases r with
  | error e => rfl
  | ok a =>
    cases i with
    | update id' data =>
      simp only [WorkflowOp.stage] at hs
      split at hs <;> cases hs
    | _ => first | rfl | cases hs

/-- A call whose failure does not matter and that is followed by nothing else that counts. -/
theorem Shape.sent {i : WorkflowOp} {p : WorkflowProg α} (hi : i.on id) (hs : i.stage = .done)
    (hp : stageOf p = .done) (h : Shape id p) : Shape id (.call i fun _ => p) := by
  refine .call hi (fun r _ => ?_) fun _ _ => h
  rw [hp]
  exact next_done hs r

theorem shape_skip {shortlist : Option ShortlistState} : Shape id (skip id userId shortlist) := by
  rw [skip_eq]
  refine .intro (by simp [WorkflowOp.on]) fun r _ => ?_
  rcases r with err | updated
  · exact ⟨rfl, .throw _⟩
  refine ⟨rfl, .intro trivial fun r _ => ?_⟩
  rcases r with err | _
  · exact ⟨rfl, .throw _⟩
  refine ⟨rfl, .sent trivial rfl ?_ ?_⟩ <;> cases shortlist
  · rfl
  · rfl
  · exact .throw _
  · exact .ret _

theorem shape_approve {addressId restaurantId : Option String} {cart : Option OptimizedCart}
    {shortlist : Option ShortlistState} :
    Shape id (approve id userId addressId restaurantId cart shortlist) := by
  rw [approve_eq]
  refine .intro (by simp [WorkflowOp.on]) fun r _ => ?_
  rcases r with err | updated
  · exact ⟨rfl, .throw _⟩
  refine ⟨rfl, .intro trivial fun r _ => ?_⟩
  rcases r with err | order
  · exact ⟨rfl, .throw _⟩
  refine ⟨rfl, .intro (by simp [WorkflowOp.on]) fun r _ => ?_⟩
  rcases r with err | updated
  · exact ⟨rfl, .throw _⟩
  · cases shortlist with
    | none => exact ⟨rfl, .ret _⟩
    | some shortlist => exact ⟨rfl, .sent trivial rfl rfl (.ret _)⟩

theorem shape_storeProposal {menuItems : List MenuItem} {shortlist : ShortlistState}
    {rejectedItemIds : List String} {skipScoutCompleted : Bool} {optimizedCart : OptimizedCart} :
    Shape id (storeProposal id userId menuItems shortlist rejectedItemIds skipScoutCompleted
      optimizedCart) := by
  have hannounce {reply : WorkflowReply} :
      Shape id (announce userId menuItems optimizedCart reply) :=
    .sent trivial rfl rfl (.sent trivial rfl rfl (.ret _))
  rw [storeProposal_eq]
  refine .intro (by simp [WorkflowOp.on]) fun r _ => ?_
  rcases r with err | updated
  · exact ⟨rfl, .throw _⟩
  cases skipScoutCompleted with
  | true => exact ⟨rfl, hannounce⟩
  | false => exact ⟨rfl, .sent trivial rfl rfl hannounce⟩

/-- What a handler goes on with after a call that leaves it deciding or ends it. -/
def Goes (id : RowId) (p : WorkflowProg α) : Prop :=
  (stageOf p = .done ∨ stageOf p = .deciding) ∧ Shape id p

theorem goes_ret {a : α} : Goes id (.ret a : WorkflowProg α) := ⟨.inl rfl, .ret a⟩
theorem goes_throw {e : Err} : Goes id (.throw e : WorkflowProg α) := ⟨.inl rfl, .throw e⟩

/-- A request to a service while the handler is deciding. -/
theorem Goes.ask {i : WorkflowOp} {k : Except Err i.Answer → WorkflowProg α} (hi : i.on id)
    (hnext : ∀ a s, i.next a s ↔ s = .done ∨ s = .deciding) (hs : i.stage = .deciding)
    (hok : ∀ a, Goes id (k (.ok a))) (herr : ∀ e, ∃ e', k (.error e) = .throw e') :
    Goes id (.call i k) := by
  refine ⟨.inr hs, .intro hi fun r _ => ?_⟩
  rcases r with e | a
  · obtain ⟨e', he⟩ := herr e
    rw [he]
    exact ⟨rfl, .throw e'⟩
  · exact ⟨(hnext a _).mpr (hok a).1, (hok a).2⟩

theorem goes_storeProposal {menuItems : List MenuItem} {shortlist : ShortlistState}
    {rejectedItemIds : List String} {skipScoutCompleted : Bool} {optimizedCart : OptimizedCart} :
    Goes id (storeProposal id userId menuItems shortlist rejectedItemIds skipScoutCompleted
      optimizedCart) :=
  ⟨.inr rfl, shape_storeProposal⟩

theorem goes_afterAnalyze {addressId restaurantId : String} {subscription : EscrowSubscription}
    {menuItems : List MenuItem} {rankedItems : List RankedMenuItem} :
    Goes id (afterAnalyze id userId addressId restaurantId subscription menuItems rankedItems) := by
  unfold afterAnalyze
  cases selectNextCandidate menuItems rankedItems [] with
  | none => exact goes_throw
  | some proposal =>
    exact .ask trivial (fun _ _ => Iff.rfl) rfl (fun _ => goes_storeProposal) fun e => ⟨_, rfl⟩

theorem goes_scout {addressId restaurantId : String} :
    Goes id (scout id userId addressId restaurantId) := by
  refine .ask rfl (fun _ _ => Iff.rfl) rfl (fun _ => ?_) fun e => ⟨_, rfl⟩
  refine .ask trivial (fun _ _ => Iff.rfl) rfl (fun subscription => ?_) fun e => ⟨_, rfl⟩
  refine .ask trivial (fun _ _ => Iff.rfl) rfl (fun profile => ?_) fun e => ⟨_, rfl⟩
  refine .ask trivial (fun _ _ => Iff.rfl) rfl (fun response => ?_) fun e => ⟨_, rfl⟩
  exact .ask trivial (fun _ _ => Iff.rfl) rfl (fun _ => goes_afterAnalyze) fun e => ⟨_, rfl⟩

theorem goes_skip {shortlist : Option ShortlistState} (f : SkipReply → α) :
    Goes id (skip id userId shortlist >>= fun reply => .ret (f reply)) :=
  ⟨.inr (by rw [stageOf_bind_ret]; rfl), shape_skip.bind_ret f⟩

theorem goes_swap {addressId restaurantId : Option String} {shortlist : Option ShortlistState}
    {rejectedItemIds : List String} :
    Goes id (swap id userId addressId restaurantId shortlist rejectedItemIds) := by
  cases shortlist with
  | none => exact goes_throw
  | some shortlist =>
    rw [swap_eq]
    refine .ask trivial (fun _ _ => Iff.rfl) rfl (fun response => ?_) fun e => ⟨_, rfl⟩
    dsimp only [afterSwapMenu]
    cases selectNextCandidate (parseMenu restaurantId response) shortlist.rankedItems
      (rejectedItemIds ++ [shortlist.currentItem.itemId]) with
    | none => exact goes_skip _
    | some proposal =>
      refine .ask trivial (fun _ _ => Iff.rfl) rfl (fun subscription => ?_) fun e => ⟨_, rfl⟩
      exact .ask trivial (fun _ _ => Iff.rfl) rfl (fun _ => goes_storeProposal) fun e => ⟨_, rfl⟩

theorem goes_onDecision {row : WorkflowRow} {decision : Decision} :
    Goes id (onDecision id userId row decision) := by
  cases decision with
  | APPROVE => exact ⟨.inr rfl, shape_approve⟩
  | SKIP => exact goes_skip _
  | SWAP => exact goes_swap

end Shapes

/-- A handler that goes on with a row where it is undecided. -/
theorem shape_onRow {userId : String} {day : ℤ}
    {f : RowId → Option WorkflowRow → WorkflowProg WorkflowReply}
    (hgoes : ∀ row, Goes ⟨userId, day⟩ (f ⟨userId, day⟩ row))
    (hdecided : ∀ row, Decided (some row.phase) → stageOf (f ⟨userId, day⟩ (some row)) = .done) :
    Shape ⟨userId, day⟩ (onRow userId f) := by
  refine .intro trivial fun r hr => ?_
  rcases r with e | date
  · exact ⟨rfl, .throw e⟩
  have hday : startOfUtcDay date = day := hr
  dsimp only
  rw [hday]
  refine ⟨rfl, .intro rfl fun r _ => ?_⟩
  rcases r with e | row
  · exact ⟨rfl, .throw e⟩
  refine ⟨?_, (hgoes row).2⟩
  by_cases hd : Decided (row.map (·.phase))
  · cases row with
    | none => exact absurd hd (by decide)
    | some row => exact .inl (hdecided row hd)
  · exact (hgoes row).1.imp_right fun h => ⟨h, hd⟩

theorem ne_of_decided {phase : WorkflowPhase} (h : Decided (some phase)) :
    phase ≠ .SCOUTING ∧ phase ≠ .AWAITING_APPROVAL := by
  rcases h with h | h | h <;> cases h <;> decide

/-- Every handler has the shape, for the row of its user on the day it runs. -/
theorem shape_prog {userId : String} {day : ℤ} (call : WorkflowCall) :
    Shape ⟨userId, day⟩ (call.prog userId) := by
  cases call with
  | runScoutPhase addressId restaurantId =>
    rw [WorkflowCall.prog, runScoutPhase_eq]
    refine shape_onRow (fun row => ?_) fun row hd => ?_
    · rcases row with _ | row
      · exact goes_scout
      · dsimp only
        split
        · exact goes_scout
        · exact goes_throw
    · dsimp only
      rw [if_neg (ne_of_decided hd).1]
      rfl
  | handleUserDecision decision =>
    rw [WorkflowCall.prog, handleUserDecision_eq]
    refine shape_onRow (fun row => ?_) fun row hd => ?_
    · rcases row with _ | row
      · exact goes_throw
      · dsimp only
        split
        · exact goes_onDecision
        · exact goes_throw
    · dsimp only
      rw [if_neg (ne_of_decided hd).2]
      rfl
  | sendReminderIfPending =>
    rw [WorkflowCall.prog, sendReminderIfPending_eq]
    refine shape_onRow (fun row => ?_) fun row hd => ?_
    · rcases row with _ | row
      · exact goes_ret
      · dsimp only
        split
        · exact ⟨.inl rfl, .sent trivial rfl rfl (.ret _)⟩
        · exact goes_ret
    · dsimp only
      rw [if_neg (ne_of_decided hd).2]
      rfl
  | finalizeIfPending =>
    rw [WorkflowCall.prog, finalizeIfPending_eq]
    refine shape_onRow (fun row => ?_) fun row hd => ?_
    · rcases row with _ | row
      · exact goes_ret
      · dsimp only
        split
        · exact goes_skip _
        · exact goes_ret
    · dsimp only
      rw [if_neg (ne_of_decided hd).2]
      rfl

/-! ### One step -/

/-- What a call does, by the stages before and after it: what it leaves of the phase, and whether it
writes a proposal or a decision. -/
inductive Moves (today : ℤ) (id : RowId) (n : CycleNote) : Stage → Stage → Prop
  | read {s : Stage} (hs : s = .reading ∨ s = .done ∨ s = .deciding ∧ ¬ Decided (before id n))
      (hq : after today id n = before id n) : Moves today id n .reading s
  | ask {s : Stage} (hs : s = .done ∨ s = .deciding)
      (hq : after today id n = before id n ∨
        before id n = none ∧ after today id n = some .SCOUTING) : Moves today id n .deciding s
  | propose (hw : n.event.call.writes id) (hc : n.event.choice.error = none)
      (hq : after today id n = some .AWAITING_APPROVAL) : Moves today id n .deciding .done
  | approve (hw : n.event.call.writes id) (hc : n.event.choice.error = none) (hd : decides id n)
      (hq : after today id n = some .APPROVED) : Moves today id n .deciding .ordering
  | skip (hw : n.event.call.writes id) (hc : n.event.choice.error = none) (hd : decides id n)
      (hq : after today id n = some .SKIPPED) : Moves today id n .deciding .rolling
  | order {s : Stage} (hs : s = .executing ∨ s = .done) (hq : after today id n = before id n) :
      Moves today id n .ordering s
  | execute (hq : after today id n = before id n ∨ after today id n = some .EXECUTING) :
      Moves today id n .executing .done
  | roll (hq : after today id n = before id n) : Moves today id n .rolling .done
  | done (hq : after today id n = before id n) : Moves today id n .done .done

section Step

variable {today : ℤ} {id : RowId} {n : CycleNote}

/-- A call that changes nothing and ends the handler. -/
theorem moves_failed (hq : after today id n = before id n) (s : Stage) : Moves today id n s .done := by
  cases s with
  | reading => exact .read (.inr (.inl rfl)) hq
  | deciding => exact .ask (.inl rfl) (.inl hq)
  | ordering => exact .order (.inr rfl) hq
  | executing => exact .execute (.inl hq)
  | rolling => exact .roll hq
  | done => exact .done hq

theorem exec_cases (today : ℤ) (c : WorkflowChoice) (i : WorkflowOp) (t : WorkflowStates) :
    (∃ err, exec today c i t = (.error err, t)) ∨
      exec today c i t = serve today c i t ∧ (i ≠ .now → c.error = none) := by
  unfold exec
  cases c.error with
  | none => exact .inr ⟨rfl, fun _ => rfl⟩
  | some err =>
    dsimp only
    split
    · rename_i hi
      exact .inr ⟨rfl, fun h => absurd hi h⟩
    · exact .inl ⟨err, rfl⟩

theorem onDay_exec (hid : id.cycleDate = startOfUtcDay today) (c : WorkflowChoice) (i : WorkflowOp)
    (t : WorkflowStates) : OnDay id i (exec today c i t).1 := by
  cases i with
  | now =>
    have : (exec today c .now t).1 = .ok (startOfUtcDay today + c.now % DAY) := by
      unfold exec
      cases c.error <;> rfl
    rw [this]
    exact (startOfUtcDay_now today c.now).trans hid.symm
  | _ => exact trivial

/-- An update that is served. -/
theorem moves_update {data : WorkflowUpdate} (hphase : data.phase = .AWAITING_APPROVAL ∨
      data.phase = .APPROVED ∨ data.phase = .SKIPPED ∨ data.phase = .EXECUTING)
    (hcall : n.event.call = .update id data) (hc : n.event.choice.error = none)
    (hq : after today id n = some data.phase) :
    Moves today id n (WorkflowOp.update id data).stage (written data.phase) := by
  have hwrites : data.phase ≠ .EXECUTING → n.event.call.writes id := fun h => by
    rw [hcall]
    simpa [WorkflowOp.writes] using h
  have hdecides : data.phase = .APPROVED ∨ data.phase = .SKIPPED → decides id n := fun h => by
    unfold decides
    rw [hcall]
    simpa [hc] using h
  rcases hphase with h | h | h | h <;> simp only [WorkflowOp.stage, h, written] <;> rw [h] at hq
  · exact .propose (hwrites (by rw [h]; decide)) hc hq
  · exact .approve (hwrites (by rw [h]; decide)) hc (hdecides (.inl h)) hq
  · exact .skip (hwrites (by rw [h]; decide)) hc (hdecides (.inr h)) hq
  · exact .execute (.inr hq)

/-- **One step of a handler.** -/
theorem Shape.step {i : WorkflowOp} {k : Except Err i.Answer → WorkflowProg WorkflowReply}
    {c : WorkflowChoice} {t : WorkflowStates} (hid : id.cycleDate = startOfUtcDay today)
    (h : Shape id (.call i k)) (hn : n.event = ⟨t, i, c⟩) :
    Shape id (k (exec today c i t).1) ∧
      Moves today id n i.stage (stageOf (k (exec today c i t).1)) := by
  cases h with
  | call hi hs h =>
    have hday := onDay_exec hid c i t
    refine ⟨h _ hday, ?_⟩
    have hnext := hs _ hday
    have hbefore : before id n = phaseAt id t := by rw [before, hn]
    have hafter : after today id n = phaseAt id (exec today c i t).2 := by rw [after, hn]
    generalize hstage : stageOf (k (exec today c i t).1) = s at hnext ⊢
    rcases exec_cases today c i t with ⟨err, he⟩ | ⟨he, hc⟩
    · rw [he] at hnext hafter
      rw [show s = .done from hnext]
      exact moves_failed (hafter.trans hbefore.symm) _
    rw [he] at hnext hafter
    cases i with
    | now => exact .read (.inl hnext) (hafter.trans hbefore.symm)
    | findUnique id' =>
      refine .read (.inr ?_) (hafter.trans hbefore.symm)
      rw [hbefore, ← show id' = id from hi]
      exact hnext
    | upsert id' addressId restaurantId =>
      refine .ask hnext ?_
      rw [hbefore, hafter, ← show id' = id from hi]
      cases hrow : t id' with
      | none => exact .inr ⟨by simp [phaseAt, hrow], by simp [phaseAt, serve, hrow]⟩
      | some row => exact .inl (by simp [phaseAt, serve, hrow])
    | update id' data =>
      obtain ⟨hid', hphase⟩ := hi
      subst hid'
      cases hrow : t id' with
      | none =>
        simp only [serve, hrow] at hnext hafter
        rw [show s = .done from hnext]
        exact moves_failed (hafter.trans hbefore.symm) _
      | some row =>
        simp only [serve, hrow] at hnext hafter
        have hq : after today id' n = some data.phase := by simp [hafter, phaseAt, WorkflowUpdate.write]
        have hc : n.event.choice.error = none := by rw [hn]; exact hc nofun
        rw [show s = written data.phase from hnext]
        exact moves_update hphase (by rw [hn]) hc hq
    | executeOrder request => exact .order (.inl hnext) (hafter.trans hbefore.symm)
    | rollover userId =>
      rw [show s = .done from hnext]
      exact .roll (hafter.trans hbefore.symm)
    | getSubscription _ => exact .ask hnext (.inl (hafter.trans hbefore.symm))
    | getPreferenceProfile _ => exact .ask hnext (.inl (hafter.trans hbefore.symm))
    | get_restaurant_menu _ _ _ => exact .ask hnext (.inl (hafter.trans hbefore.symm))
    | analyze _ => exact .ask hnext (.inl (hafter.trans hbefore.symm))
    | optimizeCart _ => exact .ask hnext (.inl (hafter.trans hbefore.symm))
    | _ =>
      rw [show s = .done from hnext]
      exact .done (hafter.trans hbefore.symm)

end Step

/-! ### Counting -/

/-- How many handlers are in the stage `s`. -/
def inStage (s : Stage) (ths : List CycleThread) : ℕ := ths.countP fun th => stageOf th.prog = s

theorem inStage_perm {s : Stage} {ths rest : List CycleThread} {th : CycleThread}
    (h : ths.Perm (th :: rest)) :
    inStage s ths = inStage s rest + if stageOf th.prog = s then 1 else 0 := by
  unfold inStage
  rw [h.countP_eq, List.countP_cons]
  simp

theorem callsOf_snoc {kind : WorkflowOp → Bool} {os : List CycleNote} {n : CycleNote} :
    callsOf kind (os ++ [n]) = callsOf kind os + if kind n.event.call then 1 else 0 := by
  simp [callsOf, List.countP_append, List.countP_singleton]

theorem isExecuteOrder_iff {i : WorkflowOp} : i.isExecuteOrder ↔ i.stage = .ordering := by
  cases i with
  | update id data =>
    simp only [WorkflowOp.isExecuteOrder, WorkflowOp.stage]
    split <;> simp
  | _ => simp [WorkflowOp.isExecuteOrder, WorkflowOp.stage]

theorem isRollover_iff {i : WorkflowOp} : i.isRollover ↔ i.stage = .rolling := by
  cases i with
  | update id data =>
    simp only [WorkflowOp.isRollover, WorkflowOp.stage]
    split <;> simp
  | _ => simp [WorkflowOp.isRollover, WorkflowOp.stage]

/-- **The tally of a day.** `a`, `b` and `c` handlers have yet to order, to write EXECUTING and to
roll over; `x` orders and `y` rollovers were made.  Before a decision there are none of these, an
APPROVED row has one handler at work on its order, and what is EXECUTING or SKIPPED is left alone. -/
structure Tally (phase : Option WorkflowPhase) (a b c x y : ℕ) : Prop where
  undecided : ¬ Decided phase → a + b + c + x + y = 0
  approved : phase = some .APPROVED → c + y = 0 ∧ a + x ≤ 1 ∧ a + b ≤ 1
  executing : phase = some .EXECUTING → a + b + c + y = 0 ∧ x ≤ 1
  skipped : phase = some .SKIPPED → a + b + x = 0 ∧ c + y ≤ 1

section Tally

variable {today : ℤ} {id : RowId} {n : CycleNote} {phase : Option WorkflowPhase} {a b c x y : ℕ}

theorem tally_undecided (hd : ¬ Decided phase) (h : a + b + c + x + y = 0) :
    Tally phase a b c x y :=
  ⟨fun _ => h, fun hp => absurd (.inl hp) hd, fun hp => absurd (.inr (.inl hp)) hd,
    fun hp => absurd (.inr (.inr hp)) hd⟩

theorem tally_approved (h : c + y = 0 ∧ a + x ≤ 1 ∧ a + b ≤ 1) :
    Tally (some .APPROVED) a b c x y :=
  ⟨fun hd => absurd (by decide) hd, fun _ => h, nofun, nofun⟩

theorem tally_executing (h : a + b + c + y = 0 ∧ x ≤ 1) : Tally (some .EXECUTING) a b c x y :=
  ⟨fun hd => absurd (by decide) hd, nofun, fun _ => h, nofun⟩

theorem tally_skipped (h : a + b + x = 0 ∧ c + y ≤ 1) : Tally (some .SKIPPED) a b c x y :=
  ⟨fun hd => absurd (by decide) hd, nofun, nofun, fun _ => h⟩

/-- The phase where a handler is at work on its order. -/
theorem Tally.eq_approved (h : Tally phase a b c x y) (hab : a + b ≠ 0) : phase = some .APPROVED := by
  by_cases hd : Decided phase
  · rcases hd with hp | hp | hp
    · exact hp
    · have := h.executing hp
      omega
    · have := h.skipped hp
      omega
  · have := h.undecided hd
    omega

/-- The phase where a handler has yet to roll over. -/
theorem Tally.eq_skipped (h : Tally phase a b c x y) (hc : c ≠ 0) : phase = some .SKIPPED := by
  by_cases hd : Decided phase
  · rcases hd with hp | hp | hp
    · have := h.approved hp
      omega
    · have := h.executing hp
      omega
    · exact hp
  · have := h.undecided hd
    omega

/-- Handlers in the stage `s'`, one of which may be in the stage `s`. -/
def plus (m : ℕ) (s s' : Stage) : ℕ := m + if s = s' then 1 else 0

/-- **A step of the tally**, where what a proposal or a decision is written over is undecided. -/
theorem Tally.step {s s' : Stage} (hm : Moves today id n s s')
    (hw : n.event.call.writes id → n.event.choice.error = none → ¬ Decided (before id n))
    (h : Tally (before id n) (plus a s .ordering) (plus b s .executing) (plus c s .rolling) x y) :
    Tally (after today id n) (plus a s' .ordering) (plus b s' .executing) (plus c s' .rolling)
      (plus x s .ordering) (plus y s .rolling) := by
  cases hm with
  | read hs hq =>
    rw [hq]
    rcases hs with rfl | rfl | ⟨rfl, -⟩ <;> exact h
  | ask hs hq =>
    rcases hq with hq | ⟨hnone, hq⟩
    · rw [hq]
      rcases hs with rfl | rfl <;> exact h
    · have := h.undecided (by rw [hnone]; decide)
      rw [hq]
      refine tally_undecided (by decide) ?_
      rcases hs with rfl | rfl <;> exact this
  | propose hwr hc hq =>
    have := h.undecided (hw hwr hc)
    rw [hq]
    exact tally_undecided (by decide) this
  | approve hwr hc hd hq =>
    have := h.undecided (hw hwr hc)
    rw [hq]
    refine tally_approved ?_
    simp [plus] at this ⊢
    omega
  | skip hwr hc hd hq =>
    have := h.undecided (hw hwr hc)
    rw [hq]
    refine tally_skipped ?_
    simp [plus] at this ⊢
    omega
  | order hs hq =>
    have hp := h.eq_approved (by simp [plus])
    rw [hq]
    rw [hp] at h ⊢
    have := h.approved rfl
    refine tally_approved ?_
    rcases hs with rfl | rfl <;> simp [plus] at this ⊢ <;> omega
  | execute hq =>
    have hp := h.eq_approved (by simp [plus])
    rw [hp] at h hq
    have := h.approved rfl
    rcases hq with hq | hq <;> rw [hq]
    · refine tally_approved ?_
      simp [plus] at this ⊢
      omega
    · refine tally_executing ?_
      simp [plus] at this ⊢
      omega
  | roll hq =>
    have hp := h.eq_skipped (by simp [plus])
    rw [hq]
    rw [hp] at h ⊢
    have := h.skipped rfl
    refine tally_skipped ?_
    simp [plus] at this ⊢
    omega
  | done hq =>
    rw [hq]
    exact h

/-- What is decided goes along an edge, and stays decided. -/
theorem Tally.decided_step {s s' : Stage} (hm : Moves today id n s s')
    (hw : n.event.call.writes id → n.event.choice.error = none → ¬ Decided (before id n))
    (h : Tally (before id n) (plus a s .ordering) (plus b s .executing) (plus c s .rolling) x y)
    (hd : Decided (before id n)) :
    AlongEdge (before id n) (after today id n) ∧ Decided (after today id n) := by
  have hsame (hq : after today id n = before id n) :
      AlongEdge (before id n) (after today id n) ∧ Decided (after today id n) :=
    ⟨.inl hq, by rw [hq]; exact hd⟩
  cases hm with
  | read hs hq => exact hsame hq
  | ask hs hq =>
    rcases hq with hq | ⟨hnone, -⟩
    · exact hsame hq
    · rw [hnone] at hd
      exact absurd hd (by decide)
  | propose hwr hc hq => exact absurd hd (hw hwr hc)
  | approve hwr hc hdec hq => exact absurd hd (hw hwr hc)
  | skip hwr hc hdec hq => exact absurd hd (hw hwr hc)
  | order hs hq => exact hsame hq
  | execute hq =>
    have hp := h.eq_approved (by simp [plus])
    rcases hq with hq | hq
    · exact hsame hq
    · rw [hq, hp]
      exact ⟨.inr ⟨_, _, rfl, rfl, by decide⟩, by decide⟩
  | roll hq => exact hsame hq
  | done hq => exact hsame hq

/-- What is undecided stays so until a decision is written. -/
theorem Tally.undecided_step {s s' : Stage} (hm : Moves today id n s s')
    (h : Tally (before id n) (plus a s .ordering) (plus b s .executing) (plus c s .rolling) x y)
    (hd : ¬ Decided (before id n)) (hn : decides id n = false) : ¬ Decided (after today id n) := by
  have hsame (hq : after today id n = before id n) : ¬ Decided (after today id n) := by
    rw [hq]
    exact hd
  cases hm with
  | read hs hq => exact hsame hq
  | ask hs hq =>
    rcases hq with hq | ⟨-, hq⟩
    · exact hsame hq
    · rw [hq]
      decide
  | propose hwr hc hq =>
    rw [hq]
    decide
  | approve hwr hc hdec hq => rw [hdec] at hn; cases hn
  | skip hwr hc hdec hq => rw [hdec] at hn; cases hn
  | order hs hq => exact hsame hq
  | execute hq =>
    have hp := h.eq_approved (by simp [plus])
    exact absurd (.inl hp) hd
  | roll hq => exact hsame hq
  | done hq => exact hsame hq

end Tally

/-- A handler that goes on to decide has just read the row as undecided, or was deciding before. -/
theorem Moves.undecided_self {today : ℤ} {id : RowId} {n : CycleNote} {s : Stage}
    (hm : Moves today id n s .deciding)
    (hask : s = .deciding → ¬ Decided (after today id n)) : ¬ Decided (after today id n) := by
  cases hm with
  | read hs hq =>
    rw [hq]
    rcases hs with hs | hs | ⟨-, hd⟩
    · cases hs
    · cases hs
    · exact hd
  | ask hs hq => exact hask rfl
  | order hs hq => rcases hs with hs | hs <;> cases hs

/-! ### Runs -/

/-- The invariant of a run: every thread has a shape, the tally is right, a handler that may still
write and was not disturbed sees an undecided row, and what was decided has stayed so. -/
structure Cycles (today : ℤ) (id : RowId) (os : List CycleNote) (P : CyclePool) : Prop where
  shape : ∀ th ∈ P.threads, Shape id th.prog
  tally : Tally (phaseAt id P.state) (inStage .ordering P.threads) (inStage .executing P.threads)
    (inStage .rolling P.threads) (callsOf WorkflowOp.isExecuteOrder os)
    (callsOf WorkflowOp.isRollover os)
  fresh : ∀ j th, P.threads[j]? = some th → stageOf th.prog = .deciding →
    (∀ n ∈ sinceRead id j os, decides id n = false) → ¬ Decided (phaseAt id P.state)
  edges : ∀ n ∈ os, Decided (before id n) → AlongEdge (before id n) (after today id n)
  final : os.Pairwise fun n m => Decided (before id n) → Decided (after today id m)
  past : ∀ n ∈ os, Decided (before id n) → Decided (phaseAt id P.state)

theorem stage_of_writes {id : RowId} {i : WorkflowOp} (h : i.writes id) : i.stage = .deciding := by
  cases i with
  | update id' data =>
    simp only [WorkflowOp.writes, decide_eq_true_eq] at h
    simp [WorkflowOp.stage, h.2]
  | _ => cases h

theorem readBy_of_ne {id : RowId} {tid : ℕ} {n : CycleNote} (h : n.tid ≠ tid) :
    readBy id tid n = false := by
  simp [readBy, h]

theorem readBy_of_stage {id : RowId} {tid : ℕ} {n : CycleNote}
    (h : n.event.call.stage = .deciding) : readBy id tid n = false := by
  unfold readBy
  have : n.event.call ≠ .findUnique id := fun e => by rw [e] at h; cases h
  simp [this]

theorem cycles_start {userId : String} {today : ℤ} (calls : List WorkflowCall) (t : WorkflowStates) :
    Cycles today ⟨userId, startOfUtcDay today⟩ [] (cycle userId calls t) := by
  have hreading : ∀ th ∈ (cycle userId calls t).threads, stageOf th.prog = .reading := fun th hth => by
    rw [(Pool.start_threads hth).2]
    cases th.tag <;> rfl
  have hzero : ∀ s, s ≠ .reading → inStage s (cycle userId calls t).threads = 0 := fun s hs => by
    simp only [inStage, List.countP_eq_zero, decide_eq_true_eq]
    exact fun th hth h => hs (h ▸ hreading th hth)
  refine ⟨fun th hth => ?_, ?_, fun j th hj hs => ?_, by simp, .nil, by simp⟩
  · rw [(Pool.start_threads hth).2]
    exact shape_prog th.tag
  · simp only [hzero _ (show Stage.ordering ≠ .reading by decide),
      hzero _ (show Stage.executing ≠ .reading by decide),
      hzero _ (show Stage.rolling ≠ .reading by decide), callsOf, List.countP_nil]
    exact ⟨by omega, by omega, by omega, by omega⟩
  · rw [hreading th (List.mem_of_getElem? hj)] at hs
    cases hs

/-- **The step of the invariant.** -/
theorem Cycles.step {today : ℤ} {id : RowId} {os : List CycleNote} {P P' : CyclePool}
    {l : ℕ × WorkflowChoice} {n : CycleNote} (hid : id.cycleDate = startOfUtcDay today)
    (hI : Cycles today id os P) (hok : Undisturbed id os P l)
    (h : P.step (exec today) l = some (P', n)) : Cycles today id (os ++ [n]) P' := by
  obtain ⟨tag, i, k, rest, hget, hP, hset, hP', hstate, rfl⟩ := Pool.step_cases h
  obtain ⟨hshape, hmoves⟩ := (hI.shape _ (hP.mem_iff.mpr (List.mem_cons_self ..))).step
    (n := ⟨l.1, tag, ⟨P.state, i, l.2⟩⟩) hid rfl
  generalize hn : (⟨l.1, tag, ⟨P.state, i, l.2⟩⟩ : CycleNote) = n at hmoves ⊢
  have htid : n.tid = l.1 := by rw [← hn]
  have hcall : n.event.call = i := by rw [← hn]
  have hbefore : before id n = phaseAt id P.state := by rw [← hn]; rfl
  have hafter : after today id n = phaseAt id P'.state := by rw [← hn, hstate]; rfl
  -- what a proposal or a decision is written over is undecided
  have hw : n.event.call.writes id → n.event.choice.error = none → ¬ Decided (before id n) := by
    intro hwr hc
    rw [hbefore]
    rw [hcall] at hwr
    exact hI.fresh l.1 _ hget (stage_of_writes hwr)
      (hok _ hget i rfl hwr (by rw [← hn] at hc; exact hc))
  have htally : Tally (before id n) (plus (inStage .ordering rest) i.stage .ordering)
      (plus (inStage .executing rest) i.stage .executing)
      (plus (inStage .rolling rest) i.stage .rolling) (callsOf WorkflowOp.isExecuteOrder os)
      (callsOf WorkflowOp.isRollover os) := by
    have := hI.tally
    simp only [inStage_perm hP] at this
    rw [hbefore]
    exact this
  have hundecided (hd : ¬ Decided (phaseAt id P.state)) (hdec : decides id n = false) :
      ¬ Decided (phaseAt id P'.state) := by
    rw [← hafter]
    rw [← hbefore] at hd
    exact htally.undecided_step hmoves hd hdec
  have hdecided (hd : Decided (phaseAt id P.state)) :
      AlongEdge (before id n) (after today id n) ∧ Decided (phaseAt id P'.state) := by
    rw [← hafter]
    rw [← hbefore] at hd
    exact htally.decided_step hmoves hw hd
  refine ⟨Pool.forall_of_perm hP hP' hI.shape hshape, ?_, fun j th hj hs hsince => ?_, ?_, ?_, ?_⟩
  · have := htally.step hmoves hw
    rw [hafter] at this
    simp only [inStage_perm hP', callsOf_snoc, hcall, isExecuteOrder_iff, isRollover_iff]
    exact this
  · rw [hset] at hj
    rw [sinceRead_snoc] at hsince
    rcases Pool.getElem?_set_cases hget hj with ⟨rfl, rfl⟩ | ⟨hjl, hj⟩
    · rw [show stageOf _ = Stage.deciding from hs] at hmoves
      rw [← hafter]
      refine hmoves.undecided_self fun hstage => ?_
      rw [readBy_of_stage (by rw [hcall, hstage])] at hsince
      obtain ⟨hdec, hold⟩ := List.forall_mem_cons.mp hsince
      rw [hafter]
      exact hundecided (hI.fresh _ _ hget hstage hold) hdec
    · rw [readBy_of_ne (by rw [htid]; exact Ne.symm hjl)] at hsince
      obtain ⟨hdec, hold⟩ := List.forall_mem_cons.mp hsince
      exact hundecided (hI.fresh _ _ hj hs hold) hdec
  · intro m hm hd
    rcases List.mem_append.mp hm with hm | hm
    · exact hI.edges m hm hd
    · rw [List.mem_singleton.mp hm] at hd ⊢
      rw [hbefore] at hd
      exact (hdecided hd).1
  · refine List.pairwise_append.mpr ⟨hI.final, List.pairwise_singleton .., fun m hm m' hm' hd => ?_⟩
    rw [List.mem_singleton.mp hm', hafter]
    exact (hdecided (hI.past m hm hd)).2
  · intro m hm hd
    rcases List.mem_append.mp hm with hm | hm
    · exact (hdecided (hI.past m hm hd)).2
    · rw [List.mem_singleton.mp hm, hbefore] at hd
      exact (hdecided hd).2

theorem Cycles.oneOutcome {today : ℤ} {id : RowId} {os : List CycleNote} {P : CyclePool}
    (hI : Cycles today id os P) : OneOutcome today id os := by
  have hcounts : callsOf WorkflowOp.isExecuteOrder os ≤ 1 ∧
      (callsOf WorkflowOp.isExecuteOrder os = 0 ∨ callsOf WorkflowOp.isRollover os = 0) := by
    by_cases hd : Decided (phaseAt id P.state)
    · rcases hd with hp | hp | hp
      · have := hI.tally.approved hp
        omega
      · have := hI.tally.executing hp
        omega
      · have := hI.tally.skipped hp
        omega
    · have := hI.tally.undecided hd
      omega
  refine ⟨hcounts.1, hcounts.2, hI.edges, hI.final.imp fun h hd hq => ?_⟩
  have := h hd
  rw [hq] at this
  revert this
  decide

/-- **One outcome per meal cycle.** However the handlers of a user interleave on a day, and whatever
fails, if no decision is written between the read of the row by a handler and its own write of a
proposal or a decision, then the day has one outcome. -/
theorem oneOutcome_of_undisturbed (userId : String) (today : ℤ) (calls : List WorkflowCall)
    (t : WorkflowStates) {P : CyclePool} {os : List CycleNote}
    (hrun : Run (Pool.step (exec today)) (Undisturbed ⟨userId, startOfUtcDay today⟩)
      (cycle userId calls t) P os) : OneOutcome today ⟨userId, startOfUtcDay today⟩ os :=
  (hrun.invariant (Cycles today ⟨userId, startOfUtcDay today⟩) (cycles_start calls t)
    fun _ _ _ _ _ hI hok h => hI.step rfl hok h).oneOutcome

/-! ### With and without the condition -/

/-- A user with a proposal on day 0, and two handlers. -/
def proposed (first second : WorkflowCall) : CyclePool :=
  cycle "u" [first, second] fun _ => some proposedRow

/-- The scheduler reads the row once the user has approved. -/
theorem oneOutcome_approved :
    ∃ P os, Run (Pool.step (exec 0)) (Undisturbed ⟨"u", 0⟩)
      (proposed (.handleUserDecision .APPROVE) .finalizeIfPending) P os ∧
      callsOf WorkflowOp.isExecuteOrder os = 1 ∧ OneOutcome 0 ⟨"u", 0⟩ os := by
  have hrun := Run.of_runSteps .nil (show runSteps (Pool.step (exec 0)) (Undisturbed ⟨"u", 0⟩)
    [(0, {}), (1, {}), (0, {}), (0, {}), (1, {}), (0, {}), (0, {}), (0, {})]
    (proposed (.handleUserDecision .APPROVE) .finalizeIfPending) [] = some (_, _) from rfl)
  exact ⟨_, _, hrun, rfl, oneOutcome_of_undisturbed "u" 0 _ _ hrun⟩

/-- Two taps on APPROVE: both handlers read the row before either writes it, and both order. -/
theorem not_oneOutcome :
    ¬ ∀ (userId : String) (today : ℤ) (calls : List WorkflowCall) (t : WorkflowStates) P os,
      Run (Pool.step (exec today)) anyStep (cycle userId calls t) P os →
        (∀ n ∈ os, n.event.choice.error = none) →
        OneOutcome today ⟨userId, startOfUtcDay today⟩ os := by
  intro h
  have hrun := Run.of_runSteps .nil (show runSteps (Pool.step (exec 0)) anyStep
    [(0, {}), (1, {}), (0, {}), (1, {}), (0, {}), (1, {}), (0, {}), (1, {})]
    (proposed (.handleUserDecision .APPROVE) (.handleUserDecision .APPROVE)) [] = some (_, _) from rfl)
  exact absurd (h _ _ _ _ _ _ hrun (by decide)).once (by decide)

end Gusto.Workflow
