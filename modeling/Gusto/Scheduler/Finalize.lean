import Gusto.Lib.Run
import Gusto.Lib.Triple
import Gusto.Scheduler.Service
import Gusto.Workflow.Proposal

/-!
# Finalize closes the day

The three triggers of a day have a column each.  A scout that failed is sent again at each tick, also
when the day has been finalised, and a finalize of a day without a row goes through.

* `DayClosed`: nothing awaits approval of a user whose day is marked as finalised;
* `Reopens`: a scout that goes through on such a day;
* `staysClosed_of_not_reopens`: a run in which no scout does so keeps every day closed;
* `not_staysClosed`: a scout that failed until the day was finalised.
-/

set_option autoImplicit false

namespace Gusto.Scheduler

open Effects Workflow WorkflowService CohortScheduler

/-! ### What is asked -/

/-- Nothing of the user and the day awaits approval. -/
def Settled (w : World) (userId : String) (day : ℤ) : Prop :=
  ∀ row, w.workflows ⟨userId, day⟩ = some row → row.phase ≠ .AWAITING_APPROVAL

theorem not_settled {w : World} {userId : String} {day : ℤ}
    (h : (w.workflows ⟨userId, day⟩).map (·.phase) = some .AWAITING_APPROVAL) :
    ¬ Settled w userId day := by
  obtain ⟨row, hrow, hphase⟩ := Option.map_eq_some_iff.mp h
  exact fun hsettled => hsettled row hrow hphase

/-- Where the present day is marked as finalised, nothing of it awaits approval. -/
def DayClosed (w : World) : Prop :=
  ∀ config ∈ w.configs, config.lastFinalizedDate = some (startOfUtcDay w.clock) →
    Settled w config.userId (startOfUtcDay w.clock)

/-- A tick or a request in which the day is closed before each call and at the end. -/
def StaysClosed (d : Done World SchedulerOp SchedulerChoice Err Unit) : Prop :=
  (∀ e ∈ d.events, DayClosed e.pre) ∧ DayClosed d.state

/-- The day of a user is marked as finalised. -/
def Marked (w : World) (userId : String) (day : ℤ) : Prop :=
  ∃ config ∈ w.configs, config.userId = userId ∧ config.lastFinalizedDate = some day

/-- The upstream calls of a scout succeed, and a ranked item is on the menu. -/
def GoesThrough (env : Env) (id : RowId) (addressId restaurantId : String) : Prop :=
  Ranked env id addressId restaurantId ∧ ∃ proposal,
    selectNextCandidate (env.menu id.userId (some addressId) (some restaurantId))
      (env.rankedItems id.userId addressId restaurantId) [] = some proposal ∧
    Served env id (some addressId) (some restaurantId)
      (env.rankedItems id.userId addressId restaurantId) [] proposal

/-- A scout that goes through on a day that is marked as finalised and has not been scouted. -/
def Reopens (e : Event World SchedulerOp SchedulerChoice) : Prop :=
  ∃ userId addressId restaurantId,
    let day := startOfUtcDay (max e.pre.clock e.choice.instant)
    e.call = .triggerScoutRun userId addressId restaurantId ∧ e.choice.error = none ∧
      Marked e.pre userId day ∧ Unscouted (e.pre.workflows ⟨userId, day⟩) ∧
      GoesThrough e.choice.env ⟨userId, day⟩ addressId restaurantId

/-! ### The invariant -/

/-- No mark is of a day to come, and the present day is closed. -/
def Orderly (w : World) : Prop :=
  ∀ config ∈ w.configs, ∀ day, config.lastFinalizedDate = some day →
    day ≤ startOfUtcDay w.clock ∧ (day = startOfUtcDay w.clock → Settled w config.userId day)

/-- In a tick of the day `today`. -/
def InTick (today : ℤ) (w : World) : Prop := Orderly w ∧ today ≤ startOfUtcDay w.clock

theorem startOfUtcDay_mono {a b : ℤ} (h : a ≤ b) : startOfUtcDay a ≤ startOfUtcDay b := by
  unfold startOfUtcDay DAY
  omega

section Invariant

variable {w : World} {c : SchedulerChoice} {today : ℤ}

theorem Orderly.dayClosed (h : Orderly w) : DayClosed w :=
  fun config hconfig hmark => (h config hconfig _ hmark).2 rfl

/-- Time passes. -/
theorem Orderly.advance (h : Orderly w) (instant : ℤ) : Orderly (w.advance instant) := by
  intro config hconfig day hmark
  obtain ⟨hle, hsettled⟩ := h config hconfig day hmark
  have hclock : startOfUtcDay w.clock ≤ startOfUtcDay (w.advance instant).clock :=
    startOfUtcDay_mono (le_max_left _ _)
  refine ⟨hle.trans hclock, fun hday => ?_⟩
  exact hsettled (le_antisymm hle (hday ▸ hclock))

/-- Rows with the marks of others keep the order. -/
theorem Orderly.of_marks {configs : List ScheduleConfig} (h : Orderly w)
    (hmarks : ∀ config ∈ configs, ∀ day, config.lastFinalizedDate = some day →
      Marked w config.userId day) : Orderly { w with configs } := by
  intro config hconfig day hmark
  obtain ⟨config', hconfig', hid, hmark'⟩ := hmarks config hconfig day hmark
  obtain ⟨hle, hsettled⟩ := h config' hconfig' day hmark'
  exact ⟨hle, hid ▸ hsettled⟩

theorem marked_upsertRow {userId timezone : String} {scoutTime notifyTime executeTime day : ℤ}
    {config : ScheduleConfig}
    (h : config ∈ upsertRow userId scoutTime notifyTime executeTime timezone w.configs)
    (hmark : config.lastFinalizedDate = some day) : Marked w config.userId day := by
  unfold upsertRow at h
  split at h
  · obtain ⟨old, hold, rfl⟩ := List.mem_map.mp h
    split at hmark
    · exact ⟨old, hold, by simp_all, hmark⟩
    · exact ⟨old, hold, by simp_all, hmark⟩
  · rcases List.mem_append.mp h with h | h
    · exact ⟨config, h, rfl, hmark⟩
    · rw [List.mem_singleton.mp h] at hmark
      cases hmark

/-- The other columns have nothing to do with the marks. -/
theorem marked_set {userId : String} {column : Column} {date day : ℤ} {config : ScheduleConfig}
    (hcolumn : column ≠ .lastFinalizedDate)
    (h : config ∈ w.configs.map fun row => if row.userId = userId then row.set date column else row)
    (hmark : config.lastFinalizedDate = some day) : Marked w config.userId day := by
  obtain ⟨old, hold, rfl⟩ := List.mem_map.mp h
  refine ⟨old, hold, ?_, ?_⟩
  · split
    · cases column <;> rfl
    · rfl
  · split at hmark
    · cases column with
      | lastDispatchedDate => exact hmark
      | lastNotifiedDate => exact hmark
      | lastFinalizedDate => exact absurd rfl hcolumn
    · exact hmark

/-- The handlers of one user leave the days of the others alone. -/
theorem Settled.of_ne {userId userId' : String} {call : WorkflowCall}
    (h : Settled w userId (startOfUtcDay w.clock)) (hid : userId ≠ userId') :
    Settled (trigger c userId' call w).2 userId (startOfUtcDay w.clock) := by
  have hne : (⟨userId, startOfUtcDay w.clock⟩ : RowId) ≠ todaysRow userId' w.clock :=
    fun e => hid (congrArg RowId.userId e)
  have hframe : (call.outcome userId' w.clock c.env w.workflows).2
      ⟨userId, startOfUtcDay w.clock⟩ = w.workflows ⟨userId, startOfUtcDay w.clock⟩ :=
    outcome_frame call hne
  intro row hrow
  exact h row (hframe.symm.trans hrow)

/-- What awaits approval after a handler did so before, or a scout or a SWAP has put it up. -/
theorem Settled.trigger {userId : String} {call : WorkflowCall}
    (h : Settled w userId (startOfUtcDay w.clock))
    (hcall : ∀ decision, call ≠ .handleUserDecision decision)
    (hscout : ∀ addressId restaurantId, call = .runScoutPhase addressId restaurantId →
      Unscouted (w.workflows (todaysRow userId w.clock)) →
      ¬ GoesThrough c.env (todaysRow userId w.clock) addressId restaurantId) :
    Settled (trigger c userId call w).2 userId (startOfUtcDay w.clock) := by
  intro row hrow
  have hawaits : AwaitsAfter c.env (todaysRow userId w.clock)
      (w.workflows (todaysRow userId w.clock)) call
      ((call.outcome userId w.clock c.env w.workflows).2 (todaysRow userId w.clock)) :=
    awaitsAfter call
  have hafter : (call.outcome userId w.clock c.env w.workflows).2 (todaysRow userId w.clock) =
      some row := hrow
  rw [hafter] at hawaits
  cases hawaits with
  | kept hkept => exact fun hphase => h row (hkept row rfl hphase) hphase
  | scouted hscouts =>
    have hgoes : GoesThrough c.env (todaysRow userId w.clock) _ _ :=
      ⟨hscouts.ranked, _, hscouts.put.selected, hscouts.put.served⟩
    exact absurd hgoes (hscout _ _ rfl hscouts.unscouted)
  | swapped _ _ => exact absurd rfl (hcall _)

/-- A handler that puts up nothing on a day that is marked keeps the order. -/
theorem Orderly.trigger {userId : String} {call : WorkflowCall} (h : Orderly w)
    (hcall : ∀ decision, call ≠ .handleUserDecision decision)
    (hscout : ∀ addressId restaurantId, call = .runScoutPhase addressId restaurantId →
      Marked w userId (startOfUtcDay w.clock) → Unscouted (w.workflows (todaysRow userId w.clock)) →
      ¬ GoesThrough c.env (todaysRow userId w.clock) addressId restaurantId) :
    Orderly (trigger c userId call w).2 := by
  intro config hconfig day hmark
  obtain ⟨hle, hsettled⟩ := h config hconfig day hmark
  refine ⟨hle, ?_⟩
  rintro rfl
  by_cases hid : config.userId = userId
  · subst hid
    exact (hsettled rfl).trigger hcall fun addressId restaurantId hrun =>
      hscout addressId restaurantId hrun ⟨config, hconfig, rfl, hmark⟩
  · exact (hsettled rfl).of_ne hid

theorem exec_cases (c : SchedulerChoice) (i : SchedulerOp) (w : World) :
    (∃ err, exec c i w = (.error err, w.advance c.instant)) ∨
      exec c i w = serve c i (w.advance c.instant) ∧ (i ≠ .now → c.error = none) := by
  unfold exec
  cases c.error with
  | none => exact .inr ⟨rfl, fun _ => rfl⟩
  | some err =>
    dsimp only
    split
    · rename_i hi
      exact .inr ⟨rfl, fun h => absurd hi h⟩
    · exact .inl ⟨err, rfl⟩

/-- **One call** keeps the order, if it does not reopen a day and does not mark one. -/
theorem Orderly.exec {i : SchedulerOp} (h : Orderly w) (hok : ¬ Reopens ⟨w, i, c⟩)
    (hi : ∀ userId date, i ≠ .update userId .lastFinalizedDate date) : Orderly (exec c i w).2 := by
  have hadvance := h.advance c.instant
  rcases exec_cases c i w with ⟨err, he⟩ | ⟨he, herror⟩
  · rw [he]
    exact hadvance
  · rw [he]
    cases i with
    | now => exact hadvance
    | findMany today => exact hadvance
    | getPreferenceProfile userId => exact hadvance
    | upsert userId scoutTime notifyTime executeTime timezone =>
      exact hadvance.of_marks fun config hconfig day hmark => marked_upsertRow hconfig hmark
    | update userId column date =>
      have hcolumn : column ≠ .lastFinalizedDate := fun e => hi userId date (e ▸ rfl)
      exact hadvance.of_marks fun config hconfig day hmark => marked_set hcolumn hconfig hmark
    | triggerScoutRun userId addressId restaurantId =>
      refine hadvance.trigger (fun decision => nofun) ?_
      intro addressId' restaurantId' hcall hmarked hunscouted hgoes
      cases hcall
      exact hok ⟨userId, addressId, restaurantId, rfl, herror nofun, hmarked, hunscouted, hgoes⟩
    | triggerNotifyReminder userId => exact hadvance.trigger (fun decision => nofun) nofun
    | triggerFinalize userId => exact hadvance.trigger (fun decision => nofun) nofun

theorem clock_exec (c : SchedulerChoice) (i : SchedulerOp) (w : World) :
    (exec c i w).2.clock = max w.clock c.instant := by
  rcases exec_cases c i w with ⟨err, he⟩ | ⟨he, -⟩
  · rw [he]
    rfl
  · rw [he]
    cases i <;> rfl

theorem InTick.exec {i : SchedulerOp} (h : InTick today w) (hok : ¬ Reopens ⟨w, i, c⟩)
    (hi : ∀ userId date, i ≠ .update userId .lastFinalizedDate date) : InTick today (exec c i w).2 := by
  refine ⟨h.1.exec hok hi, ?_⟩
  rw [clock_exec]
  exact h.2.trans (startOfUtcDay_mono (le_max_left _ _))

end Invariant

/-- A scout that reopens a day leaves it open. -/
theorem not_dayClosed_of_reopens {e : Event World SchedulerOp SchedulerChoice} (h : Reopens e) :
    ¬ DayClosed (exec e.choice e.call e.pre).2 := by
  obtain ⟨userId, addressId, restaurantId, hcall, herror, ⟨config, hconfig, hid, hmark⟩, hunscouted,
    hranked, proposal, hselected, hserved⟩ := h
  obtain ⟨row, hrow, hphase⟩ := awaiting_runScoutPhase hunscouted hranked hselected hserved
  have hexec : (exec e.choice e.call e.pre).2 = (trigger e.choice userId
      (.runScoutPhase addressId restaurantId) (e.pre.advance e.choice.instant)).2 := by
    unfold exec
    rw [herror, hcall]
    rfl
  intro hclosed
  rw [hexec] at hclosed
  exact hclosed config hconfig hmark row (hid ▸ hrow) hphase

/-! ### A tick -/

/-- Where no scout reopens a day: `P` before, `Q` after, and the day is closed before each call. -/
abbrev Spec {α : Type} (P : World → Prop) (p : SchedulerProg α) (Q : Except Err α → World → Prop) :
    Prop :=
  Prog.Triple exec (fun e => ¬ Reopens e) DayClosed P p Q

/-- What holds after an answer, and after an error. -/
def post {α : Type} (R : α → World → Prop) (E : World → Prop) : Except Err α → World → Prop
  | .ok a, w => R a w
  | .error _, w => E w

section Ticks

variable {today : ℤ}

theorem InTick.dayClosed {w : World} (h : InTick today w) : DayClosed w := h.1.dayClosed

theorem spec_request {i : SchedulerOp} {P E : World → Prop} {R : i.Answer → World → Prop}
    (hP : ∀ w, P w → DayClosed w)
    (hok : ∀ w c a, P w → ¬ Reopens ⟨w, i, c⟩ → (exec c i w).1 = .ok a → R a (exec c i w).2)
    (herr : ∀ w c, P w → ¬ Reopens ⟨w, i, c⟩ → E (exec c i w).2) :
    Spec P (request i) (post R E) := by
  have hawait : Spec P (Prog.await i : SchedulerProg i.Answer).attempt
      (post (fun answer => post R E answer) E) := by
    refine .attempt (.await hP fun w c hw hc => ?_)
    cases hr : (exec c i w).1 with
    | ok a => exact hok w c a hw hc hr
    | error err => exact herr w c hw hc
  refine .bind hawait (fun answer => ?_) fun err w h => h
  cases answer with
  | ok a => exact .ret fun w h => h
  | error err => exact .throw fun w h => h

/-- A request that does not mark a day. -/
theorem spec_request_inTick {i : SchedulerOp}
    (hi : ∀ userId date, i ≠ .update userId .lastFinalizedDate date) :
    Spec (InTick today) (request i) (post (fun _ => InTick today) (InTick today)) :=
  spec_request (fun _ h => h.dayClosed) (fun _ _ _ h hc _ => h.exec hc hi) fun _ _ h hc => h.exec hc hi

/-- A write that does not mark a day. -/
theorem spec_update {userId : String} {column : Column} {date : ℤ}
    (hcolumn : column ≠ .lastFinalizedDate) :
    Spec (InTick today) (Prog.await (SchedulerOp.update userId column date))
      (fun _ => InTick today) := by
  refine .await (fun _ h => h.dayClosed) fun w c h hc => h.exec hc ?_
  intro userId' date' e
  cases e
  exact hcolumn rfl

theorem spec_logged {P Q : World → Prop} {p : SchedulerProg Unit} (h : Spec P p fun _ => Q) :
    Spec P (logged p) fun _ => Q := by
  have htry : Spec P p.attempt fun _ => Q := .attempt h
  exact .bind htry (fun _ => .ret fun _ hw => hw) fun _ _ hw => hw

theorem spec_dispatchScout {userId : String} :
    Spec (InTick today) (dispatchScout userId today) fun _ => InTick today := by
  refine spec_logged (.bind (spec_request_inTick nofun) (fun profile => ?_) fun err w h => h)
  cases defaults profile with
  | none => exact .ret fun w h => h
  | some ids =>
    exact .bind (spec_request_inTick nofun) (fun _ => spec_update nofun) fun err w h => h

theorem spec_dispatchNotifyReminder {userId : String} :
    Spec (InTick today) (dispatchNotifyReminder userId today) fun _ => InTick today :=
  spec_logged (.bind (spec_request_inTick nofun) (fun _ => spec_update nofun) fun _ _ h => h)

/-- After a finalize that has gone through, the day is settled, if it is still the present day. -/
theorem settled_of_finalize {userId : String} {w : World} {c : SchedulerChoice} {u : Unit}
    (h : (exec c (.triggerFinalize userId) w).1 = .ok u) :
    Settled (exec c (.triggerFinalize userId) w).2 userId
      (startOfUtcDay (exec c (.triggerFinalize userId) w).2.clock) := by
  rcases exec_cases c (.triggerFinalize userId) w with ⟨err, he⟩ | ⟨he, -⟩
  · rw [he] at h
    cases h
  · rw [he] at h ⊢
    simp only [serve, trigger] at h
    cases hlost : c.lost with
    -- to the scheduler a lost reply is a failure, although the handler has run
    | some err =>
      rw [hlost] at h
      cases h
    | none =>
      cases hreply : (WorkflowCall.finalizeIfPending.outcome userId (w.advance c.instant).clock c.env
          (w.advance c.instant).workflows).1 with
      | error err =>
        rw [hlost, hreply] at h
        cases h
      | ok reply => exact not_awaiting_of_finalized hreply

/-- The mark is set when the day is settled. -/
theorem InTick.mark {userId : String} {w : World} {c : SchedulerChoice} (h : InTick today w)
    (hsettled : today = startOfUtcDay w.clock → Settled w userId today) :
    InTick today (Scheduler.exec c (.update userId .lastFinalizedDate today) w).2 := by
  have hadvance : InTick today (w.advance c.instant) :=
    ⟨h.1.advance c.instant, h.2.trans (startOfUtcDay_mono (le_max_left _ _))⟩
  rcases exec_cases c (.update userId .lastFinalizedDate today) w with ⟨err, he⟩ | ⟨he, -⟩
  · rw [he]
    exact hadvance
  · rw [he]
    refine ⟨fun config hconfig day hmark => ?_, hadvance.2⟩
    obtain ⟨old, hold, rfl⟩ := List.mem_map.mp hconfig
    by_cases hid : old.userId = userId
    · rw [if_pos hid] at hmark ⊢
      cases hmark
      -- if the mark is of the present day, midnight has not passed since the finalize
      refine ⟨hadvance.2, fun hday => ?_⟩
      have hclock : startOfUtcDay w.clock ≤ startOfUtcDay (w.advance c.instant).clock :=
        startOfUtcDay_mono (le_max_left _ _)
      exact hid ▸ hsettled (le_antisymm h.2 (hday ▸ hclock))
    · rw [if_neg hid] at hmark ⊢
      exact hadvance.1 old hold day hmark

theorem spec_dispatchFinalize {userId : String} :
    Spec (InTick today) (dispatchFinalize userId today) fun _ => InTick today := by
  have htrigger : Spec (InTick today) (request (.triggerFinalize userId))
      (post (fun _ w => InTick today w ∧ (today = startOfUtcDay w.clock → Settled w userId today))
        (InTick today)) := by
    refine spec_request (fun _ h => h.dayClosed) (fun w c u h hc hreply => ?_) fun w c h hc =>
      h.exec hc nofun
    exact ⟨h.exec hc nofun, fun hday => hday ▸ settled_of_finalize hreply⟩
  refine spec_logged (.bind htrigger (fun _ => ?_) fun err w h => h)
  exact .await (fun w h => h.1.dayClosed) fun w c h _ => h.1.mark h.2

/-- A trigger that is sent if it is due, and what follows. -/
theorem spec_when {due : Bool} {p : SchedulerProg Unit} {f : Unit → SchedulerProg Unit}
    (hp : Spec (InTick today) p fun _ => InTick today)
    (hf : ∀ u, Spec (InTick today) (f u) fun _ => InTick today) :
    Spec (InTick today) (if due then p >>= f else f ()) fun _ => InTick today := by
  cases due with
  | true => exact .bind hp hf fun _ _ h => h
  | false => exact hf ()

theorem spec_dispatchRow {nowMinutesUtc : ℤ} {row : ScheduleConfig} :
    Spec (InTick today) (dispatchRow today nowMinutesUtc row) fun _ => InTick today := by
  unfold dispatchRow
  refine spec_when spec_dispatchScout fun _ => spec_when spec_dispatchNotifyReminder fun _ => ?_
  split
  · exact spec_dispatchFinalize
  · exact .ret fun w h => h

theorem spec_dispatchRows {nowMinutesUtc : ℤ} {rows : List ScheduleConfig} :
    Spec (InTick today) (dispatchRows today nowMinutesUtc rows) fun _ => InTick today := by
  induction rows with
  | nil => exact .ret fun w h => h
  | cons row rows ih => exact .bind spec_dispatchRow (fun _ => ih) fun _ _ h => h

end Ticks

/-- **A tick** keeps the order. -/
theorem spec_dispatchDueCohorts : Spec Orderly dispatchDueCohorts fun _ => Orderly := by
  have hnow : Spec Orderly (Prog.await SchedulerOp.now)
      (post (fun now => InTick (startOfUtcDay now)) Orderly) := by
    refine .await (fun w h => h.dayClosed) fun w c h hc => ?_
    have hserved : exec c .now w = (.ok (w.advance c.instant).clock, w.advance c.instant) := by
      unfold exec
      cases c.error <;> rfl
    rw [hserved]
    exact ⟨h.advance c.instant, le_rfl⟩
  refine .bind hnow (fun now => ?_) fun err w h => h
  have hrows : Spec (InTick (startOfUtcDay now))
      (Prog.await (SchedulerOp.findMany (startOfUtcDay now)))
      (fun _ => InTick (startOfUtcDay now)) :=
    .await (fun w h => h.dayClosed) fun w c h hc => h.exec hc nofun
  refine .bind hrows (fun rows => ?_) fun err w h => h.1
  exact spec_dispatchRows.mono (fun w h => h) fun r w h => h.1

theorem spec_prog (call : SchedulerCall) : Spec Orderly call.prog fun _ => Orderly := by
  cases call with
  | tick => exact spec_dispatchDueCohorts
  | upsert body =>
    change Spec Orderly (ScheduleConfigController.upsert body) _
    unfold ScheduleConfigController.upsert
    split
    · split
      · exact .throw fun w h => h
      · exact .await (fun w h => h.dayClosed) fun w c h hc => h.exec hc nofun
    · exact .throw fun w h => h

/-- **Every day stays closed** once it is marked as finalised, in every run of ticks and of changes of
the schedule in which no scout goes through on a day that has been marked. -/
theorem staysClosed_of_not_reopens {w₀ w : World}
    {os : List (SchedulerCall × Done World SchedulerOp SchedulerChoice Err Unit)}
    (hfresh : ∀ config ∈ w₀.configs, ∀ day, config.lastFinalizedDate = some day →
      day < startOfUtcDay w₀.clock)
    (hr : Run (callStep exec SchedulerCall.prog) anyStep w₀ w os)
    (hscouts : ∀ o ∈ os, ∀ e ∈ o.2.events, ¬ Reopens e) : ∀ o ∈ os, StaysClosed o.2 := by
  have h₀ : Orderly w₀ := fun config hconfig day hmark =>
    ⟨(hfresh config hconfig day hmark).le, fun hday => absurd hday (hfresh config hconfig day hmark).ne⟩
  refine hr.forall_of_invariant hscouts h₀ fun w l w' o hw hevs hstep => ?_
  obtain ⟨hrun, -, rfl⟩ := callStep_eq_some.mp hstep
  obtain ⟨hpre, hend⟩ := (spec_prog l.1).of_run hw hrun hevs
  exact ⟨hend, hpre, hend.dayClosed⟩

/-! ### A scout that failed until the day was finalised -/

/-- A user who is scouted at 10:00, reminded at 11:00 and finalised at 11:30. -/
def morning : World where
  clock := 0
  configs := [{ userId := "u", scoutTime := 36000000, notifyTime := 39600000, executeTime := 41400000 }]
  workflows _ := none

def homeProfile : PreferenceProfile where
  diet := .veg
  spiceLevel := 3
  cuisineFavorites := []
  defaultAddressId := some "home"
  defaultRestaurantId := some "rest-1"

/-- Services that propose a thali. -/
def thaliEnv : Env := fun _ =>
  { menu := { categories := some [some
      [{ id := .value "1", name := .value "Veg Thali", price := .value 249 }]] }
    rankedItems := [{ itemId := "1", matchScore := 1 }] }

/-- The calls of a tick that sends the scout, and is answered. -/
def scouting (instant : ℤ) : List SchedulerChoice :=
  [{ instant := instant }, { instant := instant }, { instant, profile := some homeProfile },
   { instant, env := thaliEnv }, { instant := instant }]

/-- The calls of a tick that sends the reminder and the finalize, and is answered. -/
def finalizing (instant : ℤ) : List SchedulerChoice := List.replicate 6 { instant := instant }

/-- The calls of a tick that finalises the day and has failed to look up the profile for the scout. -/
def finalizingUnscouted (instant : ℤ) : List SchedulerChoice :=
  [{ instant := instant }, { instant := instant },
   { instant, error := some (.axios none "timeout of 5000ms exceeded") }] ++
    List.replicate 4 { instant := instant }

/-- A scout that is sent when no day has been marked. -/
def scoutsUnmarked (e : Event World SchedulerOp SchedulerChoice) : Bool :=
  match e.call with
  | .triggerScoutRun _ _ _ => e.pre.configs.all (·.lastFinalizedDate = none)
  | _ => true

theorem not_reopens_of_unmarked {e : Event World SchedulerOp SchedulerChoice}
    (h : scoutsUnmarked e) : ¬ Reopens e := by
  rintro ⟨userId, addressId, restaurantId, hcall, -, ⟨config, hconfig, -, hmark⟩, -⟩
  unfold scoutsUnmarked at h
  rw [hcall] at h
  have hnone := List.all_eq_true.mp h config hconfig
  rw [hmark] at hnone
  simp at hnone

/-- A scout at 10:00, and a finalize at 11:30. -/
theorem staysClosed_morning :
    ∃ w os, Run (callStep exec SchedulerCall.prog) anyStep morning w os ∧ os.length = 2 ∧
      ∀ o ∈ os, StaysClosed o.2 := by
  have hnil : Run (callStep exec SchedulerCall.prog) anyStep morning morning [] := .nil
  have hrun := (hnil.snoc (SchedulerCall.tick, scouting 36000000) trivial
    (show callStep exec SchedulerCall.prog _ _ = some (_, _) from rfl)).snoc
    (SchedulerCall.tick, finalizing 41400000) trivial
    (show callStep exec SchedulerCall.prog _ _ = some (_, _) from rfl)
  refine ⟨_, _, hrun, rfl, staysClosed_of_not_reopens ?_ hrun ?_⟩
  · decide
  · intro o ho e he
    exact not_reopens_of_unmarked (by revert o e; decide +kernel)

/-- The scout goes through when the day has been finalised. -/
theorem not_staysClosed :
    ¬ ∀ (w₀ w : World) (os : List (SchedulerCall × Done World SchedulerOp SchedulerChoice Err Unit)),
      (∀ config ∈ w₀.configs, ∀ day, config.lastFinalizedDate = some day →
        day < startOfUtcDay w₀.clock) →
      Run (callStep exec SchedulerCall.prog) anyStep w₀ w os → ∀ o ∈ os, StaysClosed o.2 := by
  intro h
  have hnil : Run (callStep exec SchedulerCall.prog) anyStep morning morning [] := .nil
  have hrun := (hnil.snoc (SchedulerCall.tick, finalizingUnscouted 41400000) trivial
    (show callStep exec SchedulerCall.prog _ _ = some (_, _) from rfl)).snoc
    (SchedulerCall.tick, scouting 41700000) trivial
    (show callStep exec SchedulerCall.prog _ _ = some (_, _) from rfl)
  have hclosed := h _ _ _ (by decide) hrun _ (List.mem_append_right _ (List.mem_singleton_self _))
  exact not_settled (by decide +kernel) (hclosed.2 _ (.head _) rfl)

end Gusto.Scheduler
