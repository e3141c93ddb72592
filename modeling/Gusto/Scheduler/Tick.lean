import Gusto.Scheduler.Service

/-!
# A tick, job by job

The cron job against the table alone: what the services answer is chosen freely.

* `answer`: the calls of a tick, each of which may fail; `answer_of_exec` finds there whatever the
  workflow behind the triggers answers;
* `Window`: the three triggers of a day, with their column and their time;
* `runJobs`: the loop of a tick as a list of jobs, each for a user and a window, and what each job goes
  through.
-/

set_option autoImplicit false

namespace Gusto.Scheduler

open Effects Workflow CohortScheduler

/-! ### The table and the services -/

/-- The clock in milliseconds, and the rows. -/
structure Table where
  clock : ℤ
  configs : List ScheduleConfig

/-- The instant at which a call is served, whether it fails without effect, and the profile that is on
file. -/
structure TickChoice where
  instant : ℤ
  error : Option Err := none
  profile : Option PreferenceProfile := none

/-- The clock does not go back. -/
def Table.advance (t : Table) (instant : ℤ) : Table := { t with clock := max t.clock instant }

def markConfigs (userId : String) (column : Column) (date : ℤ) (configs : List ScheduleConfig) :
    List ScheduleConfig :=
  configs.map fun row => if row.userId = userId then row.set date column else row

/-- What a call does that does not fail. -/
def Table.serve (profile : Option PreferenceProfile) : (i : SchedulerOp) → Table → i.Answer × Table
  | .now, t => (t.clock, t)
  | .findMany today, t => (t.configs.filter (due today), t)
  | .upsert userId scoutTime notifyTime executeTime timezone, t =>
    ((), { t with configs := upsertRow userId scoutTime notifyTime executeTime timezone t.configs })
  | .update userId column date, t => ((), { t with configs := markConfigs userId column date t.configs })
  | .getPreferenceProfile _, t => (profile, t)
  | .triggerScoutRun _ _ _, t => ((), t)
  | .triggerNotifyReminder _, t => ((), t)
  | .triggerFinalize _, t => ((), t)

/-- A call is served or fails; the clock does not fail. -/
def answer : Handler SchedulerOp SchedulerOp.Answer Err Table TickChoice :=
  fun c i t =>
    let served := Table.serve c.profile i (t.advance c.instant)
    match c.error with
    | some err => if i = .now then (.ok served.1, served.2) else (.error err, t.advance c.instant)
    | none => (.ok served.1, served.2)

def World.table (w : World) : Table := ⟨w.clock, w.configs⟩

/-- What an answer says of whether the call has failed. -/
def failure {α : Type} : Except Err α → Option Err
  | .ok _ => none
  | .error err => some err

/-- Whatever the workflow answers to a trigger is among these answers. -/
theorem answer_of_exec (c : SchedulerChoice) (i : SchedulerOp) (w : World) :
    ∃ c', answer c' i w.table = ((exec c i w).1, (exec c i w).2.table) := by
  refine ⟨⟨c.instant, if i = .now then none else failure (exec c i w).1, c.profile⟩, ?_⟩
  cases herror : c.error with
  | some err =>
    cases i <;>
      simp [answer, exec, herror, failure, World.table, World.advance, Table.advance, Table.serve, serve]
  | none =>
    -- only a trigger may have failed, and it has changed no row
    cases i with
    | triggerScoutRun userId addressId restaurantId =>
      simp only [exec, herror, serve, reduceCtorEq, if_false]
      cases (trigger c userId (.runScoutPhase addressId restaurantId) (w.advance c.instant)).1 <;> rfl
    | triggerNotifyReminder userId =>
      simp only [exec, herror, serve, reduceCtorEq, if_false]
      cases (trigger c userId .sendReminderIfPending (w.advance c.instant)).1 <;> rfl
    | triggerFinalize userId =>
      simp only [exec, herror, serve, reduceCtorEq, if_false]
      cases (trigger c userId .finalizeIfPending (w.advance c.instant)).1 <;> rfl
    | _ =>
      simp [answer, exec, herror, failure, World.table, World.advance, Table.advance, Table.serve, serve,
        markConfigs]

/-! ### Windows -/

/-- The triggers of a day. -/
inductive Window
  | scout
  | notify
  | finalize
  deriving DecidableEq, Repr

namespace Window

def column : Window → Column
  | scout => .lastDispatchedDate
  | notify => .lastNotifiedDate
  | finalize => .lastFinalizedDate

def time (row : ScheduleConfig) : Window → ℤ
  | scout => row.scoutTime
  | notify => row.notifyTime
  | finalize => row.executeTime

def mark (row : ScheduleConfig) : Window → Option ℤ
  | scout => row.lastDispatchedDate
  | notify => row.lastNotifiedDate
  | finalize => row.lastFinalizedDate

def dispatch (userId : String) (today : ℤ) : Window → SchedulerProg Unit
  | scout => dispatchScout userId today
  | notify => dispatchNotifyReminder userId today
  | finalize => dispatchFinalize userId today

/-- The triggers of the window for a user. -/
def triggers (userId : String) : Window → SchedulerOp → Bool
  | scout, .triggerScoutRun u _ _ => u = userId
  | notify, .triggerNotifyReminder u => u = userId
  | finalize, .triggerFinalize u => u = userId
  | _, _ => false

/-- Whether the loop dispatches the window of a row. -/
def fires (today nowMinutesUtc : ℤ) (row : ScheduleConfig) (w : Window) : Bool :=
  !already (w.mark row) today && nowMinutesUtc ≥ minutesOfDayUtc (w.time row)

end Window

/-! ### Jobs -/

/-- A window of a user. -/
abbrev Job : Type := String × Window

def rowJobs (today nowMinutesUtc : ℤ) (row : ScheduleConfig) : List Job :=
  ([.scout, .notify, .finalize].filter (Window.fires today nowMinutesUtc row)).map (row.userId, ·)

/-- What a tick has to do, in its order. -/
def jobs (today nowMinutesUtc : ℤ) (rows : List ScheduleConfig) : List Job :=
  rows.flatMap (rowJobs today nowMinutesUtc)

def runJobs (today : ℤ) : List Job → SchedulerProg Unit
  | [] => return
  | job :: js => do
    job.2.dispatch job.1 today
    runJobs today js

theorem runJobs_append (today : ℤ) (js js' : List Job) :
    runJobs today (js ++ js') = (runJobs today js >>= fun _ => runJobs today js') := by
  induction js with
  | nil => rfl
  | cons job js ih => simp only [List.cons_append, runJobs, ih, bind_assoc]

theorem bind_done (p : SchedulerProg Unit) : (p >>= fun _ => Prog.ret ()) = p := Prog.bind_ret p

theorem dispatchRow_eq (today nowMinutesUtc : ℤ) (row : ScheduleConfig) :
    dispatchRow today nowMinutesUtc row = runJobs today (rowJobs today nowMinutesUtc row) := by
  have hscout : Window.fires today nowMinutesUtc row .scout =
      (!already row.lastDispatchedDate today && nowMinutesUtc ≥ minutesOfDayUtc row.scoutTime) := rfl
  have hnotify : Window.fires today nowMinutesUtc row .notify =
      (!already row.lastNotifiedDate today && nowMinutesUtc ≥ minutesOfDayUtc row.notifyTime) := rfl
  have hfinalize : Window.fires today nowMinutesUtc row .finalize =
      (!already row.lastFinalizedDate today && nowMinutesUtc ≥ minutesOfDayUtc row.executeTime) := rfl
  unfold dispatchRow rowJobs
  rw [← hscout, ← hnotify, ← hfinalize]
  cases h₁ : Window.fires today nowMinutesUtc row .scout <;>
    cases h₂ : Window.fires today nowMinutesUtc row .notify <;>
      cases h₃ : Window.fires today nowMinutesUtc row .finalize <;>
        simp [List.filter, h₁, h₂, h₃, runJobs, Window.dispatch, bind_done]

/-- **The loop of a tick.** -/
theorem dispatchRows_eq (today nowMinutesUtc : ℤ) (rows : List ScheduleConfig) :
    dispatchRows today nowMinutesUtc rows = runJobs today (jobs today nowMinutesUtc rows) := by
  induction rows with
  | nil => rfl
  | cons row rows ih =>
    rw [dispatchRows, ih, dispatchRow_eq, ← runJobs_append]
    rfl

/-! ### What a job goes through -/

/-- The mark of a job, and the jobs after it. -/
def markThen (today : ℤ) (job : Job) (js : List Job) : SchedulerProg Unit :=
  .call (.update job.1 job.2.column today) fun _ => runJobs today js

/-- The trigger of a job, and what follows it. -/
def sendThen (today : ℤ) (trigger : SchedulerOp) (job : Job) (js : List Job) : SchedulerProg Unit :=
  .call trigger fun r =>
    match r with
    | .ok _ => markThen today job js
    | .error _ => runJobs today js

/-- A request within a `try` that is logged, and what follows the `try`. -/
theorem logged_request {i : SchedulerOp} {f : i.Answer → SchedulerProg Unit} {g : Unit → SchedulerProg Unit} :
    (logged (request i >>= f) >>= g) = .call i fun r =>
      match r with
      | .ok a => logged (f a) >>= g
      | .error _ => g () := by
  refine congrArg (Prog.call i) (funext fun r => ?_)
  cases r <;> rfl

/-- The trigger of a job with its mark, within a `try`. -/
theorem sendThen_eq (today : ℤ) (trigger : SchedulerOp) (job : Job) (js : List Job) :
    (logged (request trigger >>= fun _ => Prog.await (SchedulerOp.update job.1 job.2.column today)) >>=
      fun _ => runJobs today js) = sendThen today trigger job js := by
  rw [logged_request]
  refine congrArg (Prog.call trigger) (funext fun r => ?_)
  cases r with
  | error err => rfl
  | ok answer =>
    refine congrArg (Prog.call (SchedulerOp.update job.1 job.2.column today)) (funext fun r => ?_)
    cases r <;> rfl

/-- **A scout** asks for the profile first. -/
theorem runJobs_scout (today : ℤ) (userId : String) (js : List Job) :
    runJobs today ((userId, .scout) :: js) = .call (.getPreferenceProfile userId) fun r =>
      match r with
      | .ok profile =>
        match defaults profile with
        | some ids => sendThen today (.triggerScoutRun userId ids.1 ids.2) (userId, .scout) js
        | none => runJobs today js
      | .error _ => runJobs today js := by
  refine logged_request.trans ?_
  refine congrArg (Prog.call (SchedulerOp.getPreferenceProfile userId)) (funext fun r => ?_)
  cases r with
  | error err => rfl
  | ok profile =>
    dsimp only
    rcases defaults profile with _ | ids
    · rfl
    · exact sendThen_eq today (.triggerScoutRun userId ids.1 ids.2) (userId, .scout) js

theorem runJobs_notify (today : ℤ) (userId : String) (js : List Job) :
    runJobs today ((userId, .notify) :: js) =
      sendThen today (.triggerNotifyReminder userId) (userId, .notify) js :=
  sendThen_eq today (.triggerNotifyReminder userId) (userId, .notify) js

theorem runJobs_finalize (today : ℤ) (userId : String) (js : List Job) :
    runJobs today ((userId, .finalize) :: js) =
      sendThen today (.triggerFinalize userId) (userId, .finalize) js :=
  sendThen_eq today (.triggerFinalize userId) (userId, .finalize) js

end Gusto.Scheduler
