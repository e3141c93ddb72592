import Gusto.Workflow.Decision

/-!
# scheduler-service

The cron job that sends the triggers of a day to orchestrator-service, as a program over its calls to
the `schedule_config` table and to the services.

* `ScheduleConfigController.upsert`: the row of a user;
* `CohortScheduler.dispatchScout`, `dispatchNotifyReminder`, `dispatchFinalize`: the three triggers,
  each with the column that says on which day it last went through;
* `CohortScheduler.dispatchDueCohorts`: one tick;
* `serve`: the table, the clock, and the handlers of the workflow behind the triggers.

A row is known by its user, and its uuid is another name for it.
-/

set_option autoImplicit false

namespace Gusto.Scheduler

open Effects Workflow

/-! ### Data -/

/-- A row of `schedule_config`; the instants are milliseconds. -/
structure ScheduleConfig where
  userId : String
  scoutTime : ℤ
  notifyTime : ℤ
  executeTime : ℤ
  timezone : String := "Asia/Kolkata"
  lastDispatchedDate : Option ℤ := none
  lastNotifiedDate : Option ℤ := none
  lastFinalizedDate : Option ℤ := none
  deriving DecidableEq, Repr

/-- The columns that a tick writes. -/
inductive Column
  | lastDispatchedDate
  | lastNotifiedDate
  | lastFinalizedDate
  deriving DecidableEq, Repr

def ScheduleConfig.set (row : ScheduleConfig) (date : ℤ) : Column → ScheduleConfig
  | .lastDispatchedDate => { row with lastDispatchedDate := some date }
  | .lastNotifiedDate => { row with lastNotifiedDate := some date }
  | .lastFinalizedDate => { row with lastFinalizedDate := some date }

/-- A body of `POST /schedule-config`; a time is what `new Date` makes of it, if that is a date. -/
structure ScheduleConfigRequest where
  userId : String
  scoutTime : Option ℤ
  notifyTime : Option ℤ
  executeTime : Option ℤ
  timezone : String := "Asia/Kolkata"
  deriving DecidableEq, Repr

def getUTCHours (date : ℤ) : ℤ := date % DAY / 3600000

def getUTCMinutes (date : ℤ) : ℤ := date % 3600000 / 60000

def minutesOfDayUtc (date : ℤ) : ℤ := getUTCHours date * 60 + getUTCMinutes date

/-! ### The calls -/

inductive SchedulerOp
  | now
  | findMany (today : ℤ)
  | upsert (userId : String) (scoutTime notifyTime executeTime : ℤ) (timezone : String)
  | update (userId : String) (column : Column) (date : ℤ)
  | getPreferenceProfile (userId : String)
  | triggerScoutRun (userId addressId restaurantId : String)
  | triggerNotifyReminder (userId : String)
  | triggerFinalize (userId : String)
  deriving DecidableEq, Repr

/-- What each call answers.  Of a profile it is what `PreferenceProfileSchema` makes of it. -/
abbrev SchedulerOp.Answer : SchedulerOp → Type
  | .now => ℤ
  | .findMany _ => List ScheduleConfig
  | .upsert _ _ _ _ _ | .update _ _ _ => Unit
  | .getPreferenceProfile _ => Option PreferenceProfile
  | .triggerScoutRun _ _ _ | .triggerNotifyReminder _ | .triggerFinalize _ => Unit

/-- Programs of scheduler-service. -/
abbrev SchedulerProg (α : Type) : Type := Prog SchedulerOp SchedulerOp.Answer Err α

/-- A request of a client that maps what the upstream throws. -/
def request (i : SchedulerOp) : SchedulerProg i.Answer := do
  match ← (Prog.await i : SchedulerProg i.Answer).attempt with
  | .ok answer => pure answer
  | .error err => throw (mapUpstreamError err)

/-- A `try` whose failure is logged. -/
def logged (p : SchedulerProg Unit) : SchedulerProg Unit := do
  let _ ← p.attempt

/-! ### `ScheduleConfigController` -/

/-- `ScheduleConfigRequestSchema` is the pattern and the two checks. -/
def ScheduleConfigController.upsert (body : ScheduleConfigRequest) : SchedulerProg Unit :=
  match body with
  | { userId, scoutTime := some scoutTime, notifyTime := some notifyTime,
      executeTime := some executeTime, timezone } =>
    if userId = "" ∨ timezone = "" then throw (.http 400 "Bad Request Exception")
    else Prog.await (SchedulerOp.upsert userId scoutTime notifyTime executeTime timezone)
  | _ => throw (.http 400 "Bad Request Exception")

/-! ### `CohortScheduler` -/

namespace CohortScheduler

/-- The default address and restaurant of a profile, where neither is missing or empty. -/
def defaults (profile : Option PreferenceProfile) : Option (String × String) := do
  let profile ← profile
  let addressId ← profile.defaultAddressId.filter (· ≠ "")
  let restaurantId ← profile.defaultRestaurantId.filter (· ≠ "")
  return (addressId, restaurantId)

def dispatchScout (userId : String) (today : ℤ) : SchedulerProg Unit :=
  logged do
    let profile ← request (.getPreferenceProfile userId)
    -- without an address or a restaurant nothing is sent, and nothing is marked
    let some (addressId, restaurantId) := defaults profile | return
    let _ ← request (.triggerScoutRun userId addressId restaurantId)
    Prog.await (SchedulerOp.update userId .lastDispatchedDate today)

/-- A trigger that needs nothing else, and the column of its day. -/
def dispatch (trigger : SchedulerOp) (userId : String) (column : Column) (today : ℤ) :
    SchedulerProg Unit :=
  logged do
    let _ ← request trigger
    Prog.await (SchedulerOp.update userId column today)

def dispatchNotifyReminder (userId : String) (today : ℤ) : SchedulerProg Unit :=
  dispatch (.triggerNotifyReminder userId) userId .lastNotifiedDate today

def dispatchFinalize (userId : String) (today : ℤ) : SchedulerProg Unit :=
  dispatch (.triggerFinalize userId) userId .lastFinalizedDate today

/-- A trigger that has already gone through on the day. -/
def already (last : Option ℤ) (today : ℤ) : Bool := last.any (· ≥ today)

/-- The body of the loop of `dispatchDueCohorts`. -/
def dispatchRow (today nowMinutesUtc : ℤ) (row : ScheduleConfig) : SchedulerProg Unit := do
  if !already row.lastDispatchedDate today && nowMinutesUtc ≥ minutesOfDayUtc row.scoutTime then
    dispatchScout row.userId today
  if !already row.lastNotifiedDate today && nowMinutesUtc ≥ minutesOfDayUtc row.notifyTime then
    dispatchNotifyReminder row.userId today
  if !already row.lastFinalizedDate today && nowMinutesUtc ≥ minutesOfDayUtc row.executeTime then
    dispatchFinalize row.userId today

/-- The loop of `dispatchDueCohorts`. -/
def dispatchRows (today nowMinutesUtc : ℤ) : List ScheduleConfig → SchedulerProg Unit
  | [] => return
  | row :: rows => do
    dispatchRow today nowMinutesUtc row
    dispatchRows today nowMinutesUtc rows

def dispatchDueCohorts : SchedulerProg Unit := do
  let now ← Prog.await SchedulerOp.now
  let dueRows ← Prog.await (SchedulerOp.findMany (startOfUtcDay now))
  dispatchRows (startOfUtcDay now) (minutesOfDayUtc now) dueRows

end CohortScheduler

/-- What runs in the service. -/
inductive SchedulerCall
  | tick
  | upsert (body : ScheduleConfigRequest)
  deriving DecidableEq, Repr

def SchedulerCall.prog : SchedulerCall → SchedulerProg Unit
  | .tick => CohortScheduler.dispatchDueCohorts
  | .upsert body => ScheduleConfigController.upsert body

/-! ### The table, the clock and the workflow -/

structure World where
  clock : ℤ
  configs : List ScheduleConfig
  workflows : WorkflowStates

/-- What the environment chooses for a call: the instant at which it is served, whether it fails without
effect, what the orchestrator meets where it is triggered, and whether its reply is lost. -/
structure SchedulerChoice where
  instant : ℤ
  error : Option Err := none
  profile : Option PreferenceProfile := none
  env : Env := fun _ => {}
  lost : Option Err := none

/-- `where: { OR: [...] }` of the tick: a column is null or of an earlier day. -/
def due (today : ℤ) (row : ScheduleConfig) : Bool :=
  row.lastDispatchedDate.all (· < today) || row.lastNotifiedDate.all (· < today) ||
    row.lastFinalizedDate.all (· < today)

/-- The times of the row that is there, or a new row. -/
def upsertRow (userId : String) (scoutTime notifyTime executeTime : ℤ) (timezone : String)
    (configs : List ScheduleConfig) : List ScheduleConfig :=
  if configs.any (·.userId = userId) then
    configs.map fun row =>
      if row.userId = userId then { row with scoutTime, notifyTime, executeTime, timezone } else row
  else configs ++ [{ userId := userId, scoutTime, notifyTime, executeTime, timezone }]

/-- A handler of the workflow, run to its end; its reply may be lost. -/
def trigger (c : SchedulerChoice) (userId : String) (call : WorkflowCall) (w : World) :
    Except Err Unit × World :=
  let outcome := call.outcome userId w.clock c.env w.workflows
  (match c.lost, outcome.1 with
    | some err, _ => .error err
    | none, .error err => .error err.overHttp
    | none, .ok _ => .ok (), { w with workflows := outcome.2 })

/-- What a call does that does not fail by itself. -/
def serve (c : SchedulerChoice) : (i : SchedulerOp) → World → Except Err i.Answer × World
  | .now, w => (.ok w.clock, w)
  | .findMany today, w => (.ok (w.configs.filter (due today)), w)
  | .upsert userId scoutTime notifyTime executeTime timezone, w =>
    (.ok (), { w with
      configs := upsertRow userId scoutTime notifyTime executeTime timezone w.configs })
  | .update userId column date, w =>
    (.ok (), { w with configs := w.configs.map fun row =>
      if row.userId = userId then row.set date column else row })
  | .getPreferenceProfile _, w => (.ok c.profile, w)
  | .triggerScoutRun userId addressId restaurantId, w =>
    trigger c userId (.runScoutPhase addressId restaurantId) w
  | .triggerNotifyReminder userId, w => trigger c userId .sendReminderIfPending w
  | .triggerFinalize userId, w => trigger c userId .finalizeIfPending w

/-- The clock does not go back. -/
def World.advance (w : World) (instant : ℤ) : World := { w with clock := max w.clock instant }

/-- A call is served or fails without effect, at an instant that is not before the last one; the clock
does not fail. -/
def exec : Handler SchedulerOp SchedulerOp.Answer Err World SchedulerChoice :=
  fun c i w =>
    match c.error with
    | some err =>
      if i = .now then serve c i (w.advance c.instant) else (.error err, w.advance c.instant)
    | none => serve c i (w.advance c.instant)

end Gusto.Scheduler
