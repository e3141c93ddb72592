import Gusto.Lib.Pool
import Gusto.Scheduler.Triggers

/-!
# Ticks that overlap

The cron job is started every five minutes, also when the last run has not ended, and each run works from
the rows that it has fetched.

* `Apart`: no run fetches a window that is due while another run has still to mark it;
* `Stands`: where a run stands, with the jobs that it has still to send and those it has still to mark;
* `firedOnce_of_apart`: in a run whose fetches are apart each trigger is called at most once;
* `not_firedOnce`: two runs that fetch the same row.
-/

set_option autoImplicit false

namespace Gusto.Scheduler

open Effects Workflow CohortScheduler

abbrev CronPool : Type := Pool Unit SchedulerOp SchedulerOp.Answer Err Unit Table
abbrev CronNote : Type := Note Unit Table SchedulerOp TickChoice

/-- `n` runs of the cron job, none of which has begun. -/
def crons (n : ℕ) (t : Table) : CronPool := Pool.start (fun _ => dispatchDueCohorts) (List.replicate n ()) t

/-! ### What is asked -/

/-- Each trigger has been called at most once. -/
def FiredOnce (os : List CronNote) : Prop :=
  ∀ job : Job, (os.filter fun o => job.2.triggers job.1 o.event.call).length ≤ 1

/-- The calls succeed, and the runs begin on the day `today`. -/
def SameDay (today : ℤ) (P : CronPool) (l : ℕ × TickChoice) : Prop :=
  l.2.error = none ∧ ((P.threads[l.1]?.bind fun th => th.prog.head) = some .now →
    startOfUtcDay (P.state.advance l.2.instant).clock = today)

/-! ### The condition -/

/-- The run may come to mark the job. -/
def MayMark (today : ℤ) (job : Job) (p : SchedulerProg Unit) : Prop :=
  ¬ p.Always fun q => q.head ≠ some (.update job.1 job.2.column today)

/-- The step is no fetch, or none of what it finds due may still be marked by another run that has fetched
its rows. -/
def Apart (today : ℤ) (os : List CronNote) (P : CronPool) (l : ℕ × TickChoice) : Prop :=
  ∀ k, P.threads[l.1]? = some ⟨(), .call (.findMany today) k⟩ →
    ∀ tid th, tid ≠ l.1 → P.threads[tid]? = some th →
      (∃ o ∈ os, o.tid = tid ∧ o.event.call = .findMany today) →
      ∀ job, ¬ (MayMark today job th.prog ∧
        MayMark today job (k (answer l.2 (.findMany today) P.state).1))

/-! ### Where a run stands -/

/-- A run that has read the clock. -/
def afterNow (now : ℤ) : SchedulerProg Unit :=
  .call (.findMany (startOfUtcDay now)) fun r =>
    match r with
    | .ok dueRows => runJobs (startOfUtcDay now) (jobs (startOfUtcDay now) (minutesOfDayUtc now) dueRows)
    | .error err => .throw err

theorem dispatchDueCohorts_eq : dispatchDueCohorts = .call .now fun r =>
    match r with
    | .ok now => afterNow now
    | .error err => .throw err := by
  refine congrArg (Prog.call SchedulerOp.now) (funext fun r => ?_)
  cases r with
  | error err => rfl
  | ok now =>
    refine congrArg (Prog.call (SchedulerOp.findMany (startOfUtcDay now))) (funext fun r => ?_)
    cases r with
    | error err => rfl
    | ok dueRows => exact dispatchRows_eq _ _ _

/-- A run that has not fetched its rows. -/
inductive Unfetched (today : ℤ) : SchedulerProg Unit → Prop
  | start : Unfetched today dispatchDueCohorts
  | afterNow {now : ℤ} (day : startOfUtcDay now = today) : Unfetched today (afterNow now)

/-- A run that has fetched its rows: the jobs whose trigger it has still to send, and those that it has
still to mark. -/
inductive Stands (today : ℤ) : SchedulerProg Unit → List Job → List Job → Prop
  | jobs {js : List Job} : Stands today (runJobs today js) js js
  | send {i : SchedulerOp} {job : Job} {js : List Job} (trigger : job.2.triggers job.1 i = true) :
      Stands today (sendThen today i job js) (job :: js) (job :: js)
  | mark {job : Job} {js : List Job} : Stands today (markThen today job js) js (job :: js)

section Stands

variable {today : ℤ} {job : Job} {js : List Job} {p : SchedulerProg Unit}

theorem mayMark_call {i : SchedulerOp} {k : Except Err i.Answer → SchedulerProg Unit} (r : Except Err i.Answer)
    (h : MayMark today job (k r)) : MayMark today job (.call i k) :=
  fun hall => h (hall.2 r)

theorem mayMark_markThen : MayMark today job (markThen today job js) := fun hall => hall.1 rfl

theorem mayMark_sendThen {i : SchedulerOp} (h : job.2.triggers job.1 i = true) :
    MayMark today job (sendThen today i job js) := by
  have hanswer : Nonempty i.Answer := by
    obtain ⟨userId, w⟩ := job
    cases i <;> first | exact ⟨()⟩ | (cases w <;> cases h)
  exact hanswer.elim fun a => mayMark_call (.ok a) mayMark_markThen

theorem mayMark_runJobs (h : job ∈ js) : MayMark today job (runJobs today js) := by
  induction js with
  | nil => cases h
  | cons j js ih =>
    obtain ⟨userId, w⟩ := j
    rcases List.mem_cons.mp h with rfl | htail
    · cases w with
      | notify =>
        rw [runJobs_notify]
        exact mayMark_sendThen (by simp [Window.triggers])
      | finalize =>
        rw [runJobs_finalize]
        exact mayMark_sendThen (by simp [Window.triggers])
      | scout =>
        rw [runJobs_scout]
        exact mayMark_call (.ok (some homeProfile)) (mayMark_sendThen (by simp [Window.triggers]))
    · cases w with
      | notify =>
        rw [runJobs_notify]
        exact mayMark_call (.error (.error "")) (ih htail)
      | finalize =>
        rw [runJobs_finalize]
        exact mayMark_call (.error (.error "")) (ih htail)
      | scout =>
        rw [runJobs_scout]
        exact mayMark_call (.error (.error "")) (ih htail)

/-- What a run has still to mark, it may mark. -/
theorem Stands.mayMark {send mark : List Job} (h : Stands today p send mark) (hjob : job ∈ mark) :
    MayMark today job p := by
  cases h with
  | jobs => exact mayMark_runJobs hjob
  | @send i j js trigger =>
    rcases List.mem_cons.mp hjob with rfl | hjob
    · exact mayMark_sendThen trigger
    · exact mayMark_call (.error (.error "")) (mayMark_runJobs hjob)
  | @mark j js =>
    rcases List.mem_cons.mp hjob with rfl | hjob
    · exact mayMark_markThen
    · exact mayMark_call (.error (.error "")) (mayMark_runJobs hjob)

end Stands

/-! ### The invariant -/

/-- Every row of the user is marked for the window. -/
def MarkedOn (today : ℤ) (t : Table) (job : Job) : Prop :=
  ∀ row ∈ t.configs, row.userId = job.1 → already (job.2.mark row) today = true

/-- Where each run stands.  A job is with one run at most until it is marked, and its trigger has been
called only if that run has it still to mark, or it is marked. -/
structure Shared (today : ℤ) (os : List CronNote) (P : CronPool) (send mark : ℕ → List Job) : Prop where
  users : (P.state.configs.map (·.userId)).Nodup
  stands : ∀ tid th, P.threads[tid]? = some th → Unfetched today th.prog ∧ mark tid = [] ∨
    Stands today th.prog (send tid) (mark tid) ∧ ∃ o ∈ os, o.tid = tid ∧ o.event.call = .findMany today
  idle : ∀ tid, P.threads[tid]? = none → mark tid = []
  sub : ∀ tid, send tid ⊆ mark tid
  nodup : ∀ tid, (mark tid).Nodup
  apart : ∀ tid tid', tid ≠ tid' → ∀ job ∈ mark tid, job ∉ mark tid'
  sent : ∀ job : Job, ∀ o ∈ os, job.2.triggers job.1 o.event.call = true →
    MarkedOn today P.state job ∨ ∃ tid, job ∈ mark tid ∧ job ∉ send tid
  unsent : ∀ tid, ∀ job ∈ send tid, ∀ o ∈ os, job.2.triggers job.1 o.event.call = false
  once : FiredOnce os

section Step

variable {today : ℤ} {os : List CronNote} {P : CronPool} {send mark : ℕ → List Job}

/-- What holds of the run that has moved, and of the others as they stood, holds of every run. -/
theorem forall_moved {tid : ℕ} {send' mark' : List Job} {p : ℕ → List Job → List Job → Prop}
    (hself : p tid send' mark') (hother : ∀ tid', tid' ≠ tid → p tid' (send tid') (mark tid')) (tid' : ℕ) :
    p tid' (Function.update send tid send' tid') (Function.update mark tid mark' tid') := by
  by_cases hne : tid' = tid
  · subst hne
    rw [Function.update_self, Function.update_self]
    exact hself
  · rw [Function.update_of_ne hne, Function.update_of_ne hne]
    exact hother tid' hne

/-- A trigger that no call has been yet is called once. -/
theorem FiredOnce.concat {o : CronNote} (h : FiredOnce os)
    (hnew : ∀ job : Job, job.2.triggers job.1 o.event.call = true →
      ∀ o' ∈ os, job.2.triggers job.1 o'.event.call = false) : FiredOnce (os ++ [o]) := by
  intro job
  rw [List.filter_append, List.length_append]
  cases htrigger : job.2.triggers job.1 o.event.call with
  | false => simpa [htrigger] using h job
  | true =>
    have hnone : (os.filter fun o => job.2.triggers job.1 o.event.call) = [] :=
      List.filter_eq_nil_iff.mpr fun o' ho' => by simp [hnew job htrigger o' ho']
    simp [hnone, htrigger]

/-- One run moves, and the others stand where they stood. -/
theorem Shared.move (h : Shared today os P send mark) {tid : ℕ} {old : Thread Unit SchedulerOp SchedulerOp.Answer Err Unit}
    (hget : P.threads[tid]? = some old) {p : SchedulerProg Unit} {t : Table} {o : CronNote} {send' mark' : List Job}
    (husers : (t.configs.map (·.userId)).Nodup)
    (hstands : Unfetched today p ∧ mark' = [] ∨ Stands today p send' mark' ∧
      ∃ o' ∈ os ++ [o], o'.tid = tid ∧ o'.event.call = .findMany today)
    (hsub : send' ⊆ mark') (hnodup : mark'.Nodup)
    (hapart : ∀ tid', tid' ≠ tid → ∀ job ∈ mark', job ∉ mark tid')
    (hmarked : ∀ job, MarkedOn today P.state job → MarkedOn today t job)
    (hpending : ∀ job ∈ mark tid, job ∉ send tid → job ∈ mark' ∧ job ∉ send' ∨ MarkedOn today t job)
    (hsent : ∀ job : Job, job.2.triggers job.1 o.event.call = true →
      job ∈ send tid ∧ job ∈ mark' ∧ job ∉ send')
    (hunsent : ∀ job ∈ send', ∀ o' ∈ os, job.2.triggers job.1 o'.event.call = false) :
    Shared today (os ++ [o]) ⟨P.threads.set tid ⟨(), p⟩, t⟩ (Function.update send tid send')
      (Function.update mark tid mark') where
  users := husers
  stands := by
    refine forall_moved (p := fun tid' s m => ∀ th, (P.threads.set tid ⟨(), p⟩)[tid']? = some th →
      Unfetched today th.prog ∧ m = [] ∨ Stands today th.prog s m ∧
        ∃ o' ∈ os ++ [o], o'.tid = tid' ∧ o'.event.call = .findMany today)
      (fun th hth => ?_) fun tid' hne th hth => ?_
    · rw [List.getElem?_set_self (List.getElem?_eq_some_iff.mp hget).1] at hth
      cases hth
      exact hstands
    · rw [List.getElem?_set_ne (Ne.symm hne)] at hth
      rcases h.stands tid' th hth with hold | ⟨hold, o', ho', hfetch⟩
      · exact .inl hold
      · exact .inr ⟨hold, o', List.mem_append_left _ ho', hfetch⟩
  idle := by
    refine (Function.forall_update_iff mark fun tid' m => (P.threads.set tid ⟨(), p⟩)[tid']? = none →
      m = []).mpr ⟨fun hth => ?_, fun tid' hne hth => ?_⟩
    · rw [List.getElem?_set_self (List.getElem?_eq_some_iff.mp hget).1] at hth
      cases hth
    · rw [List.getElem?_set_ne (Ne.symm hne)] at hth
      exact h.idle tid' hth
  sub := forall_moved (p := fun _ s m => s ⊆ m) hsub fun tid' _ => h.sub tid'
  nodup := (Function.forall_update_iff mark fun _ m => m.Nodup).mpr ⟨hnodup, fun tid' _ => h.nodup tid'⟩
  apart tid₁ tid₂ hne job := by
    refine (Function.forall_update_iff mark fun tid₁ m₁ => tid₁ ≠ tid₂ → job ∈ m₁ →
      job ∉ Function.update mark tid mark' tid₂).mpr ⟨fun hne hjob => ?_, fun tid₁ h₁ hne hjob => ?_⟩ tid₁ hne
    · rw [Function.update_of_ne (Ne.symm hne)]
      exact hapart tid₂ (Ne.symm hne) job hjob
    · exact (Function.forall_update_iff mark fun tid₂ m₂ => tid₁ ≠ tid₂ → job ∉ m₂).mpr
        ⟨fun _ hmine => hapart tid₁ h₁ job hmine hjob, fun tid₂ _ hne => h.apart tid₁ tid₂ hne job hjob⟩ tid₂ hne
  sent job o' ho' htrigger := by
    have hmoved : job ∈ mark' ∧ job ∉ send' → MarkedOn today t job ∨ ∃ tid',
        job ∈ Function.update mark tid mark' tid' ∧ job ∉ Function.update send tid send' tid' := fun hpend =>
      .inr ⟨tid, by simpa using hpend⟩
    rcases List.mem_append.mp ho' with ho' | ho'
    · rcases h.sent job o' ho' htrigger with hdone | ⟨tid', hpend, hnot⟩
      · exact .inl (hmarked job hdone)
      · by_cases hne : tid' = tid
        · subst hne
          exact (hpending job hpend hnot).elim hmoved .inl
        · exact .inr ⟨tid', by simpa [Function.update_of_ne hne] using ⟨hpend, hnot⟩⟩
    · rw [List.mem_singleton.mp ho'] at htrigger
      exact hmoved (hsent job htrigger).2
  unsent tid' job hjob o' ho' := by
    rcases List.mem_append.mp ho' with ho' | ho'
    · exact (Function.forall_update_iff send fun _ s => job ∈ s → job.2.triggers job.1 o'.event.call = false).mpr
        ⟨fun hjob => hunsent job hjob o' ho', fun tid' _ hjob => h.unsent tid' job hjob o' ho'⟩ tid' hjob
    · rw [List.mem_singleton.mp ho']
      refine Bool.eq_false_iff.mpr fun htrigger => ?_
      obtain ⟨hmine, -, hgone⟩ := hsent job htrigger
      exact (Function.forall_update_iff send fun _ s => job ∉ s).mpr ⟨hgone, fun tid' hne hjob =>
        h.apart tid' tid hne job (h.sub tid' hjob) (h.sub tid hmine)⟩ tid' hjob
  once := h.once.concat fun job htrigger o' ho' => h.unsent tid job (hsent job htrigger).1 o' ho'

variable {l : ℕ × TickChoice} {job : Job} {js : List Job}

theorem answer_ok (herror : l.2.error = none) (i : SchedulerOp) (t : Table) :
    answer l.2 i t = (.ok (Table.serve l.2.profile i (t.advance l.2.instant)).1,
      (Table.serve l.2.profile i (t.advance l.2.instant)).2) := by
  simp [answer, herror]

/-- A call that changes no row. -/
theorem Shared.quiet (h : Shared today os P send mark) {i : SchedulerOp}
    (hmark : ∀ u column date, i ≠ .update u column date) (hupsert : ∀ u s n x z, i ≠ .upsert u s n x z) :
    ((answer l.2 i P.state).2.configs.map (·.userId)).Nodup ∧
      ∀ job, MarkedOn today P.state job → MarkedOn today (answer l.2 i P.state).2 job := by
  unfold MarkedOn
  rw [configs_answer hmark hupsert]
  exact ⟨h.users, fun _ hmarked => hmarked⟩

/-- **The trigger** of a job. -/
theorem Shared.stepSend (h : Shared today os P send mark) {i : SchedulerOp}
    (hget : P.threads[l.1]? = some ⟨(), sendThen today i job js⟩)
    (hi : job.2.triggers job.1 i = true) (hsend : send l.1 = job :: js) (hmark : mark l.1 = job :: js)
    (hfetched : ∃ o ∈ os, o.tid = l.1 ∧ o.event.call = .findMany today) :
    ∃ send' mark', Shared today (os ++ [⟨l.1, (), ⟨P.state, i, l.2⟩⟩])
      ⟨P.threads.set l.1 ⟨(), markThen today job js⟩, (answer l.2 i P.state).2⟩ send' mark' := by
  have hnotmark : ∀ u column date, i ≠ .update u column date := by
    rintro u column date rfl
    obtain ⟨userId, w⟩ := job
    cases w <;> cases hi
  have hnotupsert : ∀ u s n x z, i ≠ .upsert u s n x z := by
    rintro u s n x z rfl
    obtain ⟨userId, w⟩ := job
    cases w <;> cases hi
  have hnodup := hmark ▸ h.nodup l.1
  obtain ⟨hnot, -⟩ := List.nodup_cons.mp hnodup
  obtain ⟨husers, hmarked⟩ := h.quiet (l := l) hnotmark hnotupsert
  obtain ⟨o, ho, hfetch⟩ := hfetched
  refine ⟨_, _, h.move hget husers (.inr ⟨.mark, o, List.mem_append_left _ ho, hfetch⟩)
    (List.subset_cons_self _ _) hnodup (fun tid' hne j hj => ?_) hmarked (fun j hj hgone => ?_)
    (fun j hj => ?_) fun j hj => ?_⟩
  · exact h.apart l.1 tid' (Ne.symm hne) j (hmark ▸ hj)
  · rw [hmark] at hj
    rw [hsend] at hgone
    exact absurd hj hgone
  · rw [← owns_inj (owns_of_triggers hi) (owns_of_triggers hj), hsend]
    exact ⟨List.mem_cons_self, List.mem_cons_self, hnot⟩
  · exact h.unsent l.1 j (hsend ▸ List.mem_cons_of_mem _ hj)

/-- **The mark** of a job. -/
theorem Shared.stepMark (h : Shared today os P send mark) (herror : l.2.error = none)
    (hget : P.threads[l.1]? = some ⟨(), markThen today job js⟩) (hsend : send l.1 = js)
    (hmark : mark l.1 = job :: js) (hfetched : ∃ o ∈ os, o.tid = l.1 ∧ o.event.call = .findMany today) :
    ∃ send' mark', Shared today (os ++ [⟨l.1, (), ⟨P.state, .update job.1 job.2.column today, l.2⟩⟩])
      ⟨P.threads.set l.1 ⟨(), runJobs today js⟩, (answer l.2 (.update job.1 job.2.column today) P.state).2⟩
      send' mark' := by
  have hconfigs : (answer l.2 (.update job.1 job.2.column today) P.state).2.configs =
      markConfigs job.1 job.2.column today P.state.configs := by
    rw [answer_ok herror]
    rfl
  have hmoved : ∀ row : ScheduleConfig, (if row.userId = job.1 then row.set today job.2.column else row).userId =
      row.userId := by
    intro row
    split
    · exact userId_set
    · rfl
  have hnodup := hmark ▸ h.nodup l.1
  obtain ⟨-, hnodup'⟩ := List.nodup_cons.mp hnodup
  obtain ⟨o, ho, hfetch⟩ := hfetched
  have hset : ∀ j, MarkedOn today P.state j ∨ j = job →
      MarkedOn today (answer l.2 (.update job.1 job.2.column today) P.state).2 j := by
    intro j hj row' hrow' huser
    rw [hconfigs] at hrow'
    obtain ⟨row, hrow, rfl⟩ := List.mem_map.mp hrow'
    rw [hmoved] at huser
    split
    · rename_i hrowUser
      rw [mark_set]
      split
      · simp [already]
      · rename_i hwindow
        exact (hj.resolve_right fun h => hwindow (congrArg Prod.snd h)) row hrow huser
    · rename_i hrowUser
      exact (hj.resolve_right fun h => hrowUser (huser.trans (congrArg Prod.fst h))) row hrow huser
  refine ⟨_, _, h.move hget ?_ (.inr ⟨.jobs, o, List.mem_append_left _ ho, hfetch⟩)
    (List.Subset.refl _) hnodup' (fun tid' hne j hj => ?_) (fun j hj => hset j (.inl hj)) (fun j hj hgone => ?_)
    (fun j hj => ?_) fun j hj => ?_⟩
  · have hsame : (markConfigs job.1 job.2.column today P.state.configs).map (·.userId) =
        P.state.configs.map (·.userId) := by
      rw [markConfigs, List.map_map]
      exact List.map_congr_left fun row _ => hmoved row
    rw [hconfigs, hsame]
    exact h.users
  · exact h.apart l.1 tid' (Ne.symm hne) j (hmark ▸ List.mem_cons_of_mem _ hj)
  · rw [hmark] at hj
    rw [hsend] at hgone
    exact .inr (hset j (.inr ((List.mem_cons.mp hj).resolve_right hgone)))
  · obtain ⟨userId, w⟩ := j
    cases w <;> cases hj
  · exact h.unsent l.1 j (hsend ▸ hj)

/-- **The lookup** of a profile: the scout is sent, or it is skipped. -/
theorem Shared.stepLookup (h : Shared today os P send mark) {userId : String}
    (hget : P.threads[l.1]? = some ⟨(), runJobs today ((userId, .scout) :: js)⟩)
    (hsend : send l.1 = (userId, .scout) :: js) (hmark : mark l.1 = (userId, .scout) :: js)
    (hfetched : ∃ o ∈ os, o.tid = l.1 ∧ o.event.call = .findMany today) :
    ∃ send' mark', Shared today (os ++ [⟨l.1, (), ⟨P.state, .getPreferenceProfile userId, l.2⟩⟩])
      ⟨P.threads.set l.1 ⟨(), match defaults l.2.profile with
        | some ids => sendThen today (.triggerScoutRun userId ids.1 ids.2) (userId, .scout) js
        | none => runJobs today js⟩, (answer l.2 (.getPreferenceProfile userId) P.state).2⟩ send' mark' := by
  have hnodup := hmark ▸ h.nodup l.1
  obtain ⟨husers, hmarked⟩ := h.quiet (l := l) (i := .getPreferenceProfile userId) (by simp) (by simp)
  obtain ⟨o, ho, hfetch⟩ := hfetched
  have hfetched' : ∃ o' ∈ os ++ [⟨l.1, (), ⟨P.state, .getPreferenceProfile userId, l.2⟩⟩],
      o'.tid = l.1 ∧ o'.event.call = .findMany today := ⟨o, List.mem_append_left _ ho, hfetch⟩
  have hnone : ∀ job : Job, job.2.triggers job.1 (.getPreferenceProfile userId) = true → False := by
    rintro ⟨userId', w⟩ hj
    cases w <;> cases hj
  have hpending : ∀ {send' mark' : List Job}, ∀ job ∈ mark l.1, job ∉ send l.1 → job ∈ mark' ∧ job ∉ send' ∨
      MarkedOn today (answer l.2 (.getPreferenceProfile userId) P.state).2 job := by
    intro send' mark' job hj hgone
    rw [hmark] at hj
    rw [hsend] at hgone
    exact absurd hj hgone
  cases hids : defaults l.2.profile with
  | some ids =>
    refine ⟨_, _, h.move hget husers (.inr ⟨.send (by simp [Window.triggers]), hfetched'⟩)
      (List.Subset.refl _) hnodup (fun tid' hne j hj => ?_) hmarked hpending
      (fun j hj => (hnone j hj).elim) fun j hj => ?_⟩
    · exact h.apart l.1 tid' (Ne.symm hne) j (hmark ▸ hj)
    · exact h.unsent l.1 j (hsend ▸ hj)
  | none =>
    refine ⟨_, _, h.move hget husers (.inr ⟨.jobs, hfetched'⟩) (List.Subset.refl _)
      (List.nodup_cons.mp hnodup).2 (fun tid' hne j hj => ?_) hmarked hpending
      (fun j hj => (hnone j hj).elim) fun j hj => ?_⟩
    · exact h.apart l.1 tid' (Ne.symm hne) j (hmark ▸ List.mem_cons_of_mem _ hj)
    · exact h.unsent l.1 j (hsend ▸ List.mem_cons_of_mem _ hj)

/-- **The fetch** of a run. -/
theorem Shared.stepFetch (h : Shared today os P send mark) (herror : l.2.error = none)
    (happart : Apart today os P l) {now : ℤ} (hday : startOfUtcDay now = today)
    (hget : P.threads[l.1]? = some ⟨(), afterNow now⟩) (hmark : mark l.1 = []) :
    ∃ send' mark', Shared today (os ++ [⟨l.1, (), ⟨P.state, .findMany today, l.2⟩⟩])
      ⟨P.threads.set l.1 ⟨(), runJobs today (jobs today (minutesOfDayUtc now) (P.state.configs.filter (due today)))⟩,
        (answer l.2 (.findMany today) P.state).2⟩ send' mark' := by
  subst hday
  -- what another run has still to mark is not fetched
  have hfree : ∀ tid, tid ≠ l.1 → ∀ job ∈ jobs (startOfUtcDay now) (minutesOfDayUtc now)
      (P.state.configs.filter (due (startOfUtcDay now))), job ∉ mark tid := by
    intro tid hne job hjob hother
    cases hth : P.threads[tid]? with
    | none =>
      rw [h.idle tid hth] at hother
      cases hother
    | some th =>
      rcases h.stands tid th hth with ⟨-, hnone⟩ | ⟨hstands, hfetched⟩
      · rw [hnone] at hother
        cases hother
      · refine happart _ hget tid th hne hth hfetched job ⟨hstands.mayMark hother, ?_⟩
        rw [answer_ok herror]
        exact mayMark_runJobs hjob
  obtain ⟨husers, hmarked⟩ := h.quiet (l := l) (i := .findMany (startOfUtcDay now)) (by simp) (by simp)
  refine ⟨_, _, h.move hget husers (.inr ⟨.jobs, _, List.mem_append_right _ (List.mem_singleton.mpr rfl), rfl, rfl⟩)
    (List.Subset.refl _) (nodup_jobs (h.users.sublist (List.Sublist.map _ List.filter_sublist)))
    hfree hmarked (fun j hj => ?_) (fun j hj => ?_) fun j hj o ho => ?_⟩
  · rw [hmark] at hj
    cases hj
  · obtain ⟨userId, w⟩ := j
    cases w <;> cases hj
  · refine Bool.eq_false_iff.mpr fun htrigger => ?_
    rcases h.sent j o ho htrigger with hdone | ⟨tid, hpend, -⟩
    · obtain ⟨row, hrow, hrowJob⟩ := List.mem_flatMap.mp hj
      obtain ⟨huser, hfires⟩ := mem_rowJobs.mp hrowJob
      have halready := hdone row (List.mem_of_mem_filter hrow) huser.symm
      unfold Window.fires at hfires
      simp [halready] at hfires
    · by_cases hne : tid = l.1
      · rw [hne, hmark] at hpend
        cases hpend
      · exact hfree tid hne j hj hpend

/-- **One step.** -/
theorem Shared.step (h : Shared today os P send mark) (hday : SameDay today P l) (happart : Apart today os P l)
    {P' : CronPool} {o : CronNote} (hs : P.step answer l = some (P', o)) :
    ∃ send' mark', Shared today (os ++ [o]) P' send' mark' := by
  obtain ⟨herror, hstart⟩ := hday
  obtain ⟨tag, i, k, rest, hget, -, hset, -, hstate, rfl⟩ := Pool.step_cases hs
  obtain ⟨threads, state⟩ := P'
  dsimp only at hset hstate
  subst hset hstate
  rcases h.stands l.1 _ hget with ⟨hunfetched, hmark⟩ | ⟨hstands, hfetched⟩
  · generalize hp : (⟨tag, .call i k⟩ : Thread Unit SchedulerOp SchedulerOp.Answer Err Unit).prog = p at hunfetched
    cases hunfetched with
    | start =>
      rw [dispatchDueCohorts_eq] at hp
      cases hp
      obtain ⟨husers, hmarked⟩ := h.quiet (l := l) (i := .now) (by simp) (by simp)
      have hnew := @Shared.move today os P send mark h l.1 _ hget _ _ ⟨l.1, (), ⟨P.state, .now, l.2⟩⟩ [] [] husers
        (.inl ⟨.afterNow (hstart (by rw [hget]; rfl)), rfl⟩) (List.Subset.refl _) List.nodup_nil nofun hmarked
      rw [answer_now] at hnew ⊢
      refine ⟨_, _, hnew (fun j hj => ?_) (fun j hj => ?_) nofun⟩
      · rw [hmark] at hj
        cases hj
      · obtain ⟨userId, w⟩ := j
        cases w <;> cases hj
    | @afterNow now hsame =>
      unfold afterNow at hp
      cases hp
      have hnew := h.stepFetch herror happart hsame hget hmark
      subst hsame
      rw [answer_ok herror] at hnew ⊢
      exact hnew
  · have hsendStep : ∀ {i' : SchedulerOp} {job : Job} {js : List Job}, Prog.call i k = sendThen today i' job js →
        job.2.triggers job.1 i' = true → send l.1 = job :: js → mark l.1 = job :: js →
        ∃ send' mark', Shared today (os ++ [⟨l.1, tag, ⟨P.state, i, l.2⟩⟩])
          ⟨P.threads.set l.1 ⟨tag, k (answer l.2 i P.state).1⟩, (answer l.2 i P.state).2⟩ send' mark' := by
      intro i' job js hp hi hsend hmark
      have hnew := h.stepSend (hp ▸ hget) hi hsend hmark hfetched
      unfold sendThen at hp
      cases hp
      rw [answer_ok herror] at hnew ⊢
      exact hnew
    generalize hp : (⟨tag, .call i k⟩ : Thread Unit SchedulerOp SchedulerOp.Answer Err Unit).prog = p at hstands
    generalize hsend : send l.1 = sends at hstands
    generalize hmark : mark l.1 = marks at hstands
    dsimp only at hp
    cases hstands with
    | jobs =>
      cases sends with
      | nil => cases hp
      | cons job js =>
        obtain ⟨userId, w⟩ := job
        cases w with
        | notify => exact hsendStep (hp.trans (runJobs_notify ..)) (by simp [Window.triggers]) hsend hmark
        | finalize => exact hsendStep (hp.trans (runJobs_finalize ..)) (by simp [Window.triggers]) hsend hmark
        | scout =>
          have hnew := h.stepLookup (hp ▸ hget) hsend hmark hfetched
          rw [runJobs_scout] at hp
          cases hp
          rw [answer_ok herror] at hnew ⊢
          exact hnew
    | @send i' job js trigger => exact hsendStep hp trigger hsend hmark
    | @mark job js =>
      have hnew := h.stepMark herror (hp ▸ hget) hsend hmark hfetched
      unfold markThen at hp
      cases hp
      exact hnew

end Step

/-! ### Runs -/

/-- **Once.** In a run of overlapping ticks of a day, whose calls succeed, and in which no tick fetches a
window that is due while another has still to mark it, each trigger is called at most once. -/
theorem firedOnce_of_apart {today : ℤ} {n : ℕ} {t : Table} {P : CronPool} {os : List CronNote}
    (husers : (t.configs.map (·.userId)).Nodup)
    (hr : Run (Pool.step answer) (fun os P l => SameDay today P l ∧ Apart today os P l) (crons n t) P os) :
    FiredOnce os := by
  have hstart : Shared today [] (crons n t) (fun _ => []) fun _ => [] := by
    have hthreads : ∀ (tid : ℕ) (th : Thread Unit SchedulerOp SchedulerOp.Answer Err Unit), (crons n t).threads[tid]? = some th → Unfetched today th.prog := by
      intro tid th hth
      rw [(Pool.start_threads (List.mem_of_getElem? hth)).2]
      exact .start
    exact {
      users := husers
      stands := fun tid th hth => .inl ⟨hthreads tid th hth, rfl⟩
      idle := fun _ _ => rfl
      sub := fun _ => List.Subset.refl _
      nodup := fun _ => List.nodup_nil
      apart := fun _ _ _ _ h => absurd h List.not_mem_nil
      sent := fun _ _ h => absurd h List.not_mem_nil
      unsent := fun _ _ h => absurd h List.not_mem_nil
      once := fun _ => Nat.zero_le 1 }
  have hshared : ∃ send mark, Shared today os P send mark :=
    hr.invariant (fun os P => ∃ send mark, Shared today os P send mark) ⟨_, _, hstart⟩
      fun os P l P' o ⟨send, mark, h⟩ hok hs => h.step hok.1 hok.2 hs
  obtain ⟨send, mark, h⟩ := hshared
  exact h.once

/-! ### Two runs and one row -/

/-- A row of which only the reminder is due on the first day. -/
def reminderRow : ScheduleConfig where
  userId := "u"
  scoutTime := 0
  notifyTime := 0
  executeTime := 0
  lastDispatchedDate := some 0
  lastFinalizedDate := some 0

def reminderTable : Table := ⟨0, [reminderRow]⟩

/-- Two runs over the row. -/
def two (p q : SchedulerProg Unit) (t : Table) : CronPool := ⟨[⟨(), p⟩, ⟨(), q⟩], t⟩

/-- The reminder of the row, and its mark. -/
def reminder : SchedulerProg Unit := sendThen 0 (.triggerNotifyReminder "u") ("u", .notify) []

def reminded : SchedulerProg Unit := markThen 0 ("u", .notify) []

theorem step_now (p : SchedulerProg Unit) (rows : List ScheduleConfig) :
    (two dispatchDueCohorts p ⟨0, rows⟩).step answer (0, { instant := 0 }) =
      some (two (afterNow 0) p ⟨0, rows⟩, ⟨0, (), ⟨⟨0, rows⟩, .now, { instant := 0 }⟩⟩) ∧
    (two p dispatchDueCohorts ⟨0, rows⟩).step answer (1, { instant := 0 }) =
      some (two p (afterNow 0) ⟨0, rows⟩, ⟨1, (), ⟨⟨0, rows⟩, .now, { instant := 0 }⟩⟩) := by
  rw [dispatchDueCohorts_eq]
  exact ⟨rfl, rfl⟩

theorem step_fetch (p : SchedulerProg Unit) :
    (two (afterNow 0) p reminderTable).step answer (0, { instant := 0 }) =
      some (two reminder p reminderTable, ⟨0, (), ⟨reminderTable, .findMany 0, { instant := 0 }⟩⟩) ∧
    (two p (afterNow 0) reminderTable).step answer (1, { instant := 0 }) =
      some (two p reminder reminderTable, ⟨1, (), ⟨reminderTable, .findMany 0, { instant := 0 }⟩⟩) := by
  have hjobs : jobs 0 0 (reminderTable.configs.filter (due 0)) = [("u", .notify)] := by decide
  have hprog : runJobs 0 (jobs 0 0 (reminderTable.configs.filter (due 0))) = reminder := by
    rw [hjobs]
    exact runJobs_notify 0 "u" []
  rw [← hprog]
  exact ⟨rfl, rfl⟩

theorem step_reminder (p : SchedulerProg Unit) :
    (two reminder p reminderTable).step answer (0, { instant := 0 }) =
      some (two reminded p reminderTable,
        ⟨0, (), ⟨reminderTable, .triggerNotifyReminder "u", { instant := 0 }⟩⟩) ∧
    (two p reminder reminderTable).step answer (1, { instant := 0 }) =
      some (two p reminded reminderTable,
        ⟨1, (), ⟨reminderTable, .triggerNotifyReminder "u", { instant := 0 }⟩⟩) :=
  ⟨rfl, rfl⟩

theorem sameDay_two (p q : SchedulerProg Unit) (rows : List ScheduleConfig) (tid : ℕ) :
    SameDay 0 (two p q ⟨0, rows⟩) (tid, { instant := 0 }) :=
  ⟨rfl, fun _ => rfl⟩

/-- The row once it has been marked. -/
def remindedRow : ScheduleConfig := { reminderRow with lastNotifiedDate := some 0 }

theorem apart_of_ne {today : ℤ} {os : List CronNote} {P : CronPool} {l : ℕ × TickChoice} {i : SchedulerOp}
    {k : Except Err i.Answer → SchedulerProg Unit} (hget : P.threads[l.1]? = some ⟨(), .call i k⟩)
    (hi : i ≠ .findMany today) : Apart today os P l := by
  intro k' hk'
  rw [hget] at hk'
  cases hk'
  exact absurd rfl hi

theorem apart_two {today : ℤ} {os : List CronNote} {p q : SchedulerProg Unit} {t : Table} {c : TickChoice}
    {i : SchedulerOp} {k : Except Err i.Answer → SchedulerProg Unit} (hi : i ≠ .findMany today) :
    (p = .call i k → Apart today os (two p q t) (0, c)) ∧ (q = .call i k → Apart today os (two p q t) (1, c)) := by
  constructor
  · rintro rfl
    exact apart_of_ne (l := (0, c)) rfl hi
  · rintro rfl
    exact apart_of_ne (l := (1, c)) rfl hi

/-- The second run begins when the first has marked the row. -/
theorem firedOnce_oneAfterTheOther : ∃ P os, Run (Pool.step answer)
    (fun os P l => SameDay 0 P l ∧ Apart 0 os P l) (crons 2 reminderTable) P os ∧ os.length = 6 ∧ FiredOnce os := by
  have hnil : Run (Pool.step answer) (fun os P l => SameDay 0 P l ∧ Apart 0 os P l) (crons 2 reminderTable)
    (two dispatchDueCohorts dispatchDueCohorts reminderTable) [] := .nil
  have hnow := hnil.snoc _ ⟨sameDay_two .., (apart_two (by simp)).1 dispatchDueCohorts_eq⟩ (step_now _ _).1
  have hfetch := hnow.snoc _ ⟨sameDay_two .., fun k _ tid th hne _ hfetched => by
    obtain ⟨o, ho, htid, hcall⟩ := hfetched
    rw [List.mem_singleton.mp ho] at hcall
    cases hcall⟩ (step_fetch dispatchDueCohorts).1
  have hsent := hfetch.snoc _ ⟨sameDay_two .., (apart_two (by simp)).1 rfl⟩ (step_reminder _).1
  have hmarked := hsent.snoc (0, { instant := 0 }) ⟨sameDay_two .., (apart_two (by simp)).1 rfl⟩
    (show Pool.step answer _ _ = some (two (.ret ()) dispatchDueCohorts ⟨0, [remindedRow]⟩, _) from rfl)
  have hnow' := hmarked.snoc _ ⟨sameDay_two .., (apart_two (by simp)).2 dispatchDueCohorts_eq⟩ (step_now _ _).2
  have hr := hnow'.snoc (1, { instant := 0 }) ⟨sameDay_two .., fun k _ tid th hne hth _ job hmay => ?_⟩
    (show Pool.step answer _ _ = some (two (.ret ()) (.ret ()) ⟨0, [remindedRow]⟩, _) from rfl)
  · exact ⟨_, _, hr, rfl, firedOnce_of_apart (by decide) hr⟩
  -- the first run has ended
  · have htid : tid = 0 := by
      have hlt := (List.getElem?_eq_some_iff.mp hth).1
      simp only [two, List.length_cons, List.length_nil] at hlt hne
      omega
    subst htid
    cases hth
    exact hmay.1 (by simp)

/-- The second run fetches the row before the first has marked it. -/
theorem not_firedOnce : ¬ ∀ (today : ℤ) (n : ℕ) (t : Table) (P : CronPool) (os : List CronNote),
    (t.configs.map (·.userId)).Nodup →
    Run (Pool.step answer) (fun _ P l => SameDay today P l) (crons n t) P os → FiredOnce os := by
  intro h
  have hnil : Run (Pool.step answer) (fun _ P l => SameDay 0 P l) (crons 2 reminderTable)
    (two dispatchDueCohorts dispatchDueCohorts reminderTable) [] := .nil
  have hfetched := (((hnil.snoc _ (sameDay_two ..) (step_now _ _).1).snoc _ (sameDay_two ..)
    (step_fetch _).1).snoc _ (sameDay_two ..) (step_now _ _).2).snoc _ (sameDay_two ..) (step_fetch _).2
  have hr := (hfetched.snoc _ (sameDay_two ..) (step_reminder _).1).snoc _ (sameDay_two ..)
    (step_reminder _).2
  exact absurd (h _ _ _ _ _ (by decide) hr ("u", .notify)) (by decide)

end Gusto.Scheduler
