import Gusto.Scheduler.Finalize
import Gusto.Scheduler.Tick

/-!
# The triggers of a day

Ticks one after another at times that do not go back; each lookup of a profile, each trigger and each
mark may fail.

* `Fired`: the calls that a job makes in a tick, and whether it has gone through;
* `tick_wlp`: a tick fires a window of a row if it is due and not marked, and only then;
* `triggers_daily`: so a trigger is sent in each tick of a day from its minute on until it has gone
  through, whatever becomes of the other rows and windows.
-/

set_option autoImplicit false

namespace Gusto.Scheduler

open Effects Workflow CohortScheduler

/-! ### Calls of a job -/

abbrev TickEvent : Type := Event Table SchedulerOp TickChoice

/-- The call has been answered. -/
def succeeded (e : TickEvent) : Bool :=
  match (answer e.choice e.call e.pre).1 with
  | .ok _ => true
  | .error _ => false

/-- The default address and restaurant that a lookup has found. -/
def foundDefaults : TickEvent → Option (String × String)
  | ⟨t, .getPreferenceProfile userId, c⟩ =>
    match (answer c (.getPreferenceProfile userId) t).1 with
    | .ok profile => defaults profile
    | .error _ => none
  | _ => none

/-- The calls that are made for a job. -/
def Job.owns : Job → SchedulerOp → Bool
  | (userId, w), .update u column _ => u = userId && column = w.column
  | (userId, .scout), .getPreferenceProfile u => u = userId
  | (userId, w), i => w.triggers userId i

/-- What a job calls before its trigger. -/
inductive Asked (userId : String) : Window → List TickEvent → SchedulerOp → Prop
  | scout {e : TickEvent} {ids : String × String} (call : e.call = .getPreferenceProfile userId)
      (found : foundDefaults e = some ids) :
      Asked userId .scout [e] (.triggerScoutRun userId ids.1 ids.2)
  | notify : Asked userId .notify [] (.triggerNotifyReminder userId)
  | finalize : Asked userId .finalize [] (.triggerFinalize userId)

/-- What a job calls in a tick, and whether it goes through. -/
inductive Fired (today : ℤ) (job : Job) : List TickEvent → Bool → Prop
  | unasked {e : TickEvent} (window : job.2 = .scout) (call : e.call = .getPreferenceProfile job.1)
      (found : foundDefaults e = none) : Fired today job [e] false
  | failed {es : List TickEvent} {i : SchedulerOp} {e : TickEvent} (asked : Asked job.1 job.2 es i)
      (call : e.call = i) (refused : succeeded e = false) : Fired today job (es ++ [e]) false
  | sent {es : List TickEvent} {i : SchedulerOp} {e e' : TickEvent} (asked : Asked job.1 job.2 es i)
      (call : e.call = i) (accepted : succeeded e = true)
      (mark : e'.call = .update job.1 job.2.column today) : Fired today job (es ++ [e, e']) (succeeded e')

/-- The rows that a job leaves. -/
def Leaves (today : ℤ) (job : Job) (through : Bool) (t t' : Table) : Prop :=
  t.clock ≤ t'.clock ∧
    t'.configs = if through then markConfigs job.1 job.2.column today t.configs else t.configs

section Jobs

variable {today : ℤ} {job : Job} {t : Table}

theorem clock_answer (c : TickChoice) (i : SchedulerOp) (t : Table) :
    (answer c i t).2.clock = max t.clock c.instant := by
  unfold answer
  cases c.error with
  | none => cases i <;> rfl
  | some err =>
    dsimp only
    split
    · cases i <;> rfl
    · rfl

/-- Only a mark and a change of the schedule write. -/
theorem configs_answer {c : TickChoice} {i : SchedulerOp} (hmark : ∀ u column date, i ≠ .update u column date)
    (hupsert : ∀ u s n x z, i ≠ .upsert u s n x z) : (answer c i t).2.configs = t.configs := by
  unfold answer
  cases c.error <;> cases i <;> first | rfl | exact absurd rfl (hmark _ _ _) | exact absurd rfl (hupsert _ _ _ _ _)

theorem configs_update {c : TickChoice} {u : String} {column : Column} {date : ℤ} :
    (answer c (.update u column date) t).2.configs =
      if succeeded ⟨t, .update u column date, c⟩ then markConfigs u column date t.configs
      else t.configs := by
  unfold succeeded answer
  cases c.error <;> rfl

/-- The trigger of a job, its mark, and the jobs after it. -/
theorem sendThen_wlp {es : List TickEvent} {i : SchedulerOp} {js : List Job}
    {Q : List TickEvent → Except Err Unit → Table → Prop} {t₀ : Table} (hasked : Asked job.1 job.2 es i)
    (hclock : t₀.clock ≤ t.clock) (hconfigs : t.configs = t₀.configs)
    (h : ∀ evs through t', Fired today job evs through → Leaves today job through t₀ t' →
      (runJobs today js).wlp answer (fun evs' => Q (evs ++ evs')) t') :
    (sendThen today i job js).wlp answer (fun evs => Q (es ++ evs)) t := by
  have hmark : ∀ u column date, i ≠ .update u column date := by
    obtain ⟨userId, w⟩ := job
    cases hasked <;> simp
  have hupsert : ∀ u s n x z, i ≠ .upsert u s n x z := by
    obtain ⟨userId, w⟩ := job
    cases hasked <;> simp
  intro c
  have hrows : (answer c i t).2.configs = t₀.configs := by
    rw [configs_answer hmark hupsert, hconfigs]
  have hclock₁ : t₀.clock ≤ (answer c i t).2.clock := by
    rw [clock_answer]
    exact hclock.trans (le_max_left _ _)
  cases hr : (answer c i t).1 with
  | error err =>
    have hfailed : succeeded ⟨t, i, c⟩ = false := by simp [succeeded, hr]
    have hnext := h _ _ _ (.failed hasked rfl hfailed) ⟨hclock₁, by simpa using hrows⟩
    simpa using hnext
  | ok a =>
    have hsucceeded : succeeded ⟨t, i, c⟩ = true := by simp [succeeded, hr]
    intro c'
    have hclock₂ : t₀.clock ≤ (answer c' (.update job.1 job.2.column today) (answer c i t).2).2.clock := by
      rw [clock_answer]
      exact hclock₁.trans (le_max_left _ _)
    have hnext := h (es ++ [⟨t, i, c⟩, ⟨(answer c i t).2, .update job.1 job.2.column today, c'⟩]) _ _
      (.sent hasked rfl hsucceeded rfl) ⟨hclock₂, by rw [configs_update, hrows]⟩
    simpa using hnext

/-- **One job**, and the jobs after it. -/
theorem runJobs_cons_wlp {js : List Job} {Q : List TickEvent → Except Err Unit → Table → Prop}
    (h : ∀ evs through t', Fired today job evs through → Leaves today job through t t' →
      (runJobs today js).wlp answer (fun evs' => Q (evs ++ evs')) t') :
    (runJobs today (job :: js)).wlp answer Q t := by
  obtain ⟨userId, w⟩ := job
  cases w with
  | notify =>
    rw [runJobs_notify]
    exact sendThen_wlp .notify le_rfl rfl h
  | finalize =>
    rw [runJobs_finalize]
    exact sendThen_wlp .finalize le_rfl rfl h
  | scout =>
    rw [runJobs_scout]
    intro c
    have hclock : t.clock ≤ (answer c (.getPreferenceProfile userId) t).2.clock := by
      rw [clock_answer]
      exact le_max_left _ _
    have hconfigs : (answer c (.getPreferenceProfile userId) t).2.configs = t.configs :=
      configs_answer (by simp) (by simp)
    cases hr : (answer c (.getPreferenceProfile userId) t).1 with
    | error err =>
      refine h [_] false _ (.unasked rfl rfl ?_) ⟨hclock, by simpa using hconfigs⟩
      simp [foundDefaults, hr]
    | ok profile =>
      cases hids : defaults profile with
      | none =>
        simp only [hids]
        refine h [_] false _ (.unasked rfl rfl ?_) ⟨hclock, by simpa using hconfigs⟩
        simp [foundDefaults, hr, hids]
      | some ids =>
        simp only [hids]
        refine sendThen_wlp (.scout (e := ⟨t, .getPreferenceProfile userId, c⟩) rfl ?_) hclock hconfigs h
        simp [foundDefaults, hr, hids]

end Jobs

/-! ### One job among others -/

/-- What happens between two tables to the rows of a job's user: the times stay, and its mark becomes
`v` of what it was. -/
def Moved (job : Job) (v : Option ℤ → Option ℤ) (t t' : Table) : Prop :=
  t.clock ≤ t'.clock ∧ ∃ g : ScheduleConfig → ScheduleConfig, t'.configs = t.configs.map g ∧
    ∀ row, (g row).userId = row.userId ∧ Window.time (g row) = Window.time row ∧
      (row.userId = job.1 → job.2.mark (g row) = v (job.2.mark row))

section Others

variable {today : ℤ} {job j : Job} {t t' t'' : Table} {v v' : Option ℤ → Option ℤ}

theorem Moved.refl : Moved job id t t :=
  ⟨le_rfl, id, by simp, fun _ => ⟨rfl, rfl, fun _ => rfl⟩⟩

theorem Moved.trans (h : Moved job v t t') (h' : Moved job v' t' t'') : Moved job (v' ∘ v) t t'' := by
  obtain ⟨hclock, g, hg, hrows⟩ := h
  obtain ⟨hclock', g', hg', hrows'⟩ := h'
  refine ⟨hclock.trans hclock', g' ∘ g, by rw [hg', hg, List.map_map], fun row => ?_⟩
  obtain ⟨huser, htime, hmark⟩ := hrows row
  obtain ⟨huser', htime', hmark'⟩ := hrows' (g row)
  refine ⟨huser'.trans huser, htime'.trans htime, fun hrow => ?_⟩
  exact (hmark' (huser.trans hrow)).trans (congrArg v' (hmark hrow))

theorem Moved.of_configs {configs : List ScheduleConfig} {clock : ℤ} (h : t.configs = configs)
    (hclock : t.clock ≤ clock) : Moved job id t ⟨clock, configs⟩ :=
  ⟨hclock, id, by simp [h], fun _ => ⟨rfl, rfl, fun _ => rfl⟩⟩

theorem time_set {row : ScheduleConfig} {date : ℤ} {column : Column} :
    Window.time (row.set date column) = Window.time row := by
  cases column <;> rfl

theorem mark_set {row : ScheduleConfig} {date : ℤ} {w w' : Window} :
    w.mark (row.set date w'.column) = if w = w' then some date else w.mark row := by
  cases w <;> cases w' <;> rfl

theorem userId_set {row : ScheduleConfig} {date : ℤ} {column : Column} :
    (row.set date column).userId = row.userId := by
  cases column <;> rfl

/-- The mark of a job is in its own column. -/
theorem Leaves.moved {through : Bool} (h : Leaves today j through t t') (job : Job) :
    Moved job (fun mark => if j = job ∧ through = true then some today else mark) t t' := by
  obtain ⟨hclock, hconfigs⟩ := h
  cases through with
  | false => exact ⟨hclock, id, by simpa using hconfigs, fun row => ⟨rfl, rfl, by simp⟩⟩
  | true =>
    refine ⟨hclock, _, hconfigs, fun row => ?_⟩
    split
    · rename_i huser
      refine ⟨userId_set, time_set, fun hrow => ?_⟩
      rw [mark_set]
      obtain ⟨u, w⟩ := job
      obtain ⟨u', w'⟩ := j
      have hsame : u' = u := huser.symm.trans hrow
      by_cases hw : w = w' <;> simp [hsame, hw, eq_comm]
    · rename_i huser
      refine ⟨rfl, rfl, fun hrow => ?_⟩
      have hne : j ≠ job := fun h => huser (hrow.trans (congrArg Prod.fst h.symm))
      simp [hne]

theorem column_inj {w w' : Window} (h : w.column = w'.column) : w = w' := by
  cases w <;> cases w' <;> first | rfl | cases h

/-- A call is made for one job. -/
theorem owns_inj {i : SchedulerOp} (h : j.owns i = true) (h' : job.owns i = true) : j = job := by
  obtain ⟨u, w⟩ := job
  obtain ⟨u', w'⟩ := j
  cases i with
  | update u'' column date =>
    simp only [Job.owns, Bool.and_eq_true, decide_eq_true_eq] at h h'
    rw [Prod.mk.injEq, ← h.1, ← h'.1]
    exact ⟨rfl, column_inj (h.2.symm.trans h'.2)⟩
  | _ => cases w <;> cases w' <;> simp_all [Job.owns, Window.triggers]

theorem Fired.owned {es : List TickEvent} {through : Bool} (h : Fired today job es through) :
    ∀ e ∈ es, job.owns e.call = true := by
  have hasked : ∀ {es i}, Asked job.1 job.2 es i →
      (∀ e ∈ es, job.owns e.call = true) ∧ job.owns i = true := by
    intro es i ha
    obtain ⟨userId, w⟩ := job
    cases ha with
    | scout call found => simp [call, Job.owns, Window.triggers]
    | notify => simp [Job.owns, Window.triggers]
    | finalize => simp [Job.owns, Window.triggers]
  cases h with
  | unasked window call found =>
    obtain ⟨userId, w⟩ := job
    cases window
    simp [call, Job.owns]
  | failed asked call refused =>
    obtain ⟨hes, hi⟩ := hasked asked
    rw [List.forall_mem_append, List.forall_mem_singleton, call]
    exact ⟨hes, hi⟩
  | sent asked call accepted mark =>
    obtain ⟨hes, hi⟩ := hasked asked
    rw [List.forall_mem_append, List.forall_mem_cons, List.forall_mem_singleton, call, mark]
    exact ⟨hes, hi, by simp [Job.owns]⟩

/-- Jobs of other users and windows. -/
theorem runJobs_others_wlp {js : List Job} (hjob : job ∉ js) : (runJobs today js).wlp answer
    (fun evs r t' => r = .ok () ∧ (∀ e ∈ evs, job.owns e.call = false) ∧ Moved job id t t') t := by
  induction js generalizing t with
  | nil =>
    unfold runJobs
    rw [Prog.pure_def, Prog.wlp_ret]
    exact ⟨rfl, fun e he => absurd he List.not_mem_nil, Moved.refl⟩
  | cons j js ih =>
    obtain ⟨hne, hjs⟩ := not_or.mp (mt List.mem_cons.mpr hjob)
    refine runJobs_cons_wlp fun evs through t₁ hfired hleaves => ?_
    refine Prog.wlp_mono (fun evs' r t' h => ?_) (ih hjs)
    obtain ⟨hr, hevs', hmoved⟩ := h
    refine ⟨hr, fun e he => ?_, ?_⟩
    · rcases List.mem_append.mp he with he | he
      · exact Bool.eq_false_iff.mpr fun howns => hne (owns_inj howns (hfired.owned e he))
      · exact hevs' e he
    · have hfirst := hleaves.moved job
      simp only [Ne.symm hne, false_and, if_false] at hfirst
      exact hfirst.trans hmoved

/-- **A job of a tick**, whatever becomes of the others. -/
theorem runJobs_wlp {js : List Job} (hjs : js.Nodup) (hjob : job ∈ js) : (runJobs today js).wlp answer
    (fun evs r t' => r = .ok () ∧ ∃ through, Fired today job (evs.filter fun e => job.owns e.call) through ∧
      Moved job (fun mark => if through then some today else mark) t t') t := by
  induction js generalizing t with
  | nil => cases hjob
  | cons j js ih =>
    obtain ⟨hnot, hnodup⟩ := List.nodup_cons.mp hjs
    refine runJobs_cons_wlp fun evs through t₁ hfired hleaves => ?_
    have hfirst := hleaves.moved job
    by_cases hj : j = job
    · subst hj
      refine Prog.wlp_mono (fun evs' r t' h => ?_) (runJobs_others_wlp hnot)
      obtain ⟨hr, hevs', hmoved⟩ := h
      refine ⟨hr, through, ?_, by simpa using hfirst.trans hmoved⟩
      rw [List.filter_append, List.filter_eq_self.mpr hfired.owned,
        List.filter_eq_nil_iff.mpr fun e he => by simp [hevs' e he], List.append_nil]
      exact hfired
    · have hrest : job ∈ js := (List.mem_cons.mp hjob).resolve_left (Ne.symm hj)
      refine Prog.wlp_mono (fun evs' r t' h => ?_) (ih hnodup hrest)
      obtain ⟨hr, through', hfired', hmoved⟩ := h
      simp only [hj, false_and, if_false] at hfirst
      refine ⟨hr, through', ?_, hfirst.trans hmoved⟩
      rw [List.filter_append, List.filter_eq_nil_iff.mpr fun e he howns =>
        hj (owns_inj (hfired.owned e he) howns), List.nil_append]
      exact hfired'

end Others

/-! ### A tick -/

section Ticks

variable {today nowMinutesUtc : ℤ} {t : Table} {row : ScheduleConfig} {w : Window}

/-- The filter of the table hides no row that would be dispatched. -/
theorem due_of_fires (h : w.fires today nowMinutesUtc row = true) : due today row = true := by
  have hmark : (w.mark row).all (· < today) = true := by
    unfold Window.fires already at h
    cases hlast : w.mark row with
    | none => rfl
    | some date => simpa [hlast] using (Bool.and_eq_true_iff.mp h).1
  unfold due
  cases w <;> simp only [Window.mark] at hmark <;> simp [hmark]

theorem mem_rowJobs {job : Job} :
    job ∈ rowJobs today nowMinutesUtc row ↔ job.1 = row.userId ∧ job.2.fires today nowMinutesUtc row = true := by
  obtain ⟨userId, w⟩ := job
  unfold rowJobs
  simp only [List.mem_map, List.mem_filter, Prod.mk.injEq]
  constructor
  · rintro ⟨w', ⟨-, hfires⟩, rfl, rfl⟩
    exact ⟨rfl, hfires⟩
  · rintro ⟨rfl, hfires⟩
    exact ⟨w, ⟨by cases w <;> simp, hfires⟩, rfl, rfl⟩

theorem nodup_jobs {rows : List ScheduleConfig} (h : (rows.map (·.userId)).Nodup) :
    (jobs today nowMinutesUtc rows).Nodup := by
  refine List.nodup_flatMap.mpr ⟨fun row _ => ?_, ?_⟩
  · unfold rowJobs
    refine (List.Nodup.filter _ (by decide)).map fun w w' heq => ?_
    exact (Prod.mk.injEq _ _ _ _ ▸ heq).2
  · refine (List.pairwise_map.mp h).imp fun hne job hjob hjob' => hne ?_
    exact (mem_rowJobs.mp hjob).1.symm.trans (mem_rowJobs.mp hjob').1

/-- A window of a row is a job of the tick if it is due and not marked. -/
theorem mem_jobs {configs : List ScheduleConfig} (h : (configs.map (·.userId)).Nodup) (hrow : row ∈ configs) :
    (row.userId, w) ∈ jobs today nowMinutesUtc (configs.filter (due today)) ↔
      w.fires today nowMinutesUtc row = true := by
  unfold jobs
  rw [List.mem_flatMap]
  constructor
  · rintro ⟨row', hrow', hjob⟩
    obtain ⟨huser, hfires⟩ := mem_rowJobs.mp hjob
    rwa [List.inj_on_of_nodup_map h hrow (List.mem_of_mem_filter hrow') huser]
  · intro hfires
    exact ⟨row, List.mem_filter.mpr ⟨hrow, due_of_fires hfires⟩, mem_rowJobs.mpr ⟨rfl, hfires⟩⟩

/-- The instant that a tick has read. -/
def nowOf : List TickEvent → ℤ
  | [] => 0
  | e :: _ => max e.pre.clock e.choice.instant

/-- The rows have been fetched. -/
def Fetches (evs : List TickEvent) : Prop :=
  ∀ e ∈ evs, ∀ today, e.call = .findMany today → e.choice.error = none

theorem answer_now (c : TickChoice) (t : Table) :
    answer c .now t = (.ok (t.advance c.instant).clock, t.advance c.instant) := by
  unfold answer
  cases c.error <;> rfl

/-- **A tick** fires a window of a row if it is due and not marked, and else makes no call for it. -/
theorem tick_wlp (husers : (t.configs.map (·.userId)).Nodup) (hrow : row ∈ t.configs) :
    dispatchDueCohorts.wlp answer (fun evs _ t' => Fetches evs →
      t.clock ≤ nowOf evs ∧ nowOf evs ≤ t'.clock ∧
        (w.fires (startOfUtcDay (nowOf evs)) (minutesOfDayUtc (nowOf evs)) row = true →
          ∃ through, Fired (startOfUtcDay (nowOf evs)) (row.userId, w)
              (evs.filter fun e => Job.owns (row.userId, w) e.call) through ∧
            Moved (row.userId, w) (fun mark => if through then some (startOfUtcDay (nowOf evs)) else mark) t t') ∧
        (w.fires (startOfUtcDay (nowOf evs)) (minutesOfDayUtc (nowOf evs)) row = false →
          (∀ e ∈ evs, Job.owns (row.userId, w) e.call = false) ∧ Moved (row.userId, w) id t t')) t := by
  unfold dispatchDueCohorts
  rw [Prog.wlp_await_bind]
  intro c
  rw [answer_now]
  dsimp only
  rw [Prog.wlp_await_bind]
  intro c'
  cases herror : c'.error with
  | some err =>
    have hrefused : answer c' (.findMany (startOfUtcDay (t.advance c.instant).clock)) (t.advance c.instant) =
        (.error err, (t.advance c.instant).advance c'.instant) := by simp [answer, herror]
    rw [hrefused]
    intro hfetches
    have hnone := hfetches _ (List.mem_cons_of_mem _ List.mem_cons_self) _ rfl
    rw [herror] at hnone
    cases hnone
  | none =>
    have hserved : answer c' (.findMany (startOfUtcDay (t.advance c.instant).clock)) (t.advance c.instant) =
        (.ok (t.configs.filter (due (startOfUtcDay (t.advance c.instant).clock))),
          (t.advance c.instant).advance c'.instant) := by
      simp [answer, herror, Table.serve, Table.advance]
    rw [hserved]
    dsimp only
    rw [dispatchRows_eq]
    have hbefore : Moved (row.userId, w) id t ((t.advance c.instant).advance c'.instant) :=
      Moved.of_configs rfl (le_trans (le_max_left _ _) (le_max_left _ _))
    have hclock : max t.clock c.instant ≤ ((t.advance c.instant).advance c'.instant).clock := le_max_left _ _
    have hskip : ∀ i, (i = .now ∨ ∃ today, i = .findMany today) → Job.owns (row.userId, w) i = false := by
      rintro i (rfl | ⟨today, rfl⟩) <;> cases w <;> rfl
    cases hfires : w.fires (startOfUtcDay (t.advance c.instant).clock)
        (minutesOfDayUtc (t.advance c.instant).clock) row with
    | true =>
      have hjob := (mem_jobs husers hrow).mpr hfires
      refine Prog.wlp_mono (fun evs r t' h _ => ?_)
        (runJobs_wlp (nodup_jobs (husers.sublist (List.Sublist.map _ List.filter_sublist))) hjob)
      obtain ⟨-, through, hfired, hmoved⟩ := h
      refine ⟨le_max_left _ _, hclock.trans hmoved.1, fun _ => ⟨through, ?_, hbefore.trans hmoved⟩,
        fun hno => absurd (hfires.symm.trans hno) (by decide)⟩
      rw [List.filter_cons_of_neg (by simp [hskip]), List.filter_cons_of_neg (by simp [hskip])]
      exact hfired
    | false =>
      have hjob := mt (mem_jobs husers hrow).mp (Bool.eq_false_iff.mp hfires)
      refine Prog.wlp_mono (fun evs r t' h _ => ?_) (runJobs_others_wlp hjob)
      obtain ⟨-, hevs, hmoved⟩ := h
      refine ⟨le_max_left _ _, hclock.trans hmoved.1, fun hyes => absurd (hfires.symm.trans hyes) (by decide),
        fun _ => ⟨?_, hbefore.trans hmoved⟩⟩
      rw [List.forall_mem_cons, List.forall_mem_cons]
      exact ⟨hskip _ (.inl rfl), hskip _ (.inr ⟨_, rfl⟩), hevs⟩

end Ticks

/-! ### What is asked -/

abbrev Tick : Type := Done Table SchedulerOp TickChoice Err Unit

/-- One whole run of the cron job. -/
def tick (t : Table) (cs : List TickChoice) : Option (Table × Tick) :=
  (dispatchDueCohorts.run answer cs t).map fun d => (d.state, d)

/-- The day of a tick. -/
def dayOf (d : Tick) : ℤ := startOfUtcDay (nowOf d.events)

/-- The triggers that a tick has called for a job. -/
def called (job : Job) (d : Tick) : List SchedulerOp :=
  (d.events.map (·.call)).filter (job.2.triggers job.1)

/-- The trigger of a job and its mark have both succeeded in a tick. -/
def WentThrough (job : Job) (d : Tick) : Prop :=
  (∃ e ∈ d.events, job.2.triggers job.1 e.call = true ∧ succeeded e = true) ∧
    ∃ e ∈ d.events, e.call = .update job.1 job.2.column (dayOf d) ∧ succeeded e = true

/-- A tick has called the trigger of a job, once; a scout if the profile has been looked up and names an
address and a restaurant. -/
def Sends (job : Job) (d : Tick) : Prop :=
  match job.2 with
  | .scout => ∃ e ∈ d.events, e.call = .getPreferenceProfile job.1 ∧
      called job d = (foundDefaults e).toList.map fun ids => .triggerScoutRun job.1 ids.1 ids.2
  | .notify => called job d = [.triggerNotifyReminder job.1]
  | .finalize => called job d = [.triggerFinalize job.1]

/-- The minute of the window has been reached. -/
def Reached (row : ScheduleConfig) (w : Window) (d : Tick) : Prop :=
  minutesOfDayUtc (w.time row) ≤ minutesOfDayUtc (nowOf d.events)

/-- Each row is of a user of its own, and no mark is of today. -/
structure Fresh (t : Table) : Prop where
  users : (t.configs.map (·.userId)).Nodup
  marks : ∀ row ∈ t.configs, ∀ w : Window, ∀ day, w.mark row = some day → day < startOfUtcDay t.clock

/-- What the two ticks ask for the job at the same time is answered alike in both. -/
def Alike (job : Job) (d d' : Tick) : Prop :=
  nowOf d.events = nowOf d'.events ∧ ∀ e ∈ d.events, ∀ e' ∈ d'.events, job.owns e.call = true →
    e.call = e'.call → succeeded e = succeeded e' ∧ foundDefaults e = foundDefaults e'

section Facts

variable {today : ℤ} {job : Job} {d : Tick}

theorem owns_of_triggers {i : SchedulerOp} (h : job.2.triggers job.1 i = true) : job.owns i = true := by
  obtain ⟨userId, w⟩ := job
  cases i <;> cases w <;> simp_all [Job.owns, Window.triggers]

/-- The triggers are among the calls that are made for the job. -/
theorem called_eq : called job d =
    ((d.events.filter fun e => job.owns e.call).map (·.call)).filter (job.2.triggers job.1) := by
  unfold called
  rw [List.filter_map, List.filter_map, List.filter_filter]
  refine congrArg _ (List.filter_congr fun e _ => ?_)
  cases h : job.2.triggers job.1 e.call with
  | false => simp [h]
  | true => simp [h, owns_of_triggers h]

theorem Asked.triggers {userId : String} {w : Window} {es : List TickEvent} {i : SchedulerOp}
    (h : Asked userId w es i) : w.triggers userId i = true ∧ ∀ e ∈ es, w.triggers userId e.call = false := by
  cases h with
  | scout call found => simp [Window.triggers, call]
  | notify => simp [Window.triggers]
  | finalize => simp [Window.triggers]

/-- What a job that has fired has called of its triggers. -/
theorem sends_of_asked {es rest : List TickEvent} {i : SchedulerOp} (hasked : Asked job.1 job.2 es i)
    (hown : (d.events.filter fun e => job.owns e.call) = es ++ rest)
    (hrest : (rest.map (·.call)).filter (job.2.triggers job.1) = [i]) : Sends job d := by
  have hcalled : called job d = [i] := by
    have hes : (es.map (·.call)).filter (job.2.triggers job.1) = [] :=
      List.filter_eq_nil_iff.mpr fun i' hi' => by
        obtain ⟨e, he, rfl⟩ := List.mem_map.mp hi'
        simp [hasked.triggers.2 e he]
    rw [called_eq, hown, List.map_append, List.filter_append, hrest, hes, List.nil_append]
  obtain ⟨userId, w⟩ := job
  cases hasked with
  | notify => exact hcalled
  | finalize => exact hcalled
  | @scout e ids call found =>
    have hmem : e ∈ d.events.filter fun e => Job.owns (userId, Window.scout) e.call := by simp [hown]
    refine ⟨e, (List.mem_filter.mp hmem).1, call, ?_⟩
    rw [hcalled, found]
    rfl

theorem Asked.not_update {userId u : String} {w : Window} {es : List TickEvent} {i : SchedulerOp}
    {column : Column} {date : ℤ} (h : Asked userId w es i) :
    i ≠ .update u column date ∧ ∀ e ∈ es, e.call ≠ .update u column date := by
  cases h with
  | scout call found => simp [call]
  | notify => simp
  | finalize => simp

/-- A tick that has called no trigger of a job. -/
theorem called_eq_nil (hno : ∀ e ∈ d.events, job.2.triggers job.1 e.call = false) : called job d = [] := by
  refine List.filter_eq_nil_iff.mpr fun i hi => ?_
  obtain ⟨e, he, rfl⟩ := List.mem_map.mp hi
  simp [hno e he]

/-- A tick in which no trigger of a job has succeeded. -/
theorem not_wentThrough (hno : ∀ e ∈ d.events, job.2.triggers job.1 e.call = true → succeeded e = false) :
    ¬ WentThrough job d := by
  rintro ⟨⟨e, he, htrigger, haccepted⟩, -⟩
  exact absurd (haccepted.symm.trans (hno e he htrigger)) (by decide)

/-- The trigger of a tick that fires a job, and the mark that follows if it has succeeded. -/
theorem sends_of_fired {through : Bool}
    (h : Fired (dayOf d) job (d.events.filter fun e => job.owns e.call) through) :
    Sends job d ∧ (WentThrough job d ↔ through = true) ∧
      ∀ e ∈ d.events, job.2.triggers job.1 e.call = true → succeeded e = true →
        ∃ e' ∈ d.events, e'.call = .update job.1 job.2.column (dayOf d) := by
  have hmark : job.owns (.update job.1 job.2.column (dayOf d)) = true := by simp [Job.owns]
  generalize hown : (d.events.filter fun e => job.owns e.call) = own at h
  have hmem : ∀ e ∈ d.events, job.owns e.call = true → e ∈ own := by
    intro e he howns
    rw [← hown]
    exact List.mem_filter.mpr ⟨he, howns⟩
  have hback : ∀ e ∈ own, e ∈ d.events := by
    intro e he
    rw [← hown] at he
    exact (List.mem_filter.mp he).1
  cases h with
  | @unasked e window call found =>
    have hno : ∀ e' ∈ d.events, job.2.triggers job.1 e'.call = false := by
      intro e' he'
      refine Bool.eq_false_iff.mpr fun htrigger => ?_
      rw [List.mem_singleton.mp (hmem e' he' (owns_of_triggers htrigger)), call, window] at htrigger
      cases htrigger
    have hnever : ¬ WentThrough job d := not_wentThrough fun e' he' htrigger =>
      absurd htrigger (by simp [hno e' he'])
    refine ⟨?_, ⟨fun hthrough => absurd hthrough hnever, nofun⟩,
      fun e' he' htrigger _ => absurd htrigger (by simp [hno e' he'])⟩
    unfold Sends
    rw [window]
    refine ⟨e, hback e (List.mem_singleton.mpr rfl), call, ?_⟩
    rw [called_eq_nil hno, found]
    rfl
  | @failed es i e asked call refused =>
    obtain ⟨htriggers, hbefore⟩ := asked.triggers
    have hno : ∀ e' ∈ d.events, job.2.triggers job.1 e'.call = true → succeeded e' = false := by
      intro e' he' htrigger
      rcases List.mem_append.mp (hmem e' he' (owns_of_triggers htrigger)) with hes | he
      · exact absurd htrigger (by simp [hbefore e' hes])
      · rw [List.mem_singleton.mp he]
        exact refused
    exact ⟨sends_of_asked asked hown (by simp [call, htriggers]),
      ⟨fun hthrough => absurd hthrough (not_wentThrough hno), nofun⟩,
      fun e' he' htrigger haccepted => absurd (haccepted.symm.trans (hno e' he' htrigger)) (by decide)⟩
  | @sent es i e e' asked call accepted mark =>
    obtain ⟨htriggers, hbefore⟩ := asked.triggers
    have hnotrigger : job.2.triggers job.1 (.update job.1 job.2.column (dayOf d)) = false := by
      cases job.2 <;> rfl
    have he : e ∈ d.events := hback e (by simp)
    have he' : e' ∈ d.events := hback e' (by simp)
    refine ⟨sends_of_asked asked hown (by simp [call, mark, htriggers, hnotrigger]), ⟨fun hthrough => ?_,
      fun hthrough => ⟨⟨e, he, call ▸ htriggers, accepted⟩, e', he', mark, hthrough⟩⟩,
      fun _ _ _ _ => ⟨e', he', mark⟩⟩
    obtain ⟨-, e'', he'', hcall, haccepted⟩ := hthrough
    rcases List.mem_append.mp (hmem e'' he'' (hcall ▸ hmark)) with hes | hlast
    · exact absurd hcall (asked.not_update.2 e'' hes)
    · rcases List.mem_cons.mp hlast with rfl | hlast
      · exact absurd (call.symm.trans hcall) asked.not_update.1
      · rw [← List.mem_singleton.mp hlast]
        exact haccepted

/-- A tick that makes no call for a job. -/
theorem idle_facts (h : ∀ e ∈ d.events, job.owns e.call = false) : called job d = [] ∧ ¬ WentThrough job d := by
  have hno : ∀ e ∈ d.events, job.2.triggers job.1 e.call = false := fun e he =>
    Bool.eq_false_iff.mpr fun htrigger => absurd (owns_of_triggers htrigger) (by simp [h e he])
  exact ⟨called_eq_nil hno, not_wentThrough fun e he htrigger => absurd htrigger (by simp [hno e he])⟩

end Facts

/-! ### Runs -/

section Runs

variable {t₀ t : Table} {row : ScheduleConfig} {w : Window} {ticks : List Tick}

/-- What a tick does for a window of a row, after the ticks `pre`. -/
structure Exact (row : ScheduleConfig) (w : Window) (pre : List Tick) (d : Tick) : Prop where
  idle : (¬ Reached row w d ∨ ∃ d' ∈ pre, dayOf d' = dayOf d ∧ WentThrough (row.userId, w) d') →
    called (row.userId, w) d = [] ∧ ¬ WentThrough (row.userId, w) d
  fires : Reached row w d → (¬ ∃ d' ∈ pre, dayOf d' = dayOf d ∧ WentThrough (row.userId, w) d') →
    Sends (row.userId, w) d ∧
      ∀ e ∈ d.events, w.triggers row.userId e.call = true → succeeded e = true →
        ∃ e' ∈ d.events, e'.call = .update row.userId w.column (dayOf d)

/-- What a run of ticks keeps: the row that is there now is marked for a day just where a tick of the day
has gone through. -/
structure Kept (row : ScheduleConfig) (w : Window) (ticks : List Tick) (t : Table) : Prop where
  users : (t.configs.map (·.userId)).Nodup
  here : ∃ row' ∈ t.configs, row'.userId = row.userId ∧ w.time row' = w.time row ∧
    ∀ day, startOfUtcDay t.clock ≤ day → (already (w.mark row') day = true ↔
      ∃ d ∈ ticks, dayOf d = day ∧ WentThrough (row.userId, w) d)
  past : ∀ d ∈ ticks, nowOf d.events ≤ t.clock
  exact : ∀ pre d post, ticks = pre ++ d :: post → Exact row w pre d

theorem already_eq_false {mark : Option ℤ} {day : ℤ} (h : ∀ date, mark = some date → date < day) :
    already mark day = false := by
  cases mark with
  | none => rfl
  | some date => simpa [already] using h date rfl

theorem Kept.start (h : Fresh t) (hrow : row ∈ t.configs) : Kept row w [] t := by
  refine ⟨h.users, ⟨row, hrow, rfl, rfl, fun day hday => ?_⟩, nofun, by simp⟩
  rw [already_eq_false fun date hdate => (h.marks row hrow w date hdate).trans_le hday]
  simp

theorem map_userId {job : Job} {v : Option ℤ → Option ℤ} {t' : Table} (h : Moved job v t t') :
    t'.configs.map (·.userId) = t.configs.map (·.userId) := by
  obtain ⟨-, g, hg, hrows⟩ := h
  rw [hg, List.map_map]
  exact List.map_congr_left fun row _ => (hrows row).1

/-- What the tick `d` makes of a window of the row `row'`, which stands for `row` now. -/
theorem exact_of_tick {row' : ScheduleConfig} {t' : Table} {d : Tick} {cs : List TickChoice}
    (husers : (t.configs.map (·.userId)).Nodup) (hrow' : row' ∈ t.configs) (huser : row'.userId = row.userId)
    (htime : w.time row' = w.time row)
    (hmark : already (w.mark row') (dayOf d) = true ↔
      ∃ d' ∈ ticks, dayOf d' = dayOf d ∧ WentThrough (row.userId, w) d')
    (hfetches : Fetches d.events) (hrun : dispatchDueCohorts.run answer cs t = some d) (ht' : t' = d.state) :
    Exact row w ticks d ∧ ∃ through, (WentThrough (row.userId, w) d ↔ through = true) ∧
      Moved (row.userId, w) (fun mark => if through then some (dayOf d) else mark) t t' := by
  obtain ⟨-, -, hfires, hidle⟩ := Prog.wlp_iff_run.mp (tick_wlp (w := w) husers hrow') cs d hrun hfetches
  rw [huser, ← ht'] at hfires hidle
  have hiff : w.fires (dayOf d) (minutesOfDayUtc (nowOf d.events)) row' = true ↔
      (¬ ∃ d' ∈ ticks, dayOf d' = dayOf d ∧ WentThrough (row.userId, w) d') ∧ Reached row w d := by
    rw [← hmark, Window.fires, htime]
    simp [Reached]
  cases hf : w.fires (dayOf d) (minutesOfDayUtc (nowOf d.events)) row' with
  | true =>
    obtain ⟨hnot, hreached⟩ := hiff.mp hf
    obtain ⟨through, hfired, hmoved⟩ := hfires hf
    obtain ⟨hsends, hthrough, hmarked⟩ := sends_of_fired hfired
    refine ⟨⟨fun h => ?_, fun _ _ => ⟨hsends, hmarked⟩⟩, through, hthrough, hmoved⟩
    rcases h with h | h
    · exact absurd hreached h
    · exact absurd h hnot
  | false =>
    obtain ⟨hevs, hmoved⟩ := hidle hf
    have hfacts := idle_facts hevs
    refine ⟨⟨fun _ => hfacts, fun hreached hnot => ?_⟩, false, ⟨fun h => absurd h hfacts.2, nofun⟩, hmoved⟩
    exact absurd (hiff.mpr ⟨hnot, hreached⟩) (by simp [hf])

/-- **One tick.** -/
theorem Kept.step {t' : Table} {cs : List TickChoice} {d : Tick} (h : Kept row w ticks t)
    (hfetches : Fetches d.events) (hs : tick t cs = some (t', d)) : Kept row w (ticks ++ [d]) t' := by
  obtain ⟨husers, ⟨row', hrow', huser, htime, hmarks⟩, hpast, hexact⟩ := h
  obtain ⟨d', hrun, heq⟩ := Option.map_eq_some_iff.mp hs
  obtain ⟨ht', rfl⟩ := Prod.mk.inj heq
  obtain ⟨hafter, hbefore, -⟩ :=
    Prog.wlp_iff_run.mp (tick_wlp (w := w) husers hrow') cs d' hrun hfetches
  rw [ht'] at hbefore
  have hday : startOfUtcDay t.clock ≤ dayOf d' := startOfUtcDay_mono hafter
  obtain ⟨hexact', through, hthrough, hmoved⟩ :=
    exact_of_tick husers hrow' huser htime (hmarks _ hday) hfetches hrun ht'.symm
  refine ⟨map_userId hmoved ▸ husers, ?_, fun d hd => ?_, fun pre d post hsplit => ?_⟩
  · obtain ⟨-, g, hg, hrows⟩ := hmoved
    obtain ⟨huser', htime', hmark'⟩ := hrows row'
    refine ⟨g row', hg ▸ List.mem_map_of_mem hrow', huser'.trans huser, (congrFun htime' w).trans htime,
      fun day hlater => ?_⟩
    have hlater' : dayOf d' ≤ day := (startOfUtcDay_mono hbefore).trans hlater
    have hold := hmarks day (hday.trans hlater')
    rw [hmark' huser]
    simp only [List.mem_append, List.mem_singleton, or_and_right, exists_or, exists_eq_left]
    cases through with
    | false => simpa [hthrough] using hold
    | true =>
      -- the ticks before were on this day at the latest
      have hsame : already (some (dayOf d')) day = true ↔ dayOf d' = day := by
        simp only [already, Option.any_some, decide_eq_true_eq]
        omega
      simp only [if_true, hsame, hthrough, and_true]
      refine ⟨.inr, fun h => h.elim (fun h => ?_) id⟩
      obtain ⟨d, hd, rfl, -⟩ := h
      exact le_antisymm hlater' ((startOfUtcDay_mono (hpast d hd)).trans hday)
  · rcases List.mem_append.mp hd with hd | hd
    · exact (hpast d hd).trans (hafter.trans hbefore)
    · rw [List.mem_singleton.mp hd]
      exact hbefore
  · rcases snoc_eq_append_cons hsplit with ⟨rfl, rfl, -⟩ | ⟨post', hsplit', -⟩
    · exact hexact'
    · exact hexact pre d post' hsplit'

theorem Kept.of_run (hfresh : Fresh t₀) (hr : Run tick anyStep t₀ t ticks)
    (hfetches : ∀ d ∈ ticks, Fetches d.events) (hrow : row ∈ t₀.configs) : Kept row w ticks t :=
  hr.invariant_of_forall hfetches (fun ticks t => Kept row w ticks t) (.start hfresh hrow)
    fun _ _ _ _ _ h hd hs => h.step hd hs

end Runs

/-! ### Two runs -/

section TwoRuns

variable {job : Job} {d d' : Tick} {row row' : ScheduleConfig} {w : Window}

theorem Alike.symm (h : Alike job d d') : Alike job d' d := by
  refine ⟨h.1.symm, fun e he e' he' howns hcall => ?_⟩
  obtain ⟨hsucceeded, hfound⟩ := h.2 e' he' e he (hcall ▸ howns) hcall.symm
  exact ⟨hsucceeded.symm, hfound.symm⟩

theorem called_of_alike (h : Alike job d d') (hsends : Sends job d) (hsends' : Sends job d') :
    called job d = called job d' := by
  obtain ⟨userId, w⟩ := job
  cases w with
  | notify => exact hsends.trans hsends'.symm
  | finalize => exact hsends.trans hsends'.symm
  | scout =>
    obtain ⟨e, he, hcall, hcalled⟩ := hsends
    obtain ⟨e', he', hcall', hcalled'⟩ := hsends'
    rw [hcalled, hcalled', (h.2 e he e' he' (by simp [hcall, Job.owns]) (hcall.trans hcall'.symm)).2]

theorem through_of_alike (h : Alike job d d') (hcalled : called job d = called job d')
    (hmarks : ∀ e ∈ d'.events, job.2.triggers job.1 e.call = true → succeeded e = true →
      ∃ e' ∈ d'.events, e'.call = .update job.1 job.2.column (dayOf d')) (hthrough : WentThrough job d) :
    WentThrough job d' := by
  obtain ⟨⟨e, he, htrigger, haccepted⟩, e₁, he₁, hcall₁, haccepted₁⟩ := hthrough
  have hmem : e.call ∈ called job d := List.mem_filter.mpr ⟨List.mem_map_of_mem he, htrigger⟩
  rw [hcalled] at hmem
  obtain ⟨e', he', hcall⟩ := List.mem_map.mp (List.mem_filter.mp hmem).1
  have haccepted' : succeeded e' = true :=
    ((h.2 e he e' he' (owns_of_triggers htrigger) hcall.symm).1).symm.trans haccepted
  obtain ⟨e₁', he₁', hcall₁'⟩ := hmarks e' he' (hcall ▸ htrigger) haccepted'
  have hday : dayOf d = dayOf d' := congrArg startOfUtcDay h.1
  refine ⟨⟨e', he', hcall ▸ htrigger, haccepted'⟩, e₁', he₁', hcall₁', ?_⟩
  refine ((h.2 e₁ he₁ e₁' he₁' ?_ ?_).1).symm.trans haccepted₁
  · simp [hcall₁, Job.owns]
  · rw [hcall₁, hcall₁', hday]

/-- What two ticks do alike for a job. -/
def Same (job : Job) (d d' : Tick) : Prop :=
  dayOf d = dayOf d' ∧ (WentThrough job d ↔ WentThrough job d') ∧ called job d = called job d'

theorem earlier_of_same {pre pre' : List Tick} (h : List.Forall₂ (Same job) pre pre') (day : ℤ) :
    (∃ d ∈ pre, dayOf d = day ∧ WentThrough job d) ↔ ∃ d ∈ pre', dayOf d = day ∧ WentThrough job d := by
  induction h with
  | nil => simp
  | cons hd _ ih => simp only [List.exists_mem_cons_iff, ih, hd.1, hd.2.1]

/-- **The same ticks before**, and the same answers: the same calls. -/
theorem same_of_exact {pre pre' : List Tick} (hexact : Exact row w pre d) (hexact' : Exact row' w pre' d')
    (huser : row'.userId = row.userId) (htime : w.time row' = w.time row)
    (hpre : List.Forall₂ (Same (row.userId, w)) pre pre') (halike : Alike (row.userId, w) d d') :
    Same (row.userId, w) d d' := by
  have hday : dayOf d = dayOf d' := congrArg startOfUtcDay halike.1
  have hreached : Reached row w d ↔ Reached row' w d' := by
    unfold Reached
    rw [halike.1, htime]
  have hearlier := earlier_of_same hpre (dayOf d)
  obtain ⟨hidle', hfires'⟩ := hexact'
  rw [huser, ← hday, ← hearlier, ← hreached] at hidle' hfires'
  by_cases hdue : Reached row w d ∧ ¬ ∃ d₁ ∈ pre, dayOf d₁ = dayOf d ∧ WentThrough (row.userId, w) d₁
  · obtain ⟨hsends, hmarks⟩ := hexact.fires hdue.1 hdue.2
    obtain ⟨hsends', hmarks'⟩ := hfires' hdue.1 hdue.2
    have hcalled := called_of_alike halike hsends hsends'
    rw [hday] at hmarks'
    exact ⟨hday, ⟨through_of_alike halike hcalled hmarks', through_of_alike halike.symm hcalled.symm hmarks⟩, hcalled⟩
  · have hidle : ¬ Reached row w d ∨ ∃ d₁ ∈ pre, dayOf d₁ = dayOf d ∧ WentThrough (row.userId, w) d₁ := by
      by_cases h : Reached row w d
      · exact .inr (not_not.mp fun hnot => hdue ⟨h, hnot⟩)
      · exact .inl h
    obtain ⟨hcalled, hthrough⟩ := hexact.idle hidle
    obtain ⟨hcalled', hthrough'⟩ := hidle' hidle
    exact ⟨hday, iff_of_false hthrough hthrough', hcalled.trans hcalled'.symm⟩

theorem same_of_runs {ticks ticks' : List Tick}
    (hexact : ∀ pre d post, ticks = pre ++ d :: post → Exact row w pre d)
    (hexact' : ∀ pre d post, ticks' = pre ++ d :: post → Exact row' w pre d)
    (huser : row'.userId = row.userId) (htime : w.time row' = w.time row) {rest rest' : List Tick}
    (halike : List.Forall₂ (Alike (row.userId, w)) rest rest') :
    ∀ pre pre', ticks = pre ++ rest → ticks' = pre' ++ rest' → List.Forall₂ (Same (row.userId, w)) pre pre' →
      List.Forall₂ (Same (row.userId, w)) rest rest' := by
  induction halike with
  | nil => exact fun _ _ _ _ _ => .nil
  | @cons d d' rest rest' hd _ ih =>
    intro pre pre' hsplit hsplit' hpre
    have hsame := same_of_exact (hexact pre d rest hsplit) (hexact' pre' d' rest' hsplit') huser htime hpre hd
    refine .cons hsame (ih (pre ++ [d]) (pre' ++ [d']) (by simp [hsplit]) (by simp [hsplit']) ?_)
    exact List.rel_append hpre (.cons hsame .nil)

end TwoRuns

section Daily

variable {t₀ t : Table} {row : ScheduleConfig} {ticks : List Tick}

/-- **The triggers of a day.** A trigger is called in a tick only from its minute on, not once it has gone
through on the day, and until then in each such tick; what else is answered to the ticks does not change
what is called. -/
theorem triggers_daily (hfresh : Fresh t₀) (hr : Run tick anyStep t₀ t ticks)
    (hfetches : ∀ d ∈ ticks, Fetches d.events) (hrow : row ∈ t₀.configs) (w : Window) :
    (∀ pre d post, ticks = pre ++ d :: post →
      (called (row.userId, w) d ≠ [] → Reached row w d) ∧
      ((∃ d' ∈ pre, dayOf d' = dayOf d ∧ WentThrough (row.userId, w) d') → called (row.userId, w) d = []) ∧
      (Reached row w d → (¬ ∃ d' ∈ pre, dayOf d' = dayOf d ∧ WentThrough (row.userId, w) d') →
        Sends (row.userId, w) d)) ∧
    ∀ (t₀' t' : Table) (ticks' : List Tick) (row' : ScheduleConfig), Fresh t₀' → Run tick anyStep t₀' t' ticks' →
      (∀ d ∈ ticks', Fetches d.events) → row' ∈ t₀'.configs → row'.userId = row.userId →
      w.time row' = w.time row → List.Forall₂ (Alike (row.userId, w)) ticks ticks' →
      ticks.map (called (row.userId, w)) = ticks'.map (called (row.userId, w)) := by
  have hkept : Kept row w ticks t := .of_run hfresh hr hfetches hrow
  constructor
  · intro pre d post hsplit
    obtain ⟨hidle, hfires⟩ := hkept.exact pre d post hsplit
    refine ⟨fun hcalled => ?_, fun hthrough => (hidle (.inr hthrough)).1, fun hreached hnot =>
      (hfires hreached hnot).1⟩
    by_contra hnot
    exact hcalled (hidle (.inl hnot)).1
  · intro t₀' t' ticks' row' hfresh' hr' hfetches' hrow' huser htime halike
    have hkept' : Kept row' w ticks' t' := .of_run hfresh' hr' hfetches' hrow'
    have hsame := same_of_runs hkept.exact hkept'.exact huser htime halike [] [] rfl rfl .nil
    have hcalled := hsame.imp fun _ _ h => h.2.2
    rwa [← List.forall₂_eq_eq_eq, List.forall₂_map_left_iff, List.forall₂_map_right_iff]

end Daily

/-! ### A scout that fails once -/

/-- A user who is scouted at 10:00, reminded at 11:00 and finalised at 11:30. -/
def scheduledRow : ScheduleConfig where
  userId := "u"
  scoutTime := 36000000
  notifyTime := 39600000
  executeTime := 41400000

def scheduled : Table := ⟨0, [scheduledRow]⟩

/-- The calls of a tick at 10:00 whose trigger fails, of one at 10:05 that goes through, and of one at
10:10. -/
def scoutedTwice : List (List TickChoice) :=
  [[{ instant := 36000000 }, { instant := 36000000 }, { instant := 36000000, profile := some homeProfile },
      { instant := 36000000, error := some (.axios none "timeout of 5000ms exceeded") }],
    [{ instant := 36300000 }, { instant := 36300000 }, { instant := 36300000, profile := some homeProfile },
      { instant := 36300000 }, { instant := 36300000 }],
    [{ instant := 36600000 }, { instant := 36600000 }]]

/-- The whole of `Fetches`, computed. -/
def fetchesAll (evs : List TickEvent) : Bool :=
  evs.all fun e =>
    match e.call with
    | .findMany _ => e.choice.error.isNone
    | _ => true

theorem fetches_of_all {evs : List TickEvent} (h : fetchesAll evs = true) : Fetches evs := by
  intro e he today hcall
  have hthis := List.all_eq_true.mp h e he
  simpa [hcall] using hthis

theorem fresh_scheduled : Fresh scheduled := by
  refine ⟨by decide, fun row hrow w day hmark => ?_⟩
  rw [List.mem_singleton.mp hrow] at hmark
  cases w <;> cases hmark

theorem run_scoutedTwice : ∃ t ticks, runSteps tick anyStep scoutedTwice scheduled [] = some (t, ticks) ∧
    (∀ d ∈ ticks, fetchesAll d.events = true) ∧ ticks.map (called ("u", .scout)) =
      [[.triggerScoutRun "u" "home" "rest-1"], [.triggerScoutRun "u" "home" "rest-1"], []] :=
  ⟨_, _, rfl, by decide +kernel, by decide +kernel⟩

theorem triggers_daily_scoutedTwice : ∃ t ticks, Run tick anyStep scheduled t ticks ∧
    ticks.map (called ("u", .scout)) =
      [[.triggerScoutRun "u" "home" "rest-1"], [.triggerScoutRun "u" "home" "rest-1"], []] ∧
    ∀ pre d post, ticks = pre ++ d :: post →
      (∃ d' ∈ pre, dayOf d' = dayOf d ∧ WentThrough ("u", .scout) d') → called ("u", .scout) d = [] := by
  obtain ⟨t, ticks, hsteps, hfetches, hcalled⟩ := run_scoutedTwice
  have hr := Run.of_runSteps .nil hsteps
  refine ⟨t, ticks, hr, hcalled, fun pre d post hsplit => ?_⟩
  exact ((triggers_daily fresh_scheduled hr (fun d hd => fetches_of_all (hfetches d hd))
    (List.mem_singleton.mpr rfl) .scout).1 pre d post hsplit).2.1

end Gusto.Scheduler
