import Gusto.Escrow.Sequential
import Gusto.Lib.Fault

/-!
# What a rollover makes of the daily limit

* `spentSinceLimit`: what a run debits and captures since the limit was last computed;
* `dailyAvgLimit_eq`: the stored limit is the balance of that moment over the days left;
* `redistribute_limit`: when a rollover keeps the limit, and that it never raises it;
* `RolloverStep`: a tick, and the two ways in which a skipped meal reaches `redistribute`;
* `redistribute_harmless`: what a repeated or late `redistribute` leaves as it was.
-/

set_option autoImplicit false

namespace Gusto.Escrow

open Effects WalletCall

namespace WalletCall

/-- A call moves the row of its user and nothing else. -/
theorem call_eq (c : WalletCall) (t : Subscriptions) :
    call t c = Function.update t c.userId (c.next (t c.userId)) := by
  funext u
  by_cases hu : u = c.userId
  · subst hu
    rw [call_self, Function.update_self]
  · rw [call_of_ne c t hu, Function.update_of_ne hu]

theorem next_of_apply {c : WalletCall} {row : Option Subscription} {sub : Subscription}
    (h : c.apply row = .ok sub) : c.next row = some sub := by
  simp [next, h]

theorem next_of_refused {c : WalletCall} {row : Option Subscription} {e : Err}
    (h : c.apply row = .error e) : c.next row = row := by
  simp [next, h]

/-- A call after `c` that answers as `c` did leaves the row that `c` left. -/
theorem next_next {c c' : WalletCall} {row : Option Subscription}
    (h : c'.apply (c.next row) = c.apply row) : c'.next (c.next row) = c.next row := by
  cases hc : c.apply row with
  | ok sub => rw [next_of_apply (h.trans hc), next_of_apply hc]
  | error e => rw [next_of_refused (h.trans hc)]

end WalletCall

/-! ### What was spent since the limit was computed -/

/-- What is spent since the limit was last computed, once the call is accepted. -/
def WalletCall.sinceLimit : WalletCall → ℤ → ℤ
  | deposit _ _, _ | tick _, _ | redistribute _, _ => 0
  | debit _ a _, s | captureReservation _ a, s => s + a
  | reserve _ _, s | releaseReservation _ _, s => s

/-- The table after one more call, and what is spent by the user since the last limit. -/
def spend (u : String) (s : Subscriptions × ℤ) (c : WalletCall) : Subscriptions × ℤ :=
  (call s.1 c, if c.userId = u ∧ (c.apply (s.1 u)).isOk = true then c.sinceLimit s.2 else s.2)

/-- What the run `cs` debits and captures of the user's balance since its last accepted deposit,
tick or redistribution. -/
def spentSinceLimit (cs : List WalletCall) (u : String) : ℤ :=
  (cs.foldl (spend u) (fun _ => none, 0)).2

theorem foldl_spend_fst (cs : List WalletCall) (u : String) (s : Subscriptions × ℤ) :
    (cs.foldl (spend u) s).1 = afterFrom s.1 cs := by
  induction cs generalizing s with
  | nil => rfl
  | cons c cs ih => exact ih (spend u s c)

theorem spentSinceLimit_snoc (cs : List WalletCall) (c : WalletCall) (u : String) :
    spentSinceLimit (cs ++ [c]) u =
      if c.userId = u ∧ (c.apply (after cs u)).isOk = true then c.sinceLimit (spentSinceLimit cs u)
      else spentSinceLimit cs u := by
  simp only [spentSinceLimit, List.foldl_append, List.foldl_cons, List.foldl_nil, spend,
    foldl_spend_fst]
  rfl

/-! ### The limit and the balance it was computed from -/

/-- The limit is the balance of the moment it was computed over the days left, and `spent` has gone
from the balance since. -/
structure LimitOf (spent : ℤ) (sub : Subscription) : Prop where
  spent_nonneg : 0 ≤ spent
  eq : sub.dailyAvgLimit = (sub.currentBalance + spent) / max sub.daysLeft 1

/-- An accepted call computes the limit, or spends, or touches neither side. -/
theorem limitOf_accepts {c : WalletCall} {row : Option Subscription} {sub : Subscription} {s : ℤ}
    (hrow : ∀ old, row = some old → LimitOf s old) (h : Accepts c row sub) :
    LimitOf (c.sinceLimit s) sub := by
  cases h with
  | deposit pos => exact ⟨Int.le_refl 0, by simp only [WalletCall.sinceLimit, Int.add_zero]; rfl⟩
  | @tick u old pos =>
    refine ⟨Int.le_refl 0, ?_⟩
    simp only [WalletCall.sinceLimit, Int.add_zero]
    by_cases hd : 0 < old.daysLeft - 1
    · rw [if_pos hd, Int.max_eq_left (by omega)]
    · rw [if_neg hd, Int.max_eq_right (by omega), Int.ediv_one]
  | redistribute => exact ⟨Int.le_refl 0, by simp only [WalletCall.sinceLimit, Int.add_zero]⟩
  | debit pos le =>
    obtain ⟨hs, heq⟩ := hrow _ rfl
    refine ⟨?_, ?_⟩
    · simp only [WalletCall.sinceLimit]
      omega
    · simp only [WalletCall.sinceLimit]
      rw [heq]
      congr 1
      omega
  | captureReservation pos le =>
    obtain ⟨hs, heq⟩ := hrow _ rfl
    refine ⟨?_, ?_⟩
    · simp only [WalletCall.sinceLimit]
      omega
    · simp only [WalletCall.sinceLimit]
      rw [heq]
      congr 1
      omega
  | reserve pos le => exact ⟨(hrow _ rfl).spent_nonneg, (hrow _ rfl).eq⟩
  | releaseReservation pos le => exact ⟨(hrow _ rfl).spent_nonneg, (hrow _ rfl).eq⟩

/-- In every run the stored limit is the one computed before the last spending. -/
theorem dailyAvgLimit_eq (cs : List WalletCall) (u : String) {sub : Subscription}
    (h : after cs u = some sub) : LimitOf (spentSinceLimit cs u) sub := by
  induction cs using List.reverseRecOn generalizing sub with
  | nil => cases h
  | append_singleton cs c ih =>
    rw [spentSinceLimit_snoc]
    by_cases hu : c.userId = u
    · subst hu
      rw [after_snoc_self] at h
      cases happ : c.apply (after cs c.userId) with
      | ok new =>
        rw [next_of_apply happ] at h
        cases h
        rw [if_pos ⟨rfl, rfl⟩]
        exact limitOf_accepts (fun old ho => ih ho) (accepts_of_apply happ)
      | error e =>
        rw [next_of_refused happ] at h
        rw [if_neg (by simp [Except.isOk, Except.toBool])]
        exact ih h
    · rw [if_neg (fun hc => hu hc.1)]
      rw [after_snoc_of_ne cs (Ne.symm hu)] at h
      exact ih h

/-- A smaller balance gives the same limit when it lacks no more than the remainder. -/
theorem ediv_le_of_spent {b s d : ℤ} (hd : 0 < d) : (b + s) / d ≤ b / d ↔ s ≤ (b + s) % d := by
  have hsplit := Int.mul_ediv_add_emod (b + s) d
  rw [Int.le_ediv_iff_mul_le hd, Int.mul_comm _ d]
  omega

theorem apply_redistribute (u : String) (sub : Subscription) :
    (redistribute u).apply (some sub) =
      .ok { sub with dailyAvgLimit := sub.currentBalance / max sub.daysLeft 1 } :=
  apply_of_accepts .redistribute

/-- **A rollover and the limit.** After every run, `redistribute` computes the limit from the balance
and the days left. It never raises the limit, and keeps it exactly when what was debited and captured
since the limit was last computed is at most the remainder left over by that computation. -/
theorem redistribute_limit (cs : List WalletCall) (u : String) (sub : Subscription)
    (h : after cs u = some sub) :
    ∃ new, after (cs ++ [redistribute u]) u = some new ∧
      new = { sub with dailyAvgLimit := sub.currentBalance / max sub.daysLeft 1 } ∧
      new.dailyAvgLimit ≤ sub.dailyAvgLimit ∧
      (sub.dailyAvgLimit ≤ new.dailyAvgLimit ↔
        spentSinceLimit cs u ≤
          (sub.currentBalance + spentSinceLimit cs u) % max sub.daysLeft 1) := by
  have hd : 0 < max sub.daysLeft 1 := by omega
  obtain ⟨hs, heq⟩ := dailyAvgLimit_eq cs u h
  have hrow := after_snoc_self cs (redistribute u)
  rw [show (redistribute u).userId = u from rfl, h, next_of_apply (apply_redistribute u sub)] at hrow
  refine ⟨_, hrow, rfl, ?_, ?_⟩
  · rw [heq]
    exact Int.ediv_le_ediv hd (by omega)
  · rw [heq]
    exact ediv_le_of_spent hd

/-- A deposit that nothing was spent of keeps its limit. -/
theorem redistribute_limit_deposit :
    ∃ new, after [deposit "user-1" 3000, redistribute "user-1"] "user-1" = some new ∧
      new.dailyAvgLimit = 100 := by
  obtain ⟨new, hnew, rfl, -, -⟩ := redistribute_limit [deposit "user-1" 3000] "user-1"
    { totalDeposited := 3000, currentBalance := 3000, daysLeft := 30, dailyAvgLimit := 100 }
    (by decide)
  exact ⟨_, hnew, by decide⟩

/-- After a debit of a tenth of the deposit, a skipped meal cuts the limit by a tenth. -/
theorem redistribute_shrinks :
    ¬ ∀ (cs : List WalletCall) (u : String) (sub new : Subscription), after cs u = some sub →
      after (cs ++ [redistribute u]) u = some new → sub.dailyAvgLimit ≤ new.dailyAvgLimit := by
  intro h
  have := h [deposit "user-1" 3000, debit "user-1" 300 0] "user-1"
    { totalDeposited := 3000, currentBalance := 2700, daysLeft := 30, dailyAvgLimit := 100 }
    { totalDeposited := 3000, currentBalance := 2700, daysLeft := 30, dailyAvgLimit := 90 }
    (by decide) (by decide)
  simp at this

/-! ### Repeated and late rollovers -/

section Rows

variable (u : String)

@[simp] theorem next_redistribute (sub : Subscription) :
    (redistribute u).next (some sub) =
      some { sub with dailyAvgLimit := sub.currentBalance / max sub.daysLeft 1 } :=
  next_of_apply (apply_redistribute u sub)

@[simp] theorem apply_redistribute_none :
    (redistribute u).apply none = .error (WalletService.noSubscription u) := rfl

/-- A second rollover writes what the first one wrote. -/
theorem redistribute_redistribute (row : Option Subscription) :
    (redistribute u).apply ((redistribute u).next row) = (redistribute u).apply row := by
  cases row with
  | none => rfl
  | some sub => rw [next_redistribute, apply_redistribute, apply_redistribute]

theorem apply_tick {sub : Subscription} (h : 0 < sub.daysLeft) :
    (tick u).apply (some sub) =
      .ok { sub with
        daysLeft := sub.daysLeft - 1
        dailyAvgLimit := if 0 < sub.daysLeft - 1 then sub.currentBalance / (sub.daysLeft - 1)
          else sub.currentBalance } :=
  apply_of_accepts (.tick h)

/-- A row that has days left, or no row. -/
def HasDays (row : Option Subscription) : Prop := ∀ sub, row = some sub → 0 < sub.daysLeft

/-- A tick does not read the limit that a rollover wrote. -/
theorem tick_redistribute {row : Option Subscription} (h : HasDays row) :
    (tick u).apply ((redistribute u).next row) = (tick u).apply row := by
  cases row with
  | none => rfl
  | some sub => rw [next_redistribute, apply_tick u (h sub rfl), apply_tick u (by exact h sub rfl)]

theorem next_tick_redistribute {row : Option Subscription} (h : HasDays row) :
    (tick u).next ((redistribute u).next row) = (tick u).next row := by
  cases row with
  | none => rfl
  | some sub =>
    have htick := apply_tick u (h sub rfl)
    rw [next_of_apply htick, next_of_apply ((tick_redistribute u h).trans htick)]

/-- The two formulas agree on every day, the last one included. -/
theorem redistribute_tick {row : Option Subscription} (h : HasDays row) :
    (redistribute u).apply ((tick u).next row) = (tick u).apply row := by
  cases row with
  | none => rfl
  | some sub =>
    have hpos := h sub rfl
    rw [next_of_apply (apply_tick u hpos), apply_redistribute, apply_tick u hpos]
    by_cases hd : 0 < sub.daysLeft - 1
    · simp only [if_pos hd]
      rw [Int.max_eq_left (by omega)]
    · simp only [if_neg hd]
      rw [Int.max_eq_right (by omega), Int.ediv_one]

theorem redistribute_deposit {a : ℤ} (h : 0 < a) (row : Option Subscription) :
    (redistribute u).apply ((deposit u a).next row) = (deposit u a).apply row := by
  have hdep := apply_of_accepts (.deposit h : Accepts (deposit u a) row _)
  rw [next_of_apply hdep, apply_redistribute, hdep]
  rfl

end Rows

/-- Two calls commute on a row: each is accepted, or refused with the same error, whether or not the
other came first, and both orders leave the same row. -/
structure CommuteOn (c c' : WalletCall) (row : Option Subscription) : Prop where
  left : (c.apply (c'.next row)).map (fun _ => ()) = (c.apply row).map fun _ => ()
  right : (c'.apply (c.next row)).map (fun _ => ()) = (c'.apply row).map fun _ => ()
  row : c.next (c'.next row) = c'.next (c.next row)

/-- Calls that are both refused leave the row to each other. -/
theorem commuteOn_of_refused {c c' : WalletCall} {row : Option Subscription} {e e' : Err}
    (h : c.apply row = .error e) (h' : c'.apply row = .error e') : CommuteOn c c' row := by
  have hn := next_of_refused h
  have hn' := next_of_refused h'
  exact ⟨by rw [hn'], by rw [hn], by rw [hn', hn, hn']⟩

/-- A call that decides without the limit and writes the reserved amount only. -/
structure OnlyReserves (c : WalletCall) : Prop where
  reads : ∀ sub limit, c.data (some { sub with dailyAvgLimit := limit }) = c.data (some sub)
  writes : ∀ row d, c.data row = .ok d → ∃ r, d = { reservedAmount := some r }
  needs : ∃ e, c.apply none = .error e

theorem onlyReserves_reserve (u : String) (a : ℤ) : OnlyReserves (reserve u a) := by
  refine ⟨fun sub limit => rfl, fun row d hd => ?_, ?_⟩
  · obtain ⟨sub, rfl⟩ := row_of_data (by simp) hd
    obtain ⟨-, hd⟩ := passed_of_ok hd
    obtain ⟨-, hd⟩ := passed_of_ok hd
    cases hd
    exact ⟨_, rfl⟩
  · by_cases h : a ≤ 0
    · exact ⟨_, by simp only [apply, data, if_pos h]; rfl⟩
    · exact ⟨_, by simp only [apply, data, if_neg h]; rfl⟩

theorem onlyReserves_releaseReservation (u : String) (a : ℤ) :
    OnlyReserves (releaseReservation u a) := by
  refine ⟨fun sub limit => rfl, fun row d hd => ?_, ?_⟩
  · obtain ⟨sub, rfl⟩ := row_of_data (by simp) hd
    obtain ⟨-, hd⟩ := passed_of_ok hd
    obtain ⟨-, hd⟩ := passed_of_ok hd
    cases hd
    exact ⟨_, rfl⟩
  · by_cases h : a ≤ 0
    · exact ⟨_, by simp only [apply, data, if_pos h]; rfl⟩
    · exact ⟨_, by simp only [apply, data, if_neg h]; rfl⟩

/-- The rollover writes the one column that such a call neither reads nor writes. -/
theorem commuteOn_redistribute {c : WalletCall} (hc : OnlyReserves c) (u : String)
    (row : Option Subscription) : CommuteOn (redistribute u) c row := by
  cases row with
  | none =>
    obtain ⟨e, he⟩ := hc.needs
    exact commuteOn_of_refused (apply_redistribute_none u) he
  | some sub =>
    have hdata := hc.reads sub (sub.currentBalance / max sub.daysLeft 1)
    cases hd : c.data (some sub) with
    | ok d =>
      obtain ⟨r, rfl⟩ := hc.writes _ _ hd
      have h₀ : c.apply (some sub) = .ok { sub with reservedAmount := r } :=
        apply_eq_ok_iff.mpr ⟨_, hd, rfl⟩
      have h₁ : c.apply (some { sub with
            dailyAvgLimit := sub.currentBalance / max sub.daysLeft 1 }) =
          .ok { sub with
            dailyAvgLimit := sub.currentBalance / max sub.daysLeft 1, reservedAmount := r } :=
        apply_eq_ok_iff.mpr ⟨_, hdata.trans hd, rfl⟩
      constructor
      · rw [next_of_apply h₀, apply_redistribute, apply_redistribute]
        rfl
      · rw [next_redistribute, h₁, h₀]
        rfl
      · rw [next_of_apply h₀, next_redistribute, next_redistribute, next_of_apply h₁]
    | error e =>
      have h₀ : c.apply (some sub) = .error e := by rw [apply, hd]; rfl
      have h₁ : c.apply (some { sub with
          dailyAvgLimit := sub.currentBalance / max sub.daysLeft 1 }) = .error e := by
        rw [apply, hdata, hd]; rfl
      constructor
      · rw [next_of_refused h₀]
      · rw [next_redistribute, h₁, h₀]
      · rw [next_of_refused h₀, next_redistribute, next_of_refused h₁]

/-! ### Around one tick -/

/-- The rollover of `/wallet/rollover`, called by the orchestrator on a skip. -/
def WalletService.rollover (userId : String) : Wallet Subscription :=
  RolloverService.redistribute userId

/-- The handler of `MealSkipped`. -/
def MealSkippedConsumer.handle (userId : String) : Wallet Unit := do
  let _ ← RolloverService.redistribute userId
  return ()

/-- What happens to a wallet around a skipped meal: the synchronous rollover, a delivery of
`MealSkipped`, and the tick of the day. -/
inductive RolloverStep
  | rollover
  | mealSkipped
  | tick
  deriving DecidableEq, Repr

namespace RolloverStep

/-- What a step runs for the user. -/
def prog (u : String) : RolloverStep → Wallet Unit
  | rollover => do
    let _ ← WalletService.rollover u
    return ()
  | mealSkipped => MealSkippedConsumer.handle u
  | tick => do
    let _ ← WalletService.tick u
    return ()

/-- The table after the steps, one after the other. -/
def afterSteps (u : String) (t : Subscriptions) (steps : List RolloverStep) : Subscriptions :=
  steps.foldl (fun t s => ((s.prog u).eval exec none t).2) t

/-- The call a step makes. -/
def toCall (u : String) : RolloverStep → WalletCall
  | rollover | mealSkipped => .redistribute u
  | tick => .tick u

theorem eval_prog (u : String) (s : RolloverStep) (t : Subscriptions) :
    ((s.prog u).eval exec none t).2 = call t (s.toCall u) := by
  have hbind : ∀ p : Wallet Subscription,
      ((p >>= fun _ => (return () : Wallet Unit)).eval exec none t).2 = (p.eval exec none t).2 := by
    intro p
    rw [Prog.eval_bind]
    cases h : p.eval exec none t with
    | mk r t' => cases r <;> rfl
  cases s with
  | rollover => exact hbind _
  | mealSkipped => exact hbind _
  | tick => exact hbind _

theorem afterSteps_cons (u : String) (t : Subscriptions) (s : RolloverStep)
    (steps : List RolloverStep) :
    afterSteps u t (s :: steps) = afterSteps u (call t (s.toCall u)) steps := by
  rw [afterSteps, List.foldl_cons, eval_prog]
  rfl

/-- Where a rollover changes nothing, any number of them change nothing. -/
theorem afterSteps_rollovers {u : String} {t : Subscriptions}
    (ht : call t (.redistribute u) = t) {steps : List RolloverStep} (h : steps.count tick = 0) :
    afterSteps u t steps = t := by
  induction steps with
  | nil => rfl
  | cons s steps ih =>
    have hs : s.toCall u = .redistribute u := by
      cases s with
      | tick => simp at h
      | rollover => rfl
      | mealSkipped => rfl
    rw [afterSteps_cons, hs, ht]
    exact ih (Nat.eq_zero_of_le_zero (h ▸ List.count_le_count_cons))

/-- A rollover before the tick is overwritten by it. -/
theorem call_tick_of_redistribute {u : String} {t : Subscriptions} (h : HasDays (t u)) :
    call (call t (.redistribute u)) (.tick u) = call t (.tick u) := by
  simp only [call_eq, WalletCall.userId, Function.update_self, Function.update_idem,
    next_tick_redistribute u h]

/-- A rollover after the tick finds the limit it would write. -/
theorem call_redistribute_of_tick {u : String} {t : Subscriptions} (h : HasDays (t u)) :
    call (call t (.tick u)) (.redistribute u) = call t (.tick u) := by
  simp only [call_eq, WalletCall.userId, Function.update_self, Function.update_idem,
    next_next (redistribute_tick u h)]

/-- A rollover leaves the days of the row. -/
theorem hasDays_redistribute {u : String} {t : Subscriptions} (h : HasDays (t u)) :
    HasDays (call t (.redistribute u) u) := by
  intro sub hsub
  rw [call_eq, WalletCall.userId, Function.update_self] at hsub
  cases hrow : t u with
  | none =>
    rw [hrow] at hsub
    cases hsub
  | some old =>
    rw [hrow, next_redistribute] at hsub
    cases hsub
    exact h old hrow

/-- **Around one tick.** However many rollovers come before and after it, by either way, one tick
leaves what it leaves alone. -/
theorem afterSteps_eq_tick {u : String} {t : Subscriptions} {steps : List RolloverStep}
    (h : HasDays (t u)) (hone : steps.count tick = 1) :
    afterSteps u t steps = call t (.tick u) := by
  induction steps generalizing t with
  | nil => cases hone
  | cons s steps ih =>
    rw [afterSteps_cons]
    by_cases hs : s = tick
    · subst hs
      rw [List.count_cons_self] at hone
      exact afterSteps_rollovers (call_redistribute_of_tick h) (by omega)
    · have hcall : s.toCall u = .redistribute u := by
        cases s with
        | tick => exact absurd rfl hs
        | rollover => rfl
        | mealSkipped => rfl
      rw [List.count_cons_of_ne hs] at hone
      rw [hcall, ih (hasDays_redistribute h) hone, call_tick_of_redistribute h]

end RolloverStep

/-- **Repeated and late rollovers.** On every row: a second `redistribute` answers and leaves what the
first did; with days left, a tick does the same with a rollover before it, and a rollover after it
changes nothing; nor does one after a deposit; and a rollover commutes with `reserve` and
`releaseReservation`. So the rollovers of a skipped meal, synchronous or delivered any number of
times, leave with one tick among them the table that the tick leaves. -/
theorem redistribute_harmless (u : String) (row : Option Subscription) :
    ((redistribute u).apply ((redistribute u).next row) = (redistribute u).apply row ∧
      (redistribute u).next ((redistribute u).next row) = (redistribute u).next row) ∧
    (HasDays row →
      (tick u).apply ((redistribute u).next row) = (tick u).apply row ∧
      (redistribute u).apply ((tick u).next row) = (tick u).apply row ∧
      (tick u).next ((redistribute u).next row) = (tick u).next row ∧
      (redistribute u).next ((tick u).next row) = (tick u).next row) ∧
    (∀ a, 0 < a → (redistribute u).apply ((deposit u a).next row) = (deposit u a).apply row ∧
      (redistribute u).next ((deposit u a).next row) = (deposit u a).next row) ∧
    (∀ a, CommuteOn (redistribute u) (reserve u a) row ∧
      CommuteOn (redistribute u) (releaseReservation u a) row) ∧
    (∀ t : Subscriptions, t u = row → HasDays row → ∀ steps : List RolloverStep,
      steps.count .tick = 1 →
        RolloverStep.afterSteps u t steps = ((WalletService.tick u).eval exec none t).2) := by
  have htwice := redistribute_redistribute u row
  refine ⟨⟨htwice, next_next htwice⟩, fun h => ?_, fun a ha => ?_, fun a => ?_,
    fun t hrow h steps hone => ?_⟩
  · have hlate := redistribute_tick u h
    exact ⟨tick_redistribute u h, hlate, next_tick_redistribute u h, next_next hlate⟩
  · have hdep := redistribute_deposit u ha row
    exact ⟨hdep, next_next hdep⟩
  · exact ⟨commuteOn_redistribute (onlyReserves_reserve u a) u row,
      commuteOn_redistribute (onlyReserves_releaseReservation u a) u row⟩
  · subst hrow
    exact RolloverStep.afterSteps_eq_tick h hone

/-- The skip of a first day, its event delivered before the tick and again after it. -/
theorem redistribute_harmless_firstDay :
    RolloverStep.afterSteps "user-1" (after [deposit "user-1" 3000])
        [.rollover, .mealSkipped, .tick, .mealSkipped] "user-1" =
      some
        { totalDeposited := 3000, currentBalance := 3000, daysLeft := 29, dailyAvgLimit := 103 } := by
  have hrow : after [deposit "user-1" 3000] "user-1" = some
      { totalDeposited := 3000, currentBalance := 3000, daysLeft := 30, dailyAvgLimit := 100 } := by
    decide
  have hdays : HasDays (after [deposit "user-1" 3000] "user-1") := by
    intro sub hsub
    rw [hrow] at hsub
    cases hsub
    decide
  rw [(redistribute_harmless "user-1" _).2.2.2.2 _ rfl hdays _ (by decide)]
  decide

end Gusto.Escrow
