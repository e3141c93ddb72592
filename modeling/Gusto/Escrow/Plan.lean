import Gusto.Escrow.Sequential
import Mathlib.Tactic.Linarith

/-!
# Spending along the daily limit

The limit is recomputed by a deposit, by every tick and by every redistribution, each time by a
division that rounds down.

* `Solvent`: what holds of the row of a user when a day starts: the days that are left can all be
  spent at the limit;
* `solvent_order`, `solvent_skip`: a day of either kind keeps it, and its calls are accepted;
* `safePlan`: what follows for every plan of a cycle.
-/

set_option autoImplicit false

namespace Gusto.Escrow

open WalletCall

/-! ### What is asked -/

/-- A day of the plan: an order, or a skip with one redistribution or more. -/
inductive Day
  | order (amount : ℤ)
  | skip (more : ℕ)
  deriving DecidableEq, Repr

/-- The calls of a day. -/
def Day.calls (u : String) : Day → List WalletCall
  | .order amount => [reserve u amount, captureReservation u amount, tick u]
  | .skip more => List.replicate (more + 1) (redistribute u) ++ [tick u]

/-- The calls of a plan. -/
def planCalls (u : String) (days : List Day) : List WalletCall := days.flatMap (Day.calls u)

/-- The daily limit in a row. -/
def limitOf (row : Option Subscription) : ℤ := (row.map (·.dailyAvgLimit)).getD 0

/-- The amount of an order is positive, and within the limit that the day starts with. -/
def Day.Within (row : Option Subscription) : Day → Prop
  | .order amount => 0 < amount ∧ amount ≤ limitOf row
  | .skip _ => True

/-- Each order of the plan is within the limit of its day, from the table `t`. -/
def Affordable (u : String) : Subscriptions → List Day → Prop
  | _, [] => True
  | t, day :: days => day.Within (t u) ∧ Affordable u (afterFrom t (day.calls u)) days

/-- The ticks among the calls. -/
def ticks (cs : List WalletCall) : ℕ := cs.countP fun
  | tick _ => true
  | _ => false

/-- The plan is carried out from the table `t`, in a cycle of which `left` days are left: its calls
are accepted, the balance is never negative, what is left covers the limit on every day that starts,
and the limit does not fall before the last tick of the cycle. -/
structure SafePlan (u : String) (left : ℕ) (t : Subscriptions) (days : List Day) : Prop where
  accepted : AllAccepted t (planCalls u days)
  nonneg : ∀ pre, pre <+: planCalls u days → ∃ sub, afterFrom t pre u = some sub ∧ 0 ≤ sub.currentBalance
  covered : ∀ done, done <+: days → ∃ sub, afterFrom t (planCalls u done) u = some sub ∧
    sub.dailyAvgLimit * sub.daysLeft ≤ sub.currentBalance
  rising : ∀ pre c, pre ++ [c] <+: planCalls u days → ticks (pre ++ [c]) < left →
    limitOf (afterFrom t pre u) ≤ limitOf (afterFrom t (pre ++ [c]) u)

/-! ### Accepted calls, one after the other -/

/-- An accepted call on the row `sub` that leaves `sub'`, a balance that is not negative, and a limit
that is not lower, unless it is the tick of the last day. -/
structure Link (c : WalletCall) (sub sub' : Subscription) : Prop where
  accepts : Accepts c (some sub) sub'
  nonneg : 0 ≤ sub'.currentBalance
  days : sub'.daysLeft = sub.daysLeft - ticks [c]
  rising : sub.dailyAvgLimit ≤ sub'.dailyAvgLimit ∨ ticks [c] = 1 ∧ sub.daysLeft = 1

/-- Accepted calls of the user `u`, from the row `sub` to the row `sub'`. -/
inductive Chain (u : String) : Subscription → List WalletCall → Subscription → Prop
  | nil (sub : Subscription) : Chain u sub [] sub
  | cons {sub mid sub' : Subscription} {c : WalletCall} {cs : List WalletCall} (hc : c.userId = u)
      (link : Link c sub mid) (rest : Chain u mid cs sub') : Chain u sub (c :: cs) sub'

namespace Chain

variable {u : String} {sub mid sub' : Subscription} {cs cs' : List WalletCall} {c : WalletCall}
  {t : Subscriptions}

theorem append (h : Chain u sub cs mid) (h' : Chain u mid cs' sub') : Chain u sub (cs ++ cs') sub' := by
  induction h with
  | nil => exact h'
  | cons hc link _ ih => exact .cons hc link (ih h')

theorem single (hc : c.userId = u) (link : Link c sub sub') : Chain u sub [c] sub' :=
  .cons hc link (.nil _)

/-- The calls before, and the row between. -/
theorem split (h : Chain u sub (cs ++ cs') sub') :
    ∃ mid, Chain u sub cs mid ∧ Chain u mid cs' sub' := by
  induction cs generalizing sub with
  | nil => exact ⟨sub, .nil _, h⟩
  | cons c cs ih =>
    cases h with
    | cons hc link rest =>
      obtain ⟨mid, h1, h2⟩ := ih rest
      exact ⟨mid, .cons hc link h1, h2⟩

/-- The row of the user once the calls have run. -/
theorem afterFrom (h : Chain u sub cs sub') (ht : t u = some sub) :
    Escrow.afterFrom t cs u = some sub' ∧ AllAccepted t cs := by
  induction h generalizing t with
  | nil => exact ⟨ht, trivial⟩
  | @cons sub mid sub' c cs hc link _ ih =>
    subst hc
    have happly := apply_of_accepts link.accepts
    have hrow : call t c c.userId = some mid := by
      rw [call_self, next, ht, happly]
    obtain ⟨h1, h2⟩ := ih hrow
    exact ⟨h1, ⟨mid, by rw [ht]; exact happly⟩, h2⟩

theorem nonneg (h : Chain u sub cs sub') (hsub : 0 ≤ sub.currentBalance) : 0 ≤ sub'.currentBalance := by
  induction h with
  | nil => exact hsub
  | cons _ link _ ih => exact ih link.nonneg

theorem days (h : Chain u sub cs sub') : sub'.daysLeft = sub.daysLeft - ticks cs := by
  induction h with
  | nil => simp [ticks]
  | @cons sub mid sub' c cs _ link _ ih =>
    have hticks : ticks (c :: cs) = ticks [c] + ticks cs := by
      rw [← List.singleton_append, ticks, List.countP_append]
      rfl
    rw [ih, link.days, hticks]
    omega

end Chain

/-! ### The days -/

/-- When a day starts, of which `left` are left: nothing is held, and the days left can all be spent
at the limit. -/
structure Solvent (left : ℕ) (sub : Subscription) : Prop where
  free : sub.reservedAmount = 0
  days : sub.daysLeft = left
  limit : 0 ≤ sub.dailyAvgLimit
  covered : sub.dailyAvgLimit * left ≤ sub.currentBalance

section Days

variable {u : String} {n : ℕ} {sub : Subscription}

theorem Solvent.nonneg (h : Solvent n sub) : 0 ≤ sub.currentBalance :=
  (mul_nonneg h.limit (by omega)).trans h.covered

/-- The tick at the end of a day after which the limit still covers the days left. -/
theorem solvent_tick (hfree : sub.reservedAmount = 0) (hdays : sub.daysLeft = n + 1)
    (hlimit : 0 ≤ sub.dailyAvgLimit) (hcov : sub.dailyAvgLimit * n ≤ sub.currentBalance) :
    ∃ sub', Chain u sub [tick u] sub' ∧ Solvent n sub' := by
  have hbal : 0 ≤ sub.currentBalance := (mul_nonneg hlimit (by omega)).trans hcov
  have hleft : sub.daysLeft - 1 = n := by omega
  refine ⟨_, .single rfl ⟨.tick (by omega), hbal, by simp [ticks], ?_⟩, hfree, hleft, ?_, ?_⟩
  · by_cases hn : 0 < (n : ℤ)
    · left
      simp only [hleft, hn, if_true]
      exact (Int.le_ediv_iff_mul_le hn).mpr hcov
    · exact .inr ⟨rfl, by omega⟩
  · simp only [hleft]
    split
    · exact Int.ediv_nonneg hbal (by omega)
    · exact hbal
  · simp only [hleft]
    split
    · rename_i hn
      exact Int.ediv_mul_le _ hn.ne'
    · rw [show (n : ℤ) = 0 by omega, mul_zero]
      exact hbal

/-- An order within the limit leaves what the limit needs for the days after it. -/
theorem solvent_order {amount : ℤ} (h : Solvent (n + 1) sub) (hpos : 0 < amount)
    (hle : amount ≤ sub.dailyAvgLimit) :
    ∃ sub', Chain u sub ((Day.order amount).calls u) sub' ∧ Solvent n sub' := by
  have hdays := h.days
  have hcov : sub.dailyAvgLimit * n + sub.dailyAvgLimit ≤ sub.currentBalance := by
    have := h.covered
    push_cast at this
    linarith
  have hrest : 0 ≤ sub.dailyAvgLimit * n := mul_nonneg h.limit (by omega)
  have hfree := h.free
  have hreserve : Link (reserve u amount) sub { sub with reservedAmount := sub.reservedAmount + amount } :=
    ⟨.reserve hpos (by omega), h.nonneg, by simp [ticks], .inl le_rfl⟩
  have hcapture : Link (captureReservation u amount)
      { sub with reservedAmount := sub.reservedAmount + amount }
      { sub with
        currentBalance := sub.currentBalance - amount
        reservedAmount := sub.reservedAmount + amount - amount } :=
    ⟨.captureReservation hpos (by simp only; omega), by simp only; omega, by simp [ticks],
      .inl le_rfl⟩
  obtain ⟨sub', htick, hsolvent⟩ : ∃ sub', Chain u
      { sub with
        currentBalance := sub.currentBalance - amount
        reservedAmount := sub.reservedAmount + amount - amount } [tick u] sub' ∧ Solvent n sub' :=
    solvent_tick (by simp only; omega) (by simp only; omega) h.limit (by simp only; omega)
  exact ⟨sub', .cons rfl hreserve (.cons rfl hcapture htick), hsolvent⟩

/-- A redistribution divides what is left among the days left. -/
theorem solvent_redistribute (h : Solvent (n + 1) sub) :
    ∃ sub', Chain u sub [redistribute u] sub' ∧ Solvent (n + 1) sub' := by
  have hdays := h.days
  have hmax : max sub.daysLeft 1 = (n + 1 : ℕ) := by omega
  have hpos : (0 : ℤ) < (n + 1 : ℕ) := by omega
  refine ⟨_, .single rfl ⟨.redistribute, h.nonneg, by simp [ticks], .inl ?_⟩, h.free, hdays, ?_, ?_⟩
  · simp only [hmax]
    exact (Int.le_ediv_iff_mul_le hpos).mpr h.covered
  · exact Int.ediv_nonneg h.nonneg (by omega)
  · simp only [hmax]
    exact Int.ediv_mul_le _ hpos.ne'

theorem solvent_redistributes (k : ℕ) (h : Solvent (n + 1) sub) :
    ∃ sub', Chain u sub (List.replicate k (redistribute u)) sub' ∧ Solvent (n + 1) sub' := by
  induction k generalizing sub with
  | zero => exact ⟨sub, .nil _, h⟩
  | succ k ih =>
    obtain ⟨mid, hmid, hsolvent⟩ := solvent_redistribute (u := u) h
    obtain ⟨sub', hsub', hsolvent'⟩ := ih hsolvent
    exact ⟨sub', hmid.append hsub', hsolvent'⟩

theorem solvent_skip (more : ℕ) (h : Solvent (n + 1) sub) :
    ∃ sub', Chain u sub ((Day.skip more).calls u) sub' ∧ Solvent n sub' := by
  obtain ⟨mid, hmid, hsolvent⟩ := solvent_redistributes (u := u) (more + 1) h
  have hcov : mid.dailyAvgLimit * n + mid.dailyAvgLimit ≤ mid.currentBalance := by
    have := hsolvent.covered
    push_cast at this
    linarith
  have hlimit := hsolvent.limit
  obtain ⟨sub', htick, hsolvent'⟩ := solvent_tick (u := u) hsolvent.free hsolvent.days hlimit
    (by omega)
  exact ⟨sub', hmid.append htick, hsolvent'⟩

/-- **A day** within the limit is carried out, and leaves the user solvent. -/
theorem solvent_day {day : Day} (h : Solvent (n + 1) sub) (hday : day.Within (some sub)) :
    ∃ sub', Chain u sub (day.calls u) sub' ∧ Solvent n sub' := by
  cases day with
  | order amount => exact solvent_order h hday.1 hday.2
  | skip more => exact solvent_skip more h

/-- **The days of a plan**, one after the other. -/
theorem solvent_plan {days : List Day} {t : Subscriptions} (hlen : days.length ≤ n)
    (h : Solvent n sub) (ht : t u = some sub) (haff : Affordable u t days) :
    ∃ sub', Chain u sub (planCalls u days) sub' ∧ Solvent (n - days.length) sub' := by
  induction days generalizing n sub t with
  | nil => exact ⟨sub, .nil _, h⟩
  | cons day days ih =>
    rw [List.length_cons] at hlen ⊢
    obtain ⟨m, rfl⟩ : ∃ m, n = m + 1 := ⟨n - 1, by omega⟩
    obtain ⟨hday, hrest⟩ := haff
    rw [ht] at hday
    obtain ⟨mid, hmid, hsolvent⟩ := solvent_day (u := u) h hday
    obtain ⟨sub', hsub', hsolvent'⟩ := ih (by omega) hsolvent (hmid.afterFrom ht).1 hrest
    rw [Nat.add_sub_add_right]
    exact ⟨sub', hmid.append hsub', hsolvent'⟩

end Days

/-- A deposit onto a row that holds nothing starts the cycle. -/
theorem solvent_deposit {u : String} {a : ℤ} {t : Subscriptions} (ha : 0 < a)
    (hopen : ∀ sub, t u = some sub → sub.reservedAmount = 0) :
    ∃ sub, call t (deposit u a) u = some sub ∧ Solvent 30 sub := by
  have hcall : call t (deposit u a) u = (deposit u a).next (t u) := call_self (deposit u a) t
  rw [hcall, next, apply_of_accepts (.deposit ha)]
  refine ⟨_, rfl, ?_, rfl, Int.ediv_nonneg ha.le (by decide), Int.ediv_mul_le _ (by decide)⟩
  cases hrow : t u with
  | none => rfl
  | some sub => exact hopen sub hrow

theorem Affordable.mono {u : String} {days done : List Day} {t : Subscriptions}
    (haff : Affordable u t days) (h : done <+: days) : Affordable u t done := by
  obtain ⟨rest, rfl⟩ := h
  induction done generalizing t with
  | nil => trivial
  | cons day done ih => exact ⟨haff.1, ih haff.2⟩

/-- **The limit is a safe plan.** After a positive deposit with nothing held, every plan of at most
thirty days, each an order within the limit of its day or a skip, is carried out: its calls are
accepted, the balance is never negative, the limit is covered for the days left whenever a day
starts, and it does not fall over the first 29 ticks. -/
theorem safePlan {u : String} {a : ℤ} {t : Subscriptions} {days : List Day} (ha : 0 < a)
    (hopen : ∀ sub, t u = some sub → sub.reservedAmount = 0) (hlen : days.length ≤ 30)
    (haff : Affordable u (call t (deposit u a)) days) :
    SafePlan u 30 (call t (deposit u a)) days := by
  obtain ⟨sub, ht, hsolvent⟩ := solvent_deposit ha hopen
  have hchain : ∀ done, done <+: days →
      ∃ sub', Chain u sub (planCalls u done) sub' ∧ Solvent (30 - done.length) sub' := fun done h =>
    solvent_plan (h.length_le.trans hlen) hsolvent ht (haff.mono h)
  obtain ⟨last, hall, -⟩ := hchain days (List.prefix_refl _)
  constructor
  · exact (hall.afterFrom ht).2
  · rintro pre ⟨post, hpost⟩
    rw [← hpost] at hall
    obtain ⟨mid, hmid, -⟩ := hall.split
    exact ⟨mid, (hmid.afterFrom ht).1, hmid.nonneg hsolvent.nonneg⟩
  · intro done hdone
    obtain ⟨mid, hmid, hmid'⟩ := hchain done hdone
    refine ⟨mid, (hmid.afterFrom ht).1, ?_⟩
    rw [hmid'.days]
    exact hmid'.covered
  · rintro pre c ⟨post, hpost⟩ hticks
    rw [← hpost] at hall
    obtain ⟨mid', hmid', -⟩ := hall.split
    obtain ⟨mid, hmid, hlink⟩ := hmid'.split
    rw [(hmid.afterFrom ht).1, (hmid'.afterFrom ht).1]
    have hdays := hmid.days
    cases hlink with
    | cons _ link rest =>
      cases rest
      rcases link.rising with h | ⟨htick, hone⟩
      · exact h
      · have hsum : ticks (pre ++ [c]) = ticks pre + ticks [c] := by
          rw [ticks, List.countP_append]
          rfl
        rw [hsolvent.days] at hdays
        omega

/-- Two days of 30 paise a day: an order of the whole limit, and a skip. -/
theorem safePlan_twoDays :
    SafePlan "user-1" 30 (call (fun _ => none) (deposit "user-1" 900)) [.order 30, .skip 0] :=
  safePlan (by decide) nofun (by decide) ⟨by unfold Day.Within; decide, trivial, trivial⟩

end Gusto.Escrow
