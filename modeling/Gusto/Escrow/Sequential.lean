import Gusto.Escrow.Wallet
import Mathlib.Data.List.Infix

/-!
# Sequential runs of the wallet

`after cs` is the table once the calls `cs` have run one after the other, from the empty table.

* `accepts_of_apply`: the columns an accepted call writes, one case an operation;
* `after_snoc_self`, `after_snoc_of_ne`: a call moves the row of its user only;
* `fits_of_run`: the columns hold what a run writes, unless a deposit is too large for them.
-/

set_option autoImplicit false

namespace Gusto.Escrow

open Effects

/-- The table after one call. -/
def call (t : Subscriptions) (c : WalletCall) : Subscriptions := (c.prog.eval exec none t).2

/-- The table after the calls `cs`, from the table `t`. -/
def afterFrom (t : Subscriptions) (cs : List WalletCall) : Subscriptions := cs.foldl call t

/-- The table after the calls `cs`, from no subscription at all. -/
def after (cs : List WalletCall) : Subscriptions := afterFrom (fun _ => none) cs

@[simp] theorem after_nil : after [] = fun _ => none := rfl

theorem after_snoc (cs : List WalletCall) (c : WalletCall) : after (cs ++ [c]) = call (after cs) c := by
  simp [after, afterFrom, List.foldl_append]

namespace WalletCall

/-- The row of its user after a call that found `row`. -/
def next (c : WalletCall) (row : Option Subscription) : Option Subscription :=
  match c.apply row with
  | .ok sub => some sub
  | .error _ => row

theorem call_self (c : WalletCall) (t : Subscriptions) : call t c c.userId = c.next (t c.userId) := by
  unfold call next
  rw [eval_prog]
  cases h : c.apply (t c.userId) <;> simp

theorem call_of_ne (c : WalletCall) (t : Subscriptions) {u : String} (h : u ≠ c.userId) :
    call t c u = t u := by
  unfold call
  rw [eval_prog]
  cases c.apply (t c.userId) <;> simp [Function.update_of_ne h]

/-- A call that finds `row` is accepted and leaves the row `sub`. -/
inductive Accepts : WalletCall → Option Subscription → Subscription → Prop
  | deposit {u : String} {a : ℤ} {row : Option Subscription} (pos : 0 < a) :
    Accepts (.deposit u a) row
      { totalDeposited := a, currentBalance := a, daysLeft := CYCLE_DAYS,
        dailyAvgLimit := a / CYCLE_DAYS,
        reservedAmount := (row.map (·.reservedAmount)).getD 0 }
  | debit {u : String} {a s : ℤ} {old : Subscription} (pos : 0 < a) (le : a ≤ old.currentBalance) :
    Accepts (.debit u a s) (some old) { old with currentBalance := old.currentBalance - a }
  | tick {u : String} {old : Subscription} (pos : 0 < old.daysLeft) :
    Accepts (.tick u) (some old)
      { old with
        daysLeft := old.daysLeft - 1
        dailyAvgLimit := if 0 < old.daysLeft - 1 then old.currentBalance / (old.daysLeft - 1)
          else old.currentBalance }
  | reserve {u : String} {a : ℤ} {old : Subscription} (pos : 0 < a)
      (le : a ≤ old.currentBalance - old.reservedAmount) :
    Accepts (.reserve u a) (some old) { old with reservedAmount := old.reservedAmount + a }
  | captureReservation {u : String} {a : ℤ} {old : Subscription} (pos : 0 < a)
      (le : a ≤ old.reservedAmount) :
    Accepts (.captureReservation u a) (some old)
      { old with
        currentBalance := old.currentBalance - a
        reservedAmount := old.reservedAmount - a }
  | releaseReservation {u : String} {a : ℤ} {old : Subscription} (pos : 0 < a)
      (le : a ≤ old.reservedAmount) :
    Accepts (.releaseReservation u a) (some old)
      { old with reservedAmount := old.reservedAmount - a }
  | redistribute {u : String} {old : Subscription} :
    Accepts (.redistribute u) (some old)
      { old with dailyAvgLimit := old.currentBalance / max old.daysLeft 1 }

theorem apply_eq_ok_iff {c : WalletCall} {row : Option Subscription} {sub : Subscription} :
    c.apply row = .ok sub ↔ ∃ d, c.data row = .ok d ∧ d.write (row.getD ⟨0, 0, 0, 0, 0⟩) = sub := by
  unfold apply
  cases c.data row <;> simp [Except.map]

/-- What is accepted has passed the check before it. -/
theorem passed_of_ok {α : Type} {p : Prop} [Decidable p] {e : Err} {x : Except Err α} {a : α}
    (h : (if p then .error e else x) = .ok a) : ¬ p ∧ x = .ok a := by
  split at h
  · cases h
  · rename_i hp
    exact ⟨hp, h⟩

/-- **What an accepted call does to the row.** -/
theorem accepts_of_apply {c : WalletCall} {row : Option Subscription} {sub : Subscription}
    (h : c.apply row = .ok sub) : Accepts c row sub := by
  obtain ⟨d, hd, rfl⟩ := apply_eq_ok_iff.mp h
  cases c with
  | deposit u a =>
    obtain ⟨hpos, hd⟩ := passed_of_ok hd
    cases hd
    cases row <;> exact .deposit (by omega)
  | debit u a s =>
    obtain ⟨old, rfl⟩ := row_of_data (by simp) hd
    obtain ⟨hpos, hd⟩ := passed_of_ok hd
    obtain ⟨hle, hd⟩ := passed_of_ok hd
    cases hd
    exact .debit (by omega) (by omega)
  | tick u =>
    obtain ⟨old, rfl⟩ := row_of_data (by simp) hd
    obtain ⟨hpos, hd⟩ := passed_of_ok hd
    injection hd with hd
    subst hd
    exact .tick (by omega)
  | reserve u a =>
    obtain ⟨old, rfl⟩ := row_of_data (by simp) hd
    obtain ⟨hpos, hd⟩ := passed_of_ok hd
    obtain ⟨hle, hd⟩ := passed_of_ok hd
    cases hd
    exact .reserve (by omega) (by omega)
  | captureReservation u a =>
    obtain ⟨old, rfl⟩ := row_of_data (by simp) hd
    obtain ⟨hpos, hd⟩ := passed_of_ok hd
    obtain ⟨hle, hd⟩ := passed_of_ok hd
    cases hd
    exact .captureReservation (by omega) (by omega)
  | releaseReservation u a =>
    obtain ⟨old, rfl⟩ := row_of_data (by simp) hd
    obtain ⟨hpos, hd⟩ := passed_of_ok hd
    obtain ⟨hle, hd⟩ := passed_of_ok hd
    cases hd
    exact .releaseReservation (by omega) (by omega)
  | redistribute u =>
    obtain ⟨old, rfl⟩ := row_of_data (by simp) hd
    cases hd
    exact .redistribute

/-- What is accepted is done. -/
theorem apply_of_accepts {c : WalletCall} {row : Option Subscription} {sub : Subscription}
    (h : Accepts c row sub) : c.apply row = .ok sub := by
  refine apply_eq_ok_iff.mpr ?_
  cases h with
  | @deposit u a row pos =>
    refine ⟨_, if_neg (Int.not_le.mpr pos), ?_⟩
    cases row <;> rfl
  | debit pos le =>
    exact ⟨_, (if_neg (Int.not_le.mpr pos)).trans (if_neg (Int.not_lt.mpr le)), rfl⟩
  | tick pos => exact ⟨_, if_neg (Int.not_le.mpr pos), rfl⟩
  | reserve pos le =>
    exact ⟨_, (if_neg (Int.not_le.mpr pos)).trans (if_neg (Int.not_lt.mpr le)), rfl⟩
  | captureReservation pos le =>
    exact ⟨_, (if_neg (Int.not_le.mpr pos)).trans (if_neg (Int.not_lt.mpr le)), rfl⟩
  | releaseReservation pos le =>
    exact ⟨_, (if_neg (Int.not_le.mpr pos)).trans (if_neg (Int.not_lt.mpr le)), rfl⟩
  | redistribute => exact ⟨_, rfl, rfl⟩

/-- A call moves the row of its user as accepted, or leaves it. -/
theorem next_cases (c : WalletCall) (row : Option Subscription) :
    (∃ sub, c.next row = some sub ∧ Accepts c row sub) ∨ c.next row = row := by
  unfold next
  cases h : c.apply row with
  | ok sub => exact .inl ⟨sub, rfl, accepts_of_apply h⟩
  | error e => exact .inr rfl

end WalletCall

/-! ### Runs -/

theorem after_snoc_self (cs : List WalletCall) (c : WalletCall) :
    after (cs ++ [c]) c.userId = c.next (after cs c.userId) := by
  rw [after_snoc, WalletCall.call_self]

theorem after_snoc_of_ne (cs : List WalletCall) {c : WalletCall} {u : String} (h : u ≠ c.userId) :
    after (cs ++ [c]) u = after cs u := by
  rw [after_snoc, WalletCall.call_of_ne c _ h]

/-- Run one after the other from `t`, the calls are all accepted. -/
def AllAccepted (t : Subscriptions) : List WalletCall → Prop
  | [] => True
  | c :: cs => (∃ sub, c.apply (t c.userId) = .ok sub) ∧ AllAccepted (call t c) cs

theorem afterFrom_snoc (t : Subscriptions) (cs : List WalletCall) (c : WalletCall) :
    afterFrom t (cs ++ [c]) = call (afterFrom t cs) c := by
  simp [afterFrom, List.foldl_append]

theorem allAccepted_snoc {t : Subscriptions} {cs : List WalletCall} {c : WalletCall} :
    AllAccepted t (cs ++ [c]) ↔
      AllAccepted t cs ∧ ∃ sub, c.apply (afterFrom t cs c.userId) = .ok sub := by
  induction cs generalizing t with
  | nil => simp [AllAccepted, afterFrom]
  | cons c' cs ih =>
    simp only [List.cons_append, AllAccepted, ih, and_assoc]
    rfl

/-- **Invariants of rows.** What every accepted call of a run keeps holds of every row after it. -/
theorem after_invariant {I : Subscription → Prop} {cs : List WalletCall}
    (hstep : ∀ c ∈ cs, ∀ row sub, (∀ old, row = some old → I old) → WalletCall.Accepts c row sub → I sub)
    (u : String) {sub : Subscription} (h : after cs u = some sub) : I sub := by
  induction cs using List.reverseRecOn generalizing sub with
  | nil => cases h
  | append_singleton cs c ih =>
    have hearlier : ∀ {old}, after cs u = some old → I old :=
      ih fun c' hc' => hstep c' (List.mem_append_left _ hc')
    by_cases hu : u = c.userId
    · subst hu
      rw [after_snoc_self] at h
      rcases c.next_cases (after cs c.userId) with ⟨sub', hs, hacc⟩ | hs
      · rw [hs] at h
        cases h
        exact hstep c (by simp) _ _ (fun old ho => hearlier ho) hacc
      · rw [hs] at h
        exact hearlier h
    · rw [after_snoc_of_ne cs hu] at h
      exact hearlier h

/-! ### The columns -/

/-- The largest value of a column, an INT4. -/
def INT4_MAX : ℤ := 2147483647

/-- The value fits its column. -/
def FitsColumn (value : ℤ) : Prop := -INT4_MAX - 1 ≤ value ∧ value ≤ INT4_MAX

/-- Every value of the row fits its column. -/
structure Subscription.Fits (sub : Subscription) : Prop where
  totalDeposited : FitsColumn sub.totalDeposited
  currentBalance : FitsColumn sub.currentBalance
  reservedAmount : FitsColumn sub.reservedAmount
  daysLeft : FitsColumn sub.daysLeft
  dailyAvgLimit : FitsColumn sub.dailyAvgLimit

/-- A row under deposits of at most `M` paise: the reserved amount is never negative, and the balance is
overdrawn by no more than has been reserved. -/
structure Subscription.Within (M : ℤ) (sub : Subscription) : Prop where
  totalDeposited : 0 ≤ sub.totalDeposited ∧ sub.totalDeposited ≤ M
  currentBalance : sub.currentBalance ≤ M
  reservedAmount : 0 ≤ sub.reservedAmount ∧ sub.reservedAmount ≤ M
  overdrawn : sub.reservedAmount ≤ sub.currentBalance + M
  daysLeft : 0 ≤ sub.daysLeft ∧ sub.daysLeft ≤ CYCLE_DAYS
  dailyAvgLimit : -M ≤ sub.dailyAvgLimit ∧ sub.dailyAvgLimit ≤ M

/-- A share of an amount by days is within the bounds of the amount. -/
theorem share_within {amount days M : ℤ} (hM : 0 ≤ M) (hlow : -M ≤ amount) (hhigh : amount ≤ M)
    (hdays : 0 < days) : -M ≤ amount / days ∧ amount / days ≤ M := by
  have hle : M * 1 ≤ M * days := Int.mul_le_mul_of_nonneg_left hdays hM
  constructor
  · refine (Int.le_ediv_iff_mul_le hdays).mpr ?_
    rw [Int.neg_mul]
    omega
  · refine Int.ediv_le_of_le_mul hdays ?_
    omega

/-- An accepted call keeps a row within the bound, if it is no deposit beyond it. -/
theorem Subscription.Within.of_accepts {M : ℤ} {c : WalletCall} {row : Option Subscription} {sub : Subscription}
    (hdeposit : ∀ u a, c = .deposit u a → a ≤ M) (hrow : ∀ old, row = some old → old.Within M)
    (h : WalletCall.Accepts c row sub) : sub.Within M := by
  cases h with
  | @deposit u a row pos =>
    have ha := hdeposit u a rfl
    have hcycle : 0 < CYCLE_DAYS := by decide
    have hshare := share_within (by omega) (by omega) ha hcycle
    have hdays : 0 ≤ CYCLE_DAYS ∧ CYCLE_DAYS ≤ CYCLE_DAYS := by decide
    have hreserved : 0 ≤ (row.map (·.reservedAmount)).getD 0 ∧ (row.map (·.reservedAmount)).getD 0 ≤ M := by
      cases row with
      | none => exact ⟨Int.le_refl 0, by simp; omega⟩
      | some old => exact (hrow old rfl).reservedAmount
    exact ⟨⟨Int.le_of_lt pos, ha⟩, ha, hreserved, by simp only; omega, hdays, hshare⟩
  | debit pos le =>
    have old := hrow _ rfl
    have hreserved := old.reservedAmount
    have hbalance := old.currentBalance
    exact ⟨old.totalDeposited, by simp only; omega, hreserved, by simp only; omega, old.daysLeft,
      old.dailyAvgLimit⟩
  | @tick u old' pos =>
    have old := hrow _ rfl
    have hreserved := old.reservedAmount
    have hbalance := old.currentBalance
    have hover := old.overdrawn
    have hdays := old.daysLeft
    refine ⟨old.totalDeposited, hbalance, hreserved, hover, by simp only; omega, ?_⟩
    dsimp only
    split
    · rename_i hleft
      exact share_within (by omega) (by omega) hbalance hleft
    · exact ⟨by omega, hbalance⟩
  | reserve pos le =>
    have old := hrow _ rfl
    have hreserved := old.reservedAmount
    have hbalance := old.currentBalance
    exact ⟨old.totalDeposited, hbalance, by simp only; omega, by simp only; omega, old.daysLeft, old.dailyAvgLimit⟩
  | captureReservation pos le =>
    have old := hrow _ rfl
    have hreserved := old.reservedAmount
    have hbalance := old.currentBalance
    have hover := old.overdrawn
    exact ⟨old.totalDeposited, by simp only; omega, by simp only; omega, by simp only; omega, old.daysLeft,
      old.dailyAvgLimit⟩
  | releaseReservation pos le =>
    have old := hrow _ rfl
    have hreserved := old.reservedAmount
    have hover := old.overdrawn
    exact ⟨old.totalDeposited, old.currentBalance, by simp only; omega, by simp only; omega, old.daysLeft,
      old.dailyAvgLimit⟩
  | redistribute =>
    have old := hrow _ rfl
    have hreserved := old.reservedAmount
    have hbalance := old.currentBalance
    have hover := old.overdrawn
    exact ⟨old.totalDeposited, hbalance, hreserved, hover, old.daysLeft,
      share_within (by omega) (by omega) hbalance (by omega)⟩

/-- **The columns hold every row** of every run whose deposits they hold. -/
theorem fits_of_run {cs : List WalletCall} (hdeposits : ∀ u a, .deposit u a ∈ cs → a ≤ INT4_MAX)
    (u : String) {sub : Subscription} (h : after cs u = some sub) : sub.Fits := by
  have hwithin : sub.Within INT4_MAX := by
    refine after_invariant (fun c hc row sub hrow hacc => ?_) u h
    exact Subscription.Within.of_accepts (fun u a heq => hdeposits u a (heq ▸ hc)) hrow hacc
  obtain ⟨htotal, hbalance, hreserved, hover, hdays, hlimit⟩ := hwithin
  unfold CYCLE_DAYS at hdays
  unfold INT4_MAX at htotal hbalance hreserved hover hlimit
  constructor <;> unfold FitsColumn INT4_MAX <;> omega

end Gusto.Escrow
