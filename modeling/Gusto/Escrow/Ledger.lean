import Gusto.Escrow.Sequential
import Mathlib.Algebra.BigOperators.Group.List.Basic
import Mathlib.Tactic.Ring

/-!
# What the columns of the wallet mean

A deposit starts a cycle: it replaces the balance and the days, and leaves what is held.

* `entries`: the calls of a user that a sequential run accepts, in their order;
* `Books`: what these calls make of the row; `Books.accept`: each accepted call keeps it;
* `conserved`: after every run the row is what the accepted calls say, and no refused call has moved it.
-/

set_option autoImplicit false

namespace Gusto.Escrow

open Effects WalletCall

/-! ### What is asked -/

/-- The call returns, where it finds the table `t`. -/
def accepts (t : Subscriptions) (c : WalletCall) : Bool :=
  match (c.prog.eval exec none t).1 with
  | .ok _ => true
  | .error _ => false

/-- The calls of `u` that are accepted in a run from `t`. -/
def entries (u : String) : Subscriptions → List WalletCall → List WalletCall
  | _, [] => []
  | t, c :: cs =>
    if c.userId = u ∧ accepts t c then c :: entries u (call t c) cs else entries u (call t c) cs

namespace WalletCall

def isDeposit : WalletCall → Bool
  | deposit _ _ => true
  | _ => false

def isTick : WalletCall → Bool
  | tick _ => true
  | _ => false

/-- What an accepted debit or capture takes from the balance. -/
def spent : WalletCall → ℤ
  | debit _ a _ | captureReservation _ a => a
  | _ => 0

/-- What an accepted reserve holds. -/
def reserved : WalletCall → ℤ
  | reserve _ a => a
  | _ => 0

/-- What an accepted capture or release frees. -/
def freed : WalletCall → ℤ
  | captureReservation _ a | releaseReservation _ a => a
  | _ => 0

end WalletCall

/-- The sum of `f` over the entries. -/
def sumOf (f : WalletCall → ℤ) (es : List WalletCall) : ℤ := (es.map f).sum

/-- The row of `u` after the run: since the last accepted deposit the balance has lost what was
debited and captured, and the days what was ticked; held is what was reserved and not freed. -/
structure RowOf (u : String) (cs pre : List WalletCall) (a : ℤ) (post : List WalletCall)
    (sub : Subscription) : Prop where
  row : after cs u = some sub
  last : entries u (fun _ => none) cs = pre ++ deposit u a :: post
  since : ∀ c ∈ post, c.isDeposit = false
  balance : sub.currentBalance = a - sumOf spent post
  held : sub.reservedAmount =
    sumOf reserved (entries u (fun _ => none) cs) - sumOf freed (entries u (fun _ => none) cs)
  days : sub.daysLeft = CYCLE_DAYS - post.countP isTick
  days_nonneg : 0 ≤ sub.daysLeft
  days_le : sub.daysLeft ≤ CYCLE_DAYS

/-! ### Entries -/

theorem accepts_iff {t : Subscriptions} {c : WalletCall} :
    accepts t c ↔ ∃ sub, c.apply (t c.userId) = .ok sub := by
  unfold accepts
  rw [eval_prog]
  cases c.apply (t c.userId) <;> simp

theorem entries_snoc (u : String) (t : Subscriptions) (cs : List WalletCall) (c : WalletCall) :
    entries u t (cs ++ [c]) = entries u t cs ++
      if c.userId = u ∧ accepts (afterFrom t cs) c then [c] else [] := by
  induction cs generalizing t with
  | nil => by_cases h : c.userId = u ∧ accepts t c <;> simp [entries, afterFrom, h]
  | cons c' cs ih =>
    rw [List.cons_append, entries, entries, ih]
    split <;> rfl

/-- A refused call has moved no row. -/
theorem call_of_refused {t : Subscriptions} {c : WalletCall} (h : accepts t c = false) :
    call t c = t := by
  unfold accepts at h
  unfold call
  rw [eval_prog] at h ⊢
  cases hc : c.apply (t c.userId) with
  | ok sub =>
    rw [hc] at h
    cases h
  | error e => rfl

/-! ### The books of a user -/

/-- The row that the entries `es` come to: none before the first deposit. -/
inductive Books (u : String) : List WalletCall → Option Subscription → Prop
  | none : Books u [] none
  | some {pre post : List WalletCall} {a : ℤ} {sub : Subscription}
      (since : ∀ c ∈ post, c.isDeposit = false)
      (balance : sub.currentBalance = a - sumOf spent post)
      (held : sub.reservedAmount =
        sumOf reserved (pre ++ deposit u a :: post) - sumOf freed (pre ++ deposit u a :: post))
      (days : sub.daysLeft = CYCLE_DAYS - post.countP isTick) (nonneg : 0 ≤ sub.daysLeft) :
      Books u (pre ++ deposit u a :: post) (some sub)

@[simp] theorem sumOf_snoc (f : WalletCall → ℤ) (es : List WalletCall) (c : WalletCall) :
    sumOf f (es ++ [c]) = sumOf f es + f c := by
  simp [sumOf]

/-- What is held is what the entries reserve and do not free, in each row of the books. -/
theorem Books.held {u : String} {es : List WalletCall} {row : Option Subscription}
    (h : Books u es row) :
    (row.map (·.reservedAmount)).getD 0 = sumOf reserved es - sumOf freed es := by
  cases h with
  | none => rfl
  | some _ _ held _ _ => exact held

theorem Books.days_nonneg {u : String} {es : List WalletCall} {sub : Subscription}
    (h : Books u es (Option.some sub)) : 0 ≤ sub.daysLeft := by
  cases h with
  | some _ _ _ _ nonneg => exact nonneg

/-- An entry other than a deposit, by what it changes of the row. -/
theorem Books.snoc {u : String} {es : List WalletCall} {old sub : Subscription} {c : WalletCall}
    (h : Books u es (Option.some old)) (hdep : c.isDeposit = false)
    (hbal : sub.currentBalance = old.currentBalance - c.spent)
    (hheld : sub.reservedAmount = old.reservedAmount + c.reserved - c.freed)
    (hdays : sub.daysLeft = old.daysLeft - if c.isTick then 1 else 0) (hnonneg : 0 ≤ sub.daysLeft) :
    Books u (es ++ [c]) (Option.some sub) := by
  cases h with
  | @some pre post a _ since balance held days nonneg =>
    rw [List.append_assoc, List.cons_append]
    refine .some ?_ ?_ ?_ ?_ hnonneg
    · intro c' hc'
      rcases List.mem_append.mp hc' with h | h
      · exact since c' h
      · rw [List.mem_singleton.mp h]
        exact hdep
    · rw [hbal, balance, sumOf_snoc]
      ring
    · rw [← List.cons_append, ← List.append_assoc, sumOf_snoc, sumOf_snoc, hheld, held]
      ring
    · rw [hdays, days, List.countP_append, List.countP_singleton]
      push_cast
      split
      · ring
      · ring

/-- **One accepted call** keeps the books. -/
theorem Books.accept {u : String} {es : List WalletCall} {row : Option Subscription}
    {sub : Subscription} {c : WalletCall} (h : Books u es row) (hc : c.userId = u)
    (hacc : Accepts c row sub) : Books u (es ++ [c]) (Option.some sub) := by
  subst hc
  cases hacc with
  | @deposit u a row pos =>
    have hheld := h.held
    refine .some (by simp) (by simp [sumOf]) ?_ (by simp) (show 0 ≤ CYCLE_DAYS by decide)
    rw [sumOf_snoc, sumOf_snoc]
    simp only [reserved, freed]
    omega
  | @debit u a s old pos le =>
    exact h.snoc rfl rfl (by simp [reserved, freed]) (by simp [isTick]) h.days_nonneg
  | @tick u old pos =>
    exact h.snoc rfl (by simp [spent]) (by simp [reserved, freed]) (by simp [isTick])
      (by simp only; omega)
  | @reserve u a old pos le =>
    exact h.snoc rfl (by simp [spent]) (by simp [reserved, freed]) (by simp [isTick]) h.days_nonneg
  | @captureReservation u a old pos le =>
    exact h.snoc rfl rfl (by simp [reserved, freed]) (by simp [isTick]) h.days_nonneg
  | @releaseReservation u a old pos le =>
    exact h.snoc rfl (by simp [spent]) (by simp [reserved, freed]) (by simp [isTick]) h.days_nonneg
  | @redistribute u old =>
    exact h.snoc rfl (by simp [spent]) (by simp [reserved, freed]) (by simp [isTick]) h.days_nonneg

/-- **The books of a run**, from the empty table. -/
theorem books (u : String) (cs : List WalletCall) :
    Books u (entries u (fun _ => none) cs) (after cs u) := by
  induction cs using List.reverseRecOn with
  | nil => exact .none
  | append_singleton cs c ih =>
    rw [entries_snoc]
    change Books u (_ ++ if c.userId = u ∧ accepts (after cs) c then [c] else []) _
    by_cases hu : u = c.userId
    · subst hu
      rw [after_snoc_self, next]
      cases hc : c.apply (after cs c.userId) with
      | ok sub =>
        rw [if_pos ⟨rfl, accepts_iff.mpr ⟨sub, hc⟩⟩]
        exact ih.accept rfl (accepts_of_apply hc)
      | error e =>
        have hrefused : ¬ accepts (after cs) c := by
          rw [accepts_iff, hc]
          rintro ⟨sub, h⟩
          cases h
        rw [if_neg fun h => hrefused h.2, List.append_nil]
        exact ih
    · rw [if_neg fun h => hu h.1.symm, List.append_nil, after_snoc_of_ne cs hu]
      exact ih

/-- **The ledger is conserved.** Where a run has accepted a deposit of a user, the row of the user is
what the accepted calls come to since the last such deposit, and over the whole run for what is held;
and no refused call moves the table. -/
theorem conserved (u : String) (cs : List WalletCall)
    (hdep : ∃ a, deposit u a ∈ entries u (fun _ => none) cs) :
    (∃ pre a post sub, RowOf u cs pre a post sub) ∧
      ∀ pre c, pre ++ [c] <+: cs → accepts (after pre) c = false → after (pre ++ [c]) = after pre := by
  constructor
  · obtain ⟨a, ha⟩ := hdep
    have hbooks := books u cs
    generalize hrow : after cs u = row at hbooks
    generalize hes : entries u (fun _ => none) cs = es at hbooks ha
    cases hbooks with
    | none => cases ha
    | @some pre post a sub since balance held days nonneg =>
      refine ⟨pre, a, post, sub, hrow, hes, since, balance, ?_, days, nonneg, ?_⟩
      · rw [hes]
        exact held
      · omega
  · intro pre c _ h
    rw [after_snoc, call_of_refused h]

/-- A deposit, a hold of which a part is captured, and a day; the second capture is refused. -/
theorem conserved_oneDay :
    let cs := [deposit "user-1" 3000, reserve "user-1" 100, captureReservation "user-1" 60,
      captureReservation "user-1" 60, tick "user-1"]
    (∃ pre a post sub, RowOf "user-1" cs pre a post sub) ∧
      ∀ pre c, pre ++ [c] <+: cs → accepts (after pre) c = false → after (pre ++ [c]) = after pre :=
  conserved "user-1" _ ⟨3000, by decide⟩

end Gusto.Escrow
