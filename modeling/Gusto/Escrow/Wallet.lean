import Gusto.Http
import Gusto.Lib.Run
import Mathlib.Logic.Function.Basic

/-!
# escrow-service: the wallet

The `subscriptions` table, `WalletService` and `RolloverService` as programs over their database and
event calls, and what one call makes of the row of its user when nothing runs beside it:

* `WalletService.deposit … releaseReservation`, `RolloverService.redistribute`: the source functions;
* `WalletCall.apply`: the same operations as functions on one row;
* `WalletCall.eval_prog`: served without failures, each program does what `apply` says to the row of
  its user and nothing to any other.

A `$transaction` reads with `findUnique` and ends with one `update`, so there is nothing to roll
back when it throws.  The columns are INT4, and amounts are taken without that bound: only a deposit of more
than 2147483647 paise would be refused by them (`fits_of_run`).
-/

set_option autoImplicit false

namespace Gusto.Escrow

open Effects

/-! ### The table -/

/-- A row of `subscriptions`; all money is integer paise. -/
structure Subscription where
  totalDeposited : ℤ
  currentBalance : ℤ
  reservedAmount : ℤ := 0
  daysLeft : ℤ
  dailyAvgLimit : ℤ
  deriving DecidableEq, Repr

/-- The `data` of an update: the columns it writes, as absolute values. -/
structure SubscriptionData where
  totalDeposited : Option ℤ := none
  currentBalance : Option ℤ := none
  reservedAmount : Option ℤ := none
  daysLeft : Option ℤ := none
  dailyAvgLimit : Option ℤ := none
  deriving DecidableEq, Repr

/-- The row after an update. -/
def SubscriptionData.write (data : SubscriptionData) (sub : Subscription) : Subscription where
  totalDeposited := data.totalDeposited.getD sub.totalDeposited
  currentBalance := data.currentBalance.getD sub.currentBalance
  reservedAmount := data.reservedAmount.getD sub.reservedAmount
  daysLeft := data.daysLeft.getD sub.daysLeft
  dailyAvgLimit := data.dailyAvgLimit.getD sub.dailyAvgLimit

/-- The table, by `userId`. -/
abbrev Subscriptions : Type := String → Option Subscription

/-! ### The calls -/

/-- The database and event calls of escrow-service. -/
inductive WalletOp
  | findUnique (userId : String)
  | update (userId : String) (data : SubscriptionData)
  | upsert (userId : String) (create : Subscription) (update : SubscriptionData)
  | publishBudgetUpdated (userId : String) (currentBalance dailyAvgLimit : ℤ)
  | publishRolloverApplied (userId : String) (rolloverAmount newDailyLimit : ℤ)
  deriving DecidableEq, Repr

/-- What each call answers. -/
abbrev WalletOp.Answer : WalletOp → Type
  | .findUnique _ => Option Subscription
  | .update _ _ | .upsert _ _ _ => Subscription
  | .publishBudgetUpdated _ _ _ | .publishRolloverApplied _ _ _ => Unit

/-- Programs of escrow-service. -/
abbrev Wallet (α : Type) : Type := Prog WalletOp WalletOp.Answer Err α

namespace Wallet

def findUnique (userId : String) : Wallet (Option Subscription) :=
  Prog.await (WalletOp.findUnique userId)

def update (userId : String) (data : SubscriptionData) : Wallet Subscription :=
  Prog.await (WalletOp.update userId data)

def upsert (userId : String) (create : Subscription) (update : SubscriptionData) :
    Wallet Subscription :=
  Prog.await (WalletOp.upsert userId create update)

end Wallet

/-- What a call that is served does to the table. -/
def serve : (i : WalletOp) → Subscriptions → Except Err i.Answer × Subscriptions
  | .findUnique userId, t => (.ok (t userId), t)
  | .update userId data, t =>
    match t userId with
    | some sub => (.ok (data.write sub), Function.update t userId (some (data.write sub)))
    | none => (.error (.error "Record to update not found."), t)
  | .upsert userId create update, t =>
    match t userId with
    | some sub => (.ok (update.write sub), Function.update t userId (some (update.write sub)))
    | none => (.ok create, Function.update t userId (some create))
  | .publishBudgetUpdated _ _ _, t | .publishRolloverApplied _ _ _, t => (.ok (), t)

/-- A call is served, or it fails with the given error and without effect. -/
def exec : Handler WalletOp WalletOp.Answer Err Subscriptions (Option Err)
  | none, i, t => serve i t
  | some e, _, t => (.error e, t)

/-! ### `WalletService` -/

def CYCLE_DAYS : ℤ := 30

namespace WalletService

/-- Best effort: a failed publish is logged, the mutation is already committed. -/
def publishBudgetUpdated (userId : String) (sub : Subscription) : Wallet Unit := do
  let _ ← (Prog.await (WalletOp.publishBudgetUpdated userId sub.currentBalance sub.dailyAvgLimit)).attempt

def noSubscription (userId : String) : Err := .http 404 s!"no subscription for userId {userId}"

/-- Starts a fresh cycle: the amounts and the days are replaced, `reservedAmount` is not written. -/
def deposit (userId : String) (amount : ℤ) : Wallet Subscription := do
  if amount ≤ 0 then throw (.http 409 "deposit amount must be positive paise")
  let dailyAvgLimit := amount / CYCLE_DAYS
  let sub ← Wallet.upsert userId
    { totalDeposited := amount, currentBalance := amount, daysLeft := CYCLE_DAYS, dailyAvgLimit }
    { totalDeposited := some amount, currentBalance := some amount, daysLeft := some CYCLE_DAYS,
      dailyAvgLimit := some dailyAvgLimit }
  publishBudgetUpdated userId sub
  return sub

def debit (userId : String) (amount _savingsAchieved : ℤ) : Wallet Subscription := do
  if amount ≤ 0 then throw (.http 409 "debit amount must be positive paise")
  let some sub ← Wallet.findUnique userId | throw (noSubscription userId)
  if sub.currentBalance < amount then
    throw (.http 409 s!"debit of {amount} paise exceeds current balance {sub.currentBalance} paise")
  let updated ← Wallet.update userId { currentBalance := some (sub.currentBalance - amount) }
  publishBudgetUpdated userId updated
  return updated

def tick (userId : String) : Wallet Subscription := do
  let some sub ← Wallet.findUnique userId | throw (noSubscription userId)
  if sub.daysLeft ≤ 0 then
    throw (.http 409
      s!"subscription for userId {userId} has no days left in its cycle; redeposit required")
  let daysLeft := sub.daysLeft - 1
  let dailyAvgLimit := if 0 < daysLeft then sub.currentBalance / daysLeft else sub.currentBalance
  let updated ← Wallet.update userId
    { daysLeft := some daysLeft, dailyAvgLimit := some dailyAvgLimit }
  publishBudgetUpdated userId updated
  return updated

/-- Holds funds: guarded by the available balance, not by `currentBalance` alone. -/
def reserve (userId : String) (amount : ℤ) : Wallet Subscription := do
  if amount ≤ 0 then throw (.http 409 "reserve amount must be positive paise")
  let some sub ← Wallet.findUnique userId | throw (noSubscription userId)
  let available := sub.currentBalance - sub.reservedAmount
  if available < amount then
    throw (.http 409 s!"reserve of {amount} paise exceeds available balance {available} paise")
  let updated ← Wallet.update userId { reservedAmount := some (sub.reservedAmount + amount) }
  publishBudgetUpdated userId updated
  return updated

def captureReservation (userId : String) (amount : ℤ) : Wallet Subscription := do
  if amount ≤ 0 then throw (.http 409 "capture amount must be positive paise")
  let some sub ← Wallet.findUnique userId | throw (noSubscription userId)
  if sub.reservedAmount < amount then
    throw (.http 409
      s!"capture of {amount} paise exceeds reserved amount {sub.reservedAmount} paise")
  let updated ← Wallet.update userId
    { currentBalance := some (sub.currentBalance - amount),
      reservedAmount := some (sub.reservedAmount - amount) }
  publishBudgetUpdated userId updated
  return updated

/-- Frees a hold; unlike the others it publishes nothing. -/
def releaseReservation (userId : String) (amount : ℤ) : Wallet Subscription := do
  if amount ≤ 0 then throw (.http 409 "release amount must be positive paise")
  let some sub ← Wallet.findUnique userId | throw (noSubscription userId)
  if sub.reservedAmount < amount then
    throw (.http 409
      s!"release of {amount} paise exceeds reserved amount {sub.reservedAmount} paise")
  Wallet.update userId { reservedAmount := some (sub.reservedAmount - amount) }

end WalletService

namespace RolloverService

/-- Recomputes the daily limit; the balance and the days are not written. -/
def redistribute (userId : String) : Wallet Subscription := do
  let some sub ← Wallet.findUnique userId | throw (WalletService.noSubscription userId)
  let rolloverAmount := sub.dailyAvgLimit
  let daysLeft := max sub.daysLeft 1
  let newDailyLimit := sub.currentBalance / daysLeft
  let updated ← Wallet.update userId { dailyAvgLimit := some newDailyLimit }
  let _ ← (Prog.await (WalletOp.publishRolloverApplied userId rolloverAmount newDailyLimit)).attempt
  return updated

end RolloverService

/-! ### The calls of the wallet -/

/-- A call of one of the seven operations that write the table. -/
inductive WalletCall
  | deposit (userId : String) (amount : ℤ)
  | debit (userId : String) (amount savingsAchieved : ℤ)
  | tick (userId : String)
  | reserve (userId : String) (amount : ℤ)
  | captureReservation (userId : String) (amount : ℤ)
  | releaseReservation (userId : String) (amount : ℤ)
  | redistribute (userId : String)
  deriving DecidableEq, Repr

namespace WalletCall

def userId : WalletCall → String
  | deposit u _ | debit u _ _ | tick u | reserve u _ | captureReservation u _
  | releaseReservation u _ | redistribute u => u

def prog : WalletCall → Wallet Subscription
  | deposit u a => WalletService.deposit u a
  | debit u a s => WalletService.debit u a s
  | tick u => WalletService.tick u
  | reserve u a => WalletService.reserve u a
  | captureReservation u a => WalletService.captureReservation u a
  | releaseReservation u a => WalletService.releaseReservation u a
  | redistribute u => RolloverService.redistribute u

/-- The columns a call writes when it finds the row `row`, or why it refuses. -/
def data : WalletCall → Option Subscription → Except Err SubscriptionData
  | deposit _ a, _ =>
    if a ≤ 0 then .error (.http 409 "deposit amount must be positive paise")
    else .ok { totalDeposited := some a, currentBalance := some a, daysLeft := some CYCLE_DAYS,
               dailyAvgLimit := some (a / CYCLE_DAYS) }
  | debit u a _, row =>
    if a ≤ 0 then .error (.http 409 "debit amount must be positive paise")
    else match row with
      | none => .error (WalletService.noSubscription u)
      | some sub =>
        if sub.currentBalance < a then
          .error (.http 409 s!"debit of {a} paise exceeds current balance {sub.currentBalance} paise")
        else .ok { currentBalance := some (sub.currentBalance - a) }
  | tick u, row =>
    match row with
    | none => .error (WalletService.noSubscription u)
    | some sub =>
      if sub.daysLeft ≤ 0 then
        .error (.http 409
          s!"subscription for userId {u} has no days left in its cycle; redeposit required")
      else .ok { daysLeft := some (sub.daysLeft - 1),
                 dailyAvgLimit := some (if 0 < sub.daysLeft - 1
                   then sub.currentBalance / (sub.daysLeft - 1) else sub.currentBalance) }
  | reserve u a, row =>
    if a ≤ 0 then .error (.http 409 "reserve amount must be positive paise")
    else match row with
      | none => .error (WalletService.noSubscription u)
      | some sub =>
        if sub.currentBalance - sub.reservedAmount < a then
          .error (.http 409
            s!"reserve of {a} paise exceeds available balance {sub.currentBalance - sub.reservedAmount} paise")
        else .ok { reservedAmount := some (sub.reservedAmount + a) }
  | captureReservation u a, row =>
    if a ≤ 0 then .error (.http 409 "capture amount must be positive paise")
    else match row with
      | none => .error (WalletService.noSubscription u)
      | some sub =>
        if sub.reservedAmount < a then
          .error (.http 409
            s!"capture of {a} paise exceeds reserved amount {sub.reservedAmount} paise")
        else .ok { currentBalance := some (sub.currentBalance - a),
                   reservedAmount := some (sub.reservedAmount - a) }
  | releaseReservation u a, row =>
    if a ≤ 0 then .error (.http 409 "release amount must be positive paise")
    else match row with
      | none => .error (WalletService.noSubscription u)
      | some sub =>
        if sub.reservedAmount < a then
          .error (.http 409
            s!"release of {a} paise exceeds reserved amount {sub.reservedAmount} paise")
        else .ok { reservedAmount := some (sub.reservedAmount - a) }
  | redistribute u, row =>
    match row with
    | none => .error (WalletService.noSubscription u)
    | some sub => .ok { dailyAvgLimit := some (sub.currentBalance / max sub.daysLeft 1) }

/-- What the call makes of the row of its user, or why it refuses. -/
def apply (c : WalletCall) (row : Option Subscription) : Except Err Subscription :=
  (c.data row).map fun data => data.write (row.getD ⟨0, 0, 0, 0, 0⟩)

/-- The events a call sends once its transaction is committed. -/
def publish (c : WalletCall) (row : Option Subscription) (updated : Subscription) :
    Wallet Subscription :=
  match c, row with
  | releaseReservation _ _, _ => .ret updated
  | redistribute u, some sub => do
    let _ ← (Prog.await (WalletOp.publishRolloverApplied u sub.dailyAvgLimit
      (sub.currentBalance / max sub.daysLeft 1))).attempt
    return updated
  | c, _ => do
    WalletService.publishBudgetUpdated c.userId updated
    return updated

/-- The amount, where there is one, is positive. -/
def AmountOk : WalletCall → Prop
  | deposit _ a | debit _ a _ | reserve _ a | captureReservation _ a | releaseReservation _ a => 0 < a
  | tick _ | redistribute _ => True

instance : DecidablePred AmountOk := fun c => by cases c <;> unfold AmountOk <;> infer_instance

/-! ### One shape for all programs -/

/-- A call with an amount that is not positive throws at once. -/
theorem prog_of_not_amountOk {c : WalletCall} (h : ¬ c.AmountOk) :
    ∃ e, c.prog = .throw e ∧ ∀ row, c.data row = .error e := by
  cases c with
  | tick u => exact absurd trivial h
  | redistribute u => exact absurd trivial h
  | deposit u a =>
    have ha : a ≤ 0 := Int.not_lt.mp h
    exact ⟨_, by simp [prog, WalletService.deposit, ha], fun row => if_pos ha⟩
  | debit u a s =>
    have ha : a ≤ 0 := Int.not_lt.mp h
    exact ⟨_, by simp [prog, WalletService.debit, ha], fun row => if_pos ha⟩
  | reserve u a =>
    have ha : a ≤ 0 := Int.not_lt.mp h
    exact ⟨_, by simp [prog, WalletService.reserve, ha], fun row => if_pos ha⟩
  | captureReservation u a =>
    have ha : a ≤ 0 := Int.not_lt.mp h
    exact ⟨_, by simp [prog, WalletService.captureReservation, ha], fun row => if_pos ha⟩
  | releaseReservation u a =>
    have ha : a ≤ 0 := Int.not_lt.mp h
    exact ⟨_, by simp [prog, WalletService.releaseReservation, ha], fun row => if_pos ha⟩

/-- A deposit writes without reading; on a user without a row it writes all the columns. -/
theorem prog_deposit {u : String} {a : ℤ} (h : 0 < a) :
    ∃ d, (∀ row, (deposit u a).data row = .ok d) ∧
      (deposit u a).prog =
        Wallet.upsert u (d.write ⟨0, 0, 0, 0, 0⟩) d >>= (deposit u a).publish none := by
  have ha : ¬ a ≤ 0 := Int.not_le.mpr h
  refine ⟨_, fun row => if_neg ha, ?_⟩
  simp [prog, WalletService.deposit, ha]
  rfl

/-- The other calls read the row, decide on it, and write. -/
theorem prog_read {c : WalletCall} (h : c.AmountOk) (hd : ∀ u a, c ≠ deposit u a) :
    c.prog = Wallet.findUnique c.userId >>= fun row =>
      match c.data row with
      | .ok d => Wallet.update c.userId d >>= c.publish row
      | .error e => .throw e := by
  cases c with
  | deposit u a => exact absurd rfl (hd u a)
  | debit u a s =>
    have ha : ¬ a ≤ 0 := Int.not_le.mpr h
    simp only [prog, WalletService.debit, ha, if_false]
    refine congrArg _ (funext fun row => ?_)
    rcases row with _ | sub
    · simp [data, ha]
    · by_cases hb : sub.currentBalance < a
      · simp [data, ha, hb]
      · simp [data, ha, hb]
        rfl
  | tick u =>
    simp only [prog, WalletService.tick]
    refine congrArg _ (funext fun row => ?_)
    rcases row with _ | sub
    · simp [data]
    · by_cases hb : sub.daysLeft ≤ 0
      · simp [data, hb]
      · simp [data, hb]
        rfl
  | reserve u a =>
    have ha : ¬ a ≤ 0 := Int.not_le.mpr h
    simp only [prog, WalletService.reserve, ha, if_false]
    refine congrArg _ (funext fun row => ?_)
    rcases row with _ | sub
    · simp [data, ha]
    · by_cases hb : sub.currentBalance - sub.reservedAmount < a
      · simp [data, ha, hb]
      · simp [data, ha, hb]
        rfl
  | captureReservation u a =>
    have ha : ¬ a ≤ 0 := Int.not_le.mpr h
    simp only [prog, WalletService.captureReservation, ha, if_false]
    refine congrArg _ (funext fun row => ?_)
    rcases row with _ | sub
    · simp [data, ha]
    · by_cases hb : sub.reservedAmount < a
      · simp [data, ha, hb]
      · simp [data, ha, hb]
        rfl
  | releaseReservation u a =>
    have ha : ¬ a ≤ 0 := Int.not_le.mpr h
    simp only [prog, WalletService.releaseReservation, ha, if_false]
    refine congrArg _ (funext fun row => ?_)
    rcases row with _ | sub
    · simp [data, ha]
    · by_cases hb : sub.reservedAmount < a
      · simp [data, ha, hb]
      · simp [data, ha, hb]
        exact (Prog.bind_ret _).symm
  | redistribute u =>
    simp only [prog, RolloverService.redistribute]
    refine congrArg _ (funext fun row => ?_)
    rcases row with _ | sub
    · simp [data]
    · simp [data]
      rfl

/-- Only a deposit writes for a user without a row. -/
theorem row_of_data {c : WalletCall} (hd : ∀ u a, c ≠ deposit u a) {row : Option Subscription}
    {d : SubscriptionData} (h : c.data row = .ok d) : ∃ sub, row = some sub := by
  cases row with
  | some sub => exact ⟨sub, rfl⟩
  | none =>
    cases c with
    | deposit u a => exact absurd rfl (hd u a)
    | tick u => cases h
    | redistribute u => cases h
    | _ => simp only [data] at h; split at h <;> cases h

/-! ### Served without failures -/

@[simp] theorem eval_publish (c : WalletCall) (row : Option Subscription) (updated : Subscription)
    (t : Subscriptions) : (c.publish row updated).eval exec none t = (.ok updated, t) := by
  cases c <;> cases row <;> rfl

/-- **The programs as operations on a row.** Served without failures, a call answers the row that
`apply` gives and stores it for its user, or refuses and leaves the table. -/
theorem eval_prog (c : WalletCall) (t : Subscriptions) :
    c.prog.eval exec none t =
      match c.apply (t c.userId) with
      | .ok sub => (.ok sub, Function.update t c.userId (some sub))
      | .error e => (.error e, t) := by
  by_cases ha : c.AmountOk
  · by_cases hd : ∃ u a, c = deposit u a
    · obtain ⟨u, a, rfl⟩ := hd
      obtain ⟨d, hdata, hprog⟩ := prog_deposit (u := u) ha
      rw [hprog, apply, hdata]
      cases hrow : t u <;>
        simp [Wallet.upsert, Prog.await, exec, serve, userId, hrow, Except.map]
    · rw [prog_read ha (fun u a e => hd ⟨u, a, e⟩), apply]
      cases hdata : c.data (t c.userId) with
      | error e => simp [Wallet.findUnique, Prog.await, exec, serve, hdata, Except.map]
      | ok d =>
        obtain ⟨sub, hrow⟩ := row_of_data (fun u a e => hd ⟨u, a, e⟩) hdata
        rw [hrow] at hdata
        simp [Wallet.findUnique, Wallet.update, Prog.await, exec, serve, hdata, hrow,
          Except.map]
  · obtain ⟨e, hprog, hdata⟩ := prog_of_not_amountOk ha
    rw [hprog, apply, hdata]
    rfl

end WalletCall

end Gusto.Escrow
