import Gusto.Escrow.Concurrent
import Gusto.Lib.Local

/-!
# The wallets of different users

Concurrent calls of the wallet for any users, each database and event call served or failing.

* `wallet_parts`: a call concerns the row of its user only;
* `wallets_isolated`: what the calls of one user do beside the calls of others, they do alone, whatever the
  rows of the others are.
-/

set_option autoImplicit false

namespace Gusto.Escrow

open Effects

/-- The user whose row a call reads or writes. -/
def WalletOp.userId : WalletOp → String
  | .findUnique userId | .update userId _ | .upsert userId _ _ | .publishBudgetUpdated userId _ _
  | .publishRolloverApplied userId _ _ => userId

/-- A call touches the row of its user. -/
def Touches (i : WalletOp) (userId : String) : Prop := i.userId = userId

theorem concerns_of_userId {i : WalletOp} {u : String} (h : i.userId = u) : Concerns Touches u i :=
  fun _ hu => hu.symm.trans h

/-- **The rows** are parts of the table. -/
theorem wallet_parts : Parts exec Touches fun u (t : Subscriptions) => t u where
  frame {c i t u} hno := by
    cases c with
    | some e => rfl
    | none =>
      cases i with
      | update userId data =>
        have hne : u ≠ userId := fun h => hno h.symm
        cases hrow : t userId <;> simp [exec, serve, hrow, Function.update_of_ne hne]
      | upsert userId create data =>
        have hne : u ≠ userId := fun h => hno h.symm
        cases hrow : t userId <;> simp [exec, serve, hrow, Function.update_of_ne hne]
      | _ => rfl
  agree {c i t t' u} hconcerns hview := by
    obtain rfl : i.userId = u := hconcerns _ rfl
    cases c with
    | some e => exact ⟨rfl, hview⟩
    | none =>
      cases i with
      | findUnique userId => exact ⟨congrArg Except.ok hview, hview⟩
      | update userId data =>
        have hrow : t userId = t' userId := hview
        cases h : t' userId <;> simp [exec, serve, hrow, h, WalletOp.userId]
      | upsert userId create data =>
        have hrow : t userId = t' userId := hview
        cases h : t' userId <;> simp [exec, serve, hrow, h, WalletOp.userId]
      | _ => exact ⟨rfl, hview⟩

section Programs

open WalletCall

theorem within_publishBudgetUpdated (u : String) (sub : Subscription) :
    (WalletService.publishBudgetUpdated u sub).Asks AnyAnswer (Concerns Touches u) := by
  refine (Prog.Asks.await ?_).attempt_bind fun _ => ?_
  · exact concerns_of_userId rfl
  · trivial

theorem within_publish (c : WalletCall) (row : Option Subscription) (updated : Subscription) :
    (c.publish row updated).Asks AnyAnswer (Concerns Touches c.userId) := by
  cases c with
  | releaseReservation u a => trivial
  | redistribute u =>
    cases row with
    | none => exact (within_publishBudgetUpdated u updated).bind fun _ => trivial
    | some sub =>
      refine (Prog.Asks.await ?_).attempt_bind fun _ => ?_
      · exact concerns_of_userId rfl
      · trivial
  | _ => exact (within_publishBudgetUpdated _ updated).bind fun _ => trivial

/-- A call of the wallet asks for the row of its user only. -/
theorem within_prog (c : WalletCall) : c.prog.Asks AnyAnswer (Concerns Touches c.userId) := by
  by_cases ha : c.AmountOk
  · by_cases hd : ∃ u a, c = deposit u a
    · obtain ⟨u, a, rfl⟩ := hd
      obtain ⟨d, -, hprog⟩ := @prog_deposit u a ha
      rw [hprog]
      exact Prog.Asks.await_bind (concerns_of_userId rfl) fun sub _ => within_publish (deposit u a) none sub
    · rw [prog_read ha fun u a e => hd ⟨u, a, e⟩]
      refine Prog.Asks.await_bind (concerns_of_userId rfl) fun row _ => ?_
      cases c.data row with
      | ok d => exact Prog.Asks.await_bind (concerns_of_userId rfl) fun sub _ => within_publish c row sub
      | error e => trivial
  · obtain ⟨e, hprog, -⟩ := prog_of_not_amountOk ha
    rw [hprog]
    trivial

end Programs

/-- **Isolation.** The calls of one user, interleaved with those of others, end as they can end alone, with the
same row, having made the same database and event calls: whatever the others do, and whatever is in their
rows. -/
theorem wallets_isolated (calls : List WalletCall) (t t' : Subscriptions) (P : WalletPool) (os : List WalletNote)
    (hr : Run (Pool.step exec) anyStep (concurrent calls t) P os) (userId : String) (hrow : t' userId = t userId) :
    ∃ Q os', Run (Pool.step exec) anyStep (concurrent (calls.filter fun c => c.userId = userId) t') Q os' ∧
      Q.threads = P.threads.filter (fun th => th.tag.userId = userId) ∧ Q.state userId = P.state userId ∧
      os'.map Note.deed = (os.filter fun o => o.tag.userId = userId).map Note.deed := by
  obtain ⟨Q, os', hr', hproj, hdeeds⟩ := wallet_parts.project (Pool.Asks.start fun c _ => within_prog c)
    (projects_start hrow) hr
  exact ⟨Q, os', hr', hproj.threads, hproj.view, hdeeds⟩

/-- A reservation of one user between the steps of a deposit and of a debit of another. -/
def twoUsers : List WalletCall := [.reserve "user-a" 250, .deposit "user-b" 6000, .debit "user-b" 100 0]

def twoWallets : Subscriptions :=
  fun u => if u = "user-a" then some ⟨3000, 3000, 0, 30, 100⟩ else none

theorem wallets_isolated_two : ∃ P os, Run (Pool.step exec) anyStep (concurrent twoUsers twoWallets) P os ∧
    os.length = 7 ∧ ∃ Q os', Run (Pool.step exec) anyStep
        (concurrent [.reserve "user-a" 250] fun _ => some ⟨3000, 3000, 0, 30, 100⟩) Q os' ∧
      Q.state "user-a" = P.state "user-a" := by
  have hr := Run.of_runSteps .nil (show runSteps (Pool.step exec) anyStep
    [(0, none), (1, none), (2, none), (0, some (.error "timeout")), (2, none), (1, none), (2, none)]
    (concurrent twoUsers twoWallets) [] = some (_, _) from rfl)
  obtain ⟨Q, os', hr', -, hrow, -⟩ := wallets_isolated twoUsers twoWallets
    (fun _ => some ⟨3000, 3000, 0, 30, 100⟩) _ _ hr "user-a" rfl
  exact ⟨_, _, hr, rfl, Q, os', hr', hrow⟩

end Gusto.Escrow
