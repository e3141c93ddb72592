import Gusto.Escrow.Sequential

/-!
# Holds and the balance behind them

`reserve` lets no hold exceed what is available, but `debit` is guarded by `currentBalance` alone and
`deposit` replaces `currentBalance` under holds that stay.  `reservationsCovered_iff` says when the
holds of a run are covered throughout: exactly when no accepted debit goes below the held amount and
no deposit is smaller than it.
-/

set_option autoImplicit false

namespace Gusto.Escrow

open WalletCall

/-- The held amount is covered by the balance. -/
def Covered (row : Option Subscription) : Prop :=
  ∀ sub, row = some sub → 0 ≤ sub.reservedAmount ∧ sub.reservedAmount ≤ sub.currentBalance

/-- In every state of the run the holds of every user are covered, and an accepted capture leaves no
negative balance. -/
structure ReservationsCovered (cs : List WalletCall) : Prop where
  covered : ∀ pre, pre <+: cs → ∀ u, Covered (after pre u)
  capture : ∀ pre u a sub, pre ++ [captureReservation u a] <+: cs →
    (captureReservation u a).apply (after pre u) = .ok sub → 0 ≤ sub.currentBalance

/-- The call leaves the held amount its cover: a debit that the balance allows is allowed by the
available balance too, and a deposit is at least what is held. -/
def LeavesCover (c : WalletCall) (row : Option Subscription) : Prop :=
  match c, row with
  | debit _ a _, some sub =>
    0 < a → a ≤ sub.currentBalance → a ≤ sub.currentBalance - sub.reservedAmount
  | deposit _ a, some sub => 0 < a → sub.reservedAmount ≤ a
  | _, _ => True

/-- One accepted call: the cover is kept exactly when the call leaves it. -/
theorem covered_step {c : WalletCall} {row : Option Subscription} {sub : Subscription}
    (hrow : Covered row) (h : Accepts c row sub) : Covered (some sub) ↔ LeavesCover c row := by
  have hsub : Covered (some sub) ↔ 0 ≤ sub.reservedAmount ∧ sub.reservedAmount ≤ sub.currentBalance :=
    ⟨fun h => h sub rfl, fun h s hs => by cases hs; exact h⟩
  rw [hsub]
  cases h with
  | @deposit u a row pos =>
    cases row with
    | none => simp [LeavesCover]; omega
    | some old =>
      have := hrow old rfl
      simp [LeavesCover]; omega
  | @debit u a s old pos le =>
    have := hrow old rfl
    simp [LeavesCover]; omega
  | @tick u old pos => have := hrow old rfl; simpa [LeavesCover] using this
  | @reserve u a old pos le => have := hrow old rfl; simp [LeavesCover]; omega
  | @captureReservation u a old pos le => have := hrow old rfl; simp [LeavesCover]; omega
  | @releaseReservation u a old pos le => have := hrow old rfl; simp [LeavesCover]; omega
  | @redistribute u old => have := hrow old rfl; simpa [LeavesCover] using this

/-- A refused call has nothing to leave. -/
theorem leavesCover_of_refused {c : WalletCall} {row : Option Subscription} {e : Err}
    (h : c.apply row = .error e) : LeavesCover c row := by
  cases c with
  | debit u a s =>
    rcases row with _ | sub
    · trivial
    · intro ha hb
      simp [apply, data, Int.not_le.mpr ha, Int.not_lt.mpr hb, Except.map] at h
  | deposit u a =>
    rcases row with _ | sub
    · trivial
    · intro ha
      simp [apply, data, Int.not_le.mpr ha, Except.map] at h
  | _ => rcases row with _ | sub <;> trivial

/-- One call, accepted or not, on a covered row. -/
theorem covered_next {c : WalletCall} {row : Option Subscription} (hrow : Covered row) :
    Covered (c.next row) ↔ LeavesCover c row := by
  unfold next
  cases h : c.apply row with
  | ok sub => exact covered_step hrow (accepts_of_apply h)
  | error e => exact ⟨fun _ => leavesCover_of_refused h, fun _ => hrow⟩

/-- An accepted capture leaves the row it answers with. -/
theorem after_capture {pre : List WalletCall} {u : String} {a : ℤ} {sub : Subscription}
    (h : (captureReservation u a).apply (after pre u) = .ok sub) :
    after (pre ++ [captureReservation u a]) u = some sub := by
  have := after_snoc_self pre (captureReservation u a)
  rw [next, show (captureReservation u a).userId = u from rfl, h] at this
  exact this

/-- **When holds stay covered.** In a run from no subscription the holds are covered in every state,
and no accepted capture overdraws the balance, exactly when every call leaves the row it finds its
cover. -/
theorem reservationsCovered_iff (cs : List WalletCall) :
    ReservationsCovered cs ↔
      ∀ pre c, pre ++ [c] <+: cs → LeavesCover c (after pre c.userId) := by
  constructor
  · intro h pre c hpre
    have hnow := h.covered pre ((List.prefix_append pre [c]).trans hpre) c.userId
    have hnext := h.covered _ hpre c.userId
    rw [after_snoc_self] at hnext
    exact (covered_next hnow).mp hnext
  · intro h
    have hcov : ∀ pre, pre <+: cs → ∀ u, Covered (after pre u) := by
      intro pre
      induction pre using List.reverseRecOn with
      | nil => intro _ u sub hs; cases hs
      | append_singleton pre c ih =>
        intro hpre u
        have hnow := ih ((List.prefix_append pre [c]).trans hpre)
        by_cases hu : u = c.userId
        · subst hu
          rw [after_snoc_self]
          exact (covered_next (hnow _)).mpr (h pre c hpre)
        · rw [after_snoc_of_ne pre hu]
          exact hnow u
    refine ⟨hcov, fun pre u a sub hpre hsub => ?_⟩
    have := hcov _ hpre u sub (after_capture hsub)
    omega

/-- A debit takes the balance from under a hold. -/
theorem not_reservationsCovered :
    ¬ ∀ cs : List WalletCall, (∀ c ∈ cs, c.AmountOk) → ReservationsCovered cs := by
  intro h
  have := (h [deposit "user-1" 100, reserve "user-1" 100, debit "user-1" 100 0] (by decide)).covered
    _ (List.prefix_refl _) "user-1"
    { totalDeposited := 100, currentBalance := 0, reservedAmount := 100, daysLeft := 30,
      dailyAvgLimit := 3 } (by decide)
  simp at this

end Gusto.Escrow
