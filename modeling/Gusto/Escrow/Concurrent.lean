import Gusto.Escrow.Sequential
import Gusto.Lib.Pool
import Mathlib.Algebra.BigOperators.Group.List.Basic
import Mathlib.Algebra.Ring.Int.Defs
import Mathlib.Data.List.Permutation

/-!
# Concurrent calls of the wallet

`$transaction` without an isolation level runs at READ COMMITTED: the read of a call takes no lock,
and its write stores absolute values computed from the row it read.  A call is then two steps, and
the steps of concurrent calls interleave.

* `NoLostUpdate`: the calls that were accepted, run one after the other in some order, are all
  accepted again and leave the same table;
* `noLostUpdate_of_undisturbed`: this holds of every interleaving in which no write of another call
  lands on a row between the read and the write of a call on it;
* `not_noLostUpdate`: it fails of others.
-/

set_option autoImplicit false

namespace Gusto.Escrow

open Effects WalletCall

abbrev WalletPool : Type := Pool WalletCall WalletOp WalletOp.Answer Err Subscription Subscriptions
abbrev WalletNote : Type := Note WalletCall Subscriptions WalletOp (Option Err)

/-- The calls, each in a thread of its own, over the table `t`. -/
def concurrent (calls : List WalletCall) (t : Subscriptions) : WalletPool :=
  Pool.start WalletCall.prog calls t

/-! ### What is asked -/

/-- No thread has a call left to make. -/
def Finished (P : WalletPool) : Prop := ∀ th ∈ P.threads, th.prog.head = none

/-- The calls that have returned. -/
def accepted (P : WalletPool) : List WalletCall :=
  P.threads.filterMap fun th =>
    match th.prog with
    | .ret _ => some th.tag
    | _ => none

/-- What the calls reserve together. -/
def reservedBy (cs : List WalletCall) : ℤ :=
  (cs.map fun
    | reserve _ a => a
    | _ => 0).sum

/-- From the table `t`, the accepted calls have had the effect of a sequential run; where they are
all reservations of one user, they stay within what was available. -/
structure NoLostUpdate (t : Subscriptions) (P : WalletPool) : Prop where
  serial : ∃ order, order.Perm (accepted P) ∧ AllAccepted t order ∧ afterFrom t order = P.state
  within : ∀ u sub, t u = some sub → (∀ c ∈ accepted P, ∃ a, c = reserve u a) → accepted P ≠ [] →
    reservedBy (accepted P) ≤ sub.currentBalance - sub.reservedAmount

/-! ### The condition -/

/-- The operation writes the row of `u`. -/
def WalletOp.Writes (u : String) : WalletOp → Prop
  | .update u' _ | .upsert u' _ _ => u' = u
  | _ => False

/-- A write to the row of `u` that was served. -/
def Lands (u : String) (o : WalletNote) : Prop := o.event.call.Writes u ∧ o.event.choice = none

/-- Where the step is the write of a call, no write to its row has landed since the call read it. -/
def Undisturbed (os : List WalletNote) (P : WalletPool) (l : ℕ × Option Err) : Prop :=
  ∀ c u d k, P.threads[l.1]? = some ⟨c, .call (.update u d) k⟩ →
    ∀ pre r mid, os = pre ++ r :: mid → r.tid = l.1 → r.event.call = .findUnique u →
      ∀ w ∈ mid, ¬ Lands u w

/-! ### The programs in a pool -/

/-- What is left after the commit: publishing, and the return of the row. -/
def Published (p : Wallet Subscription) : Prop :=
  p.EndsOk ∧ p.Always fun q => ∀ i u, q.head = some i → ¬ i.Writes u ∧ ∀ t, (serve i t).2 = t

theorem published_publish (c : WalletCall) (row : Option Subscription) (sub : Subscription) :
    Published (c.publish row sub) := by
  have hpub : ∀ {i : WalletOp} {k : Except Err i.Answer → Wallet Subscription},
      (∀ r, k r = .ret sub) → (∀ u, ¬ i.Writes u) → (∀ t, (serve i t).2 = t) →
      Published (.call i k) := by
    intro i k hk hw hs
    refine ⟨fun r => by rw [hk]; trivial, ⟨?_, fun r => by rw [hk]; simp⟩⟩
    rintro j u ⟨rfl⟩
    exact ⟨hw u, hs⟩
  cases c <;> cases row <;>
    first
    | exact ⟨trivial, by simp [publish]⟩
    | exact hpub (fun r => by cases r <;> rfl) (fun u h => h) (fun t => rfl)

/-- Where thread `n`, running `c`, has come to after `os`, over the table `t`. -/
inductive Place (os : List WalletNote) (t : Subscriptions) (n : ℕ) (c : WalletCall) :
    Wallet Subscription → Prop
  | start : Place os t n c c.prog
  /-- It has read `row` and is to write; `row` is still there unless a write has landed since. -/
  | reading (row : Option Subscription) (d : SubscriptionData) (hd : ∀ u a, c ≠ deposit u a)
      (hdata : c.data row = .ok d)
      (since : ∃ pre r mid, os = pre ++ r :: mid ∧ r.tid = n ∧
        r.event.call = .findUnique c.userId ∧
        ((∀ w ∈ mid, ¬ Lands c.userId w) → t c.userId = row)) :
      Place os t n c (Wallet.update c.userId d >>= c.publish row)
  | published {p : Wallet Subscription} (h : Published p) : Place os t n c p
  | refused (e : Err) : Place os t n c (.throw e)

/-- A step of another thread that leaves each row it does not write leaves a thread in its place. -/
theorem Place.after {os : List WalletNote} {t t' : Subscriptions} {n : ℕ} {c : WalletCall}
    {p : Wallet Subscription} {o : WalletNote} (h : Place os t n c p)
    (hframe : ∀ u, ¬ Lands u o → t' u = t u) : Place (os ++ [o]) t' n c p := by
  cases h with
  | start => exact .start
  | published h => exact .published h
  | refused e => exact .refused e
  | reading row d hd hdata since =>
    obtain ⟨pre, r, mid, rfl, hr, hcall, hrow⟩ := since
    refine .reading row d hd hdata ⟨pre, r, mid ++ [o], by simp, hr, hcall, fun hmid => ?_⟩
    rw [hframe _ (hmid o (by simp))]
    exact hrow fun w hw => hmid w (by simp [hw])

open Classical in
/-- The calls whose writes have landed, in the order of the writes. -/
noncomputable def landed (os : List WalletNote) : List WalletCall :=
  (os.filter fun o => ∃ u, Lands u o).map (·.tag)

open Classical in
/-- The threads that have committed. -/
noncomputable def committed (P : WalletPool) : List WalletCall :=
  (P.threads.filter fun th => th.prog.EndsOk).map (·.tag)

/-- **The invariant**: the table is that of the landed calls, run in the order of their writes. -/
structure Serializes (t : Subscriptions) (os : List WalletNote) (P : WalletPool) : Prop where
  accepted : AllAccepted t (landed os)
  state : afterFrom t (landed os) = P.state
  perm : (landed os).Perm (committed P)
  place : ∀ n th, P.threads[n]? = some th → Place os P.state n th.tag th.prog

/-- What one thread does, as far as the invariant is concerned: no write lands, or its call lands
and is accepted where it lands. -/
def Moves (t t' : Subscriptions) (o : WalletNote) (c : WalletCall) (p p' : Wallet Subscription) :
    Prop :=
  ((∀ u, ¬ Lands u o) ∧ t' = t ∧ (p.EndsOk ↔ p'.EndsOk)) ∨
  (Lands c.userId o ∧ t' = call t c ∧ (∃ sub, c.apply (t c.userId) = .ok sub) ∧
    ¬ p.EndsOk ∧ p'.EndsOk)

theorem frame_of_moves {t t' : Subscriptions} {o : WalletNote} {c : WalletCall}
    {p p' : Wallet Subscription} (h : Moves t t' o c p p') (u : String) (hu : ¬ Lands u o) :
    t' u = t u := by
  rcases h with ⟨-, rfl, -⟩ | ⟨hl, rfl, -⟩
  · rfl
  · exact call_of_ne c t fun e => hu (e ▸ hl)

/-- A served write of a call that decided on the row now in the table is the call itself. -/
theorem call_of_data {c : WalletCall} {t : Subscriptions} {d : SubscriptionData}
    (hdata : c.data (t c.userId) = .ok d) :
    c.apply (t c.userId) = .ok (d.write ((t c.userId).getD ⟨0, 0, 0, 0, 0⟩)) ∧
      call t c = Function.update t c.userId (some (d.write ((t c.userId).getD ⟨0, 0, 0, 0, 0⟩))) := by
  have h := apply_eq_ok_iff.mpr ⟨d, hdata, rfl⟩
  refine ⟨h, ?_⟩
  unfold call
  rw [eval_prog, h]

section Step

variable {os : List WalletNote} {t : Subscriptions} {n : ℕ} {c : WalletCall} {i : WalletOp}
  {k : Except Err i.Answer → Wallet Subscription}

/-- A call that fails where a failure is thrown on. -/
theorem step_failed {e : Err} (hk : k (.error e) = .throw e) :
    Moves t (exec (some e) i t).2 ⟨n, c, ⟨t, i, some e⟩⟩ c (.call i k) (k (exec (some e) i t).1) ∧
      Place (os ++ [⟨n, c, ⟨t, i, some e⟩⟩]) (exec (some e) i t).2 n c (k (exec (some e) i t).1) := by
  simp only [exec, hk]
  refine ⟨.inl ⟨fun u h => ?_, rfl, fun h => ?_, fun h => ?_⟩, .refused e⟩
  · cases h.2
  · exact hk ▸ h (.error e)
  · cases h

/-- A write that is served where the call has decided on the row in the table. -/
theorem step_lands {d : SubscriptionData} (hw : i.Writes c.userId)
    (hdata : c.data (t c.userId) = .ok d)
    (hstate : (serve i t).2 =
      Function.update t c.userId (some (d.write ((t c.userId).getD ⟨0, 0, 0, 0, 0⟩))))
    (hpub : Published (k (serve i t).1)) (hk : ∃ e, k (.error e) = .throw e) :
    Moves t (exec none i t).2 ⟨n, c, ⟨t, i, none⟩⟩ c (.call i k) (k (exec none i t).1) ∧
      Place (os ++ [⟨n, c, ⟨t, i, none⟩⟩]) (exec none i t).2 n c (k (exec none i t).1) := by
  obtain ⟨happly, hcall⟩ := call_of_data hdata
  obtain ⟨e, hk⟩ := hk
  refine ⟨.inr ⟨⟨hw, rfl⟩, ?_, ⟨_, happly⟩, fun h => ?_, hpub.1⟩, .published hpub⟩
  · rw [hcall]
    exact hstate
  · have := h (.error e)
    rw [hk] at this
    exact this

/-- One step of a thread, from the place it has come to. -/
theorem Place.step (ch : Option Err) (h : Place os t n c (.call i k))
    (hund : ∀ u d, i = .update u d → ∀ pre r mid, os = pre ++ r :: mid → r.tid = n →
      r.event.call = .findUnique u → ∀ w ∈ mid, ¬ Lands u w) :
    Moves t (exec ch i t).2 ⟨n, c, ⟨t, i, ch⟩⟩ c (.call i k) (k (exec ch i t).1) ∧
      Place (os ++ [⟨n, c, ⟨t, i, ch⟩⟩]) (exec ch i t).2 n c (k (exec ch i t).1) := by
  obtain ⟨p, hp⟩ : ∃ p, Prog.call i k = p := ⟨_, rfl⟩
  rw [hp] at h
  cases h with
  | start =>
    by_cases ha : c.AmountOk
    · by_cases hd : ∃ u a, c = deposit u a
      · obtain ⟨u, a, rfl⟩ := hd
        obtain ⟨d, hdata, hprog⟩ := prog_deposit (u := u) ha
        rw [hprog] at hp
        cases hp
        cases ch with
        | some e => exact step_failed (by rfl)
        | none =>
          refine step_lands (by rfl) (hdata _) ?_ ?_ ⟨.error "", by rfl⟩
          · cases hrow : t u <;> simp [serve, hrow, userId]
          · cases hrow : t u <;> simp [serve, hrow] <;> exact published_publish _ _ _
      · have hd' : ∀ u a, c ≠ deposit u a := fun u a e => hd ⟨u, a, e⟩
        rw [prog_read ha hd'] at hp
        cases hp
        cases ch with
        | some e => exact step_failed (by rfl)
        | none =>
          -- the read: the call goes on with the row it finds, or refuses it
          dsimp only [exec, serve, Prog.bind]
          cases hdata : c.data (t c.userId) with
          | error e =>
            exact ⟨.inl ⟨fun u h => h.1, rfl, fun h => h (.error e), fun h => h.elim⟩, .refused e⟩
          | ok d =>
            refine ⟨.inl ⟨fun u h => h.1, rfl, fun h => (h (.error (.error ""))).elim,
              fun h => (h (.error (.error ""))).elim⟩, .reading _ d hd' hdata
                ⟨os, _, [], rfl, rfl, rfl, fun _ => rfl⟩⟩
    · obtain ⟨e, hprog, -⟩ := prog_of_not_amountOk ha
      rw [hprog] at hp
      cases hp
  | reading row d hd hdata since =>
    cases hp
    cases ch with
    | some e => exact step_failed (by rfl)
    | none =>
      obtain ⟨pre, r, mid, hos, hr, hcall, hrow⟩ := since
      have hnow : t c.userId = row := hrow (hund _ _ rfl pre r mid hos hr hcall)
      obtain ⟨sub, hsub⟩ := row_of_data hd hdata
      subst hnow
      refine step_lands (by rfl) hdata ?_ ?_ ⟨.error "", by rfl⟩
      · simp [serve, hsub]
      · simp only [serve, hsub]
        exact published_publish _ _ _
  | published h =>
    subst hp
    have hq := h.2.1 i
    cases ch with
    | some e =>
      exact ⟨.inl ⟨fun u h' => (hq u rfl).1 h'.1, rfl, fun _ => h.1 _, fun _ => h.1⟩,
        .published ⟨h.1 _, h.2.2 _⟩⟩
    | none =>
      refine ⟨.inl ⟨fun u h' => (hq u rfl).1 h'.1, (hq "" rfl).2 t, fun _ => h.1 _, fun _ => h.1⟩,
        .published ⟨h.1 _, h.2.2 _⟩⟩
  | refused e => cases hp

end Step

theorem landed_snoc_of_not {os : List WalletNote} {o : WalletNote} (h : ∀ u, ¬ Lands u o) :
    landed (os ++ [o]) = landed os := by
  simp [landed, h]

theorem landed_snoc {os : List WalletNote} {o : WalletNote} {u : String} (h : Lands u o) :
    landed (os ++ [o]) = landed os ++ [o.tag] := by
  have : ∃ u, Lands u o := ⟨u, h⟩
  simp [landed, this]

open Classical in
theorem committed_perm {P : WalletPool} {th : Thread WalletCall WalletOp WalletOp.Answer Err Subscription}
    {rest : List (Thread WalletCall WalletOp WalletOp.Answer Err Subscription)}
    (h : P.threads.Perm (th :: rest)) :
    (committed P).Perm ((if th.prog.EndsOk then [th.tag] else []) ++
      (rest.filter fun th => th.prog.EndsOk).map (·.tag)) := by
  unfold committed
  refine ((h.filter _).map _).trans ?_
  by_cases hth : th.prog.EndsOk <;> simp [hth]

/-- **The step of the invariant.** -/
theorem Serializes.step {t₀ : Subscriptions} {os : List WalletNote} {P P' : WalletPool}
    {l : ℕ × Option Err} {o : WalletNote} (hI : Serializes t₀ os P) (hok : Undisturbed os P l)
    (h : P.step exec l = some (P', o)) : Serializes t₀ (os ++ [o]) P' := by
  obtain ⟨c, i, k, rest, hget, hP, hset, hP', hstate, rfl⟩ := Pool.step_cases h
  obtain ⟨hmove, hplace⟩ := (hI.place l.1 _ hget).step l.2
    (fun u d hi => hok c u d (hi ▸ k) (by subst hi; exact hget))
  rw [← hstate] at hmove hplace
  have hframe := frame_of_moves hmove
  have hcom := committed_perm hP
  have hcom' := committed_perm hP'
  refine ⟨?_, ?_, ?_, fun n th hth => ?_⟩
  · rcases hmove with ⟨hno, -, -⟩ | ⟨hl, -, hacc, -⟩
    · rw [landed_snoc_of_not hno]
      exact hI.accepted
    · rw [landed_snoc hl, allAccepted_snoc, hI.state]
      exact ⟨hI.accepted, hacc⟩
  · rcases hmove with ⟨hno, hs, -⟩ | ⟨hl, hs, -⟩
    · rw [landed_snoc_of_not hno, hs, hI.state]
    · rw [landed_snoc hl, afterFrom_snoc, hI.state, hs]
  · rcases hmove with ⟨hno, -, hends⟩ | ⟨hl, -, -, hends, hends'⟩
    · rw [landed_snoc_of_not hno]
      by_cases hk : (k (exec l.2 i P.state).1).EndsOk
      · simp only [hk, hends.mpr hk, if_true] at hcom hcom'
        exact hI.perm.trans (hcom.trans hcom'.symm)
      · simp only [hk, mt hends.mp hk, if_false] at hcom hcom'
        exact hI.perm.trans (hcom.trans hcom'.symm)
    · rw [landed_snoc hl]
      simp only [hends, hends', if_true, if_false, List.nil_append] at hcom hcom'
      exact ((hI.perm.trans hcom).append_right _).trans
        ((List.perm_append_comm).trans hcom'.symm)
  · rw [hset] at hth
    rcases Pool.getElem?_set_cases hget hth with ⟨rfl, rfl⟩ | ⟨-, hth⟩
    · exact hplace
    · exact (hI.place n th hth).after hframe

theorem not_endsOk_prog (c : WalletCall) : ¬ c.prog.EndsOk := by
  intro h
  by_cases ha : c.AmountOk
  · by_cases hd : ∃ u a, c = deposit u a
    · obtain ⟨u, a, rfl⟩ := hd
      obtain ⟨d, -, hprog⟩ := prog_deposit (u := u) ha
      rw [hprog] at h
      exact h (.error (.error ""))
    · rw [prog_read ha (fun u a e => hd ⟨u, a, e⟩)] at h
      exact h (.error (.error ""))
  · obtain ⟨e, hprog, -⟩ := prog_of_not_amountOk ha
    rw [hprog] at h
    exact h

theorem serializes_start (calls : List WalletCall) (t : Subscriptions) :
    Serializes t [] (concurrent calls t) := by
  refine ⟨trivial, rfl, ?_, fun n th hth => ?_⟩
  · have : committed (concurrent calls t) = [] := by
      unfold committed
      rw [List.map_eq_nil_iff, List.filter_eq_nil_iff]
      intro th hth
      rw [(Pool.start_threads hth).2]
      simpa using not_endsOk_prog th.tag
    rw [this]
    exact List.Perm.nil
  · obtain ⟨-, hprog⟩ := Pool.start_threads (List.mem_of_getElem? hth)
    rw [hprog]
    exact .start

/-! ### At the end -/

/-- Where all threads have finished, the committed calls are those that returned. -/
theorem committed_of_finished {P : WalletPool} (h : Finished P) : committed P = accepted P := by
  unfold committed accepted
  unfold Finished at h
  generalize P.threads = ths at h
  induction ths with
  | nil => rfl
  | cons th ths ih =>
    have ih := ih fun th hth => h th (List.mem_cons_of_mem _ hth)
    have hth := h th (List.mem_cons_self ..)
    obtain ⟨c, p⟩ := th
    cases p with
    | ret a => simp [ih]
    | throw e => simp [ih]
    | call i k => cases hth

/-- Reservations of one user that are accepted one after the other stay within what is available. -/
theorem reservedBy_le {u : String} {cs : List WalletCall} {t : Subscriptions} {sub : Subscription}
    (hrow : t u = some sub) (hcs : ∀ c ∈ cs, ∃ a, c = reserve u a) (hne : cs ≠ [])
    (h : AllAccepted t cs) : reservedBy cs ≤ sub.currentBalance - sub.reservedAmount := by
  induction cs generalizing t sub with
  | nil => exact absurd rfl hne
  | cons c cs ih =>
    obtain ⟨a, rfl⟩ := hcs c (List.mem_cons_self ..)
    obtain ⟨⟨sub', hsub'⟩, hrest⟩ := h
    have hnext : call t (reserve u a) u = some sub' := by
      have := call_self (reserve u a) t
      rw [next, hsub'] at this
      exact this
    have hacc := accepts_of_apply hsub'
    rw [show t (reserve u a).userId = some sub from hrow] at hacc
    cases hacc with
    | reserve pos le =>
      have hcons : reservedBy (reserve u a :: cs) = a + reservedBy cs := by simp [reservedBy]
      rw [hcons]
      rcases eq_or_ne cs [] with rfl | hne'
      · simpa [reservedBy] using le
      · have := ih hnext (fun c hc => hcs c (List.mem_cons_of_mem _ hc)) hne' hrest
        simp only at this
        omega

theorem reservedBy_perm {cs cs' : List WalletCall} (h : cs.Perm cs') :
    reservedBy cs = reservedBy cs' := (h.map _).sum_eq

/-- **No lost update without a write in between.** However the calls interleave, if no write lands on
a row between the read and the write of another call on it, then the accepted calls have had the
effect of a sequential run. -/
theorem noLostUpdate_of_undisturbed (calls : List WalletCall) (t : Subscriptions) {P : WalletPool}
    {os : List WalletNote} (hrun : Run (Pool.step exec) Undisturbed (concurrent calls t) P os)
    (hfin : Finished P) : NoLostUpdate t P := by
  have hI : Serializes t os P :=
    hrun.invariant (Serializes t) (serializes_start calls t) fun _ _ _ _ _ hI hok h => hI.step hok h
  have hperm : (landed os).Perm (accepted P) := committed_of_finished hfin ▸ hI.perm
  refine ⟨⟨landed os, hperm, hI.accepted, hI.state⟩, fun u sub hrow hcs hne => ?_⟩
  rw [← reservedBy_perm hperm]
  refine reservedBy_le hrow (fun c hc => hcs c (hperm.mem_iff.mp hc)) (fun e => hne ?_) hI.accepted
  rw [e] at hperm
  exact List.nil_perm.mp hperm

/-! ### With and without the condition -/

/-- The operations that read the row of a user and then write it. -/
def TwoStep : WalletCall → Prop
  | debit _ _ _ | reserve _ _ | captureReservation _ _ | releaseReservation _ _ => True
  | _ => False

instance : DecidablePred TwoStep
  | debit .. | reserve .. | captureReservation .. | releaseReservation .. => inferInstanceAs (Decidable True)
  | deposit .. | tick _ | redistribute _ => inferInstanceAs (Decidable False)

/-- Two debits of a user with 100 paise. -/
def twoDebits : WalletPool :=
  concurrent [debit "user-1" 30 0, debit "user-1" 20 0] fun _ =>
    some { totalDeposited := 100, currentBalance := 100, daysLeft := 30, dailyAvgLimit := 3 }

theorem undisturbed_of_head {os : List WalletNote} {P : WalletPool} {l : ℕ × Option Err}
    (h : ∀ u d, (P.threads[l.1]?.bind (·.prog.head)) ≠ some (.update u d)) : Undisturbed os P l := by
  intro c u d k hget
  exact absurd (by rw [hget]; rfl) (h u d)

/-- A write right after the read, which is the first call of its thread. -/
theorem undisturbed_of_last {os : List WalletNote} {o : WalletNote} {P : WalletPool}
    {l : ℕ × Option Err} (h : ∀ o' ∈ os, o'.tid ≠ l.1) : Undisturbed (os ++ [o]) P l := by
  intro c u d k _ pre r mid hos hr _ w hw
  rcases snoc_eq_append_cons hos with ⟨-, -, rfl⟩ | ⟨mid', hos', -⟩
  · cases hw
  · exact absurd hr (h r (by simp [hos']))

theorem finished_pair {a b : Thread WalletCall WalletOp WalletOp.Answer Err Subscription}
    {t : Subscriptions} (ha : a.prog.head = none) (hb : b.prog.head = none) :
    Finished ⟨[a, b], t⟩ := by
  simp [Finished, ha, hb]

/-- One debit after the other. -/
theorem noLostUpdate_twoDebits :
    ∃ P os, Run (Pool.step exec) Undisturbed twoDebits P os ∧ Finished P ∧
      NoLostUpdate (fun _ => some ⟨100, 100, 0, 30, 3⟩) P := by
  have h1 : Run (Pool.step exec) Undisturbed twoDebits _ _ :=
    .snoc (0, none) .nil (undisturbed_of_head (by rintro _ _ ⟨⟩)) rfl
  have h2 := Run.snoc (0, none) h1 (undisturbed_of_last (by simp)) rfl
  have h3 := Run.snoc (0, none) h2 (undisturbed_of_head (by rintro _ _ ⟨⟩)) rfl
  have h4 := Run.snoc (1, none) h3 (undisturbed_of_head (by rintro _ _ ⟨⟩)) rfl
  have h5 := Run.snoc (1, none) h4 (undisturbed_of_last (by simp)) rfl
  have h6 := Run.snoc (1, none) h5 (undisturbed_of_head (by rintro _ _ ⟨⟩)) rfl
  exact ⟨_, _, h6, finished_pair rfl rfl,
    noLostUpdate_of_undisturbed _ _ h6 (finished_pair rfl rfl)⟩

/-- Both read before either writes: the second write undoes the first. -/
theorem not_noLostUpdate :
    ¬ ∀ (u : String) (calls : List WalletCall) (t : Subscriptions),
      (∀ c ∈ calls, c.userId = u ∧ TwoStep c) →
        ∀ P os, Run (Pool.step exec) anyStep (concurrent calls t) P os → Finished P →
          NoLostUpdate t P := by
  intro h
  have hrun := Run.of_runSteps .nil (show runSteps (Pool.step exec) anyStep
    [(0, none), (1, none), (0, none), (1, none), (0, none), (1, none)] twoDebits [] = some (_, _)
    from rfl)
  obtain ⟨order, hperm, -, hstate⟩ :=
    (h "user-1" _ _ (by decide) _ _ hrun (finished_pair rfl rfl)).serial
  have hrow := congrFun hstate "user-1"
  rcases List.perm_pair.mp hperm with rfl | rfl <;> exact absurd hrow (by decide)

end Gusto.Escrow
