import Gusto.Lib.Prog

/-!
# Pre- and postconditions

`Triple exec ok J P p Q`: where `P` holds before `p` and each call meets `ok`, `J` holds of the state
before each call, and `Q` of what comes out and of the last state.

There is a rule for each way to build a program; `Triple.of_run` reads a triple as a statement about
runs.
-/

set_option autoImplicit false

namespace Effects.Prog

variable {ι : Type} {ρ : ι → Type} {ε α β σ χ : Type} {exec : Handler ι ρ ε σ χ}
  {ok : Event σ ι χ → Prop} {J P P' : σ → Prop} {p : Prog ι ρ ε α}
  {Q Q' : Except ε α → σ → Prop}

/-- What holds after `p`, and before each of its calls, if `P` holds before `p`. -/
def Triple (exec : Handler ι ρ ε σ χ) (ok : Event σ ι χ → Prop) (J P : σ → Prop) (p : Prog ι ρ ε α)
    (Q : Except ε α → σ → Prop) : Prop :=
  ∀ s, P s → p.wlp exec (fun evs r s' => (∀ e ∈ evs, ok e) → (∀ e ∈ evs, J e.pre) ∧ Q r s') s

/-- Of a run that has had a call that does not meet `ok` nothing is asked. -/
theorem wlp_of_not_ok {s : σ} {Post : List (Event σ ι χ) → Except ε α → σ → Prop}
    (pre : List (Event σ ι χ)) (h : ¬ ∀ e ∈ pre, ok e) :
    p.wlp exec (fun evs r s' => (∀ e ∈ pre ++ evs, ok e) → Post evs r s') s := by
  have htrue : p.wlp exec (fun _ _ _ => True) s := wlp_invariant (fun _ _ _ _ => trivial) trivial
  refine wlp_mono (fun evs r s' _ hevs => ?_) htrue
  exact absurd (fun e he => hevs e (List.mem_append_left _ he)) h

namespace Triple

theorem ret {a : α} (h : ∀ s, P s → Q (.ok a) s) : Triple exec ok J P (.ret a) Q :=
  fun s hs _ => ⟨nofun, h s hs⟩

theorem throw {e : ε} (h : ∀ s, P s → Q (.error e) s) : Triple exec ok J P (.throw e) Q :=
  fun s hs _ => ⟨nofun, h s hs⟩

theorem mono (h : Triple exec ok J P p Q) (hP : ∀ s, P' s → P s) (hQ : ∀ r s, Q r s → Q' r s) :
    Triple exec ok J P' p Q' := by
  intro s hs
  refine wlp_mono (fun evs r s' hpost hevs => ?_) (h s (hP s hs))
  obtain ⟨hpre, hq⟩ := hpost hevs
  exact ⟨hpre, hQ r s' hq⟩

/-- A call: `R` holds of each answer that meets `ok`, and of the state it leaves. -/
theorem call {i : ι} {k : Except ε (ρ i) → Prog ι ρ ε α} {R : Except ε (ρ i) → σ → Prop}
    (hJ : ∀ s, P s → J s)
    (hstep : ∀ s c, P s → ok ⟨s, i, c⟩ → R (exec c i s).1 (exec c i s).2)
    (hk : ∀ r, Triple exec ok J (R r) (k r) Q) : Triple exec ok J P (.call i k) Q := by
  intro s hs c
  by_cases hc : ok ⟨s, i, c⟩
  · refine wlp_mono (fun evs r s' hpost hevs => ?_) (hk _ _ (hstep s c hs hc))
    obtain ⟨-, hrest⟩ := List.forall_mem_cons.mp hevs
    obtain ⟨hpre, hq⟩ := hpost hrest
    exact ⟨List.forall_mem_cons.mpr ⟨hJ s hs, hpre⟩, hq⟩
  · exact wlp_of_not_ok [⟨s, i, c⟩] (by simpa using hc)

theorem await {i : ι} {Q : Except ε (ρ i) → σ → Prop} (hJ : ∀ s, P s → J s)
    (hstep : ∀ s c, P s → ok ⟨s, i, c⟩ → Q (exec c i s).1 (exec c i s).2) :
    Triple exec ok J P (Prog.await i) Q := by
  refine call hJ hstep fun r => ?_
  cases r with
  | ok a => exact ret fun s hs => hs
  | error e => exact throw fun s hs => hs

theorem bind {f : α → Prog ι ρ ε β} {R : Except ε α → σ → Prop} {Q : Except ε β → σ → Prop}
    (hp : Triple exec ok J P p R) (hf : ∀ a, Triple exec ok J (R (.ok a)) (f a) Q)
    (herr : ∀ e s, R (.error e) s → Q (.error e) s) : Triple exec ok J P (p >>= f) Q := by
  intro s hs
  rw [wlp_bind]
  refine wlp_mono (fun evs r s' hpost => ?_) (hp s hs)
  cases r with
  | error e =>
    intro hevs
    obtain ⟨hpre, hr⟩ := hpost hevs
    exact ⟨hpre, herr e s' hr⟩
  | ok a =>
    by_cases hevs : ∀ e ∈ evs, ok e
    · obtain ⟨hpre, hr⟩ := hpost hevs
      refine wlp_mono (fun evs' r' s'' hpost' hall => ?_) (hf a s' hr)
      obtain ⟨-, hrest⟩ := List.forall_mem_append.mp hall
      obtain ⟨hpre', hq⟩ := hpost' hrest
      exact ⟨List.forall_mem_append.mpr ⟨hpre, hpre'⟩, hq⟩
    -- a call of `p` has not met `ok`, so nothing is asked of what follows
    · exact wlp_of_not_ok evs hevs

theorem attempt {Q : Except ε (Except ε α) → σ → Prop}
    (h : Triple exec ok J P p fun r s => Q (.ok r) s) : Triple exec ok J P p.attempt Q :=
  fun s hs => wlp_attempt.mpr (h s hs)

/-- **The meaning of a triple**, for one run. -/
theorem of_run (h : Triple exec ok J P p Q) {s : σ} {cs : List χ} {d : Done σ ι χ ε α} (hs : P s)
    (hrun : p.run exec cs s = some d) (hevs : ∀ e ∈ d.events, ok e) :
    (∀ e ∈ d.events, J e.pre) ∧ Q d.result d.state :=
  wlp_iff_run.mp (h s hs) cs d hrun hevs

end Triple

end Effects.Prog
