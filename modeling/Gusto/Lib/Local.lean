import Gusto.Lib.Fault
import Gusto.Lib.Pool

/-!
# Parts that do not meet

A state with a part for each key, and calls each of which touches the parts of some keys.

* `Parts`: a call leaves the parts it does not touch, and one that touches no other part than `k` is
  answered, and changes that part, by that part alone;
* `Pool.Asks`: threads that, answered as is said, make calls of one kind only, and do so in every run;
* `Parts.project`: what the threads of one key do in an interleaving with any others, they do in a run of
  their own, over any state with the same part.
-/

set_option autoImplicit false

namespace Effects

variable {κ ι ε α β σ χ K V : Type} {ρ : ι → Type}

/-- The calls that touch the part of `k` at most. -/
def Concerns (touches : ι → K → Prop) (k : K) (i : ι) : Prop := ∀ k', touches i k' → k' = k

/-- The parts of a state, and the calls that touch them. -/
structure Parts (exec : Handler ι ρ ε σ χ) (touches : ι → K → Prop) (view : K → σ → V) : Prop where
  frame {c : χ} {i : ι} {s : σ} {k : K} : ¬ touches i k → view k (exec c i s).2 = view k s
  agree {c : χ} {i : ι} {s s' : σ} {k : K} : Concerns touches k i → view k s = view k s' →
    (exec c i s).1 = (exec c i s').1 ∧ view k (exec c i s).2 = view k (exec c i s').2

/-! ### The calls of a program -/

/-- Nothing is known of the answers. -/
abbrev AnyAnswer : (i : ι) → Except ε (ρ i) → Prop := fun _ _ => True

namespace Prog

variable {R : (i : ι) → Except ε (ρ i) → Prop} {P : ι → Prop}

theorem Asks.mono {P' : ι → Prop} {p : Prog ι ρ ε α} (h : p.Asks R P) (hP : ∀ i, P i → P' i) : p.Asks R P' := by
  induction p with
  | ret a => trivial
  | throw e => trivial
  | call i k ih => exact ⟨hP i h.1, fun r hr => ih r (h.2 r hr)⟩

theorem asks_of_forall (h : ∀ i, P i) {p : Prog ι ρ ε α} : p.Asks R P := by
  induction p with
  | ret a => trivial
  | throw e => trivial
  | call i k ih => exact ⟨h i, fun r _ => ih r⟩

theorem Asks.await {i : ι} (h : P i) : (Prog.await i : Prog ι ρ ε (ρ i)).Asks R P := by
  refine ⟨h, fun r _ => ?_⟩
  cases r <;> trivial

theorem Asks.bind {p : Prog ι ρ ε α} {f : α → Prog ι ρ ε β} (hp : p.Asks R P) (hf : ∀ a, (f a).Asks R P) :
    (p >>= f).Asks R P := by
  induction p with
  | ret a => exact hf a
  | throw e => trivial
  | call i k ih => exact ⟨hp.1, fun r hr => ih r (hp.2 r hr)⟩

theorem Asks.attempt {p : Prog ι ρ ε α} (hp : p.Asks R P) : p.attempt.Asks R P := by
  induction p with
  | ret a => trivial
  | throw e => trivial
  | call i k ih => exact ⟨hp.1, fun r hr => ih r (hp.2 r hr)⟩

/-- A call that is awaited, and what is done with its answer. -/
theorem Asks.await_bind {i : ι} {f : ρ i → Prog ι ρ ε β} (h : P i) (hf : ∀ a, R i (.ok a) → (f a).Asks R P) :
    (Prog.await i >>= f).Asks R P := by
  refine ⟨h, fun r hr => ?_⟩
  cases r with
  | ok a => exact hf a hr
  | error e => trivial

theorem Asks.attempt_bind {p : Prog ι ρ ε α} {f : Except ε α → Prog ι ρ ε β} (hp : p.Asks R P)
    (hf : ∀ r, (f r).Asks R P) : (p.attempt >>= f).Asks R P := hp.attempt.bind hf

end Prog

/-! ### The calls of a pool -/

/-- Each thread, answered as `R` says, makes calls that meet `A` of what it was started for only. -/
def Pool.Asks (R : (i : ι) → Except ε (ρ i) → Prop) (A : κ → ι → Prop) (P : Pool κ ι ρ ε α σ) : Prop :=
  ∀ th ∈ P.threads, th.prog.Asks R (A th.tag)

section Calls

variable {R : (i : ι) → Except ε (ρ i) → Prop} {A : κ → ι → Prop} {exec : Handler ι ρ ε σ χ} {P P' : Pool κ ι ρ ε α σ}

theorem Pool.Asks.start {prog : κ → Prog ι ρ ε α} {calls : List κ} {s : σ}
    (h : ∀ c ∈ calls, (prog c).Asks R (A c)) : (Pool.start prog calls s).Asks R A := by
  intro th hth
  obtain ⟨hmem, hprog⟩ := Pool.start_threads hth
  rw [hprog]
  exact h _ hmem

/-- A step is a call that meets `A`, and leaves threads that go on to make such calls. -/
theorem Pool.Asks.step (hR : ∀ c i s, R i (exec c i s).1) {l : ℕ × χ} {o : Note κ σ ι χ}
    (h : P.Asks R A) (hs : P.step exec l = some (P', o)) : A o.tag o.event.call ∧ P'.Asks R A := by
  obtain ⟨tag, i, c, rest, -, hP, -, hP', -, rfl⟩ := Pool.step_cases hs
  obtain ⟨hcall, hnext⟩ := h _ (hP.mem_iff.mpr List.mem_cons_self)
  exact ⟨hcall, Pool.forall_of_perm hP hP' h (hnext _ (hR _ _ _))⟩

theorem Pool.Asks.run (hR : ∀ c i s, R i (exec c i s).1)
    {ok : List (Note κ σ ι χ) → Pool κ ι ρ ε α σ → ℕ × χ → Prop} {os : List (Note κ σ ι χ)} (h : P.Asks R A)
    (hr : Run (Pool.step exec) ok P P' os) : ∀ o ∈ os, A o.tag o.event.call :=
  hr.forall_of_invariant (P := fun _ => True) (I := Pool.Asks R A) (fun _ _ => trivial) h
    fun _ _ _ _ hI _ hs => And.symm (hI.step hR hs)

end Calls

/-! ### The threads of one key -/

section Filter

variable {A : Type} {p : A → Bool} {l : List A} {n : ℕ} {a b : A}

/-- A list about one of its elements. -/
theorem split_of_getElem? (h : l[n]? = some a) :
    ∃ l₁ l₂, l = l₁ ++ a :: l₂ ∧ ∀ a', l.set n a' = l₁ ++ a' :: l₂ := by
  obtain ⟨hlt, rfl⟩ := List.getElem?_eq_some_iff.mp h
  have hset : ∀ a', l.set n a' = l.take n ++ a' :: l.drop (n + 1) := fun a' => by
    rw [List.set_eq_take_append_cons_drop, if_pos hlt]
  refine ⟨l.take n, l.drop (n + 1), ?_, hset⟩
  rw [← hset, List.set_getElem_self]

/-- An element that is kept, and what replaces it, in the list of those that are. -/
theorem filter_set_of_pos (h : l[n]? = some a) (ha : p a = true) (hb : p b = true) :
    ∃ m, (l.filter p)[m]? = some a ∧ (l.set n b).filter p = (l.filter p).set m b := by
  obtain ⟨l₁, l₂, rfl, hset⟩ := split_of_getElem? h
  refine ⟨(l₁.filter p).length, by simp [ha], ?_⟩
  rw [hset]
  simp [ha, hb]

/-- An element that is not kept, replaced by another. -/
theorem filter_set_of_neg (h : l[n]? = some a) (ha : p a = false) (hb : p b = false) :
    (l.set n b).filter p = l.filter p := by
  obtain ⟨l₁, l₂, rfl, hset⟩ := split_of_getElem? h
  rw [hset]
  simp [ha, hb]

end Filter

section Project

variable (owner : κ → K)

/-- What a thread did, apart from its number and the state. -/
def Note.deed (o : Note κ σ ι χ) : κ × ι × χ := (o.tag, o.event.call, o.event.choice)

/-- The pool `Q` has the threads of the key `k` in `P`, over a state with the same part. -/
structure Projects [DecidableEq K] (view : K → σ → V) (k : K) (P Q : Pool κ ι ρ ε α σ) : Prop where
  threads : Q.threads = P.threads.filter fun th => owner th.tag = k
  view : view k Q.state = view k P.state

/-- Each thread makes calls that concern its key only. -/
abbrev Owns (touches : ι → K → Prop) (P : Pool κ ι ρ ε α σ) : Prop :=
  P.Asks AnyAnswer fun c => Concerns touches (owner c)

variable {owner} {exec : Handler ι ρ ε σ χ} {touches : ι → K → Prop} {view : K → σ → V} {k : K}
  {P P' Q : Pool κ ι ρ ε α σ}

variable [DecidableEq K]

/-- **A step**, as the threads of one key see it. -/
theorem Parts.step (hparts : Parts exec touches view) {l : ℕ × χ} {o : Note κ σ ι χ}
    (howns : Owns owner touches P) (hproj : Projects owner view k P Q) (hs : P.step exec l = some (P', o)) :
    (owner o.tag = k ∧ ∃ l' Q' o', Q.step exec l' = some (Q', o') ∧ o'.deed = o.deed ∧
      Projects owner view k P' Q') ∨
    (owner o.tag ≠ k ∧ Projects owner view k P' Q) := by
  obtain ⟨tag, i, c, rest, hget, hP, hset, -, hstate, rfl⟩ := Pool.step_cases hs
  have hown : Concerns touches (owner tag) i := (howns _ (hP.mem_iff.mpr List.mem_cons_self)).1
  by_cases hk : owner tag = k
  · subst hk
    obtain ⟨hanswer, hpart⟩ := hparts.agree (c := l.2) hown hproj.view
    obtain ⟨m, hm, hfilter⟩ := filter_set_of_pos (p := fun th => decide (owner th.tag = owner tag))
      (b := ⟨tag, c (exec l.2 i P.state).1⟩) hget (decide_eq_true rfl) (decide_eq_true rfl)
    rw [← hproj.threads] at hm hfilter
    refine .inl ⟨rfl, (m, l.2), ⟨Q.threads.set m ⟨tag, c (exec l.2 i Q.state).1⟩, (exec l.2 i Q.state).2⟩,
      ⟨m, tag, ⟨Q.state, i, l.2⟩⟩, ?_, rfl, ?_, ?_⟩
    · simp only [Pool.step, hm]
    · rw [hset, hfilter, hanswer]
    · rw [hstate]
      exact hpart
  · refine .inr ⟨hk, ?_, ?_⟩
    · rw [hset, filter_set_of_neg hget (decide_eq_false hk) (decide_eq_false hk)]
      exact hproj.threads
    · rw [hstate, hparts.frame fun htouch => hk (hown k htouch).symm]
      exact hproj.view

/-- **Runs.** The threads of one key do in an interleaving with any others what they do in a run of their
own. -/
theorem Parts.project (hparts : Parts exec touches view) {ok : List (Note κ σ ι χ) → Pool κ ι ρ ε α σ → ℕ × χ → Prop}
    {os : List (Note κ σ ι χ)} (howns : Owns owner touches P) (hproj : Projects owner view k P Q)
    (hr : Run (Pool.step exec) ok P P' os) :
    ∃ Q' os', Run (Pool.step exec) anyStep Q Q' os' ∧ Projects owner view k P' Q' ∧
      os'.map Note.deed = (os.filter fun o => owner o.tag = k).map Note.deed := by
  have hall : Owns owner touches P' ∧ ∃ Q' os', Run (Pool.step exec) anyStep Q Q' os' ∧
      Projects owner view k P' Q' ∧ os'.map Note.deed = (os.filter fun o => owner o.tag = k).map Note.deed := by
    induction hr with
    | nil => exact ⟨howns, Q, [], .nil, hproj, rfl⟩
    | snoc l _ _ hs ih =>
      obtain ⟨howns', Q', os', hr', hproj', hdeeds⟩ := ih
      refine ⟨(howns'.step (fun _ _ _ => trivial) hs).2, ?_⟩
      rcases hparts.step howns' hproj' hs with ⟨hk, l', Q'', o', hs', hdeed, hproj''⟩ | ⟨hk, hproj''⟩
      · refine ⟨Q'', os' ++ [o'], .snoc l' hr' trivial hs', hproj'', ?_⟩
        simp [hdeeds, hdeed, hk]
      · refine ⟨Q', os', hr', hproj'', ?_⟩
        simp [hdeeds, hk]
  exact hall.2

/-- The pool of the calls of one key, over a state with the same part. -/
theorem projects_start {prog : κ → Prog ι ρ ε α} {calls : List κ} {s s' : σ} (hview : view k s' = view k s) :
    Projects owner view k (Pool.start prog calls s) (Pool.start prog (calls.filter fun c => owner c = k) s') := by
  refine ⟨?_, hview⟩
  simp only [Pool.start, List.filter_map]
  rfl

end Project

end Effects
