import Gusto.Lib.Pool

/-!
# What interleaved programs may rely on

* `Contract`: an invariant, a relation between a state and a later one, and what is asked before a call
  of a thread and after its end; all of it may speak of the calls made so far;
* `Meets`: a program meets the contract from here on, whatever other threads do in between; there is a
  rule for each way to build a program;
* `Contract.run`: in every run of a pool whose threads meet a sound contract, they go on to meet it.
-/

set_option autoImplicit false

namespace Effects

variable {κ ι ε α β σ χ : Type} {ρ : ι → Type}

/-- What the threads of a pool keep, ask for and promise. -/
structure Contract (κ ι ε α σ χ : Type) where
  inv : List (Note κ σ ι χ) → σ → Prop
  rely : σ → σ → Prop
  pre : ℕ → κ → ι → List (Note κ σ ι χ) → σ → Prop
  post : ℕ → κ → Except ε α → List (Note κ σ ι χ) → σ → Prop

/-- A call that meets its precondition keeps the invariant, and others may rely on what it leaves. -/
structure Contract.Sound (C : Contract κ ι ε α σ χ) (exec : Handler ι ρ ε σ χ) : Prop where
  refl : ∀ s, C.rely s s
  trans : ∀ s s' s'', C.rely s s' → C.rely s' s'' → C.rely s s''
  step : ∀ os s tid tag i c, C.inv os s → C.pre tid tag i os s →
    C.inv (os ++ [⟨tid, tag, ⟨s, i, c⟩⟩]) (exec c i s).2 ∧ C.rely s (exec c i s).2

/-- The program of the thread `tid` meets the contract, whatever happens before each of its calls. -/
def Prog.Meets (C : Contract κ ι ε α σ χ) (exec : Handler ι ρ ε σ χ) (tid : ℕ) (tag : κ) :
    Prog ι ρ ε α → List (Note κ σ ι χ) → σ → Prop
  | .ret a, os, s => ∀ os' s', os <+: os' → C.rely s s' → C.post tid tag (.ok a) os' s'
  | .throw e, os, s => ∀ os' s', os <+: os' → C.rely s s' → C.post tid tag (.error e) os' s'
  | .call i k, os, s => ∀ os' s', os <+: os' → C.rely s s' → C.inv os' s' →
    C.pre tid tag i os' s' ∧
      ∀ c, (k (exec c i s').1).Meets C exec tid tag (os' ++ [⟨tid, tag, ⟨s', i, c⟩⟩]) (exec c i s').2

/-- The invariant holds, and each thread meets the contract. -/
def Pool.Meets (C : Contract κ ι ε α σ χ) (exec : Handler ι ρ ε σ χ) (os : List (Note κ σ ι χ))
    (P : Pool κ ι ρ ε α σ) : Prop :=
  C.inv os P.state ∧
    ∀ tid (th : Thread κ ι ρ ε α), P.threads[tid]? = some th →
      th.prog.Meets C exec tid th.tag os P.state

section

variable {C : Contract κ ι ε α σ χ} {exec : Handler ι ρ ε σ χ} {tid : ℕ} {tag : κ}
  {os os' : List (Note κ σ ι χ)} {s s' : σ}

/-- A program that meets the contract meets it later. -/
theorem Prog.Meets.later (hC : C.Sound exec) {p : Prog ι ρ ε α} (h : p.Meets C exec tid tag os s)
    (hos : os <+: os') (hs : C.rely s s') : p.Meets C exec tid tag os' s' := by
  cases p with
  | ret a => exact fun os'' s'' h₁ h₂ => h os'' s'' (hos.trans h₁) (hC.trans _ _ _ hs h₂)
  | throw e => exact fun os'' s'' h₁ h₂ => h os'' s'' (hos.trans h₁) (hC.trans _ _ _ hs h₂)
  | call i k => exact fun os'' s'' h₁ h₂ => h os'' s'' (hos.trans h₁) (hC.trans _ _ _ hs h₂)

/-- The end of a program that meets the contract. -/
theorem Prog.Meets.of_ret (hC : C.Sound exec) {a : α}
    (h : (Prog.ret a : Prog ι ρ ε α).Meets C exec tid tag os s) : C.post tid tag (.ok a) os s :=
  h os s (List.prefix_refl os) (hC.refl s)

/-- A call that is awaited: its precondition, and the rest of the program whatever comes back. -/
theorem Prog.Meets.await_bind {i : ι} {f : ρ i → Prog ι ρ ε α}
    (h : ∀ os' s', os <+: os' → C.rely s s' → C.inv os' s' → C.pre tid tag i os' s' ∧
      ∀ c, match (exec c i s').1 with
        | .ok a => (f a).Meets C exec tid tag (os' ++ [⟨tid, tag, ⟨s', i, c⟩⟩]) (exec c i s').2
        | .error e => (Prog.throw e : Prog ι ρ ε α).Meets C exec tid tag
            (os' ++ [⟨tid, tag, ⟨s', i, c⟩⟩]) (exec c i s').2) :
    (Prog.await i >>= f).Meets C exec tid tag os s := by
  intro os' s' hos hs hinv
  obtain ⟨hpre, hnext⟩ := h os' s' hos hs hinv
  refine ⟨hpre, fun c => ?_⟩
  have hc := hnext c
  cases hres : (exec c i s').1 with
  | ok a =>
    rw [hres] at hc
    exact hc
  | error e =>
    rw [hres] at hc
    exact hc

/-- The contract of a part of a program, with a promise of its own. -/
def Contract.withPost (C : Contract κ ι ε α σ χ)
    (Q : ℕ → κ → Except ε β → List (Note κ σ ι χ) → σ → Prop) : Contract κ ι ε β σ χ :=
  ⟨C.inv, C.rely, C.pre, Q⟩

/-- What is promised may be less. -/
theorem Prog.Meets.of_post {Q : ℕ → κ → Except ε α → List (Note κ σ ι χ) → σ → Prop} {p : Prog ι ρ ε α}
    (hp : p.Meets (C.withPost Q) exec tid tag os s)
    (h : ∀ r os s, Q tid tag r os s → C.post tid tag r os s) : p.Meets C exec tid tag os s := by
  induction p generalizing os s with
  | ret a => exact fun os' s' hos hs => h _ _ _ (hp os' s' hos hs)
  | throw e => exact fun os' s' hos hs => h _ _ _ (hp os' s' hos hs)
  | call i k ih =>
    intro os' s' hos hs hinv
    obtain ⟨hpre, hnext⟩ := hp os' s' hos hs hinv
    exact ⟨hpre, fun c => ih _ (hnext c)⟩

/-- A part that is tried: the rest goes on with what came out of it. -/
theorem Prog.Meets.attempt_bind {Q : ℕ → κ → Except ε β → List (Note κ σ ι χ) → σ → Prop}
    {p : Prog ι ρ ε β} {f : Except ε β → Prog ι ρ ε α} (hrefl : ∀ s, C.rely s s)
    (hp : p.Meets (C.withPost Q) exec tid tag os s)
    (hf : ∀ r os' s', os <+: os' → Q tid tag r os' s' → (f r).Meets C exec tid tag os' s') :
    (p.attempt >>= f).Meets C exec tid tag os s := by
  induction p generalizing os s with
  | ret a => exact hf _ _ _ (List.prefix_refl os) (hp os s (List.prefix_refl os) (hrefl s))
  | throw e => exact hf _ _ _ (List.prefix_refl os) (hp os s (List.prefix_refl os) (hrefl s))
  | call i k ih =>
    intro os' s' hos hs hinv
    obtain ⟨hpre, hnext⟩ := hp os' s' hos hs hinv
    exact ⟨hpre, fun c => ih _ (hnext c) fun r os'' s'' h => hf r os'' s'' (hos.trans
      ((List.prefix_append os' _).trans h))⟩

/-- A part that is awaited: the rest goes on with its value; what it throws is thrown. -/
theorem Prog.Meets.bind {Q : ℕ → κ → Except ε β → List (Note κ σ ι χ) → σ → Prop}
    {p : Prog ι ρ ε β} {f : β → Prog ι ρ ε α} (hrefl : ∀ s, C.rely s s)
    (hp : p.Meets (C.withPost Q) exec tid tag os s)
    (hok : ∀ a os' s', os <+: os' → Q tid tag (.ok a) os' s' → (f a).Meets C exec tid tag os' s')
    (herr : ∀ e os' s', Q tid tag (.error e) os' s' →
      (Prog.throw e : Prog ι ρ ε α).Meets C exec tid tag os' s') :
    (p >>= f).Meets C exec tid tag os s := by
  induction p generalizing os s with
  | ret a => exact hok _ _ _ (List.prefix_refl os) (hp os s (List.prefix_refl os) (hrefl s))
  | throw e => exact herr _ _ _ (hp os s (List.prefix_refl os) (hrefl s))
  | call i k ih =>
    intro os' s' hos hs hinv
    obtain ⟨hpre, hnext⟩ := hp os' s' hos hs hinv
    exact ⟨hpre, fun c => ih _ (hnext c) fun a os'' s'' h => hok a os'' s'' (hos.trans
      ((List.prefix_append os' _).trans h))⟩

/-- A step of a pool that meets the contract. -/
theorem Pool.Meets.step (hC : C.Sound exec) {P P' : Pool κ ι ρ ε α σ} {l : ℕ × χ} {o : Note κ σ ι χ}
    (h : P.Meets C exec os) (hs : P.step exec l = some (P', o)) :
    P'.Meets C exec (os ++ [o]) ∧ C.rely P.state P'.state ∧ o.event.pre = P.state := by
  obtain ⟨hinv, hths⟩ := h
  obtain ⟨tag, i, k, rest, hget, -, hset, -, hstate, rfl⟩ := step_cases hs
  obtain ⟨hpre, hnext⟩ := hths _ _ hget os P.state (List.prefix_refl os) (hC.refl _) hinv
  obtain ⟨hinv', hrely⟩ := hC.step os P.state l.1 tag i l.2 hinv hpre
  rw [← hstate] at hinv' hrely
  refine ⟨⟨hinv', fun tid th hth => ?_⟩, hrely, rfl⟩
  rw [hset] at hth
  rcases getElem?_set_cases hget hth with ⟨rfl, rfl⟩ | ⟨-, hold⟩
  · rw [hstate]
    exact hnext l.2
  · exact (hths tid th hold).later hC (List.prefix_append os _) hrely

/-- **Runs.** The threads of a pool that meet a sound contract go on to meet it. -/
theorem Contract.run (hC : C.Sound exec) {P P' : Pool κ ι ρ ε α σ} {os₁ : List (Note κ σ ι χ)}
    {ok : List (Note κ σ ι χ) → Pool κ ι ρ ε α σ → ℕ × χ → Prop} (h : P.Meets C exec os)
    (hr : Run (Pool.step exec) ok P P' os₁) :
    P'.Meets C exec (os ++ os₁) ∧ C.rely P.state P'.state ∧ ∀ o ∈ os₁, C.rely P.state o.event.pre := by
  induction hr with
  | nil => exact ⟨by rwa [List.append_nil], hC.refl _, nofun⟩
  | snoc l _ _ hs ih =>
    obtain ⟨hmeets, hrely, hpast⟩ := ih
    obtain ⟨hmeets', hstep, hpre⟩ := hmeets.step hC hs
    rw [List.append_assoc] at hmeets'
    refine ⟨hmeets', hC.trans _ _ _ hrely hstep, fun o ho => ?_⟩
    rcases List.mem_append.mp ho with ho | ho
    · exact hpast o ho
    · rw [List.mem_singleton.mp ho, hpre]
      exact hrely

/-- A pool whose programs all meet the contract before anything has happened. -/
theorem Pool.Meets.start {prog : κ → Prog ι ρ ε α} {calls : List κ} (hinv : C.inv [] s)
    (h : ∀ tid, ∀ c ∈ calls, (prog c).Meets C exec tid c [] s) : (Pool.start prog calls s).Meets C exec [] := by
  refine ⟨hinv, fun tid th hth => ?_⟩
  obtain ⟨hmem, hprog⟩ := Pool.start_threads (List.mem_of_getElem? hth)
  rw [hprog]
  exact h tid _ hmem

end

end Effects
