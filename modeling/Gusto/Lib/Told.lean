import Gusto.Lib.Fault
import Gusto.Lib.Rely

/-!
# What a thread has been told

The calls of a program, and its result, as they follow from the answers before them, whatever other threads do.

* `Prog.Yields R P Q`: answered as `R` says, the program makes calls that meet `P`, and its result meets `Q`; there is
  a rule for each way to build a program;
* `Answered`: among the calls of the thread is one that was answered so;
* `Prog.Meets.of_yields`, `Prog.Meets.of_asks`: a program meets a contract that asks of its calls, and promises of its
  result, what they meet by the answers so far;
* `Contract.run_at`: what a pool that meets a sound contract has asked of each of its calls, at the moment the call was
  made.
-/

set_option autoImplicit false

namespace Effects

variable {κ ι ε α β σ χ : Type} {ρ : ι → Type}

/-! ### Programs -/

namespace Prog

/-- Where each call is answered as `R` allows, each call meets `P`, and the result meets `Q`. -/
def Yields (R : (i : ι) → Except ε (ρ i) → Prop) (P : ι → Prop) (Q : Except ε α → Prop) : Prog ι ρ ε α → Prop
  | .ret a => Q (.ok a)
  | .throw e => Q (.error e)
  | .call i k => P i ∧ ∀ r, R i r → (k r).Yields R P Q

/-- What came out of a program that has ended. -/
def result : Prog ι ρ ε α → Option (Except ε α)
  | .ret a => some (.ok a)
  | .throw e => some (.error e)
  | .call _ _ => none

variable {R : (i : ι) → Except ε (ρ i) → Prop} {P : ι → Prop} {Q : Except ε α → Prop} {Q' : Except ε β → Prop}

theorem Asks.yields {p : Prog ι ρ ε α} (h : p.Asks R P) : p.Yields R P fun _ => True := by
  induction p with
  | ret a => trivial
  | throw e => trivial
  | call i k ih => exact ⟨h.1, fun r hr => ih r (h.2 r hr)⟩

theorem Yields.mono {Q' : Except ε α → Prop} {p : Prog ι ρ ε α} (h : p.Yields R P Q) (hQ : ∀ r, Q r → Q' r) :
    p.Yields R P Q' := by
  induction p with
  | ret a => exact hQ _ h
  | throw e => exact hQ _ h
  | call i k ih => exact ⟨h.1, fun r hr => ih r (h.2 r hr)⟩

/-- What is asked of the calls may be less. -/
theorem Yields.weaken {P' : ι → Prop} {p : Prog ι ρ ε α} (h : p.Yields R P Q) (hP : ∀ i, P i → P' i) :
    p.Yields R P' Q := by
  induction p with
  | ret a => exact h
  | throw e => exact h
  | call i k ih => exact ⟨hP i h.1, fun r hr => ih r (h.2 r hr)⟩

/-- Where nothing is known of the answers. -/
theorem Yields.calls {p : Prog ι ρ ε α} (h : p.Yields (fun _ _ => True) P Q) : p.Calls fun i _ => P i := by
  induction p with
  | ret a => trivial
  | throw e => trivial
  | call i k ih => exact ⟨h.1, fun r => ih r (h.2 r trivial)⟩

theorem Yields.await {i : ι} (h : P i) : (Prog.await i : Prog ι ρ ε (ρ i)).Yields R P (R i) := by
  refine ⟨h, fun r hr => ?_⟩
  cases r <;> exact hr

/-- A part, and what goes on with its value; what it throws is thrown. -/
theorem Yields.bind {p : Prog ι ρ ε α} {f : α → Prog ι ρ ε β} (hp : p.Yields R P Q)
    (hok : ∀ a, Q (.ok a) → (f a).Yields R P Q') (herr : ∀ e, Q (.error e) → Q' (.error e)) :
    (p >>= f).Yields R P Q' := by
  induction p with
  | ret a => exact hok a hp
  | throw e => exact herr e hp
  | call i k ih => exact ⟨hp.1, fun r hr => ih r (hp.2 r hr)⟩

theorem Yields.map {p : Prog ι ρ ε α} {f : α → β} (hp : p.Yields R P Q) :
    (f <$> p).Yields R P fun r => ∃ r', r = r'.map f ∧ Q r' := by
  rw [← bind_pure_comp]
  exact hp.bind (fun a ha => ⟨.ok a, rfl, ha⟩) fun e he => ⟨.error e, rfl, he⟩

/-- A part that is tried. -/
theorem Yields.attempt_bind {p : Prog ι ρ ε α} {f : Except ε α → Prog ι ρ ε β} (hp : p.Yields R P Q)
    (hf : ∀ r, Q r → (f r).Yields R P Q') : (p.attempt >>= f).Yields R P Q' := by
  induction p with
  | ret a => exact hf (.ok a) hp
  | throw e => exact hf (.error e) hp
  | call i k ih => exact ⟨hp.1, fun r hr => ih r (hp.2 r hr)⟩

end Prog

/-! ### Threads -/

/-- Among the calls of the thread is one that was answered so. -/
def Answered (exec : Handler ι ρ ε σ χ) (os : List (Note κ σ ι χ)) (tid : ℕ) (tag : κ) (i : ι) (r : Except ε (ρ i)) :
    Prop :=
  ∃ s c, (⟨tid, tag, ⟨s, i, c⟩⟩ : Note κ σ ι χ) ∈ os ∧ (exec c i s).1 = r

section Threads

variable {C : Contract κ ι ε α σ χ} {exec : Handler ι ρ ε σ χ} {tid : ℕ} {tag : κ} {os os' : List (Note κ σ ι χ)} {s : σ}

theorem Answered.later {i : ι} {r : Except ε (ρ i)} (h : Answered exec os tid tag i r) (hos : os <+: os') :
    Answered exec os' tid tag i r := by
  obtain ⟨s, c, hmem, hanswer⟩ := h
  exact ⟨s, c, hos.subset hmem, hanswer⟩

/-- The last call. -/
theorem answered_self {i : ι} {c : χ} : Answered exec (os ++ [⟨tid, tag, ⟨s, i, c⟩⟩]) tid tag i (exec c i s).1 :=
  ⟨s, c, List.mem_append_right _ (List.mem_singleton_self _), rfl⟩

/-- **By the answers.** `K` says what is known of an answer after some calls, `A` what a call has to meet then, and
`Q` the result; a program that does, by the answers to the calls before, meets a contract that asks for no more. -/
theorem Prog.Meets.of_yields {K : List (Note κ σ ι χ) → (i : ι) → Except ε (ρ i) → Prop}
    {A : List (Note κ σ ι χ) → ι → Prop} {Q : List (Note κ σ ι χ) → Except ε α → Prop}
    (hmono : ∀ os os' i r, os <+: os' → K os i r → K os' i r)
    (htold : ∀ os s i c, C.inv os s → A os i → K (os ++ [⟨tid, tag, ⟨s, i, c⟩⟩]) i (exec c i s).1)
    (hpre : ∀ os s i, C.inv os s → A os i → C.pre tid tag i os s) (hpost : ∀ r os s, Q os r → C.post tid tag r os s)
    {p : Prog ι ρ ε α} (hp : ∀ os', os <+: os' → p.Yields (K os') (A os') (Q os')) :
    p.Meets C exec tid tag os s := by
  induction p generalizing os s with
  | ret a => exact fun os' s' hos _ => hpost _ _ _ (hp os' hos)
  | throw e => exact fun os' s' hos _ => hpost _ _ _ (hp os' hos)
  | call i k ih =>
    intro os' s' hos _ hinv
    have hcall := (hp os' hos).1
    refine ⟨hpre os' s' i hinv hcall, fun c => ih _ fun os'' hos'' => ?_⟩
    have htold' := hmono _ _ i _ hos'' (htold os' s' i c hinv hcall)
    exact (hp os'' (hos.trans ((List.prefix_append os' _).trans hos''))).2 _ htold'

/-- The same, where nothing is promised of the result. -/
theorem Prog.Meets.of_asks {K : List (Note κ σ ι χ) → (i : ι) → Except ε (ρ i) → Prop}
    {A : List (Note κ σ ι χ) → ι → Prop} (hmono : ∀ os os' i r, os <+: os' → K os i r → K os' i r)
    (htold : ∀ os s i c, C.inv os s → A os i → K (os ++ [⟨tid, tag, ⟨s, i, c⟩⟩]) i (exec c i s).1)
    (hpre : ∀ os s i, C.inv os s → A os i → C.pre tid tag i os s) (hpost : ∀ r os s, C.post tid tag r os s)
    {p : Prog ι ρ ε α} (hp : ∀ os', os <+: os' → p.Asks (K os') (A os')) : p.Meets C exec tid tag os s :=
  of_yields hmono htold hpre (fun r os s _ => hpost r os s) fun os' hos => (hp os' hos).yields

/-- The end of a program that meets the contract. -/
theorem Prog.Meets.of_result (hC : C.Sound exec) {p : Prog ι ρ ε α} {r : Except ε α} (hr : p.result = some r)
    (h : p.Meets C exec tid tag os s) : C.post tid tag r os s := by
  cases p with
  | ret a =>
    cases hr
    exact h os s (List.prefix_refl os) (hC.refl s)
  | throw e =>
    cases hr
    exact h os s (List.prefix_refl os) (hC.refl s)
  | call i k => cases hr

/-- A program whose value is read as another. -/
theorem Prog.Meets.map {Q : ℕ → κ → Except ε β → List (Note κ σ ι χ) → σ → Prop} {f : β → α} {p : Prog ι ρ ε β}
    (hp : p.Meets (C.withPost Q) exec tid tag os s)
    (hQ : ∀ r os s, Q tid tag r os s → C.post tid tag (r.map f) os s) : (f <$> p).Meets C exec tid tag os s := by
  induction p generalizing os s with
  | ret b => exact fun os' s' hos hs => hQ _ _ _ (hp os' s' hos hs)
  | throw e => exact fun os' s' hos hs => hQ _ _ _ (hp os' s' hos hs)
  | call i k ih =>
    intro os' s' hos hs hinv
    obtain ⟨hpre, hnext⟩ := hp os' s' hos hs hinv
    exact ⟨hpre, fun c => ih _ (hnext c)⟩

/-- What is promised is promised for good. -/
theorem Prog.Meets.lasting (hC : C.Sound exec) {p : Prog ι ρ ε α} (h : p.Meets C exec tid tag os s) :
    p.Meets (C.withPost fun tid tag r os s => ∀ os' s', os <+: os' → C.rely s s' → C.post tid tag r os' s') exec
      tid tag os s := by
  induction p generalizing os s with
  | ret a =>
    exact fun os' s' hos hs os'' s'' hos' hs' => h os'' s'' (hos.trans hos') (hC.trans _ _ _ hs hs')
  | throw e =>
    exact fun os' s' hos hs os'' s'' hos' hs' => h os'' s'' (hos.trans hos') (hC.trans _ _ _ hs hs')
  | call i k ih =>
    intro os' s' hos hs hinv
    obtain ⟨hpre, hnext⟩ := h os' s' hos hs hinv
    exact ⟨hpre, fun c => ih _ (hnext c)⟩

/-- What a program ends with however it is answered, it also promises. -/
theorem Prog.Meets.and_ends {Q : ℕ → κ → Except ε α → List (Note κ σ ι χ) → σ → Prop} {E : Except ε α → Prop}
    {p : Prog ι ρ ε α} (h : p.Meets (C.withPost Q) exec tid tag os s) (hE : p.Ends E) :
    p.Meets (C.withPost fun tid tag r os s => Q tid tag r os s ∧ E r) exec tid tag os s := by
  induction p generalizing os s with
  | ret a => exact fun os' s' hos hs => ⟨h os' s' hos hs, hE⟩
  | throw e => exact fun os' s' hos hs => ⟨h os' s' hos hs, hE⟩
  | call i k ih =>
    intro os' s' hos hs hinv
    obtain ⟨hpre, hnext⟩ := h os' s' hos hs hinv
    exact ⟨hpre, fun c => ih _ (hnext c) (hE _)⟩

/-- **Each call of a run** was asked for by the contract, in the state and after the calls before it. -/
theorem Contract.run_at (hC : C.Sound exec) {P P' : Pool κ ι ρ ε α σ} {pre post : List (Note κ σ ι χ)}
    {o : Note κ σ ι χ} {ok : List (Note κ σ ι χ) → Pool κ ι ρ ε α σ → ℕ × χ → Prop} (h : P.Meets C exec os)
    (hr : Run (Pool.step exec) ok P P' (pre ++ o :: post)) :
    C.inv (os ++ pre) o.event.pre ∧ C.pre o.tid o.tag o.event.call (os ++ pre) o.event.pre ∧
      C.rely o.event.pre P'.state := by
  obtain ⟨P₁, l, P₂, hr₁, -, hs, hr₂⟩ := hr.split rfl
  obtain ⟨hmeets, -, -⟩ := Contract.run hC h hr₁
  obtain ⟨hmeets₂, hstep, hpre⟩ := hmeets.step hC hs
  obtain ⟨-, hlater, -⟩ := Contract.run hC hmeets₂ hr₂
  obtain ⟨hinv, hths⟩ := hmeets
  obtain ⟨tag, i, k, rest, hget, -, -, -, -, rfl⟩ := Pool.step_cases hs
  have hcall := hths _ _ hget (os ++ pre) P₁.state (List.prefix_refl _) (hC.refl _) hinv
  exact ⟨hinv, hcall.1, hC.trans _ _ _ hstep hlater⟩

end Threads

end Effects
