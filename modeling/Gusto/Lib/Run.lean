import Gusto.Lib.Prog
import Mathlib.Data.List.Basic

/-!
# Runs of a step function

`step : σ → ℓ → Option (σ × ο)` takes a state and a label to the next state and what the step
gives out, or refuses.

* `Run step ok s₀ s os`: from `s₀` the steps reach `s` and give out `os`, each step taken where `ok`
  allows it; `ok` sees what was given out before;
* `Run.invariant`: what holds at first and is kept by each step holds at the end;
* `Run.forall_of_invariant`: what each step gives out where an invariant holds, every step does;
* `runSteps`: the run along a list of labels, computed;
* `callStep`: one whole call of a program as one step.
-/

set_option autoImplicit false

namespace Effects

variable {σ ℓ ο : Type}

/-- Runs from `s₀` all of whose steps meet `ok`. -/
inductive Run (step : σ → ℓ → Option (σ × ο)) (ok : List ο → σ → ℓ → Prop) (s₀ : σ) :
    σ → List ο → Prop
  | nil : Run step ok s₀ s₀ []
  | snoc {s s' : σ} {os : List ο} {o : ο} (l : ℓ) : Run step ok s₀ s os → ok os s l →
      step s l = some (s', o) → Run step ok s₀ s' (os ++ [o])

/-- The condition that every step meets. -/
abbrev anyStep : List ο → σ → ℓ → Prop := fun _ _ _ => True

/-- What stands before an element of a list stops at the last one, or before it. -/
theorem snoc_eq_append_cons {os pre post : List ο} {o o' : ο} (h : os ++ [o] = pre ++ o' :: post) :
    (pre = os ∧ o' = o ∧ post = []) ∨ ∃ post', os = pre ++ o' :: post' ∧ post = post' ++ [o] := by
  rcases List.eq_nil_or_concat post with rfl | ⟨post', x, rfl⟩
  · obtain ⟨rfl, ho⟩ := List.append_inj' h rfl
    cases ho
    exact .inl ⟨rfl, rfl, rfl⟩
  · have h' : os ++ [o] = (pre ++ o' :: post') ++ [x] := by simpa using h
    obtain ⟨rfl, ho⟩ := List.append_inj' h' rfl
    cases ho
    exact .inr ⟨post', rfl, List.concat_eq_append⟩

namespace Run

variable {step : σ → ℓ → Option (σ × ο)} {ok ok' : List ο → σ → ℓ → Prop} {s₀ s : σ} {os : List ο}

/-- **Invariants.** What the first state has and each step keeps, every reached state has. -/
theorem invariant (hr : Run step ok s₀ s os) (I : List ο → σ → Prop) (h0 : I [] s₀)
    (hstep : ∀ os s l s' o, I os s → ok os s l → step s l = some (s', o) → I (os ++ [o]) s') :
    I os s := by
  induction hr with
  | nil => exact h0
  | snoc l _ hok hs ih => exact hstep _ _ _ _ _ ih hok hs

/-- A run meets every weaker condition. -/
theorem mono (hr : Run step ok s₀ s os) (h : ∀ os s l, ok os s l → ok' os s l) :
    Run step ok' s₀ s os := by
  induction hr with
  | nil => exact .nil
  | snoc l _ hok hs ih => exact .snoc l ih (h _ _ _ hok) hs

/-- Invariants that each step keeps where `P` holds of what it gives out. -/
theorem invariant_of_forall {P : ο → Prop} (hr : Run step ok s₀ s os) (hP : ∀ o ∈ os, P o)
    (I : List ο → σ → Prop) (h0 : I [] s₀)
    (hstep : ∀ os s l s' o, I os s → P o → step s l = some (s', o) → I (os ++ [o]) s') : I os s := by
  induction hr with
  | nil => exact h0
  | snoc l _ hok hs ih =>
    exact hstep _ _ _ _ _ (ih fun o ho => hP o (List.mem_append_left _ ho)) (hP _ (by simp)) hs

/-- What each step gives out where `I` holds, every step of a run gives out. -/
theorem forall_of_invariant {P Q : ο → Prop} {I : σ → Prop} (hr : Run step ok s₀ s os)
    (hP : ∀ o ∈ os, P o) (h0 : I s₀)
    (hstep : ∀ s l s' o, I s → P o → step s l = some (s', o) → I s' ∧ Q o) : ∀ o ∈ os, Q o := by
  have hkept : I s ∧ ∀ o ∈ os, Q o := by
    refine hr.invariant_of_forall hP (fun os s => I s ∧ ∀ o ∈ os, Q o) ⟨h0, by simp⟩ ?_
    rintro os s l s' o ⟨hs, hos⟩ ho h
    obtain ⟨hs', hQ⟩ := hstep s l s' o hs ho h
    refine ⟨hs', fun o' ho' => ?_⟩
    rcases List.mem_append.mp ho' with ho' | ho'
    · exact hos o' ho'
    · rw [List.mem_singleton.mp ho']
      exact hQ
  exact hkept.2

/-- The step that gave out `o`, with the run before it and the run after it. -/
theorem split (hr : Run step ok s₀ s os) {pre post : List ο} {o : ο} (h : os = pre ++ o :: post) :
    ∃ s₁ l s₂, Run step ok s₀ s₁ pre ∧ ok pre s₁ l ∧ step s₁ l = some (s₂, o) ∧
      Run step (fun os => ok (pre ++ o :: os)) s₂ s post := by
  induction hr generalizing post with
  | nil => simp at h
  | @snoc s s' os o' l hr hok hs ih =>
    rcases snoc_eq_append_cons h with ⟨rfl, rfl, rfl⟩ | ⟨post', rfl, rfl⟩
    · exact ⟨s, l, s', hr, hok, hs, .nil⟩
    · obtain ⟨s₁, l₁, s₂, hr₁, hok₁, hs₁, hr₂⟩ := ih rfl
      exact ⟨s₁, l₁, s₂, hr₁, hok₁, hs₁, .snoc l hr₂ hok hs⟩

/-- A run has been through all its beginnings. -/
theorem of_prefix (hr : Run step ok s₀ s os) {pre : List ο} (h : pre <+: os) :
    ∃ s₁, Run step ok s₀ s₁ pre := by
  induction hr with
  | nil => exact ⟨s₀, List.prefix_nil.mp h ▸ .nil⟩
  | snoc l hr hok hs ih =>
    rcases List.prefix_concat_iff.mp h with rfl | h
    · exact ⟨_, .snoc l hr hok hs⟩
    · exact ih h

/-- What every step gives out has what is known of each step. -/
theorem forall_mem (hr : Run step ok s₀ s os) {P : ο → Prop}
    (h : ∀ s l s' o, step s l = some (s', o) → P o) : ∀ o ∈ os, P o := by
  intro o ho
  obtain ⟨pre, post, hos⟩ := List.append_of_mem ho
  obtain ⟨s₁, l, s₂, -, -, hs, -⟩ := hr.split hos
  exact h _ _ _ _ hs

end Run

/-- The run that goes on from `s`, having given out `os`, along the labels `ls`. -/
def runSteps (step : σ → ℓ → Option (σ × ο)) (ok : List ο → σ → ℓ → Prop)
    [∀ os s l, Decidable (ok os s l)] : List ℓ → σ → List ο → Option (σ × List ο)
  | [], s, os => some (s, os)
  | l :: ls, s, os =>
    if ok os s l then
      match step s l with
      | none => none
      | some (s', o) => runSteps step ok ls s' (os ++ [o])
    else none

theorem Run.of_runSteps {step : σ → ℓ → Option (σ × ο)} {ok : List ο → σ → ℓ → Prop}
    [∀ os s l, Decidable (ok os s l)] {ls : List ℓ} {s₀ s s' : σ} {os os' : List ο}
    (hr : Run step ok s₀ s os) (h : runSteps step ok ls s os = some (s', os')) :
    Run step ok s₀ s' os' := by
  induction ls generalizing s os with
  | nil =>
    simp only [runSteps, Option.some.injEq, Prod.mk.injEq] at h
    obtain ⟨rfl, rfl⟩ := h
    exact hr
  | cons l ls ih =>
    unfold runSteps at h
    split at h
    · rename_i hok
      split at h
      · cases h
      · rename_i s₁ o hs
        exact ih (.snoc l hr hok hs) h
    · cases h

section Calls

variable {κ ι χ ε α : Type} {ρ : ι → Type}

/-- One call of `prog`, driven to its end by the choices of its label. -/
def callStep (exec : Handler ι ρ ε σ χ) (prog : κ → Prog ι ρ ε α) (s : σ) (l : κ × List χ) :
    Option (σ × κ × Done σ ι χ ε α) :=
  ((prog l.1).run exec l.2 s).map fun d => (d.state, l.1, d)

theorem callStep_eq_some {exec : Handler ι ρ ε σ χ} {prog : κ → Prog ι ρ ε α} {s s' : σ}
    {l : κ × List χ} {o : κ × Done σ ι χ ε α} :
    callStep exec prog s l = some (s', o) ↔
      (prog l.1).run exec l.2 s = some o.2 ∧ o.1 = l.1 ∧ s' = o.2.state := by
  unfold callStep
  rw [Option.map_eq_some_iff]
  constructor
  · rintro ⟨d, hd, e⟩
    simp only [Prod.mk.injEq] at e
    obtain ⟨rfl, rfl⟩ := e
    exact ⟨hd, rfl, rfl⟩
  · rintro ⟨hd, h1, h2⟩
    exact ⟨o.2, hd, by rw [h2, ← h1]⟩

end Calls

end Effects
