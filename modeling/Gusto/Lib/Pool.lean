import Gusto.Lib.Run
import Mathlib.Data.List.Perm.Basic
import Mathlib.Data.List.Perm.Subperm

/-!
# Programs interleaved

A `Pool` holds threads over one state.  A step lets one thread make the call it has come to; between
two calls of a thread any others may run, so a pool has all interleavings of the calls.

* `Pool.step_cases`: what a step does, the other threads being left as they are;
* `Prog.Always I p`: `I` holds of `p` and of all that `p` may become;
* `Prog.EndsOk`, `Prog.EndsErr`: the program can only return, can only throw.
-/

set_option autoImplicit false

namespace Effects

/-- A thread: what it was started for, and what is left of its program. -/
structure Thread (κ ι : Type) (ρ : ι → Type) (ε α : Type) where
  tag : κ
  prog : Prog ι ρ ε α

/-- Threads over one state. -/
structure Pool (κ ι : Type) (ρ : ι → Type) (ε α σ : Type) where
  threads : List (Thread κ ι ρ ε α)
  state : σ

/-- What a step of a pool gives out: the thread that ran, what it was started for, and its call. -/
structure Note (κ σ ι χ : Type) where
  tid : ℕ
  tag : κ
  event : Event σ ι χ

section

variable {κ ι ε α σ χ : Type} {ρ : ι → Type}

namespace Pool

/-- A thread for each of `calls`, none of which has run. -/
def start (prog : κ → Prog ι ρ ε α) (calls : List κ) (s : σ) : Pool κ ι ρ ε α σ :=
  ⟨calls.map fun c => ⟨c, prog c⟩, s⟩

/-- The thread `l.1` makes its next call, under the choice `l.2`. -/
def step (exec : Handler ι ρ ε σ χ) (P : Pool κ ι ρ ε α σ) (l : ℕ × χ) :
    Option (Pool κ ι ρ ε α σ × Note κ σ ι χ) :=
  match P.threads[l.1]? with
  | some ⟨tag, .call i k⟩ =>
    some (⟨P.threads.set l.1 ⟨tag, k (exec l.2 i P.state).1⟩, (exec l.2 i P.state).2⟩,
      ⟨l.1, tag, ⟨P.state, i, l.2⟩⟩)
  | _ => none

/-- **What a step does.** One thread makes its call; the others and their order stay. -/
theorem step_cases {exec : Handler ι ρ ε σ χ} {P P' : Pool κ ι ρ ε α σ} {l : ℕ × χ}
    {o : Note κ σ ι χ} (h : P.step exec l = some (P', o)) :
    ∃ tag i k rest, P.threads[l.1]? = some ⟨tag, .call i k⟩ ∧
      P.threads.Perm (⟨tag, .call i k⟩ :: rest) ∧
      P'.threads = P.threads.set l.1 ⟨tag, k (exec l.2 i P.state).1⟩ ∧
      P'.threads.Perm (⟨tag, k (exec l.2 i P.state).1⟩ :: rest) ∧
      P'.state = (exec l.2 i P.state).2 ∧ o = ⟨l.1, tag, ⟨P.state, i, l.2⟩⟩ := by
  unfold step at h
  split at h
  · rename_i tag i k hget
    simp only [Option.some.injEq, Prod.mk.injEq] at h
    obtain ⟨rfl, rfl⟩ := h
    obtain ⟨hlt, hk⟩ := List.getElem?_eq_some_iff.mp hget
    refine ⟨tag, i, k, P.threads.eraseIdx l.1, hget, ?_, rfl, ?_, rfl, rfl⟩
    · rw [← hk]
      exact (List.getElem_cons_eraseIdx_perm hlt).symm
    · exact List.set_perm_cons_eraseIdx hlt _
  · cases h

/-- The threads a pool starts with. -/
theorem start_threads {prog : κ → Prog ι ρ ε α} {calls : List κ} {s : σ}
    {t : Thread κ ι ρ ε α} (h : t ∈ (start prog calls s).threads) :
    t.tag ∈ calls ∧ t.prog = prog t.tag := by
  obtain ⟨c, hc, rfl⟩ := List.mem_map.mp h
  exact ⟨hc, rfl⟩

/-- What all threads have, and the new one, all threads have after a step. -/
theorem forall_of_perm {ths ths' rest : List (Thread κ ι ρ ε α)} {th th' : Thread κ ι ρ ε α}
    {T : Thread κ ι ρ ε α → Prop} (hP : ths.Perm (th :: rest)) (hP' : ths'.Perm (th' :: rest))
    (h : ∀ x ∈ ths, T x) (h' : T th') : ∀ x ∈ ths', T x := by
  intro x hx
  rcases List.mem_cons.mp (hP'.mem_iff.mp hx) with rfl | hx
  · exact h'
  · exact h x (hP.mem_iff.mpr (List.mem_cons_of_mem _ hx))

/-- A thread after a step: the one that ran, or one that stands where it was. -/
theorem getElem?_set_cases {ths : List (Thread κ ι ρ ε α)} {i j : ℕ} {old new th : Thread κ ι ρ ε α}
    (hget : ths[i]? = some old) (h : (ths.set i new)[j]? = some th) :
    j = i ∧ th = new ∨ j ≠ i ∧ ths[j]? = some th := by
  by_cases hj : j = i
  · subst hj
    obtain ⟨hlt, -⟩ := List.getElem?_eq_some_iff.mp hget
    rw [List.getElem?_set_self hlt] at h
    exact .inl ⟨rfl, (Option.some.inj h).symm⟩
  · rw [List.getElem?_set_ne (Ne.symm hj)] at h
    exact .inr ⟨hj, h⟩

end Pool

namespace Prog

/-- `I` holds of the program and of all that it may become. -/
def Always (I : Prog ι ρ ε α → Prop) : Prog ι ρ ε α → Prop
  | .ret a => I (.ret a)
  | .throw e => I (.throw e)
  | .call i k => I (.call i k) ∧ ∀ r, (k r).Always I

/-- The program can only return. -/
def EndsOk : Prog ι ρ ε α → Prop
  | .ret _ => True
  | .throw _ => False
  | .call _ k => ∀ r, (k r).EndsOk

/-- The program can only throw. -/
def EndsErr : Prog ι ρ ε α → Prop
  | .ret _ => False
  | .throw _ => True
  | .call _ k => ∀ r, (k r).EndsErr

variable {I : Prog ι ρ ε α → Prop}

@[simp] theorem always_ret {a : α} : (Prog.ret a).Always I ↔ I (.ret a) := Iff.rfl
@[simp] theorem always_throw {e : ε} : (Prog.throw e).Always I ↔ I (.throw e) := Iff.rfl
@[simp] theorem always_call {i : ι} {k : Except ε (ρ i) → Prog ι ρ ε α} :
    (Prog.call i k).Always I ↔ I (.call i k) ∧ ∀ r, (k r).Always I := Iff.rfl

theorem Always.self {p : Prog ι ρ ε α} (h : p.Always I) : I p := by
  cases p with
  | ret a => exact h
  | throw e => exact h
  | call i k => exact h.1

@[simp] theorem endsOk_ret {a : α} : (Prog.ret a : Prog ι ρ ε α).EndsOk := trivial
@[simp] theorem not_endsOk_throw {e : ε} : ¬ (Prog.throw e : Prog ι ρ ε α).EndsOk := id
@[simp] theorem endsOk_call {i : ι} {k : Except ε (ρ i) → Prog ι ρ ε α} :
    (Prog.call i k).EndsOk ↔ ∀ r, (k r).EndsOk := Iff.rfl
@[simp] theorem endsErr_throw {e : ε} : (Prog.throw e : Prog ι ρ ε α).EndsErr := trivial
@[simp] theorem not_endsErr_ret {a : α} : ¬ (Prog.ret a : Prog ι ρ ε α).EndsErr := id
@[simp] theorem endsErr_call {i : ι} {k : Except ε (ρ i) → Prog ι ρ ε α} :
    (Prog.call i k).EndsErr ↔ ∀ r, (k r).EndsErr := Iff.rfl

end Prog

end

end Effects
