import Mathlib.Logic.Basic
import Mathlib.Data.Nat.Notation

/-!
# Programs over an interface of calls

* `Prog ι ρ ε α`: a program that awaits calls `i : ι`, each answered by a `ρ i` or by a thrown
  `ε`, and ends with an `α` or a thrown `ε`; `attempt` is its `try`;
* `run`: the program driven to its end by a list of choices of the environment, one for each call,
  with the calls it made and the states it made them in;
* `eval`: the program served by an environment that makes the same choice throughout;
* `wlp`: what has to hold before for the program to end, if it ends, as asked; `wlp_iff_run` says
  that this is a statement about all runs.
-/

set_option autoImplicit false

namespace Effects

/-- A program: it returns, throws, or makes the call `i` and goes on with what came back. -/
inductive Prog (ι : Type) (ρ : ι → Type) (ε α : Type) : Type
  | ret (a : α)
  | throw (e : ε)
  | call (i : ι) (k : Except ε (ρ i) → Prog ι ρ ε α)

/-- A call that was made: the state it was made in, the call, and the choice of the environment. -/
structure Event (σ ι χ : Type) where
  pre : σ
  call : ι
  choice : χ

/-- The end of a run: what came out, the last state, and the calls made on the way. -/
structure Done (σ ι χ ε α : Type) where
  result : Except ε α
  state : σ
  events : List (Event σ ι χ)

/-- How the calls of an interface act on a state, under each choice of the environment. -/
abbrev Handler (ι : Type) (ρ : ι → Type) (ε σ χ : Type) : Type :=
  χ → (i : ι) → σ → Except ε (ρ i) × σ

namespace Prog

variable {ι : Type} {ρ : ι → Type} {ε α β γ σ χ : Type}

/-! ### The monad -/

/-- Sequencing: `f` goes on with the value of `p`; what `p` throws is thrown. -/
def bind : Prog ι ρ ε α → (α → Prog ι ρ ε β) → Prog ι ρ ε β
  | .ret a, f => f a
  | .throw e, _ => .throw e
  | .call i k, f => .call i fun r => (k r).bind f

instance : Monad (Prog ι ρ ε) where
  pure := .ret
  bind := bind

@[simp] theorem pure_def (a : α) : (pure a : Prog ι ρ ε α) = .ret a := rfl
@[simp] theorem ret_bind (a : α) (f : α → Prog ι ρ ε β) : (Prog.ret a >>= f) = f a := rfl
@[simp] theorem throw_bind (e : ε) (f : α → Prog ι ρ ε β) : (Prog.throw e >>= f) = .throw e := rfl
@[simp] theorem call_bind (i : ι) (k : Except ε (ρ i) → Prog ι ρ ε α) (f : α → Prog ι ρ ε β) :
    (Prog.call i k >>= f) = .call i fun r => k r >>= f := rfl

theorem bind_ret (p : Prog ι ρ ε α) : (p >>= Prog.ret) = p := by
  induction p with
  | ret a => rfl
  | throw e => rfl
  | call i k ih => rw [call_bind]; exact congrArg _ (funext ih)

theorem bind_bind (p : Prog ι ρ ε α) (f : α → Prog ι ρ ε β) (g : β → Prog ι ρ ε γ) :
    (p >>= f >>= g) = p >>= fun a => f a >>= g := by
  induction p with
  | ret a => rfl
  | throw e => rfl
  | call i k ih => simp only [call_bind]; exact congrArg _ (funext ih)

instance : LawfulMonad (Prog ι ρ ε) :=
  LawfulMonad.mk' _ (fun p => bind_ret p) (fun _ _ => rfl) bind_bind

/-- `await` of one call. -/
def await (i : ι) : Prog ι ρ ε (ρ i) :=
  .call i fun
    | .ok a => .ret a
    | .error e => .throw e

/-- `try`: what comes out of `p`, as a value. -/
def attempt : Prog ι ρ ε α → Prog ι ρ ε (Except ε α)
  | .ret a => .ret (.ok a)
  | .throw e => .ret (.error e)
  | .call i k => .call i fun r => (k r).attempt

instance : MonadExceptOf ε (Prog ι ρ ε) where
  throw := .throw
  tryCatch p h := p.attempt >>= fun
    | .ok a => .ret a
    | .error e => h e

@[simp] theorem attempt_ret (a : α) :
    (Prog.ret a : Prog ι ρ ε α).attempt = .ret (.ok a) := rfl
@[simp] theorem attempt_throw (e : ε) :
    (Prog.throw e : Prog ι ρ ε α).attempt = .ret (.error e) := rfl
@[simp] theorem attempt_call (i : ι) (k : Except ε (ρ i) → Prog ι ρ ε α) :
    (Prog.call i k).attempt = .call i fun r => (k r).attempt := rfl
@[simp] theorem throw_def (e : ε) : (MonadExcept.throw e : Prog ι ρ ε α) = .throw e := rfl

/-- The call a program is about to make. -/
def head : Prog ι ρ ε α → Option ι
  | .call i _ => some i
  | _ => none

@[simp] theorem head_ret (a : α) : (Prog.ret a : Prog ι ρ ε α).head = none := rfl
@[simp] theorem head_throw (e : ε) : (Prog.throw e : Prog ι ρ ε α).head = none := rfl
@[simp] theorem head_call (i : ι) (k : Except ε (ρ i) → Prog ι ρ ε α) :
    (Prog.call i k).head = some i := rfl

/-! ### Runs -/

variable (exec : Handler ι ρ ε σ χ)

/-- The program driven to its end by a list of choices; `none` when they do not suffice. -/
def run : Prog ι ρ ε α → List χ → σ → Option (Done σ ι χ ε α)
  | .ret a, _, s => some ⟨.ok a, s, []⟩
  | .throw e, _, s => some ⟨.error e, s, []⟩
  | .call _ _, [], _ => none
  | .call i k, c :: cs, s =>
    (run (k (exec c i s).1) cs (exec c i s).2).map fun d => { d with events := ⟨s, i, c⟩ :: d.events }

/-- The program when the environment makes the choice `c` throughout. -/
def eval (c : χ) : Prog ι ρ ε α → σ → Except ε α × σ
  | .ret a, s => (.ok a, s)
  | .throw e, s => (.error e, s)
  | .call i k, s => eval c (k (exec c i s).1) (exec c i s).2

section Eval

variable {c : χ} {s : σ}

@[simp] theorem eval_ret {a : α} :
    (Prog.ret a : Prog ι ρ ε α).eval exec c s = (.ok a, s) := rfl
@[simp] theorem eval_throw {e : ε} :
    (Prog.throw e : Prog ι ρ ε α).eval exec c s = (.error e, s) := rfl
@[simp] theorem eval_call {i : ι} {k : Except ε (ρ i) → Prog ι ρ ε α} :
    (Prog.call i k).eval exec c s = (k (exec c i s).1).eval exec c (exec c i s).2 := rfl

end Eval

/-! ### Weakest preconditions -/

/-- Before `p`, every way for it to end satisfies `Q`. -/
def wlp : Prog ι ρ ε α → (List (Event σ ι χ) → Except ε α → σ → Prop) → σ → Prop
  | .ret a, Q, s => Q [] (.ok a) s
  | .throw e, Q, s => Q [] (.error e) s
  | .call i k, Q, s =>
    ∀ c, wlp (k (exec c i s).1) (fun evs => Q (⟨s, i, c⟩ :: evs)) (exec c i s).2

variable {exec}

section Rules

variable {Q Q' : List (Event σ ι χ) → Except ε α → σ → Prop} {s : σ}

@[simp] theorem wlp_ret {a : α} : (Prog.ret a).wlp exec Q s ↔ Q [] (.ok a) s := Iff.rfl
@[simp] theorem wlp_throw {e : ε} : (Prog.throw e).wlp exec Q s ↔ Q [] (.error e) s := Iff.rfl
@[simp] theorem wlp_call {i : ι} {k : Except ε (ρ i) → Prog ι ρ ε α} :
    (Prog.call i k).wlp exec Q s ↔
      ∀ c, (k (exec c i s).1).wlp exec (fun evs => Q (⟨s, i, c⟩ :: evs)) (exec c i s).2 := Iff.rfl

theorem wlp_mono {p : Prog ι ρ ε α} (h : ∀ evs r s', Q evs r s' → Q' evs r s')
    (hp : p.wlp exec Q s) : p.wlp exec Q' s := by
  induction p generalizing Q Q' s with
  | ret a => exact h _ _ _ hp
  | throw e => exact h _ _ _ hp
  | call i k ih => exact fun c => ih _ (fun evs r s' => h _ r s') (hp c)

/-- What no call changes, no program changes. -/
theorem wlp_invariant {p : Prog ι ρ ε α} {I : σ → Prop} (h : ∀ c i s, I s → I (exec c i s).2)
    (hs : I s) : p.wlp exec (fun _ _ s' => I s') s := by
  induction p generalizing s with
  | ret a => exact hs
  | throw e => exact hs
  | call i k ih => exact fun c => ih _ (h c i s hs)

/-- What the calls of a kind leave, a program leaves that makes calls of that kind only. -/
theorem wlp_frame {p : Prog ι ρ ε α} {β : Type} {f : σ → β} {P : ι → Prop}
    (h : ∀ c i s, P i → f (exec c i s).2 = f s) :
    p.wlp exec (fun evs _ s' => (∀ e ∈ evs, P e.call) → f s' = f s) s := by
  induction p generalizing s with
  | ret a => exact fun _ => rfl
  | throw e => exact fun _ => rfl
  | call i k ih =>
    intro c
    refine wlp_mono (fun evs r s' hs hevs => ?_) (ih _)
    obtain ⟨hi, hrest⟩ := List.forall_mem_cons.mp hevs
    exact (hs hrest).trans (h c i s hi)

theorem wlp_bind {p : Prog ι ρ ε α} {f : α → Prog ι ρ ε β}
    {Q : List (Event σ ι χ) → Except ε β → σ → Prop} :
    (p >>= f).wlp exec Q s ↔ p.wlp exec (fun evs r s' =>
      match r with
      | .ok a => (f a).wlp exec (fun evs' => Q (evs ++ evs')) s'
      | .error e => Q evs (.error e) s') s := by
  induction p generalizing Q s with
  | ret a => rfl
  | throw e => rfl
  | call i k ih =>
    simp only [call_bind, wlp_call, ih]
    rfl

theorem wlp_attempt {p : Prog ι ρ ε α}
    {Q : List (Event σ ι χ) → Except ε (Except ε α) → σ → Prop} :
    p.attempt.wlp exec Q s ↔ p.wlp exec (fun evs r s' => Q evs (.ok r) s') s := by
  induction p generalizing Q s with
  | ret a => rfl
  | throw e => rfl
  | call i k ih => exact forall_congr' fun c => ih _

/-- A call that is awaited: the program goes on with its answer, or throws what it threw. -/
theorem wlp_await_bind {i : ι} {f : ρ i → Prog ι ρ ε β}
    {Q : List (Event σ ι χ) → Except ε β → σ → Prop} :
    (Prog.await i >>= f).wlp exec Q s ↔ ∀ c,
      match exec c i s with
      | (.ok a, s') => (f a).wlp exec (fun evs => Q (⟨s, i, c⟩ :: evs)) s'
      | (.error e, s') => Q [⟨s, i, c⟩] (.error e) s' := by
  refine forall_congr' fun c => ?_
  rcases exec c i s with ⟨_ | _, s'⟩ <;> rfl

/-- A call that is tried: the program goes on with what came back. -/
theorem wlp_attempt_bind {i : ι} {f : Except ε (ρ i) → Prog ι ρ ε β}
    {Q : List (Event σ ι χ) → Except ε β → σ → Prop} :
    ((Prog.await i : Prog ι ρ ε (ρ i)).attempt >>= f).wlp exec Q s ↔ ∀ c,
      (f (exec c i s).1).wlp exec (fun evs => Q (⟨s, i, c⟩ :: evs)) (exec c i s).2 := by
  refine forall_congr' fun c => ?_
  rcases exec c i s with ⟨_ | _, s'⟩ <;> rfl

/-- **The meaning of `wlp`**: every run ends as asked. -/
theorem wlp_iff_run {p : Prog ι ρ ε α} :
    p.wlp exec Q s ↔
      ∀ cs d, p.run exec cs s = some d → Q d.events d.result d.state := by
  induction p generalizing Q s with
  | ret a => simp [run]
  | throw e => simp [run]
  | call i k ih =>
    simp only [wlp_call, ih]
    constructor
    · rintro h (_ | ⟨c, cs⟩) d hd
      · simp [run] at hd
      · simp only [run, Option.map_eq_some_iff] at hd
        obtain ⟨d', hd', rfl⟩ := hd
        exact h c cs d' hd'
    · intro h c cs d hd
      exact h (c :: cs) { d with events := ⟨s, i, c⟩ :: d.events } (by simp [run, hd])

end Rules

end Prog

end Effects
