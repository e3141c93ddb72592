import Gusto.Lib.Fault

/-!
# Programs over a larger interface

* `Prog.ofExcept r`: the program that ends with `r`;
* `Prog.translate f g`: a program whose calls are made under the names `f` gives them, and whose answers
  are read back by `g`; it keeps sequencing, `await` and `attempt`, and what the calls meet.
-/

set_option autoImplicit false

namespace Effects

variable {ι ι' ε α β : Type} {ρ : ι → Type} {ρ' : ι' → Type}

/-- The program that ends with what is at hand. -/
def Prog.ofExcept : Except ε α → Prog ι ρ ε α
  | .ok a => .ret a
  | .error e => .throw e

@[simp] theorem Prog.ofExcept_ok {a : α} : (Prog.ofExcept (.ok a) : Prog ι ρ ε α) = .ret a := rfl
@[simp] theorem Prog.ofExcept_error {e : ε} : (Prog.ofExcept (.error e) : Prog ι ρ ε α) = .throw e := rfl

/-- A program with each call `i` made as `f i`, and the answer read by `g i`. -/
def Prog.translate (f : ι → ι') (g : (i : ι) → ρ' (f i) → ρ i) : Prog ι ρ ε α → Prog ι' ρ' ε α
  | .ret a => .ret a
  | .throw e => .throw e
  | .call i k => .call (f i) fun r => (k (r.map (g i))).translate f g

section

variable {f : ι → ι'} {g : (i : ι) → ρ' (f i) → ρ i}

@[simp] theorem Prog.translate_ret {a : α} :
    (Prog.ret a : Prog ι ρ ε α).translate f g = .ret a := rfl
@[simp] theorem Prog.translate_throw {e : ε} :
    (Prog.throw e : Prog ι ρ ε α).translate f g = .throw e := rfl
@[simp] theorem Prog.translate_call {i : ι} {k : Except ε (ρ i) → Prog ι ρ ε α} :
    (Prog.call i k).translate f g = .call (f i) fun r => (k (r.map (g i))).translate f g := rfl

theorem Prog.translate_bind (p : Prog ι ρ ε α) (q : α → Prog ι ρ ε β) :
    (p >>= q).translate f g = p.translate f g >>= fun a => (q a).translate f g := by
  induction p with
  | ret a => rfl
  | throw e => rfl
  | call i k ih =>
    simp only [call_bind, translate_call]
    exact congrArg _ (funext fun r => ih _)

theorem Prog.translate_attempt (p : Prog ι ρ ε α) :
    p.attempt.translate f g = (p.translate f g).attempt := by
  induction p with
  | ret a => rfl
  | throw e => rfl
  | call i k ih =>
    simp only [attempt_call, translate_call]
    exact congrArg _ (funext fun r => ih _)

theorem Prog.calls_translate {P : ι' → Prop} (h : ∀ i, P (f i)) {p : Prog ι ρ ε α} :
    (p.translate f g).Calls fun i _ => P i := by
  induction p with
  | ret a => trivial
  | throw e => trivial
  | call i k ih => exact ⟨h i, fun r => ih _⟩

/-- What the calls of a program meet, its calls under their new names do. -/
theorem Prog.Asks.renamed {R : (i : ι') → Except ε (ρ' i) → Prop} {P : ι' → Prop}
    {p : Prog ι (fun i => ρ' (f i)) ε α} (h : p.Asks (fun i => R (f i)) fun i => P (f i)) :
    (p.translate f fun _ a => a).Asks R P := by
  induction p with
  | ret a => trivial
  | throw e => trivial
  | call i k ih =>
    refine ⟨h.1, fun r hr => ?_⟩
    have hmap : r.map (fun a => a) = r := by cases r <;> rfl
    dsimp only
    rw [hmap]
    exact ih _ (h.2 _ hr)

/-- A call that is awaited is awaited under its new name. -/
theorem Prog.translate_await (i : ι) :
    (Prog.await i : Prog ι ρ ε (ρ i)).translate f g = g i <$> (Prog.await (f i) : Prog ι' ρ' ε (ρ' (f i))) := by
  show Prog.call (f i) _ = Prog.call (f i) _
  congr 1
  funext r
  cases r with
  | ok a => rfl
  | error e => rfl

end

end Effects
