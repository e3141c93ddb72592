import Gusto.Lib.Prog
import Mathlib.Logic.Function.Basic

/-!
# Programs under a stream of choices, and the failure of one call

* `play`: the program driven to its end by a stream of choices; `play_const`: a stream that does not
  change;
* `Ends Q p`: every way for `p` to end has a result that meets `Q`;
* `Bus`: an interface with the calls that publish, and their failure; `Harmless`: where a publish
  that succeeds is made to fail instead, neither the result nor what is kept changes;
* `Marks S p`: after each publish the result meets `S` if it succeeded, and does not if it failed;
  `Tells p`: the result says whether it failed;
* `Tells.harmless_iff`: such a program is harmless exactly where no publish succeeds.
-/

set_option autoImplicit false

namespace Effects

namespace Prog

variable {ι : Type} {ρ : ι → Type} {ε α β σ χ : Type}

/-! ### Streams of choices -/

section Play

variable (exec : Handler ι ρ ε σ χ)

/-- The program driven to its end by a stream of choices. -/
def play : Prog ι ρ ε α → (ℕ → χ) → σ → Done σ ι χ ε α
  | .ret a, _, s => ⟨.ok a, s, []⟩
  | .throw e, _, s => ⟨.error e, s, []⟩
  | .call i k, cs, s =>
    let d := play (k (exec (cs 0) i s).1) (fun n => cs (n + 1)) (exec (cs 0) i s).2
    { d with events := ⟨s, i, cs 0⟩ :: d.events }

variable {exec} {cs : ℕ → χ} {c : χ} {s : σ}

@[simp] theorem play_ret {a : α} :
    (Prog.ret a : Prog ι ρ ε α).play exec cs s = ⟨.ok a, s, []⟩ := rfl
@[simp] theorem play_throw {e : ε} :
    (Prog.throw e : Prog ι ρ ε α).play exec cs s = ⟨.error e, s, []⟩ := rfl
@[simp] theorem play_call {i : ι} {k : Except ε (ρ i) → Prog ι ρ ε α} :
    (Prog.call i k).play exec cs s =
      { (k (exec (cs 0) i s).1).play exec (fun n => cs (n + 1)) (exec (cs 0) i s).2 with
        events := ⟨s, i, cs 0⟩ ::
          ((k (exec (cs 0) i s).1).play exec (fun n => cs (n + 1)) (exec (cs 0) i s).2).events } := rfl

/-- Where the environment makes the same choice throughout. -/
theorem play_const {p : Prog ι ρ ε α} :
    ((p.play exec (fun _ => c) s).result, (p.play exec (fun _ => c) s).state) = p.eval exec c s := by
  induction p generalizing s with
  | ret a => rfl
  | throw e => rfl
  | call i k ih => exact ih _

/-- A program that goes on with the value of another, on what the first has left of the stream. -/
theorem play_bind {p : Prog ι ρ ε α} {f : α → Prog ι ρ ε β} :
    (p >>= f).play exec cs s =
      match (p.play exec cs s).result with
      | .ok a =>
        let d := (f a).play exec (fun n => cs (n + (p.play exec cs s).events.length))
          (p.play exec cs s).state
        { d with events := (p.play exec cs s).events ++ d.events }
      | .error e => ⟨.error e, (p.play exec cs s).state, (p.play exec cs s).events⟩ := by
  induction p generalizing cs s with
  | ret a => rfl
  | throw e => rfl
  | call i k ih =>
    rw [call_bind, play_call, ih]
    simp only [play_call]
    cases ((k (exec (cs 0) i s).1).play exec (fun n => cs (n + 1)) (exec (cs 0) i s).2).result <;> rfl

/-- The choices of the calls are those of the stream. -/
theorem forall_choice_play {P : χ → Prop} {p : Prog ι ρ ε α} (h : ∀ n, P (cs n)) :
    ∀ ev ∈ (p.play exec cs s).events, P ev.choice := by
  induction p generalizing cs s with
  | ret a => simp
  | throw e => simp
  | call i k ih =>
    rw [play_call]
    exact List.forall_mem_cons.mpr ⟨h 0, ih _ fun n => h (n + 1)⟩

/-- What holds of every way to end holds of the one that a stream makes. -/
theorem wlp_play {p : Prog ι ρ ε α} {Q : List (Event σ ι χ) → Except ε α → σ → Prop}
    (h : p.wlp exec Q s) (cs : ℕ → χ) :
    Q (p.play exec cs s).events (p.play exec cs s).result (p.play exec cs s).state := by
  induction p generalizing Q s cs with
  | ret a => exact h
  | throw e => exact h
  | call i k ih => exact ih _ (h (cs 0)) _

end Play

/-! ### The same choice throughout -/

section Eval

variable {exec : Handler ι ρ ε σ χ} {c : χ} {s : σ}

theorem eval_bind {p : Prog ι ρ ε α} {f : α → Prog ι ρ ε β} :
    (p >>= f).eval exec c s =
      match p.eval exec c s with
      | (.ok a, s') => (f a).eval exec c s'
      | (.error e, s') => (.error e, s') := by
  induction p generalizing s with
  | ret a => rfl
  | throw e => rfl
  | call i k ih => exact ih _

end Eval

/-! ### Results -/

section Ends

variable {Q Q' : Except ε α → Prop} {p : Prog ι ρ ε α}

/-- Every way for the program to end has a result that meets `Q`. -/
def Ends (Q : Except ε α → Prop) : Prog ι ρ ε α → Prop
  | .ret a => Q (.ok a)
  | .throw e => Q (.error e)
  | .call _ k => ∀ r, Ends Q (k r)

theorem Ends.play (h : p.Ends Q) (exec : Handler ι ρ ε σ χ) (cs : ℕ → χ) (s : σ) :
    Q (p.play exec cs s).result := by
  induction p generalizing cs s with
  | ret a => exact h
  | throw e => exact h
  | call i k ih => exact ih _ (h _) _ _

theorem ends_true : p.Ends fun _ => True := by
  induction p with
  | ret a => trivial
  | throw e => trivial
  | call i k ih => exact fun r => ih r

theorem Ends.mono (h : p.Ends Q) (hQ : ∀ r, Q r → Q' r) : p.Ends Q' := by
  induction p with
  | ret a => exact hQ _ h
  | throw e => exact hQ _ h
  | call i k ih => exact fun r => ih r (h r)

theorem Ends.bind {f : α → Prog ι ρ ε β} {R : Except ε β → Prop} (h : p.Ends Q)
    (hf : ∀ a, Q (.ok a) → (f a).Ends R) (herr : ∀ e, Q (.error e) → R (.error e)) :
    (p >>= f).Ends R := by
  induction p with
  | ret a => exact hf a h
  | throw e => exact herr e h
  | call i k ih => exact fun r => ih r (h r)

theorem Ends.attempt {R : Except ε (Except ε α) → Prop} (h : p.Ends Q) (hR : ∀ r, Q r → R (.ok r)) :
    p.attempt.Ends R := by
  induction p with
  | ret a => exact hR _ h
  | throw e => exact hR _ h
  | call i k ih => exact fun r => ih r (h r)

end Ends

/-- Of each call, and what follows it, `P` holds. -/
def Calls (P : (i : ι) → (Except ε (ρ i) → Prog ι ρ ε α) → Prop) : Prog ι ρ ε α → Prop
  | .ret _ => True
  | .throw _ => True
  | .call i k => P i k ∧ ∀ r, Calls P (k r)

theorem Calls.mono {P P' : (i : ι) → (Except ε (ρ i) → Prog ι ρ ε α) → Prop} {p : Prog ι ρ ε α}
    (h : p.Calls P) (hP : ∀ i k, P i k → P' i k) : p.Calls P' := by
  induction p with
  | ret a => trivial
  | throw e => trivial
  | call i k ih => exact ⟨hP i k h.1, fun r => ih r (h.2 r)⟩

theorem Calls.bind {P : (i : ι) → (Except ε (ρ i) → Prog ι ρ ε α) → Prop}
    {P' : (i : ι) → (Except ε (ρ i) → Prog ι ρ ε β) → Prop} {p : Prog ι ρ ε α}
    {f : α → Prog ι ρ ε β} (h : p.Calls P) (hP : ∀ i k, P i k → P' i fun r => k r >>= f)
    (hf : ∀ a, (f a).Calls P') : (p >>= f).Calls P' := by
  induction p with
  | ret a => exact hf a
  | throw e => trivial
  | call i k ih => exact ⟨hP i k h.1, fun r => ih r (h.2 r)⟩

theorem Calls.attempt {P : (i : ι) → (Except ε (ρ i) → Prog ι ρ ε α) → Prop}
    {P' : (i : ι) → (Except ε (ρ i) → Prog ι ρ ε (Except ε α)) → Prop} {p : Prog ι ρ ε α}
    (h : p.Calls P) (hP : ∀ i k, P i k → P' i fun r => (k r).attempt) : p.attempt.Calls P' := by
  induction p with
  | ret a => trivial
  | throw e => trivial
  | call i k ih => exact ⟨hP i k h.1, fun r => ih r (h.2 r)⟩

/-- What is kept by calls that meet `P` is kept by a program all of whose calls do. -/
theorem Calls.wlp {exec : Handler ι ρ ε σ χ} {P : ι → Prop} {I : σ → Prop}
    (hI : ∀ c i s, P i → I s → I (exec c i s).2) {p : Prog ι ρ ε α} {s : σ}
    (hp : p.Calls fun i _ => P i) (hs : I s) : p.wlp exec (fun _ _ s' => I s') s := by
  induction p generalizing s with
  | ret a => exact hs
  | throw e => exact hs
  | call i k ih => exact fun c => ih _ (hp.2 _) (hI c i s hp.1 hs)

/-- Where each call is answered as `R` allows, each call that is made meets `P`. -/
def Asks (R : (i : ι) → Except ε (ρ i) → Prop) (P : ι → Prop) : Prog ι ρ ε α → Prop
  | .ret _ => True
  | .throw _ => True
  | .call i k => P i ∧ ∀ r, R i r → Asks R P (k r)

/-- A program all of whose calls meet `P`, however they are answered. -/
theorem Calls.asks {R : (i : ι) → Except ε (ρ i) → Prop} {P : ι → Prop} {p : Prog ι ρ ε α}
    (h : p.Calls fun i _ => P i) : p.Asks R P := by
  induction p with
  | ret a => trivial
  | throw e => trivial
  | call i k ih => exact ⟨h.1, fun r _ => ih r (h.2 r)⟩

/-- In a run whose calls are answered as `R` allows in the states that meet `I`, which every call keeps,
each call meets `P`. -/
theorem Asks.wlp {exec : Handler ι ρ ε σ χ} {R : (i : ι) → Except ε (ρ i) → Prop} {P : ι → Prop}
    {I : σ → Prop} (hI : ∀ c i s, I s → I (exec c i s).2) {p : Prog ι ρ ε α} {s : σ}
    (hp : p.Asks R P) (hs : I s) :
    p.wlp exec (fun evs _ _ =>
      (∀ ev ∈ evs, I ev.pre → R ev.call (exec ev.choice ev.call ev.pre).1) →
        ∀ ev ∈ evs, P ev.call) s := by
  induction p generalizing s with
  | ret a => exact fun _ => by simp
  | throw e => exact fun _ => by simp
  | call i k ih =>
    intro c
    by_cases hR : R i (exec c i s).1
    · refine wlp_mono (fun evs _ _ hk hevs => ?_) (ih _ (hp.2 _ hR) (hI c i s hs))
      obtain ⟨-, hrest⟩ := List.forall_mem_cons.mp hevs
      exact List.forall_mem_cons.mpr ⟨hp.1, hk hrest⟩
    · refine wlp_mono (fun evs _ _ _ hevs => ?_) (wlp_invariant (I := fun _ => True)
        (fun _ _ _ _ => trivial) trivial)
      exact absurd ((List.forall_mem_cons.mp hevs).1 hs) hR

end Prog

/-! ### Publishes -/

/-- An interface some of whose calls publish: the choice that makes such a call fail, and what is kept
of a state. -/
structure Bus (ι : Type) (ρ : ι → Type) (ε σ χ κ : Type) where
  exec : Handler ι ρ ε σ χ
  publishes : ι → Bool
  fail : ε → χ → χ
  kept : σ → κ
  fails : ∀ e c i s, publishes i → (exec (fail e c) i s).1 = .error e

namespace Bus

variable {ι : Type} {ρ : ι → Type} {ε α β σ χ κ : Type} (bus : Bus ι ρ ε σ χ κ)

/-- A publish that succeeds. -/
def Succeeds (ev : Event σ ι χ) : Prop :=
  bus.publishes ev.call ∧ ∃ a, (bus.exec ev.choice ev.call ev.pre).1 = .ok a

/-- The run in which the call number `n` fails, and all else is as it was. -/
def failing (p : Prog ι ρ ε α) (cs : ℕ → χ) (s : σ) (n : ℕ) (e : ε) : Done σ ι χ ε α :=
  p.play bus.exec (Function.update cs n (bus.fail e (cs n))) s

/-- Where a publish that succeeds fails instead, neither the result nor what is kept changes. -/
def Harmless (p : Prog ι ρ ε α) (cs : ℕ → χ) (s : σ) : Prop :=
  ∀ n ev e, (p.play bus.exec cs s).events[n]? = some ev → bus.Succeeds ev →
    (bus.failing p cs s n e).result = (p.play bus.exec cs s).result ∧
      bus.kept (bus.failing p cs s n e).state = bus.kept (p.play bus.exec cs s).state

/-- No publish succeeds. -/
def Quiet (p : Prog ι ρ ε α) (cs : ℕ → χ) (s : σ) : Prop :=
  ∀ ev ∈ (p.play bus.exec cs s).events, ¬ bus.Succeeds ev

/-! ### What the result says -/

/-- The program publishes nothing. -/
def Silent (p : Prog ι ρ ε α) : Prop := p.Calls fun i _ => bus.publishes i = false

/-- After each publish the result meets `S` if it has succeeded, and does not if it has failed. -/
def Marks (S : Except ε α → Prop) (p : Prog ι ρ ε α) : Prop :=
  p.Calls fun i k => bus.publishes i → ∃ e, (∀ a, (k (.ok a)).Ends S) ∧ (k (.error e)).Ends (¬ S ·)

/-- After each publish the result says whether it has failed. -/
def Tells (p : Prog ι ρ ε α) : Prop :=
  p.Calls fun i k => bus.publishes i →
    ∃ (e : ε) (S : Except ε α → Prop), (∀ a, (k (.ok a)).Ends S) ∧ (k (.error e)).Ends (¬ S ·)

variable {bus} {p : Prog ι ρ ε α} {f : α → Prog ι ρ ε β} {S : Except ε α → Prop}

theorem Marks.tells (h : bus.Marks S p) : bus.Tells p := by
  refine h.mono fun i k hik hi => ?_
  obtain ⟨e, hok, herr⟩ := hik hi
  exact ⟨e, S, hok, herr⟩

/-- A publish that fails shows in the result. -/
theorem Tells.result_ne {cs : ℕ → χ} {s : σ} {n : ℕ} {ev : Event σ ι χ} (h : bus.Tells p)
    (hev : (p.play bus.exec cs s).events[n]? = some ev) (hsucc : bus.Succeeds ev) :
    ∃ e, (bus.failing p cs s n e).result ≠ (p.play bus.exec cs s).result := by
  unfold failing
  induction p generalizing cs s n with
  | ret a => simp at hev
  | throw e => simp at hev
  | call i k ih =>
    obtain ⟨hcall, hrest⟩ := h
    cases n with
    | zero =>
      simp only [Prog.play_call, List.getElem?_cons_zero, Option.some.injEq] at hev
      subst hev
      obtain ⟨hi, a, ha⟩ := hsucc
      obtain ⟨e, S, hok, herr⟩ := hcall hi
      refine ⟨e, fun heq => ?_⟩
      simp only [Prog.play_call, Function.update_self, bus.fails e (cs 0) i s hi] at heq
      have hS := (hok a).play bus.exec (fun n => cs (n + 1)) (bus.exec (cs 0) i s).2
      rw [← show (bus.exec (cs 0) i s).1 = .ok a from ha, ← heq] at hS
      exact herr.play _ _ _ hS
    | succ n =>
      simp only [Prog.play_call, List.getElem?_cons_succ] at hev
      obtain ⟨e, he⟩ := ih _ (hrest _) hev
      refine ⟨e, fun heq => he ?_⟩
      have hshift : (fun m => Function.update cs (n + 1) (bus.fail e (cs (n + 1))) (m + 1)) =
          Function.update (fun m => cs (m + 1)) n (bus.fail e (cs (n + 1))) := by
        funext m
        simp [Function.update_apply]
      simp only [Prog.play_call, Function.update_of_ne (Nat.succ_ne_zero n).symm, hshift] at heq
      exact heq

/-- **A program whose result tells** is harmless exactly where no publish succeeds. -/
theorem Tells.harmless_iff {cs : ℕ → χ} {s : σ} (h : bus.Tells p) :
    bus.Harmless p cs s ↔ bus.Quiet p cs s := by
  constructor
  · intro hharmless ev hev hsucc
    obtain ⟨n, hn⟩ := List.getElem?_of_mem hev
    obtain ⟨e, he⟩ := h.result_ne hn hsucc
    exact he (hharmless n ev e hn hsucc).1
  · intro hquiet n ev e hn hsucc
    exact absurd hsucc (hquiet ev (List.mem_of_getElem? hn))

/-! ### Rules -/

theorem silent_ret {a : α} : bus.Silent (.ret a : Prog ι ρ ε α) := trivial
theorem silent_throw {e : ε} : bus.Silent (.throw e : Prog ι ρ ε α) := trivial

theorem silent_await {i : ι} (hi : bus.publishes i = false) :
    bus.Silent (Prog.await i : Prog ι ρ ε (ρ i)) :=
  ⟨hi, fun r => by cases r <;> trivial⟩

theorem Silent.bind (hp : bus.Silent p) (hf : ∀ a, bus.Silent (f a)) : bus.Silent (p >>= f) :=
  Prog.Calls.bind hp (fun _ _ hi => hi) hf

theorem Silent.attempt (hp : bus.Silent p) : bus.Silent p.attempt :=
  Prog.Calls.attempt hp fun _ _ hi => hi

theorem Silent.marks (hp : bus.Silent p) : bus.Marks S p :=
  hp.mono fun i k hi hpub => absurd hpub (by rw [hi]; nofun)

theorem Silent.tells (hp : bus.Silent p) : bus.Tells p := hp.marks (S := fun _ => True).tells

theorem tells_call {i : ι} {k : Except ε (ρ i) → Prog ι ρ ε α} (hi : bus.publishes i = false)
    (hk : ∀ r, bus.Tells (k r)) : bus.Tells (.call i k) :=
  ⟨fun hpub => absurd hpub (by rw [hi]; nofun), hk⟩

theorem Silent.bind_tells (hp : bus.Silent p) (hf : ∀ a, bus.Tells (f a)) : bus.Tells (p >>= f) :=
  Prog.Calls.bind hp (fun i k hi hpub => absurd hpub (by rw [hi]; nofun)) hf

theorem Silent.bind_marks {S' : Except ε β → Prop} (hp : bus.Silent p)
    (hf : ∀ a, bus.Marks S' (f a)) : bus.Marks S' (p >>= f) :=
  Prog.Calls.bind hp (fun i k hi hpub => absurd hpub (by rw [hi]; nofun)) hf

/-- The result of `p >>= f` says of `S` what the result of `p` has said. -/
structure Shows (S : Except ε α → Prop) (f : α → Prog ι ρ ε β) (S' : Except ε β → Prop) : Prop where
  ok : ∀ a, (f a).Ends fun r => S' r ↔ S (.ok a)
  error : ∀ e, S' (.error e) ↔ S (.error e)

theorem Shows.ends {S' : Except ε β → Prop} (h : Shows S f S') (hp : p.Ends S) : (p >>= f).Ends S' :=
  hp.bind (fun a ha => (h.ok a).mono fun _ hr => hr.mpr ha) fun e he => (h.error e).mpr he

theorem Shows.not {S' : Except ε β → Prop} (h : Shows S f S') : Shows (¬ S ·) f (¬ S' ·) :=
  ⟨fun a => (h.ok a).mono fun _ hr => not_congr hr, fun e => not_congr (h.error e)⟩

/-- What the part before a program has marked, its result still says. -/
theorem Marks.bind {S' : Except ε β → Prop} (hp : bus.Marks S p) (hS : Shows S f S')
    (hf : ∀ a, bus.Marks S' (f a)) : bus.Marks S' (p >>= f) := by
  refine Prog.Calls.bind hp (fun i k hik hi => ?_) hf
  obtain ⟨e, hok, herr⟩ := hik hi
  exact ⟨e, fun a => hS.ends (hok a), hS.not.ends herr⟩

theorem Marks.bind_tells {T : Except ε β → Prop} (hp : bus.Marks S p) (hS : Shows S f T)
    (hf : ∀ a, bus.Tells (f a)) : bus.Tells (p >>= f) := by
  refine Prog.Calls.bind hp (fun i k hik hi => ?_) hf
  obtain ⟨e, hok, herr⟩ := hik hi
  exact ⟨e, T, fun a => hS.ends (hok a), hS.not.ends herr⟩

/-- A result that is handed on, as a part of another, still tells. -/
theorem Tells.bind_ret {g : α → β} (hp : bus.Tells p) (hg : Function.Injective g) :
    bus.Tells (p >>= fun a => .ret (g a)) := by
  refine Prog.Calls.bind hp (fun i k hik hi => ?_) fun _ => trivial
  obtain ⟨e, S, hok, herr⟩ := hik hi
  have hS : Shows S (fun a => (.ret (g a) : Prog ι ρ ε β)) fun r => ∃ x, S x ∧ r = x.map g := by
    refine ⟨fun a => ⟨?_, fun h => ⟨.ok a, h, rfl⟩⟩, fun e => ⟨?_, fun h => ⟨.error e, h, rfl⟩⟩⟩
    · rintro ⟨x | x, hx, heq⟩
      · cases heq
      · rw [hg (Except.ok.inj heq)]
        exact hx
    · rintro ⟨x | x, hx, heq⟩
      · rw [Except.error.inj heq]
        exact hx
      · cases heq
  exact ⟨e, _, fun a => hS.ends (hok a), hS.not.ends herr⟩

theorem Marks.attempt {S' : Except ε (Except ε α) → Prop} (hp : bus.Marks S p)
    (hS : ∀ r, S' (.ok r) ↔ S r) : bus.Marks S' p.attempt := by
  refine Prog.Calls.attempt hp fun i k hik hi => ?_
  obtain ⟨e, hok, herr⟩ := hik hi
  exact ⟨e, fun a => (hok a).attempt fun r => (hS r).mpr,
    herr.attempt fun r hr h => hr ((hS r).mp h)⟩

/-- A publish whose failure is thrown, with a program after it that ends in `S`. -/
theorem marks_publish {i : ι} {g : ρ i → Prog ι ρ ε β} {S : Except ε β → Prop} (e : ε)
    (hg : ∀ a, (g a).Ends S) (he : ¬ S (.error e)) (hafter : ∀ a, bus.Silent (g a)) :
    bus.Marks S (Prog.await i >>= g) := by
  refine ⟨fun _ => ⟨e, hg, he⟩, fun r => ?_⟩
  cases r with
  | ok a => exact (hafter a).marks
  | error e => trivial

end Bus

end Effects
