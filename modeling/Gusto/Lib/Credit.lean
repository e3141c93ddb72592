import Gusto.Lib.Local
import Gusto.Lib.Translate
import Mathlib.Algebra.BigOperators.Group.List.Lemmas
import Mathlib.Algebra.GroupWithZero.Nat
import Mathlib.Algebra.Order.BigOperators.Group.List
import Mathlib.Algebra.Order.Group.Nat

/-!
# Credits

Calls cost credits, and their answers may bring some; a state has a balance.

* `Pays cost gain p n`: `n` credits are enough for the program `p`, however its calls are answered;
* `Balanced`: no call adds more to the balance, and to the credits of its thread, than it costs;
* `balance_le_of_run`: in every interleaving the balance grows by the credits of the programs at most;
* `spent_le_of_run`: in every interleaving each thread spends what is enough for its program at most.
-/

set_option autoImplicit false

namespace Effects

variable {κ ι ε α β σ χ : Type} {ρ : ι → Type}

/-! ### Programs -/

namespace Prog

/-- `n` credits are enough for the calls of the program. -/
def Pays (cost : ι → ℕ) (gain : (i : ι) → Except ε (ρ i) → ℕ) : Prog ι ρ ε α → ℕ → Prop
  | .ret _, _ | .throw _, _ => True
  | .call i k, n => cost i ≤ n ∧ ∀ r, (k r).Pays cost gain (n - cost i + gain i r)

variable {cost : ι → ℕ} {gain : (i : ι) → Except ε (ρ i) → ℕ} {n m : ℕ}

theorem Pays.mono {p : Prog ι ρ ε α} (h : p.Pays cost gain n) (hle : n ≤ m) : p.Pays cost gain m := by
  induction p generalizing n m with
  | ret a => trivial
  | throw e => trivial
  | call i k ih => exact ⟨Nat.le_trans h.1 hle, fun r => ih r (h.2 r) (by omega)⟩

/-- A program none of whose calls costs anything. -/
theorem pays_of_free {p : Prog ι ρ ε α} (h : p.Asks AnyAnswer fun i => cost i = 0) : p.Pays cost gain n := by
  induction p generalizing n with
  | ret a => trivial
  | throw e => trivial
  | call i k ih =>
    have hfree : cost i = 0 := h.1
    exact ⟨by omega, fun r => ih r (h.2 r trivial)⟩

/-- The credits of a part, and those that are kept for what follows. -/
theorem Pays.bind {p : Prog ι ρ ε α} {f : α → Prog ι ρ ε β} (hp : p.Pays cost gain n)
    (hf : ∀ a, (f a).Pays cost gain m) : (p >>= f).Pays cost gain (n + m) := by
  induction p generalizing n with
  | ret a => exact (hf a).mono (by omega)
  | throw e => trivial
  | call i k ih => exact ⟨Nat.le_trans hp.1 (by omega), fun r => (ih r (hp.2 r)).mono (by have := hp.1; omega)⟩

theorem Pays.attempt {p : Prog ι ρ ε α} (hp : p.Pays cost gain n) : p.attempt.Pays cost gain n := by
  induction p generalizing n with
  | ret a => trivial
  | throw e => trivial
  | call i k ih => exact ⟨hp.1, fun r => ih r (hp.2 r)⟩

/-- A program whose calls are made under other names. -/
theorem Pays.renamed {ι' : Type} {ρ' : ι' → Type} {f : ι → ι'} {cost : ι' → ℕ}
    {gain : (i : ι') → Except ε (ρ' i) → ℕ} {p : Prog ι (fun i => ρ' (f i)) ε α}
    (h : p.Pays (fun i => cost (f i)) (fun i => gain (f i)) n) :
    (p.translate f fun _ a => a).Pays cost gain n := by
  induction p generalizing n with
  | ret a => trivial
  | throw e => trivial
  | call i k ih =>
    refine ⟨h.1, fun r => ?_⟩
    have hmap : r.map (fun a => a) = r := by cases r <;> rfl
    dsimp only
    rw [hmap]
    exact ih _ (h.2 r)

end Prog

/-! ### Pools -/

section Pools

variable {exec : Handler ι ρ ε σ χ} {cost : ι → ℕ} {gain : (i : ι) → Except ε (ρ i) → ℕ} {balance : σ → ℕ}
  {P P' : Pool κ ι ρ ε α σ} {N : ℕ}

/-- What a call adds to the balance, and what it brings to its thread, it costs. -/
def Balanced (exec : Handler ι ρ ε σ χ) (cost : ι → ℕ) (gain : (i : ι) → Except ε (ρ i) → ℕ) (balance : σ → ℕ) :
    Prop :=
  ∀ c i s, balance (exec c i s).2 + gain i (exec c i s).1 ≤ balance s + cost i

/-- The balance, and credits that are enough for each thread, are not more than `N` together. -/
def Covered (cost : ι → ℕ) (gain : (i : ι) → Except ε (ρ i) → ℕ) (balance : σ → ℕ) (N : ℕ)
    (P : Pool κ ι ρ ε α σ) : Prop :=
  ∃ l : List (Thread κ ι ρ ε α × ℕ), l.map Prod.fst = P.threads ∧ (∀ x ∈ l, x.1.prog.Pays cost gain x.2) ∧
    balance P.state + (l.map Prod.snd).sum ≤ N

/-- **A step** spends credits of the thread that makes its call. -/
theorem Covered.step (hexec : Balanced exec cost gain balance) (h : Covered cost gain balance N P) {l : ℕ × χ}
    {o : Note κ σ ι χ} (hs : P.step exec l = some (P', o)) : Covered cost gain balance N P' := by
  obtain ⟨credits, hthreads, hpays, hle⟩ := h
  obtain ⟨tag, i, k, rest, hget, -, hset, -, hstate, -⟩ := Pool.step_cases hs
  rw [← hthreads, List.getElem?_map, Option.map_eq_some_iff] at hget
  obtain ⟨⟨th, n⟩, hn, hth⟩ := hget
  obtain rfl : th = ⟨tag, .call i k⟩ := hth
  obtain ⟨l₁, l₂, rfl, hreplace⟩ := split_of_getElem? hn
  have hcall : cost i ≤ n ∧ ∀ r, (k r).Pays cost gain (n - cost i + gain i r) :=
    hpays _ (List.mem_append_right _ List.mem_cons_self)
  refine ⟨l₁ ++ (⟨tag, k (exec l.2 i P.state).1⟩, n - cost i + gain i (exec l.2 i P.state).1) :: l₂, ?_, ?_, ?_⟩
  · rw [hset, ← hthreads, ← hreplace, List.map_set]
  · intro x hx
    rcases List.mem_append.mp hx with hx | hx
    · exact hpays x (List.mem_append_left _ hx)
    · rcases List.mem_cons.mp hx with rfl | hx
      · exact hcall.2 _
      · exact hpays x (List.mem_append_right _ (List.mem_cons_of_mem _ hx))
  · have hstep := hexec l.2 i P.state
    rw [← hstate] at hstep
    simp only [List.map_append, List.map_cons, List.sum_append, List.sum_cons] at hle ⊢
    have := hcall.1
    omega

/-- **Runs.** The balance grows by what the programs may spend at most. -/
theorem balance_le_of_run (hexec : Balanced exec cost gain balance) {prog : κ → Prog ι ρ ε α} {calls : List κ}
    {credits : κ → ℕ} (h : ∀ c ∈ calls, (prog c).Pays cost gain (credits c)) {s : σ}
    {ok : List (Note κ σ ι χ) → Pool κ ι ρ ε α σ → ℕ × χ → Prop} {os : List (Note κ σ ι χ)}
    (hr : Run (Pool.step exec) ok (Pool.start prog calls s) P os) :
    balance P.state ≤ balance s + (calls.map credits).sum := by
  have hcovered : Covered cost gain balance (balance s + (calls.map credits).sum) P := by
    refine hr.invariant (fun _ P => Covered cost gain balance _ P) ?_ fun _ _ _ _ _ hP _ hs => hP.step hexec hs
    refine ⟨calls.map fun c => (⟨c, prog c⟩, credits c), ?_, fun x hx => ?_, ?_⟩
    · simp [Pool.start]
    · obtain ⟨c, hc, rfl⟩ := List.mem_map.mp hx
      exact h c hc
    · simp [Pool.start, Function.comp_def]
  obtain ⟨l, -, -, hle⟩ := hcovered
  omega

end Pools

/-! ### Threads -/

section Threads

variable {cost : ι → ℕ} {os l : List (Note κ σ ι χ)} {tid N : ℕ}

/-- What the calls of a thread have cost. -/
def spent (cost : ι → ℕ) (os : List (Note κ σ ι χ)) (tid : ℕ) : ℕ :=
  ((os.filter fun o => o.tid = tid).map fun o => cost o.event.call).sum

theorem spent_concat (o : Note κ σ ι χ) :
    spent cost (os ++ [o]) tid = spent cost os tid + if o.tid = tid then cost o.event.call else 0 := by
  unfold spent
  by_cases h : o.tid = tid <;> simp [h]

/-- **Runs.** No thread spends more than is enough for its program. -/
theorem spent_le_of_run {exec : Handler ι ρ ε σ χ} {prog : κ → Prog ι ρ ε α} {calls : List κ} {s : σ}
    {P : Pool κ ι ρ ε α σ} {ok : List (Note κ σ ι χ) → Pool κ ι ρ ε α σ → ℕ × χ → Prop}
    (h : ∀ c ∈ calls, (prog c).Pays cost (fun _ _ => 0) N)
    (hr : Run (Pool.step exec) ok (Pool.start prog calls s) P os) (tid : ℕ) : spent cost os tid ≤ N := by
  have hkept : ∀ tid, spent cost os tid ≤ N ∧ ∀ th : Thread κ ι ρ ε α, P.threads[tid]? = some th →
      ∃ n, th.prog.Pays cost (fun _ _ => 0) n ∧ spent cost os tid + n ≤ N := by
    refine hr.invariant (fun os P => ∀ tid, spent cost os tid ≤ N ∧ ∀ th, P.threads[tid]? = some th →
      ∃ n, th.prog.Pays cost (fun _ _ => 0) n ∧ spent cost os tid + n ≤ N) (fun tid => ?_) ?_
    · refine ⟨Nat.zero_le _, fun th hth => ⟨N, ?_, Nat.le_of_eq (Nat.zero_add N)⟩⟩
      obtain ⟨hmem, hprog⟩ := Pool.start_threads (List.mem_of_getElem? hth)
      rw [hprog]
      exact h _ hmem
    · intro os P l P' o hI _ hs tid
      obtain ⟨tag, i, k, rest, hget, -, hset, -, -, rfl⟩ := Pool.step_cases hs
      obtain ⟨n, hpays, hle⟩ := (hI l.1).2 _ hget
      have hcall : cost i ≤ n ∧ ∀ r, (k r).Pays cost (fun _ _ => 0) (n - cost i) := hpays
      rw [spent_concat]
      by_cases htid : l.1 = tid
      · subst htid
        rw [if_pos rfl]
        dsimp only
        refine ⟨by have := hcall.1; omega, fun th hth => ⟨n - cost i, ?_, by have := hcall.1; omega⟩⟩
        rw [hset] at hth
        rcases Pool.getElem?_set_cases hget hth with ⟨-, rfl⟩ | ⟨hne, -⟩
        · exact hcall.2 _
        · exact absurd rfl hne
      · rw [if_neg htid, Nat.add_zero]
        refine ⟨(hI tid).1, fun th hth => (hI tid).2 th ?_⟩
        rw [hset] at hth
        rcases Pool.getElem?_set_cases hget hth with ⟨heq, -⟩ | ⟨-, hold⟩
        · exact absurd heq.symm htid
        · exact hold
  exact (hkept tid).1

/-- Calls that cost something, by the threads that have made them. -/
theorem length_le_of_spent (hsub : l.Sublist os) (hcost : ∀ o ∈ l, 1 ≤ cost o.event.call)
    (hspent : ∀ tid, spent cost os tid ≤ N) : l.length ≤ (l.map Note.tid).dedup.length * N := by
  have hcount : ∀ tid, (l.map Note.tid).count tid ≤ N := by
    intro tid
    refine le_trans ?_ (hspent tid)
    have hmine : (l.map Note.tid).count tid = (l.filter fun o => o.tid = tid).length := by
      rw [List.count, List.countP_map, List.countP_eq_length_filter]
      rfl
    have hone : ∀ n ∈ (l.filter fun o => o.tid = tid).map fun o => cost o.event.call, 1 ≤ n := by
      intro n hn
      obtain ⟨o, ho, rfl⟩ := List.mem_map.mp hn
      exact hcost o (List.mem_filter.mp ho).1
    rw [hmine, ← List.length_map fun o => cost o.event.call]
    exact (List.length_le_sum_of_one_le _ hone).trans
      (((hsub.filter _).map _).sum_le_sum fun _ _ => Nat.zero_le _)
  have hsum := List.sum_le_card_nsmul ((l.map Note.tid).dedup.map fun tid => (l.map Note.tid).count tid) N fun n hn => by
    obtain ⟨tid, -, rfl⟩ := List.mem_map.mp hn
    exact hcount tid
  rw [List.sum_map_count_dedup_eq_length, List.length_map, List.length_map, Nat.nsmul_eq_mul] at hsum
  exact hsum

end Threads

end Effects
