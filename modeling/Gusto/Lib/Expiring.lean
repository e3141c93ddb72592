import Mathlib.Data.List.Basic
import Mathlib.Data.List.Induction
import Mathlib.Data.Int.Notation
import Mathlib.Order.Lattice

/-!
# Stores whose entries expire

* `Store K V T`: values under keys, each with the instant from which it is gone, if there is one;
* `get` reads at an instant, `put` writes, `touch` sets the instant of an entry, `erase` removes;
* `get_of_le`: what is read later could be read before;
* `Written`: an entry comes from the last of the commands so far that is about its key;
* `window_le`: a log of instants none of which sees more than `L` of the last `w` has at most `L` in
  every window of that length.
-/

set_option autoImplicit false

namespace Expiring

/-- A value, and the instant from which it is gone. -/
structure Entry (V T : Type) where
  value : V
  deadline : Option T

/-- What is stored under each key. -/
abbrev Store (K V T : Type) : Type := K → Option (Entry V T)

section

variable {K V T : Type} [LinearOrder T]

/-- Whether an entry is still there. -/
def Entry.alive (e : Entry V T) (now : T) : Bool :=
  match e.deadline with
  | none => true
  | some t => decide (now < t)

namespace Store

/-- A store that holds nothing. -/
def empty : Store K V T := fun _ => none

/-- The value under `k` at the instant `now`. -/
def get (s : Store K V T) (now : T) (k : K) : Option V :=
  (s k).bind fun e => if e.alive now then some e.value else none

/-- The keys that meet `p` removed. -/
def erase (s : Store K V T) (p : K → Bool) : Store K V T := fun k => if p k then none else s k

section

variable [DecidableEq K]

/-- `v` under `k`, from now on or until an instant. -/
def put (s : Store K V T) (k : K) (v : V) (deadline : Option T) : Store K V T :=
  Function.update s k (some ⟨v, deadline⟩)

/-- The value under `k` replaced by `v`; an entry that is there keeps its instant. -/
def replace (s : Store K V T) (now : T) (k : K) (v : V) : Store K V T :=
  match s k with
  | some e => s.put k v (if e.alive now then e.deadline else none)
  | none => s.put k v none

/-- The instant of the entry under `k`, if there is one, set to `deadline`. -/
def touch (s : Store K V T) (now : T) (k : K) (deadline : T) : Store K V T :=
  match s.get now k with
  | some v => s.put k v (some deadline)
  | none => s

end

variable {s : Store K V T} {now later : T} {k k' : K} {v : V} {d : Option T}

@[simp] theorem get_empty : (empty : Store K V T).get now k = none := rfl

theorem get_eq_some :
    s.get now k = some v ↔ ∃ e, s k = some e ∧ e.alive now = true ∧ e.value = v := by
  unfold get
  rw [Option.bind_eq_some_iff]
  refine exists_congr fun e => and_congr_right fun _ => ?_
  split <;> simp_all

@[simp] theorem get_erase {p : K → Bool} :
    (s.erase p).get now k = if p k then none else s.get now k := by
  unfold get erase
  split <;> rfl

/-- An entry that cannot be read is past its instant. -/
theorem gone_of_get_eq_none {e : Entry V T} (he : s k = some e) (h : s.get now k = none) :
    ∃ t, e.deadline = some t ∧ t ≤ now := by
  simp only [get, he, Option.bind_some, Entry.alive] at h
  cases hd : e.deadline with
  | none => simp [hd] at h
  | some t => exact ⟨t, rfl, by simpa [hd] using h⟩

/-- **What is read later could be read before.** -/
theorem get_of_le (h : now ≤ later) (hv : s.get later k = some v) : s.get now k = some v := by
  rw [get_eq_some] at hv ⊢
  obtain ⟨e, he, halive, hval⟩ := hv
  refine ⟨e, he, ?_, hval⟩
  unfold Entry.alive at halive ⊢
  split at halive
  · rfl
  · simp only [decide_eq_true_eq] at halive ⊢
    exact lt_of_le_of_lt h halive

variable [DecidableEq K]

omit [LinearOrder T] in
@[simp] theorem put_self : s.put k v d k = some ⟨v, d⟩ := by simp [put]

omit [LinearOrder T] in
@[simp] theorem put_of_ne (h : k' ≠ k) : s.put k v d k' = s k' := by simp [put, h]

@[simp] theorem get_put_self :
    (s.put k v d).get now k = if (⟨v, d⟩ : Entry V T).alive now then some v else none := by
  simp [get, put]

@[simp] theorem get_put_of_ne (h : k' ≠ k) : (s.put k v d).get now k' = s.get now k' := by
  simp [get, put, h]

theorem get_replace_self : (s.replace now k v).get now k = some v := by
  unfold replace
  split
  · rw [get_put_self]
    split <;> simp_all [Entry.alive]
  · simp [Entry.alive]

@[simp] theorem get_replace_of_ne (h : k' ≠ k) :
    (s.replace now k v).get later k' = s.get later k' := by
  unfold replace
  split <;> exact get_put_of_ne h

@[simp] theorem get_touch_of_ne (h : k' ≠ k) {t : T} :
    (s.touch now k t).get later k' = s.get later k' := by
  unfold touch
  split
  · exact get_put_of_ne h
  · rfl

theorem get_touch_self {t : T} (h : s.get now k = some v) :
    (s.touch now k t).get later k = if later < t then some v else none := by
  simp [touch, h, Entry.alive]

end Store

end

/-! ### Logs of commands -/

section Commands

variable {K V T ο : Type}

/-- A command to a store. -/
inductive Command (K V T : Type)
  | put (k : K) (e : Entry V T)
  | erase (p : K → Bool)

/-- What was under the key before the command is gone after it. -/
def Command.Clears (k : K) : Command K V T → Prop
  | .put k' _ => k' = k
  | .erase p => p k = true

variable [DecidableEq K]

def Command.apply (s : Store K V T) : Command K V T → Store K V T
  | .put k e => s.put k e.value e.deadline
  | .erase p => s.erase p

/-- Each entry was put there by an element of the log, after which none is about its key. -/
def Written (command : ο → Option (Command K V T)) (log : List ο) (s : Store K V T) : Prop :=
  ∀ k e, s k = some e → ∃ before o after, log = before ++ o :: after ∧ command o = some (.put k e) ∧
    ∀ o' ∈ after, ∀ c, command o' = some c → ¬ c.Clears k

variable {command : ο → Option (Command K V T)} {log : List ο} {s : Store K V T} {o : ο}

omit [DecidableEq K] in
theorem written_empty : Written command [] (Store.empty : Store K V T) := by
  intro k e he
  cases he

omit [DecidableEq K] in
/-- An entry that the last element of the log leaves. -/
theorem Written.keep (h : Written command log s) {k : K} {e : Entry V T} (he : s k = some e)
    (ho : ∀ c, command o = some c → ¬ c.Clears k) :
    ∃ before o' after, log ++ [o] = before ++ o' :: after ∧ command o' = some (.put k e) ∧
      ∀ o'' ∈ after, ∀ c, command o'' = some c → ¬ c.Clears k := by
  obtain ⟨before, o', after, rfl, hput, hafter⟩ := h k e he
  refine ⟨before, o', after ++ [o], by simp, hput, fun o'' ho'' => ?_⟩
  rcases List.mem_append.mp ho'' with hmem | hmem
  · exact hafter o'' hmem
  · rw [List.mem_singleton.mp hmem]
    exact ho

omit [DecidableEq K] in
theorem Written.snoc_none (h : Written command log s) (ho : command o = none) :
    Written command (log ++ [o]) s := fun _ _ he => h.keep he fun c hc => by simp [ho] at hc

/-- **One command more.** -/
theorem Written.snoc (h : Written command log s) {c : Command K V T} (ho : command o = some c) :
    Written command (log ++ [o]) (c.apply s) := by
  intro k e he
  by_cases hc : c.Clears k
  · cases c with
    | put k' e' =>
      obtain rfl : k' = k := hc
      rw [Command.apply, Store.put_self, Option.some.injEq] at he
      exact ⟨log, o, [], rfl, by rw [ho, ← he], by simp⟩
    | erase p =>
      have hp : p k = true := hc
      simp [Command.apply, Store.erase, hp] at he
  · refine h.keep ?_ fun c' hc' => by
      obtain rfl := Option.some.inj (ho.symm.trans hc')
      exact hc
    cases c with
    | put k' e' =>
      have hne : k ≠ k' := fun hk => hc hk.symm
      rwa [Command.apply, Store.put_of_ne hne] at he
    | erase p =>
      have hp : ¬ p k = true := hc
      simpa [Command.apply, Store.erase, hp] using he

end Commands

/-! ### Windows -/

/-- The elements of `l` later than `a` and not later than `b`. -/
def within (a b : ℤ) (l : List ℤ) : List ℤ := l.filter fun t => decide (a < t ∧ t ≤ b)

/-- Each instant of the log sees at most `L` of the log up to it that are less than `w` older. -/
def Counted (w : ℤ) (L : ℕ) (l : List ℤ) : Prop :=
  ∀ pre t, pre ++ [t] <+: l → ((pre ++ [t]).filter fun x => decide (t - w < x)).length ≤ L

theorem counted_nil {w : ℤ} {L : ℕ} : Counted w L [] := by
  intro pre t hp
  simp at hp

theorem Counted.concat {w : ℤ} {L : ℕ} {l : List ℤ} {t : ℤ} (h : Counted w L l)
    (ht : ((l ++ [t]).filter fun x => decide (t - w < x)).length ≤ L) : Counted w L (l ++ [t]) := by
  intro pre t' hp
  rcases List.prefix_concat_iff.mp hp with heq | hp
  · obtain ⟨rfl, hx⟩ := List.append_inj' heq rfl
    cases hx
    exact ht
  · exact h pre t' hp

/-- **Every window.** Counting back from each instant of the log is enough. -/
theorem window_le {w : ℤ} {L : ℕ} {l : List ℤ} (h : Counted w L l) (a : ℤ) :
    (within a (a + w) l).length ≤ L := by
  induction l using List.reverseRecOn with
  | nil => simp [within]
  | append_singleton l t ih =>
    by_cases ht : a < t ∧ t ≤ a + w
    -- what else the window has is less than `w` older than its last instant
    · have hsub : ∀ x, decide (a < x ∧ x ≤ a + w) = true → decide (t - w < x) = true := by
        intro x hx
        simp only [decide_eq_true_eq] at hx ⊢
        omega
      have hlen := (List.monotone_filter_right (l ++ [t]) hsub).length_le
      exact Nat.le_trans hlen (h l t (List.prefix_refl _))
    · have ihl := ih fun pre t' hp => h pre t' (hp.trans (List.prefix_append l [t]))
      have hnil : within a (a + w) [t] = [] := by simp [within, ht]
      unfold within at ihl hnil ⊢
      rw [List.filter_append, hnil, List.append_nil]
      exact ihl

end Expiring
