import Gusto.Lib.Told
import Gusto.Lib.Translate

/-!
# A part of a whole

A service that is put together with others keeps the contract that it keeps by itself, as long as what the others do
is nothing to it but time that passes.

* `Part`: which calls of the whole are calls of the part, for whom its threads act, and what it sees of the state;
* `Part.history`: the calls of the part, as it would have made them by itself;
* `Part.lift`: its contract, as a contract of the whole; it is sound where the other calls do no harm;
* `Prog.Meets.lift`, `Part.Harmless.meets`: a program of the part, and one that makes no call of the part, meet it.
-/

set_option autoImplicit false

namespace Effects

variable {κ κ' ι ι' ε α α' β σ σ' χ χ' : Type} {ρ' : ι' → Type} {name : ι → ι'}

/-- How a part is found in the whole: a call `i` of it is made as `name i`. -/
structure Part (κ κ' : Type) (name : ι → ι') (exec : Handler ι (fun i => ρ' (name i)) ε σ χ)
    (exec' : Handler ι' ρ' ε σ' χ') where
  which : ι' → Option ι
  role : κ' → Option κ
  view : σ' → σ
  choose : χ' → χ
  which_eq_some : ∀ i' i, which i' = some i ↔ i' = name i
  answers : ∀ c i s, (exec' c (name i) s).1 = (exec (choose c) i (view s)).1
  leaves : ∀ c i s, view (exec' c (name i) s).2 = (exec (choose c) i (view s)).2

namespace Part

variable {exec : Handler ι (fun i => ρ' (name i)) ε σ χ} {exec' : Handler ι' ρ' ε σ' χ'} (part : Part κ κ' name exec exec')

/-- A call, as the part would have made it. -/
def note (o : Note κ' σ' ι' χ') : Option (Note κ σ ι χ) :=
  (part.role o.tag).bind fun k => (part.which o.event.call).map fun i =>
    ⟨o.tid, k, ⟨part.view o.event.pre, i, part.choose o.event.choice⟩⟩

def history (os : List (Note κ' σ' ι' χ')) : List (Note κ σ ι χ) := os.filterMap part.note

/-- The contract of the part, as one of the whole; what is asked before other calls, and what is promised at the end,
is up to the whole. -/
def lift (C : Contract κ ι ε α σ χ) (A : ℕ → κ' → ι' → List (Note κ' σ' ι' χ') → σ' → Prop)
    (Q : ℕ → κ' → Except ε α' → List (Note κ' σ' ι' χ') → σ' → Prop) : Contract κ' ι' ε α' σ' χ' where
  inv os s := C.inv (part.history os) (part.view s)
  rely s s' := C.rely (part.view s) (part.view s')
  pre tid tag i' os s :=
    match part.which i' with
    | some i => ∃ k, part.role tag = some k ∧ C.pre tid k i (part.history os) (part.view s)
    | none => A tid tag i' os s
  post := Q

variable {part} {C : Contract κ ι ε α σ χ} {A : ℕ → κ' → ι' → List (Note κ' σ' ι' χ') → σ' → Prop}
  {Q : ℕ → κ' → Except ε α' → List (Note κ' σ' ι' χ') → σ' → Prop} {tid : ℕ} {tag : κ'} {os os' : List (Note κ' σ' ι' χ')} {s : σ'}

theorem which_name (i : ι) : part.which (name i) = some i := (part.which_eq_some _ i).mpr rfl

theorem history_mono (h : os <+: os') : part.history os <+: part.history os' := h.filterMap _

theorem mem_history {o : Note κ σ ι χ} : o ∈ part.history os ↔ ∃ o' ∈ os, part.note o' = some o :=
  List.mem_filterMap

theorem note_eq_some {o' : Note κ' σ' ι' χ'} {o : Note κ σ ι χ} : part.note o' = some o ↔
    part.role o'.tag = some o.tag ∧ o'.event.call = name o.event.call ∧ o'.tid = o.tid ∧
      part.view o'.event.pre = o.event.pre ∧ part.choose o'.event.choice = o.event.choice := by
  unfold note
  rw [Option.bind_eq_some_iff]
  constructor
  · rintro ⟨k, hk, h⟩
    obtain ⟨i, hi, rfl⟩ := Option.map_eq_some_iff.mp h
    exact ⟨hk, (part.which_eq_some _ i).mp hi, rfl, rfl, rfl⟩
  · obtain ⟨tid', tag', pre', i', c'⟩ := o'
    obtain ⟨tid, k, pre, i, c⟩ := o
    rintro ⟨hk, hi, rfl, rfl, rfl⟩
    exact ⟨k, hk, Option.map_eq_some_iff.mpr ⟨i, (part.which_eq_some _ i).mpr hi, rfl⟩⟩

theorem history_concat_name {k : κ} (hk : part.role tag = some k) {i : ι} {c : χ'} :
    part.history (os ++ [⟨tid, tag, ⟨s, name i, c⟩⟩]) =
      part.history os ++ [⟨tid, k, ⟨part.view s, i, part.choose c⟩⟩] := by
  have hnote : part.note ⟨tid, tag, ⟨s, name i, c⟩⟩ = some ⟨tid, k, ⟨part.view s, i, part.choose c⟩⟩ :=
    note_eq_some.mpr ⟨hk, rfl, rfl, rfl, rfl⟩
  rw [history, List.filterMap_append, List.filterMap_cons_some hnote]
  rfl

theorem history_concat_other {i' : ι'} (h : part.which i' = none) {c : χ'} :
    part.history (os ++ [⟨tid, tag, ⟨s, i', c⟩⟩]) = part.history os := by
  have hnote : part.note ⟨tid, tag, ⟨s, i', c⟩⟩ = none := by
    cases hn : part.note ⟨tid, tag, ⟨s, i', c⟩⟩ with
    | none => rfl
    | some o =>
      obtain ⟨-, hcall, -⟩ := note_eq_some.mp hn
      cases ((part.which_eq_some _ _).mpr hcall).symm.trans h
  rw [history, List.filterMap_append, List.filterMap_cons_none hnote]
  exact List.append_nil _

variable (part C) in
/-- The call of another part is nothing to this one. -/
def Harmless : Prop :=
  ∀ os c i' s, part.which i' = none → C.inv os (part.view s) →
    C.inv os (part.view (exec' c i' s).2) ∧ C.rely (part.view s) (part.view (exec' c i' s).2)

/-- **A sound contract** is sound in the whole. -/
theorem lift_sound (hC : C.Sound exec) (hharmless : part.Harmless C) : (part.lift C A Q).Sound exec' where
  refl s := hC.refl _
  trans s s' s'' h h' := hC.trans _ _ _ h h'
  step os s tid tag i' c hinv hpre := by
    dsimp only [lift] at hpre
    cases hi : part.which i' with
    | none =>
      show C.inv (part.history _) _ ∧ _
      rw [history_concat_other hi]
      exact hharmless _ c i' s hi hinv
    | some i =>
      rw [hi] at hpre
      obtain ⟨k, hk, hcall⟩ := hpre
      obtain rfl := (part.which_eq_some i' i).mp hi
      show C.inv (part.history _) (part.view _) ∧ C.rely _ (part.view _)
      rw [history_concat_name hk, part.leaves]
      exact hC.step _ _ tid k i _ hinv hcall

end Part

section Programs

variable {exec : Handler ι (fun i => ρ' (name i)) ε σ χ} {exec' : Handler ι' ρ' ε σ' χ'} {part : Part κ κ' name exec exec'}
  {C : Contract κ ι ε α σ χ} {A : ℕ → κ' → ι' → List (Note κ' σ' ι' χ') → σ' → Prop}
  {Q : ℕ → κ' → Except ε α' → List (Note κ' σ' ι' χ') → σ' → Prop} {tid : ℕ} {tag : κ'}
  {os : List (Note κ' σ' ι' χ')} {s : σ'}

/-- **A program of the part** meets its contract in the whole. -/
theorem Prog.Meets.lift {R : ℕ → κ → Except ε β → List (Note κ σ ι χ) → σ → Prop}
    {Q' : ℕ → κ' → Except ε β → List (Note κ' σ' ι' χ') → σ' → Prop} {k : κ} (hk : part.role tag = some k)
    (hQ : ∀ r os s, R tid k r (part.history os) (part.view s) → Q' tid tag r os s)
    {p : Prog ι (fun i => ρ' (name i)) ε β}
    (hp : p.Meets (C.withPost R) exec tid k (part.history os) (part.view s)) :
    (p.translate name fun _ a => a).Meets ((part.lift C A Q).withPost Q') exec' tid tag os s := by
  induction p generalizing os s with
  | ret b => exact fun os' s' hos hs => hQ _ _ _ (hp _ _ (Part.history_mono hos) hs)
  | throw e => exact fun os' s' hos hs => hQ _ _ _ (hp _ _ (Part.history_mono hos) hs)
  | call i f ih =>
    intro os' s' hos hs hinv
    obtain ⟨hpre, hnext⟩ := hp _ _ (Part.history_mono hos) hs hinv
    refine ⟨?_, fun c => ?_⟩
    · dsimp only [Contract.withPost, Part.lift]
      rw [Part.which_name]
      exact ⟨k, hk, hpre⟩
    · have hc := hnext (part.choose c)
      rw [← part.answers, ← part.leaves, ← Part.history_concat_name hk] at hc
      have hmap : (exec' c (name i) s').1.map (fun a => a) = (exec' c (name i) s').1 := by
        cases (exec' c (name i) s').1 <;> rfl
      dsimp only
      rw [hmap]
      exact ih _ hc

/-- **A program without calls of the part**, as far as what it asks for and ends with is met later. -/
theorem Part.Harmless.meets (hharmless : part.Harmless C) (hC : C.Sound exec) {p : Prog ι' ρ' ε α'}
    (hQ : ∀ r os' s', os <+: os' → C.rely (part.view s) (part.view s') → Q tid tag r os' s')
    (hp : p.Calls fun i' _ => part.which i' = none ∧
      ∀ os' s', os <+: os' → C.rely (part.view s) (part.view s') → A tid tag i' os' s') :
    p.Meets (part.lift C A Q) exec' tid tag os s := by
  induction p generalizing os s with
  | ret a => exact fun os' s' hos hs => hQ _ _ _ hos hs
  | throw e => exact fun os' s' hos hs => hQ _ _ _ hos hs
  | call i' f ih =>
    obtain ⟨⟨hother, hasked⟩, hrest⟩ := hp
    intro os' s' hos hs hinv
    refine ⟨?_, fun c => ?_⟩
    · dsimp only [Part.lift]
      rw [hother]
      exact hasked os' s' hos hs
    · have hstep := (hharmless _ c i' s' hother hinv).2
      have hlater {os'' : List (Note κ' σ' ι' χ')} (h : os' ++ [⟨tid, tag, ⟨s', i', c⟩⟩] <+: os'') : os <+: os'' :=
        hos.trans ((List.prefix_append os' _).trans h)
      refine ih _ (fun r os'' s'' hos'' hs'' => ?_) ((hrest _).mono fun i _ h => ⟨h.1, fun os'' s'' hos'' hs'' => ?_⟩)
      · exact hQ r os'' s'' (hlater hos'') (hC.trans _ _ _ hs (hC.trans _ _ _ hstep hs''))
      · exact h.2 os'' s'' (hlater hos'') (hC.trans _ _ _ hs (hC.trans _ _ _ hstep hs''))

end Programs

end Effects
