import Mathlib.Data.List.Basic
import Mathlib.Data.Nat.Digits.Defs
import Mathlib.Tactic.IntervalCases

/-!
# JSON texts

* `Json N`: JSON values over a type of numbers; `Json.Wf`: no object has a key twice;
* `stringify`: the text of a value, with no white space; `parse`: the value of a text;
* `parse_stringify`: the round trip, for every type of numbers whose texts can be read back.

A text is read character by character, with fuel that a text of its length cannot use up.  Strings
are sequences of characters, so the escape of a lone surrogate names none and is not read.
-/

set_option autoImplicit false

/-- JSON values; the fields of an object are in their order. -/
inductive Json (N : Type) : Type
  | null
  | bool (b : Bool)
  | num (n : N)
  | str (s : String)
  | arr (items : List (Json N))
  | obj (fields : List (String × Json N))

namespace Json

variable {N : Type}

/-- No object has a key twice. -/
inductive Wf : Json N → Prop
  | null : Wf .null
  | bool (b : Bool) : Wf (.bool b)
  | num (n : N) : Wf (.num n)
  | str (s : String) : Wf (.str s)
  | arr {items : List (Json N)} (h : ∀ v ∈ items, Wf v) : Wf (.arr items)
  | obj {fields : List (String × Json N)} (hkeys : (fields.map Prod.fst).Nodup)
      (h : ∀ f ∈ fields, Wf f.2) : Wf (.obj fields)

/-- The value of a key; `undefined` is `none`. -/
def get (v : Json N) (key : String) : Option (Json N) :=
  match v with
  | .obj fields => fields.lookup key
  | _ => none

/-- The fields once a key has been set: a key that is there keeps its place. -/
def setField (fields : List (String × Json N)) (f : String × Json N) : List (String × Json N) :=
  if f.1 ∈ fields.map Prod.fst then fields.map fun g => if g.1 = f.1 then f else g else fields ++ [f]

/-! ### Texts -/

/-- The characters that the text of a number is made of. -/
def isNumChar (c : Char) : Bool := c.isDigit || c = '-' || c = '+' || c = '.' || c = 'e' || c = 'E'

/-- How numbers are written and read. -/
structure NumberFormat (N : Type) where
  print : N → List Char
  read : List Char → Option N
  print_ne_nil (n : N) : print n ≠ []
  isNumChar_of_mem (n : N) : ∀ c ∈ print n, isNumChar c
  read_print (n : N) : read (print n) = some n

/-- A character within a string. -/
def escape (c : Char) : List Char :=
  if c = '"' then ['\\', '"']
  else if c = '\\' then ['\\', '\\']
  else if c.toNat = 8 then ['\\', 'b']
  else if c.toNat = 9 then ['\\', 't']
  else if c.toNat = 10 then ['\\', 'n']
  else if c.toNat = 12 then ['\\', 'f']
  else if c.toNat = 13 then ['\\', 'r']
  else if c.toNat < 32 then
    ['\\', 'u', '0', '0', Nat.digitChar (c.toNat / 16), Nat.digitChar (c.toNat % 16)]
  else [c]

def quote (s : List Char) : List Char := '"' :: s.flatMap escape ++ ['"']

variable (fmt : NumberFormat N)

mutual

/-- The text of a value. -/
def print : Json N → List Char
  | .null => ['n', 'u', 'l', 'l']
  | .bool true => ['t', 'r', 'u', 'e']
  | .bool false => ['f', 'a', 'l', 's', 'e']
  | .num n => fmt.print n
  | .str s => quote s.toList
  | .arr items => '[' :: printItems items
  | .obj fields => '{' :: printFields fields

/-- The items of an array, up to its bracket. -/
def printItems : List (Json N) → List Char
  | [] => [']']
  | [v] => print v ++ [']']
  | v :: w :: vs => print v ++ ',' :: printItems (w :: vs)

/-- The fields of an object, up to its brace. -/
def printFields : List (String × Json N) → List Char
  | [] => ['}']
  | [(key, v)] => quote key.toList ++ ':' :: print v ++ ['}']
  | (key, v) :: f :: fs => quote key.toList ++ ':' :: print v ++ ',' :: printFields (f :: fs)

end

/-- `JSON.stringify`. -/
def stringify (v : Json N) : String := String.ofList (print fmt v)

/-! ### Reading -/

def isSpace (c : Char) : Bool := c = ' ' || c.toNat = 9 || c.toNat = 10 || c.toNat = 13

def skipSpace (cs : List Char) : List Char := cs.dropWhile isSpace

def hexVal (c : Char) : Option Nat :=
  if 48 ≤ c.toNat ∧ c.toNat ≤ 57 then some (c.toNat - 48)
  else if 97 ≤ c.toNat ∧ c.toNat ≤ 102 then some (c.toNat - 87)
  else if 65 ≤ c.toNat ∧ c.toNat ≤ 70 then some (c.toNat - 55)
  else none

/-- The four digits of a code unit. -/
def scanUnit : List Char → Option (Nat × List Char)
  | a :: b :: c :: d :: cs => do
    let a ← hexVal a
    let b ← hexVal b
    let c ← hexVal c
    let d ← hexVal d
    return (((a * 16 + b) * 16 + c) * 16 + d, cs)
  | _ => none

/-- The character of one code unit, or of two that are a surrogate pair. -/
def scanUnicode (cs : List Char) : Option (Char × List Char) := do
  let (u, cs) ← scanUnit cs
  if u < 0xD800 ∨ 0xDFFF < u then return (Char.ofNat u, cs)
  else if 0xDC00 ≤ u then none
  else match cs with
    | '\\' :: 'u' :: cs => do
      let (w, cs) ← scanUnit cs
      if 0xDC00 ≤ w ∧ w ≤ 0xDFFF then
        return (Char.ofNat (0x10000 + (u - 0xD800) * 0x400 + (w - 0xDC00)), cs)
      else none
    | _ => none

def scanEscape : List Char → Option (Char × List Char)
  | '"' :: cs => some ('"', cs)
  | '\\' :: cs => some ('\\', cs)
  | '/' :: cs => some ('/', cs)
  | 'b' :: cs => some (Char.ofNat 8, cs)
  | 't' :: cs => some (Char.ofNat 9, cs)
  | 'n' :: cs => some (Char.ofNat 10, cs)
  | 'f' :: cs => some (Char.ofNat 12, cs)
  | 'r' :: cs => some (Char.ofNat 13, cs)
  | 'u' :: cs => scanUnicode cs
  | _ => none

/-- One character within a string. -/
def scanChar : List Char → Option (Char × List Char)
  | [] => none
  | c :: cs => if c = '\\' then scanEscape cs else if c.toNat < 32 then none else some (c, cs)

/-- A string up to its closing quote. -/
def scanString : Nat → List Char → Option (List Char × List Char)
  | 0, _ => none
  | n + 1, cs =>
    match cs with
    | '"' :: cs => some ([], cs)
    | cs => do
      let (c, cs) ← scanChar cs
      let (s, cs) ← scanString n cs
      return (c :: s, cs)

def scanWord (word : List Char) (v : Json N) (cs : List Char) : Option (Json N × List Char) :=
  if word <+: cs then some (v, cs.drop word.length) else none

mutual

/-- The value at the start of a text, and the rest of the text. -/
def scanValue : Nat → List Char → Option (Json N × List Char)
  | 0, _ => none
  | n + 1, cs =>
    match skipSpace cs with
    | [] => none
    | c :: cs =>
      if c = 'n' then scanWord ['u', 'l', 'l'] .null cs
      else if c = 't' then scanWord ['r', 'u', 'e'] (.bool true) cs
      else if c = 'f' then scanWord ['a', 'l', 's', 'e'] (.bool false) cs
      else if c = '"' then do
        let (s, cs) ← scanString (cs.length + 1) cs
        return (.str (String.ofList s), cs)
      else if c = '[' then
        match skipSpace cs with
        | ']' :: cs => some (.arr [], cs)
        | cs => do
          let (items, cs) ← scanItems n cs
          return (.arr items, cs)
      else if c = '{' then
        match skipSpace cs with
        | '}' :: cs => some (.obj [], cs)
        | cs => do
          let (fields, cs) ← scanFields n cs
          return (.obj (fields.foldl setField []), cs)
      else do
        let x ← fmt.read ((c :: cs).takeWhile isNumChar)
        return (.num x, (c :: cs).dropWhile isNumChar)

/-- The items of an array, up to its bracket. -/
def scanItems : Nat → List Char → Option (List (Json N) × List Char)
  | 0, _ => none
  | n + 1, cs => do
    let (v, cs) ← scanValue n cs
    match skipSpace cs with
    | ']' :: cs => return ([v], cs)
    | ',' :: cs => do
      let (vs, cs) ← scanItems n cs
      return (v :: vs, cs)
    | _ => none

/-- The fields of an object, up to its brace. -/
def scanFields : Nat → List Char → Option (List (String × Json N) × List Char)
  | 0, _ => none
  | n + 1, cs =>
    match skipSpace cs with
    | '"' :: cs => do
      let (key, cs) ← scanString (cs.length + 1) cs
      match skipSpace cs with
      | ':' :: cs => do
        let (v, cs) ← scanValue n cs
        match skipSpace cs with
        | '}' :: cs => return ([(String.ofList key, v)], cs)
        | ',' :: cs => do
          let (fs, cs) ← scanFields n cs
          return ((String.ofList key, v) :: fs, cs)
        | _ => none
      | _ => none
    | _ => none

end

/-- `JSON.parse`; a text that is no JSON text is `none`. -/
def parse (text : String) : Option (Json N) := do
  let (v, cs) ← scanValue fmt (text.toList.length + 1) text.toList
  if skipSpace cs = [] then return v else none

/-! ### Strings are read back -/

theorem ofNat_of_toNat {c : Char} {n : Nat} (h : c.toNat = n) : Char.ofNat n = c := by
  rw [← h, Char.ofNat_toNat]

theorem scanUnit_digits {n : Nat} (h : n < 32) (cs : List Char) :
    scanUnit ('0' :: '0' :: Nat.digitChar (n / 16) :: Nat.digitChar (n % 16) :: cs) =
      some (n, cs) := by
  interval_cases n <;> rfl

theorem scanChar_escape (c : Char) (cs : List Char) : scanChar (escape c ++ cs) = some (c, cs) := by
  unfold escape
  split_ifs with h1 h2 h3 h4 h5 h6 h7 h8
  · subst h1; rfl
  · subst h2; rfl
  · rw [← ofNat_of_toNat h3]; rfl
  · rw [← ofNat_of_toNat h4]; rfl
  · rw [← ofNat_of_toNat h5]; rfl
  · rw [← ofNat_of_toNat h6]; rfl
  · rw [← ofNat_of_toNat h7]; rfl
  · have hu : scanUnicode ('0' :: '0' :: Nat.digitChar (c.toNat / 16) ::
        Nat.digitChar (c.toNat % 16) :: cs) = some (c, cs) := by
      unfold scanUnicode
      rw [scanUnit_digits h8]
      simp only [Option.bind_eq_bind, Option.bind_some]
      rw [if_pos (Or.inl (by omega)), Char.ofNat_toNat]
      rfl
    exact hu
  · simp [scanChar, h2, h8]

theorem escape_eq_cons (c : Char) : ∃ d ds, escape c = d :: ds ∧ d ≠ '"' := by
  unfold escape
  split_ifs with h1
  all_goals first | exact ⟨_, _, rfl, by decide⟩ | exact ⟨_, _, rfl, h1⟩

theorem scanString_escape {n : Nat} (c : Char) (cs : List Char) :
    scanString (n + 1) (escape c ++ cs) =
      (scanString n cs).map fun r => (c :: r.1, r.2) := by
  obtain ⟨d, ds, hd, hq⟩ := escape_eq_cons c
  have h := scanChar_escape c cs
  rw [hd, List.cons_append] at h ⊢
  rw [scanString.eq_3]
  · rw [h]
    simp only [Option.bind_eq_bind, Option.bind_some]
    cases scanString n cs <;> rfl
  · intro ds' h'
    exact hq (List.cons.inj h').1

/-- A string is read up to its closing quote. -/
theorem scanString_quote {n : Nat} {s : List Char} (h : s.length < n) (cs : List Char) :
    scanString n (s.flatMap escape ++ '"' :: cs) = some (s, cs) := by
  induction s generalizing n with
  | nil =>
    obtain ⟨m, rfl⟩ := Nat.exists_eq_succ_of_ne_zero (Nat.ne_of_gt h)
    rfl
  | cons c s ih =>
    obtain ⟨m, rfl⟩ := Nat.exists_eq_succ_of_ne_zero (Nat.ne_of_gt (Nat.zero_lt_of_lt h))
    rw [List.flatMap_cons, List.append_assoc, scanString_escape, ih (by simpa using h)]
    rfl

theorem length_le_flatMap_escape (s : List Char) : s.length ≤ (s.flatMap escape).length := by
  induction s with
  | nil => simp
  | cons c s ih =>
    obtain ⟨d, ds, hd, -⟩ := escape_eq_cons c
    rw [List.flatMap_cons, List.length_append, hd]
    simp only [List.length_cons]
    omega

/-- A string is read with the fuel that the rest of its text gives. -/
theorem scanString_self (s cs : List Char) :
    scanString ((s.flatMap escape ++ '"' :: cs).length + 1) (s.flatMap escape ++ '"' :: cs) =
      some (s, cs) := by
  refine scanString_quote ?_ cs
  have := length_le_flatMap_escape s
  simp only [List.length_append, List.length_cons]
  omega

/-! ### Fields are read back -/

theorem foldl_setField {acc fs : List (String × Json N)}
    (h : ((acc ++ fs).map Prod.fst).Nodup) : fs.foldl setField acc = acc ++ fs := by
  induction fs generalizing acc with
  | nil => simp
  | cons f fs ih =>
    have hf : setField acc f = acc ++ [f] := by
      refine if_neg fun hmem => ?_
      rw [List.map_append, List.map_cons, List.nodup_append] at h
      exact h.2.2 _ hmem _ (by simp) rfl
    rw [List.foldl_cons, hf, ih (by simpa using h), List.append_assoc]
    rfl

/-! ### Values are read back -/

theorem skipSpace_cons {c : Char} (h : isSpace c = false) (cs : List Char) :
    skipSpace (c :: cs) = c :: cs := by
  simp [skipSpace, h]

theorem isNumChar_ne {c : Char} (h : isNumChar c = true) :
    c ≠ 'n' ∧ c ≠ 't' ∧ c ≠ 'f' ∧ c ≠ '"' ∧ c ≠ '[' ∧ c ≠ '{' ∧ c ≠ ']' := by
  refine ⟨?_, ?_, ?_, ?_, ?_, ?_, ?_⟩ <;> (rintro rfl; exact absurd h (by decide))

theorem not_isSpace_of_isNumChar {c : Char} (h : isNumChar c = true) : isSpace c = false := by
  by_contra hs
  have hs : isSpace c = true := by simpa using hs
  simp only [isSpace, Bool.or_eq_true, decide_eq_true_eq] at hs
  rcases hs with ((rfl | hs) | hs) | hs
  · exact absurd h (by decide)
  · rw [← ofNat_of_toNat hs] at h; exact absurd h (by decide)
  · rw [← ofNat_of_toNat hs] at h; exact absurd h (by decide)
  · rw [← ofNat_of_toNat hs] at h; exact absurd h (by decide)

/-- The text of a value starts with a character of its own. -/
theorem print_eq_cons (v : Json N) :
    ∃ c cs, print fmt v = c :: cs ∧ isSpace c = false ∧ c ≠ ']' := by
  cases v with
  | null => exact ⟨_, _, rfl, by decide, by decide⟩
  | bool b => cases b <;> exact ⟨_, _, rfl, by decide, by decide⟩
  | num n =>
    obtain ⟨c, cs, hc⟩ := List.exists_cons_of_ne_nil (fmt.print_ne_nil n)
    have hnum : isNumChar c = true := fmt.isNumChar_of_mem n c (by rw [hc]; simp)
    exact ⟨c, cs, hc, not_isSpace_of_isNumChar hnum, (isNumChar_ne hnum).2.2.2.2.2.2⟩
  | str s => exact ⟨_, _, rfl, by decide, by decide⟩
  | arr items => exact ⟨_, _, rfl, by decide, by decide⟩
  | obj fields => exact ⟨_, _, rfl, by decide, by decide⟩

/-- The text that follows a value does not go on with a number. -/
def Stops (cs : List Char) : Prop := ∀ c ∈ cs.head?, isNumChar c = false

theorem stops_nil : Stops [] := by simp [Stops]

theorem stops_cons {c : Char} (h : isNumChar c = false) (cs : List Char) : Stops (c :: cs) := by
  simpa [Stops] using h

theorem takeWhile_isNumChar {ds cs : List Char} (hd : ∀ c ∈ ds, isNumChar c) (hs : Stops cs) :
    (ds ++ cs).takeWhile isNumChar = ds ∧ (ds ++ cs).dropWhile isNumChar = cs := by
  induction ds with
  | nil =>
    cases cs with
    | nil => exact ⟨rfl, rfl⟩
    | cons c cs =>
      have hc : isNumChar c = false := hs c rfl
      simp [hc]
  | cons d ds ih =>
    have hd' : isNumChar d = true := hd d (by simp)
    simpa [hd'] using ih fun c hc => hd c (by simp [hc])

/-- With the fuel `n`, what has been written in `n` characters is read back. -/
structure ReadsBack (n : Nat) : Prop where
  value {v : Json N} (hv : v.Wf) (hn : (print fmt v).length ≤ n) {cs : List Char} (hs : Stops cs) :
    scanValue fmt n (print fmt v ++ cs) = some (v, cs)
  items {v : Json N} {vs : List (Json N)} (hv : ∀ w ∈ v :: vs, w.Wf)
    (hn : (printItems fmt (v :: vs)).length ≤ n) (cs : List Char) :
    scanItems fmt n (printItems fmt (v :: vs) ++ cs) = some (v :: vs, cs)
  fields {f : String × Json N} {fs : List (String × Json N)} (hf : ∀ g ∈ f :: fs, g.2.Wf)
    (hn : (printFields fmt (f :: fs)).length ≤ n) (cs : List Char) :
    scanFields fmt n (printFields fmt (f :: fs) ++ cs) = some (f :: fs, cs)

variable {fmt}

theorem scanValue_num {n : Nat} {x : N} {cs : List Char} (hs : Stops cs) :
    scanValue fmt (n + 1) (fmt.print x ++ cs) = some (.num x, cs) := by
  obtain ⟨c, ds, hc⟩ := List.exists_cons_of_ne_nil (fmt.print_ne_nil x)
  have hnum : isNumChar c = true := fmt.isNumChar_of_mem x c (by rw [hc]; simp)
  obtain ⟨h1, h2, h3, h4, h5, h6, -⟩ := isNumChar_ne hnum
  have hsplit := takeWhile_isNumChar (fmt.isNumChar_of_mem x) hs
  rw [hc, List.cons_append] at hsplit ⊢
  simp only [scanValue, skipSpace_cons (not_isSpace_of_isNumChar hnum), h1, h2, h3, h4, h5, h6,
    if_false, hsplit.1, hsplit.2]
  rw [← hc, fmt.read_print]
  rfl

theorem scanValue_str {n : Nat} (s : String) (cs : List Char) :
    scanValue fmt (n + 1) (quote s.toList ++ cs) = some (.str s, cs) := by
  have h := scanString_self s.toList cs
  have e : quote s.toList ++ cs = '"' :: (s.toList.flatMap escape ++ '"' :: cs) := by
    simp [quote]
  rw [e]
  simp only [scanValue, skipSpace_cons (by decide : isSpace '"' = false), Char.reduceEq, if_false,
    if_true, h]
  simp

theorem scanValue_arr {n : Nat} (hn : ReadsBack fmt n) {items : List (Json N)}
    (hv : ∀ w ∈ items, w.Wf) (hlen : (printItems fmt items).length ≤ n) (cs : List Char) :
    scanValue fmt (n + 1) ('[' :: (printItems fmt items ++ cs)) = some (.arr items, cs) := by
  cases items with
  | nil => rfl
  | cons v vs =>
    have h := hn.items hv hlen cs
    obtain ⟨c, ds, hc, hsp, hb⟩ := print_eq_cons fmt v
    have hcons : ∃ es, printItems fmt (v :: vs) ++ cs = c :: es := by
      cases vs with
      | nil => exact ⟨_, by rw [printItems, hc]; rfl⟩
      | cons w ws => exact ⟨_, by rw [printItems, hc]; rfl⟩
    obtain ⟨es, hes⟩ := hcons
    rw [hes] at h ⊢
    simp only [scanValue, skipSpace_cons (by decide : isSpace '[' = false), skipSpace_cons hsp,
      Char.reduceEq, if_false, if_true]
    split
    · rename_i heq
      exact absurd (List.cons.inj heq).1 hb
    · rw [h]; rfl

theorem printFields_eq_cons (f : String × Json N) (fs : List (String × Json N)) :
    ∃ ds, printFields fmt (f :: fs) = '"' :: ds := by
  cases fs with
  | nil => exact ⟨_, rfl⟩
  | cons g gs => exact ⟨_, rfl⟩

theorem scanValue_obj {n : Nat} (hn : ReadsBack fmt n) {fields : List (String × Json N)}
    (hkeys : (fields.map Prod.fst).Nodup) (hf : ∀ g ∈ fields, g.2.Wf)
    (hlen : (printFields fmt fields).length ≤ n) (cs : List Char) :
    scanValue fmt (n + 1) ('{' :: (printFields fmt fields ++ cs)) = some (.obj fields, cs) := by
  cases fields with
  | nil => rfl
  | cons f fs =>
    have h := hn.fields hf hlen cs
    obtain ⟨ds, hds⟩ : ∃ ds, printFields fmt (f :: fs) = '"' :: ds := printFields_eq_cons f fs
    rw [hds, List.cons_append] at h ⊢
    simp only [scanValue, skipSpace_cons (by decide : isSpace '{' = false),
      skipSpace_cons (by decide : isSpace '"' = false), Char.reduceEq, if_false, if_true]
    have hset : (f :: fs).foldl setField [] = f :: fs := foldl_setField (by simpa using hkeys)
    split
    · rename_i heq
      exact absurd (List.cons.inj heq).1 (by decide)
    · rw [h]
      simp only [Option.bind_eq_bind, Option.bind_some, hset]
      rfl

theorem scanItems_succ {n : Nat} (hn : ReadsBack fmt n) {v : Json N} {vs : List (Json N)}
    (hv : ∀ w ∈ v :: vs, w.Wf) (hlen : (printItems fmt (v :: vs)).length ≤ n + 1)
    (cs : List Char) :
    scanItems fmt (n + 1) (printItems fmt (v :: vs) ++ cs) = some (v :: vs, cs) := by
  cases vs with
  | nil =>
    rw [printItems, List.length_append, List.length_singleton] at hlen
    have h := hn.value (hv v (by simp)) (by omega) (stops_cons (by decide : isNumChar ']' = false) cs)
    rw [printItems, List.append_assoc, List.singleton_append, scanItems, h]
    rfl
  | cons w ws =>
    rw [printItems, List.length_append, List.length_cons] at hlen
    have h := hn.value (hv v (by simp)) (by omega)
      (stops_cons (by decide : isNumChar ',' = false) (printItems fmt (w :: ws) ++ cs))
    have hrest := hn.items (fun u hu => hv u (List.mem_cons_of_mem _ hu)) (by omega) cs
    rw [printItems, List.append_assoc, List.cons_append, scanItems, h]
    simp only [Option.bind_eq_bind, Option.bind_some,
      skipSpace_cons (by decide : isSpace ',' = false), hrest]
    rfl

theorem scanFields_succ {n : Nat} (hn : ReadsBack fmt n) {f : String × Json N}
    {fs : List (String × Json N)} (hf : ∀ g ∈ f :: fs, g.2.Wf)
    (hlen : (printFields fmt (f :: fs)).length ≤ n + 1) (cs : List Char) :
    scanFields fmt (n + 1) (printFields fmt (f :: fs) ++ cs) = some (f :: fs, cs) := by
  obtain ⟨key, v⟩ := f
  have hkey : ∀ ds : List Char, quote key.toList ++ ds =
      '"' :: (key.toList.flatMap escape ++ '"' :: ds) := fun ds => by simp [quote]
  cases fs with
  | nil =>
    rw [printFields, List.length_append, List.length_cons, List.length_append] at hlen
    have hv : v.Wf := hf (key, v) (by simp)
    have h := hn.value hv (by simp only [List.length_cons] at hlen; omega)
      (stops_cons (by decide : isNumChar '}' = false) cs)
    rw [printFields, List.append_assoc, hkey]
    simp only [List.cons_append, List.append_assoc, List.nil_append] at h ⊢
    simp only [scanFields, skipSpace_cons (by decide : isSpace '"' = false), scanString_self,
      skipSpace_cons (by decide : isSpace ':' = false), h, Option.bind_eq_bind, Option.bind_some,
      skipSpace_cons (by decide : isSpace '}' = false)]
    simp
  | cons g gs =>
    rw [printFields, List.length_append, List.length_cons, List.length_append,
      List.length_cons] at hlen
    have hv : v.Wf := hf (key, v) (by simp)
    have h := hn.value hv (by omega)
      (stops_cons (by decide : isNumChar ',' = false) (printFields fmt (g :: gs) ++ cs))
    have hrest := hn.fields (fun u hu => hf u (List.mem_cons_of_mem _ hu)) (by omega) cs
    rw [printFields, List.append_assoc, hkey]
    simp only [List.cons_append, List.append_assoc] at h ⊢
    simp only [scanFields, skipSpace_cons (by decide : isSpace '"' = false), scanString_self,
      skipSpace_cons (by decide : isSpace ':' = false), h, Option.bind_eq_bind, Option.bind_some,
      skipSpace_cons (by decide : isSpace ',' = false), hrest]
    simp

theorem readsBack (fmt : NumberFormat N) (n : Nat) : ReadsBack fmt n := by
  induction n with
  | zero =>
    refine ⟨fun {v} _ hn _ _ => ?_, fun {v vs} _ hn _ => ?_, fun {f fs} _ hn _ => ?_⟩
    · obtain ⟨c, cs, hc, -⟩ := print_eq_cons fmt v
      rw [hc] at hn
      simp at hn
    · cases vs <;> simp [printItems] at hn
    · cases fs <;> simp [printFields, quote] at hn
  | succ n ih =>
    refine ⟨fun {v} hv hn {cs} hs => ?_, fun hv hn cs => scanItems_succ ih hv hn cs,
      fun hf hn cs => scanFields_succ ih hf hn cs⟩
    cases hv with
    | null => rfl
    | bool b => cases b <;> rfl
    | num x => exact scanValue_num hs
    | str s => exact scanValue_str s cs
    | arr hv => exact scanValue_arr ih hv (by simpa [print] using hn) cs
    | obj hkeys hf => exact scanValue_obj ih hkeys hf (by simpa [print] using hn) cs

/-- **The round trip**: the text of a value is the text of no other value. -/
theorem parse_stringify {v : Json N} (hv : v.Wf) : parse fmt (stringify fmt v) = some v := by
  have h := (readsBack fmt ((print fmt v).length + 1)).value hv (by omega) stops_nil
  rw [List.append_nil] at h
  simp only [parse, stringify, String.toList_ofList, h, Option.bind_eq_bind, Option.bind_some]
  rfl

/-! ### Fields and sizes -/

theorem sizeOf_lt_of_lookup {fields : List (String × Json N)} {key : String} {v : Json N}
    (h : fields.lookup key = some v) : sizeOf v < sizeOf (Json.obj fields) := by
  have hmem : (key, v) ∈ fields := by
    induction fields with
    | nil => cases h
    | cons f fs ih =>
      obtain ⟨k, w⟩ := f
      rw [List.lookup_cons] at h
      split at h
      · rename_i hk
        rw [beq_iff_eq] at hk
        injection h with h
        rw [hk, h]
        exact List.mem_cons_self
      · exact List.mem_cons_of_mem _ (ih h)
  have hlt := List.sizeOf_lt_of_mem hmem
  simp only [Prod.mk.sizeOf_spec, obj.sizeOf_spec] at hlt ⊢
  omega

theorem get_eq_none {fields : List (String × Json N)} {key : String}
    (h : key ∉ fields.map Prod.fst) : (Json.obj fields).get key = none := by
  refine List.lookup_eq_none_iff.mpr fun f hf => ?_
  rw [bne_iff_ne]
  rintro rfl
  exact h (List.mem_map_of_mem hf)

/-! ### Integers -/

def readDigits (cs : List Char) : Option ℕ :=
  if cs ≠ [] ∧ cs.all Char.isDigit then some (Nat.ofDigitChars 10 cs 0) else none

theorem readDigits_toDigits (n : ℕ) : readDigits (Nat.toDigits 10 n) = some n := by
  have hall : (Nat.toDigits 10 n).all Char.isDigit = true := by
    rw [List.all_eq_true]
    exact fun c hc => Nat.isDigit_of_mem_toDigits (by decide) (by decide) hc
  rw [readDigits, if_pos ⟨Nat.toDigits_ne_nil, hall⟩, Nat.ofDigitChars_ten_toDigits]

theorem isNumChar_of_mem_toDigits {n : ℕ} {c : Char} (hc : c ∈ Nat.toDigits 10 n) :
    isNumChar c = true := by
  have h : c.isDigit = true := Nat.isDigit_of_mem_toDigits (by decide) (by decide) hc
  simp [isNumChar, h]

def printInt : ℤ → List Char
  | .ofNat n => Nat.toDigits 10 n
  | .negSucc n => '-' :: Nat.toDigits 10 (n + 1)

def readInt : List Char → Option ℤ
  | '-' :: cs => (readDigits cs).map fun n => -(n : ℤ)
  | cs => (readDigits cs).map fun n => (n : ℤ)

/-- Integers in decimal. -/
def integers : NumberFormat ℤ where
  print := printInt
  read := readInt
  print_ne_nil n := by
    cases n with
    | ofNat n => exact Nat.toDigits_ne_nil
    | negSucc n => simp [printInt]
  isNumChar_of_mem n c hc := by
    cases n with
    | ofNat n => exact isNumChar_of_mem_toDigits hc
    | negSucc n =>
      rcases List.mem_cons.mp hc with rfl | hc
      · decide
      · exact isNumChar_of_mem_toDigits hc
  read_print n := by
    cases n with
    | ofNat n =>
      have hd : ∀ ds, Nat.toDigits 10 n ≠ '-' :: ds := by
        intro ds h
        have hmem : '-' ∈ Nat.toDigits 10 n := by rw [h]; simp
        exact absurd (Nat.isDigit_of_mem_toDigits (by decide) (by decide) hmem) (by decide)
      rw [printInt, readInt, readDigits_toDigits]
      · rfl
      · exact hd
    | negSucc n =>
      rw [printInt, readInt, readDigits_toDigits]
      rfl

end Json
