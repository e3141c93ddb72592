import Gusto.Lib.Utf8
import Mathlib.Data.List.Infix

/-!
# The patterns of Redis

Bytes are matched against `*`, `?`, `[..]` and the bytes that stand for themselves, `\` before the others.

* `tokens`: the parts of a pattern; `stringmatch`: whether a text matches one;
* `stringmatch_append`: a pattern and a text that begin alike, without any of the four characters;
* `stringmatch_prefix`: such a pattern with a star at its end asks for a prefix.
-/

set_option autoImplicit false

namespace Glob

open Utf8

/-- A part of a pattern; a set of bytes is a list of ranges. -/
inductive Token
  | star
  | any
  | lit (b : UInt8)
  | set (negated : Bool) (ranges : List (UInt8 × UInt8))

/-- The byte of an ASCII character. -/
def byte (c : Char) : UInt8 := UInt8.ofNat c.toNat

/-- The ranges that stand before the `]` of a set, and what follows it; a set that is not closed goes on
to the end of the pattern. -/
def ranges : List UInt8 → List (UInt8 × UInt8) × List UInt8
  | [] => ([], [])
  | [b] => if b = byte ']' then ([], []) else ([(b, b)], [])
  | [b, c] =>
    if b = byte '\\' then ([(c, c)], [])
    else if b = byte ']' then ([], [c])
    else ((b, b) :: (ranges [c]).1, (ranges [c]).2)
  | b :: c :: d :: p =>
    if b = byte '\\' then ((c, c) :: (ranges (d :: p)).1, (ranges (d :: p)).2)
    else if b = byte ']' then ([], c :: d :: p)
    else if c = byte '-' then ((min b d, max b d) :: (ranges p).1, (ranges p).2)
    else ((b, b) :: (ranges (c :: d :: p)).1, (ranges (c :: d :: p)).2)

/-- The first `fuel` parts of a pattern. -/
def parse : ℕ → List UInt8 → List Token
  | 0, _ => []
  | _ + 1, [] => []
  | fuel + 1, b :: p =>
    if b = byte '*' then .star :: parse fuel p
    else if b = byte '?' then .any :: parse fuel p
    else if b = byte '[' then
      let negated := p.head? = some (byte '^')
      let p := if negated then p.tail else p
      .set negated (ranges p).1 :: parse fuel (ranges p).2
    else if b = byte '\\' then .lit (p.headD b) :: parse fuel p.tail
    else .lit b :: parse fuel p

def tokens (p : List UInt8) : List Token := parse p.length p

/-- Whether a part stands for a byte. -/
def Token.accepts : Token → UInt8 → Bool
  | .star, _ => true
  | .any, _ => true
  | .lit b, c => b = c
  | .set negated ranges, c => negated ^^ ranges.any fun r => decide (r.1 ≤ c ∧ c ≤ r.2)

def Token.matches : List Token → List UInt8 → Bool
  | [], bs => bs.isEmpty
  | .star :: ts, bs => bs.tails.any (Token.matches ts)
  | _ :: _, [] => false
  | t :: ts, b :: bs => t.accepts b && Token.matches ts bs

/-- `stringmatch` of Redis, which matches the bytes of a text. -/
def stringmatch (pattern text : String) : Bool :=
  Token.matches (tokens (encode pattern.toList)) (encode text.toList)

example : stringmatch "h[^a-c]l\\?*" "hel?o" = true := by decide +kernel
example : stringmatch "h[^a-c]l\\?*" "hallo" = false := by decide +kernel

/-- The characters that do not stand for themselves. -/
def special : List Char := ['*', '?', '[', '\\']

/-- A text without any of them. -/
def Plain (text : String) : Prop := ∀ c ∈ special, c ∉ text.toList

instance (text : String) : Decidable (Plain text) :=
  List.decidableBAll (fun c => c ∉ text.toList) special

section

variable {l p bs : List UInt8} {ts : List Token}

theorem parse_plain_append (h : ∀ c ∈ special, byte c ∉ l) (fuel : ℕ) :
    parse (l.length + fuel) (l ++ p) = l.map .lit ++ parse fuel p := by
  induction l with
  | nil => simp
  | cons b l ih =>
    have hne : ∀ c ∈ special, b ≠ byte c := fun c hc hb => h c hc (hb ▸ List.mem_cons_self)
    have hrest := ih fun c hc hmem => h c hc (List.mem_cons_of_mem b hmem)
    rw [List.length_cons, Nat.add_right_comm, List.cons_append, parse, if_neg (hne '*' (by decide)),
      if_neg (hne '?' (by decide)), if_neg (hne '[' (by decide)), if_neg (hne '\\' (by decide)), hrest]
    rfl

theorem matches_lits_append : Token.matches (l.map .lit ++ ts) bs = true ↔
    ∃ bs', bs = l ++ bs' ∧ Token.matches ts bs' = true := by
  induction l generalizing bs with
  | nil => simp
  | cons b l ih =>
    cases bs with
    | nil => simp [Token.matches]
    | cons b' bs =>
      simp only [List.map_cons, List.cons_append, Token.matches, Token.accepts, Bool.and_eq_true,
        decide_eq_true_eq, ih, List.cons.injEq]
      constructor
      · rintro ⟨rfl, bs', rfl, hmatch⟩
        exact ⟨bs', ⟨rfl, rfl⟩, hmatch⟩
      · rintro ⟨bs', ⟨rfl, rfl⟩, hmatch⟩
        exact ⟨rfl, bs', rfl, hmatch⟩

theorem matches_star : Token.matches [.star] bs = true := by
  rw [Token.matches, List.any_eq_true]
  exact ⟨[], (List.mem_tails _ _).mpr List.nil_suffix, rfl⟩

end

section

variable {start pattern text : String}

theorem Plain.bytes (h : Plain start) : ∀ c ∈ special, byte c ∉ encode start.toList := by
  have hbyte : ∀ c ∈ special, c.toNat < 128 ∧ (byte c).toNat = c.toNat := by
    simp only [special, List.forall_mem_cons, List.not_mem_nil, false_imp_iff, implies_true, and_true]
    decide
  intro c hc hmem
  obtain ⟨hlt, heq⟩ := hbyte c hc
  obtain ⟨c', hc', hnat⟩ := (mem_encode_iff (heq ▸ hlt)).mp hmem
  have hsame : c' = c := Char.toNat_inj.mp (hnat.trans heq)
  exact h c hc (hsame ▸ hc')

theorem Plain.append (h : Plain start) (h' : Plain text) : Plain (start ++ text) := by
  intro c hc hmem
  rw [String.toList_append, List.mem_append] at hmem
  exact hmem.elim (h c hc) (h' c hc)

/-- What matches a pattern begins as the pattern does. -/
theorem stringmatch_iff (h : Plain start) : stringmatch (start ++ pattern) text = true ↔
    ∃ bs, encode text.toList = encode start.toList ++ bs ∧
      Token.matches (tokens (encode pattern.toList)) bs = true := by
  rw [stringmatch, tokens, String.toList_append, encode_append, List.length_append,
    parse_plain_append h.bytes, matches_lits_append]
  rfl

/-- **A pattern and a text that begin alike.** -/
theorem stringmatch_append (h : Plain start) :
    stringmatch (start ++ pattern) (start ++ text) = stringmatch pattern text := by
  rw [Bool.eq_iff_iff, stringmatch_iff h, String.toList_append, encode_append]
  constructor
  · rintro ⟨bs, hbs, hmatch⟩
    rw [stringmatch, List.append_cancel_left hbs]
    exact hmatch
  · intro hmatch
    exact ⟨_, rfl, hmatch⟩

theorem isPrefix_of_stringmatch (h : Plain start) (hmatch : stringmatch (start ++ pattern) text = true) :
    start.toList <+: text.toList := by
  obtain ⟨bs, hbs, -⟩ := (stringmatch_iff h).mp hmatch
  exact isPrefix_of_encode hbs.symm

/-- **A star at the end** asks for a prefix. -/
theorem stringmatch_prefix (h : Plain start) :
    stringmatch (start ++ "*") text = true ↔ start.toList <+: text.toList := by
  refine ⟨isPrefix_of_stringmatch h, fun ⟨cs, hcs⟩ => (stringmatch_iff h).mpr ⟨encode cs, ?_, ?_⟩⟩
  · rw [← hcs, encode_append]
  · have hstar : tokens (encode "*".toList) = [.star] := by rfl
    rw [hstar]
    exact matches_star

end

end Glob
