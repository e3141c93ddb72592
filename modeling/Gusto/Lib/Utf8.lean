import Mathlib.Data.List.Basic

/-!
# UTF-8

* `encode`: the bytes of some characters;
* `decode` and `decodeLossy`: the characters of some bytes, where ill-formed ones are refused or read as
  U+FFFD;
* `decode_encode`, `decodeLossy_encode`: what was encoded is read again;
* `mem_encode_iff`, `isPrefix_of_encode`: single bytes, and what encoded texts begin with.
-/

set_option autoImplicit false

namespace Utf8

def encode (cs : List Char) : List UInt8 := cs.flatMap String.utf8EncodeChar

/-- The character that the bytes begin with. -/
def first (bs : List UInt8) : Option Char := bs.toByteArray.utf8DecodeChar? 0

/-- How many bytes follow the first one of a character, and the range of the second. -/
def lead (b : UInt8) : Option (ℕ × UInt8 × UInt8) :=
  if 0xC2 ≤ b ∧ b ≤ 0xDF then some (1, 0x80, 0xBF)
  else if b = 0xE0 then some (2, 0xA0, 0xBF)
  else if b = 0xED then some (2, 0x80, 0x9F)
  else if 0xE1 ≤ b ∧ b ≤ 0xEF then some (2, 0x80, 0xBF)
  else if b = 0xF0 then some (3, 0x90, 0xBF)
  else if b = 0xF4 then some (3, 0x80, 0x8F)
  else if 0xF1 ≤ b ∧ b ≤ 0xF3 then some (3, 0x80, 0xBF)
  else none

/-- How much of a character that is cut short the bytes begin with; one byte, if it is no part of any. -/
def cutShort : List UInt8 → ℕ
  | b :: b' :: bs =>
    match lead b with
    | some (n, lo, hi) =>
      if lo ≤ b' ∧ b' ≤ hi then
        2 + ((bs.take (n - 1)).takeWhile fun c => decide (0x80 ≤ c ∧ c ≤ 0xBF)).length
      else 1
    | none => 1
  | _ => 1

/-- The characters of the first `fuel` parts of the bytes, none for each ill-formed part. -/
def scan : ℕ → List UInt8 → List (Option Char)
  | 0, _ => []
  | _ + 1, [] => []
  | fuel + 1, bs =>
    match first bs with
    | some c => some c :: scan fuel (bs.drop c.utf8Size)
    | none => none :: scan fuel (bs.drop (cutShort bs))

/-- The characters of some bytes, if they are well-formed. -/
def decode (bs : List UInt8) : Option (List Char) := (scan bs.length bs).mapM id

/-- The characters of some bytes, U+FFFD for each ill-formed part. -/
def decodeLossy (bs : List UInt8) : List Char := (scan bs.length bs).map (·.getD '\uFFFD')

example : decode [0x68, 0xC3, 0xA9] = some ['h', 'é'] := by decide +kernel
example : decodeLossy [0xE2, 0x82, 0x41, 0xFF] = ['\uFFFD', 'A', '\uFFFD'] := by decide +kernel

section

variable {c : Char} {cs cs' : List Char} {bs : List UInt8} {b : UInt8}

@[simp] theorem encode_nil : encode [] = [] := rfl

theorem encode_cons : encode (c :: cs) = String.utf8EncodeChar c ++ encode cs := rfl

@[simp] theorem encode_append : encode (cs ++ cs') = encode cs ++ encode cs' := List.flatMap_append

theorem first_encode_cons : first (encode (c :: cs)) = some c := by
  rw [first, encode_cons, List.toByteArray_append]
  exact ByteArray.utf8DecodeChar?_utf8EncodeChar_append

theorem scan_encode {fuel : ℕ} (h : (encode cs).length ≤ fuel) :
    scan fuel (encode cs) = cs.map some := by
  induction cs generalizing fuel with
  | nil => cases fuel <;> rfl
  | cons c cs ih =>
    have hfirst : first (encode (c :: cs)) = some c := first_encode_cons
    have hlen : (String.utf8EncodeChar c).length = c.utf8Size := String.length_utf8EncodeChar c
    have hpos := c.utf8Size_pos
    rw [encode_cons] at h hfirst ⊢
    rw [List.length_append, hlen] at h
    obtain ⟨fuel, rfl⟩ : ∃ n, fuel = n + 1 := ⟨fuel - 1, by omega⟩
    have hstep : scan (fuel + 1) (String.utf8EncodeChar c ++ encode cs) =
        some c :: scan fuel ((String.utf8EncodeChar c ++ encode cs).drop c.utf8Size) := by
      cases hbs : String.utf8EncodeChar c ++ encode cs with
      | nil => exact absurd (List.append_eq_nil_iff.mp hbs).1 String.utf8EncodeChar_ne_nil
      | cons b bs =>
        rw [hbs] at hfirst
        rw [scan, hfirst]
        exact List.cons_ne_nil b bs
    rw [hstep, ← hlen, List.drop_left, List.map_cons, ih (by omega)]

/-- **What was encoded is read again.** -/
theorem decode_encode : decode (encode cs) = some cs := by
  rw [decode, scan_encode (Nat.le_refl _)]
  induction cs with
  | nil => rfl
  | cons c cs ih => simp [ih]

theorem decodeLossy_encode : decodeLossy (encode cs) = cs := by
  rw [decodeLossy, scan_encode (Nat.le_refl _), List.map_map]
  exact List.map_id' cs

/-! ### Single bytes, and prefixes -/

/-- A byte below 128 is a character. -/
theorem mem_utf8EncodeChar_iff (hb : b.toNat < 128) :
    b ∈ String.utf8EncodeChar c ↔ c.toNat = b.toNat := by
  have hbyte : ∀ n, b = UInt8.ofNat n ↔ b.toNat = n % 256 := fun n => by
    rw [← UInt8.toNat_inj, UInt8.toNat_ofNat']
  have hval : c.val.toNat = c.toNat := rfl
  unfold String.utf8EncodeChar
  simp only [hval]
  split
  · rw [List.mem_singleton, hbyte]
    omega
  · split
    · simp only [List.mem_cons, List.not_mem_nil, or_false, hbyte]
      omega
    · split
      · simp only [List.mem_cons, List.not_mem_nil, or_false, hbyte]
        omega
      · simp only [List.mem_cons, List.not_mem_nil, or_false, hbyte]
        omega

theorem mem_encode_iff (hb : b.toNat < 128) : b ∈ encode cs ↔ ∃ c ∈ cs, c.toNat = b.toNat := by
  rw [encode, List.mem_flatMap]
  exact exists_congr fun c => and_congr_right fun _ => mem_utf8EncodeChar_iff hb

/-- Texts begin with what their bytes begin with. -/
theorem isPrefix_of_encode (h : encode cs ++ bs = encode cs') : cs <+: cs' := by
  refine List.isPrefix_of_utf8Encode_append_eq_utf8Encode bs.toByteArray ?_
  rw [List.utf8Encode, List.utf8Encode, ← List.toByteArray_append]
  exact congrArg List.toByteArray h

end

end Utf8
