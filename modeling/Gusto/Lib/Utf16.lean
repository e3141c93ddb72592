import Mathlib.Data.List.Basic

/-!
# UTF-16

* `encode`: the code units of some characters;
* `decodeLossy`: the characters of some code units, U+FFFD for a surrogate that stands alone;
* `decodeLossy_encode`: what was encoded is read again; `encode_decodeLossy`: what was read is written
  again, if no code unit is a surrogate.
-/

set_option autoImplicit false

namespace Utf16

def high (u : UInt16) : Prop := 0xD800 ≤ u.toNat ∧ u.toNat < 0xDC00

def low (u : UInt16) : Prop := 0xDC00 ≤ u.toNat ∧ u.toNat < 0xE000

instance : DecidablePred high := fun _ => inferInstanceAs (Decidable (_ ∧ _))

instance : DecidablePred low := fun _ => inferInstanceAs (Decidable (_ ∧ _))

def encodeChar (c : Char) : List UInt16 :=
  if c.toNat < 0x10000 then [UInt16.ofNat c.toNat]
  else
    [UInt16.ofNat (0xD800 + (c.toNat - 0x10000) / 0x400),
      UInt16.ofNat (0xDC00 + (c.toNat - 0x10000) % 0x400)]

def encode (cs : List Char) : List UInt16 := cs.flatMap encodeChar

/-- The character of a single code unit. -/
def single (u : UInt16) : Char := if high u ∨ low u then '\uFFFD' else Char.ofNat u.toNat

/-- The character of a pair of surrogates. -/
def pair (u v : UInt16) : Char :=
  Char.ofNat (0x10000 + (u.toNat - 0xD800) * 0x400 + (v.toNat - 0xDC00))

def decodeLossy : List UInt16 → List Char
  | [] => []
  | [u] => [single u]
  | u :: v :: us =>
    if high u ∧ low v then pair u v :: decodeLossy us else single u :: decodeLossy (v :: us)

example : decodeLossy [0x41, 0xD83C, 0xDF55, 0xD83C] = ['A', '🍕', '\uFFFD'] := by decide +kernel

section

variable {c : Char} {cs : List Char} {u v : UInt16} {us : List UInt16}

/-- A character below U+10000 is a code unit of its own. -/
theorem single_of_lt (h : c.toNat < 0x10000) :
    ¬(high (UInt16.ofNat c.toNat) ∨ low (UInt16.ofNat c.toNat)) ∧ single (UInt16.ofNat c.toNat) = c := by
  have hval : (UInt16.ofNat c.toNat).toNat = c.toNat := UInt16.toNat_ofNat_of_lt' h
  have hvalid : c.toNat < 0xD800 ∨ 0xDFFF < c.toNat ∧ c.toNat < 0x110000 := c.valid
  have hnot : ¬(high (UInt16.ofNat c.toNat) ∨ low (UInt16.ofNat c.toNat)) := by
    rw [high, low, hval]
    omega
  refine ⟨hnot, ?_⟩
  rw [single, if_neg hnot, hval, Char.ofNat_toNat]

theorem encode_cons : encode (c :: cs) = encodeChar c ++ encode cs := rfl

theorem decodeLossy_cons (h : ¬(high u ∨ low u)) : decodeLossy (u :: us) = single u :: decodeLossy us := by
  cases us with
  | nil => rfl
  | cons v us => rw [decodeLossy, if_neg fun hu => h (Or.inl hu.1)]

/-- The two surrogates of a character from U+10000 on. -/
theorem pair_of_le (h : 0x10000 ≤ c.toNat) :
    ∃ u v, encodeChar c = [u, v] ∧ high u ∧ low v ∧ pair u v = c := by
  have hvalid : c.toNat < 0xD800 ∨ 0xDFFF < c.toNat ∧ c.toNat < 0x110000 := c.valid
  have hu : (UInt16.ofNat (0xD800 + (c.toNat - 0x10000) / 0x400)).toNat =
      0xD800 + (c.toNat - 0x10000) / 0x400 :=
    UInt16.toNat_ofNat_of_lt' (show _ < 0x10000 by omega)
  have hv : (UInt16.ofNat (0xDC00 + (c.toNat - 0x10000) % 0x400)).toNat =
      0xDC00 + (c.toNat - 0x10000) % 0x400 :=
    UInt16.toNat_ofNat_of_lt' (show _ < 0x10000 by omega)
  refine ⟨_, _, if_neg (Nat.not_lt.mpr h), ?_, ?_, ?_⟩
  · rw [high, hu]
    omega
  · rw [low, hv]
    omega
  · have hsum : 0x10000 + (0xD800 + (c.toNat - 0x10000) / 0x400 - 0xD800) * 0x400 +
        (0xDC00 + (c.toNat - 0x10000) % 0x400 - 0xDC00) = c.toNat := by omega
    rw [pair, hu, hv, hsum, Char.ofNat_toNat]

/-- **What was encoded is read again.** -/
theorem decodeLossy_encode : decodeLossy (encode cs) = cs := by
  induction cs with
  | nil => rfl
  | cons c cs ih =>
    rw [encode_cons]
    rcases Nat.lt_or_ge c.toNat 0x10000 with h | h
    · obtain ⟨hnot, hc⟩ := single_of_lt h
      have hunit : encodeChar c = [UInt16.ofNat c.toNat] := if_pos h
      rw [hunit, List.singleton_append, decodeLossy_cons hnot, hc, ih]
    · obtain ⟨u, v, hpair, hu, hv, hc⟩ := pair_of_le h
      rw [hpair, List.cons_append, List.singleton_append, decodeLossy, if_pos ⟨hu, hv⟩, hc, ih]

theorem encode_single (h : ¬(high u ∨ low u)) : encodeChar (single u) = [u] := by
  have hlt : u.toNat < 0x10000 := u.toNat_lt
  have hvalid : u.toNat < 0xD800 ∨ 0xDFFF < u.toNat ∧ u.toNat < 0x110000 := by
    unfold high low at h
    omega
  have hchar : (Char.ofNat u.toNat).toNat = u.toNat := by
    rw [Char.ofNat, dif_pos hvalid]
    rfl
  rw [single, if_neg h, encodeChar, hchar, if_pos hlt, UInt16.ofNat_toNat]

/-- What is read of code units that are no surrogates is written as these code units. -/
theorem encode_decodeLossy (h : ∀ u ∈ us, ¬(high u ∨ low u)) : encode (decodeLossy us) = us := by
  induction us with
  | nil => rfl
  | cons u us ih =>
    obtain ⟨hu, hus⟩ := List.forall_mem_cons.mp h
    rw [decodeLossy_cons hu, encode_cons, encode_single hu, ih hus, List.singleton_append]

end

end Utf16
