import Mathlib.Data.List.Basic

/-!
# Base64

Bytes as code units, six bits in each, and read back the way `Buffer.from` reads them.

* `sextets` and `octets`: bytes in groups of six bits, and groups of six bits as bytes;
* `encode`: the digits of the groups, padded;
* `decode`: what is no digit is skipped, the padding ends the text;
* `decode_encode`: what was encoded is read again; `not_mem_encode`: which code units are not written.
-/

set_option autoImplicit false

namespace Base64

def alphabet : String := "ABCDEFGHIJKLMNOPQRSTUVWXYZabcdefghijklmnopqrstuvwxyz0123456789+/"

def digit (d : Fin 64) : UInt16 := UInt16.ofNat (alphabet.toList.getD d 'A').toNat

def pad : UInt16 := 0x3D

/-- What a code unit stands for; `-` and `_` are read as `+` and `/`. -/
def value (u : UInt16) : Option (Fin 64) :=
  let n := u.toNat
  if 0x41 ≤ n ∧ n ≤ 0x5A then some (Fin.ofNat 64 (n - 0x41))
  else if 0x61 ≤ n ∧ n ≤ 0x7A then some (Fin.ofNat 64 (n - 0x61 + 26))
  else if 0x30 ≤ n ∧ n ≤ 0x39 then some (Fin.ofNat 64 (n - 0x30 + 52))
  else if n = 0x2B ∨ n = 0x2D then some 62
  else if n = 0x2F ∨ n = 0x5F then some 63
  else none

def sextets : List UInt8 → List (Fin 64)
  | a :: b :: c :: bs =>
    Fin.ofNat 64 (a.toNat / 4) :: Fin.ofNat 64 (a.toNat * 16 + b.toNat / 16) ::
      Fin.ofNat 64 (b.toNat * 4 + c.toNat / 64) :: Fin.ofNat 64 c.toNat :: sextets bs
  | [a, b] =>
    [Fin.ofNat 64 (a.toNat / 4), Fin.ofNat 64 (a.toNat * 16 + b.toNat / 16), Fin.ofNat 64 (b.toNat * 4)]
  | [a] => [Fin.ofNat 64 (a.toNat / 4), Fin.ofNat 64 (a.toNat * 16)]
  | [] => []

/-- The bits that are left over at the end make no byte. -/
def octets : List (Fin 64) → List UInt8
  | p :: q :: r :: s :: ds =>
    UInt8.ofNat (p * 4 + q / 16) :: UInt8.ofNat (q * 16 + r / 4) :: UInt8.ofNat (r * 64 + s) :: octets ds
  | [p, q, r] => [UInt8.ofNat (p * 4 + q / 16), UInt8.ofNat (q * 16 + r / 4)]
  | [p, q] => [UInt8.ofNat (p * 4 + q / 16)]
  | _ => []

def encode (bs : List UInt8) : List UInt16 :=
  (sextets bs).map digit ++ List.replicate ((3 - bs.length % 3) % 3) pad

def decode (us : List UInt16) : List UInt8 := octets ((us.takeWhile (· ≠ pad)).filterMap value)

/-- The code units of a text in ASCII. -/
def units (s : String) : List UInt16 := s.toList.map fun c => UInt16.ofNat c.toNat

example : encode [0x4D, 0x61] = units "TWE=" := by decide +kernel
example : decode (units " T-_\n/=TWE") = [0x4F, 0xEF, 0xFF] := by decide +kernel

variable {bs : List UInt8} {u : UInt16}

theorem value_digit : ∀ d, value (digit d) = some d := by decide +kernel

theorem digit_ne_pad : ∀ d, digit d ≠ pad := by decide +kernel

/-- The groups of six bits are the bytes they were made of. -/
theorem octets_sextets : octets (sextets bs) = bs := by
  have byte : ∀ (b : UInt8) (n : ℕ), n % 256 = b.toNat → UInt8.ofNat n = b := fun b n h =>
    UInt8.toNat_inj.mp ((UInt8.toNat_ofNat').trans h)
  induction bs using sextets.induct with
  | case1 a b c bs ih =>
    have ha := a.toNat_lt
    have hb := b.toNat_lt
    have hc := c.toNat_lt
    rw [sextets, octets, ih, byte a, byte b, byte c]
    all_goals simp only [Fin.val_ofNat]; omega
  | case2 a b =>
    have ha := a.toNat_lt
    have hb := b.toNat_lt
    rw [sextets, octets, byte a, byte b]
    all_goals simp only [Fin.val_ofNat]; omega
  | case3 a =>
    have ha := a.toNat_lt
    rw [sextets, octets, byte a]
    simp only [Fin.val_ofNat]
    omega
  | case4 => rfl

/-- **What was encoded is read again.** -/
theorem decode_encode : decode (encode bs) = bs := by
  have hdigits : ∀ u ∈ (sextets bs).map digit, decide (u ≠ pad) = true := by
    intro u hu
    obtain ⟨d, -, rfl⟩ := List.mem_map.mp hu
    exact decide_eq_true (digit_ne_pad d)
  have hpads : ∀ n, (List.replicate n pad).takeWhile (· ≠ pad) = [] := fun n => by
    cases n <;> rfl
  have hsplit : (encode bs).takeWhile (· ≠ pad) = (sextets bs).map digit := by
    rw [encode, List.takeWhile_append_of_pos hdigits, hpads, List.append_nil]
  have hvalues : ((sextets bs).map digit).filterMap value = sextets bs := by
    rw [List.filterMap_map]
    exact (List.filterMap_congr fun d _ => value_digit d).trans List.filterMap_some
  rw [decode, hsplit, hvalues, octets_sextets]

/-- What stands for nothing and is no padding is not written. -/
theorem not_mem_encode (hvalue : value u = none) (hpad : u ≠ pad) : u ∉ encode bs := by
  intro hu
  rcases List.mem_append.mp hu with h | h
  · obtain ⟨d, -, rfl⟩ := List.mem_map.mp h
    rw [value_digit] at hvalue
    cases hvalue
  · exact hpad (List.mem_replicate.mp h).2

end Base64
