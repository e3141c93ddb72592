import Gusto.Lib.Json
import Gusto.Lib.Utf8

/-!
# Percent-encoding

* `unescape`: the bytes of a text, in which `%` and two digits stand for a byte;
* `decodeURIComponent`: the text of these bytes, if they are one.
-/

set_option autoImplicit false

namespace Percent

def unescape : List Char → Option (List UInt8)
  | [] => some []
  | '%' :: a :: b :: cs => do
    let hi ← Json.hexVal a
    let lo ← Json.hexVal b
    let bs ← unescape cs
    return UInt8.ofNat (16 * hi + lo) :: bs
  | '%' :: _ => none
  | c :: cs => (unescape cs).map (String.utf8EncodeChar c ++ ·)

-- a character that is not escaped is no part of a sequence of escaped bytes, nor followed by one
def decodeURIComponent (cs : List Char) : Option (List Char) := (unescape cs).bind Utf8.decode

example : decodeURIComponent "caf%C3%A9%2f".toList = some "café/".toList := by decide +kernel
example : decodeURIComponent "100%".toList = none := by decide +kernel

theorem unescape_of_not_mem {cs : List Char} (h : '%' ∉ cs) : unescape cs = some (Utf8.encode cs) := by
  induction cs with
  | nil => rfl
  | cons c cs ih =>
    rw [List.mem_cons, not_or] at h
    rw [unescape, ih h.2]
    · rfl
    · exact fun a b cs' hc => absurd hc.symm h.1
    · exact fun hc => absurd hc.symm h.1

/-- **A text without escapes** is read as it is. -/
theorem decodeURIComponent_of_not_mem {cs : List Char} (h : '%' ∉ cs) :
    decodeURIComponent cs = some cs := by
  rw [decodeURIComponent, unescape_of_not_mem h, Option.bind_some, Utf8.decode_encode]

end Percent
