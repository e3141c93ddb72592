import Mathlib.Algebra.Order.Round
import Mathlib.Data.Int.Log
import Mathlib.Data.Rat.Floor
import Mathlib.Tactic.FieldSimp
import Mathlib.Tactic.Linarith
import Mathlib.Tactic.Positivity
import Mathlib.Tactic.Ring

/-!
# Numbers of a runtime

Numbers as JavaScript has them: the doubles, two infinities, and what is not a number.

* `nearest`: a rational, rounded to 53 binary digits, ties to the even one;
* `Number.add`, `sub`, `mul`, `hundredth`: what is computed exactly, and then rounded;
* `Safe`: the integers up to 2⁵³ - 1, which are numbers: `add_ofInt`, `sub_ofInt`, `mul_ofInt` and
  `floor_hundredth_mul` say that on them, where it stays among them, the arithmetic is exact.

A zero has no sign here: comparisons, sums, products, `Math.floor` and `String` do not tell them apart.
-/

set_option autoImplicit false

namespace Binary64

/-! ### Rounding -/

/-- The exponent of the last binary digit that is kept of a rational. -/
def lastPlace (q : ℚ) : ℤ := max (Int.log 2 |q| - 52) (-1074)

/-- The nearest integer, and of two the even one. -/
def roundEven (q : ℚ) : ℤ :=
  let below := ⌊q⌋
  if q - below < 1 / 2 then below
  else if 1 / 2 < q - below then below + 1
  else if below % 2 = 0 then below else below + 1

def nearest (q : ℚ) : ℚ := roundEven (q / 2 ^ lastPlace q) * 2 ^ lastPlace q

inductive Number
  | fin (q : ℚ)
  | posInfinity
  | negInfinity
  | nan
  deriving DecidableEq, Repr

namespace Number

/-- The number that a rational is rounded to. -/
def ofRat (q : ℚ) : Number :=
  if 2 ^ 1024 ≤ nearest q then posInfinity
  else if nearest q ≤ -2 ^ 1024 then negInfinity
  else fin (nearest q)

/-- The number of an integer literal. -/
def ofInt (n : ℤ) : Number := ofRat n

instance (n : ℕ) : OfNat Number n := ⟨ofInt n⟩

/-! ### Arithmetic -/

def neg : Number → Number
  | fin q => fin (-q)
  | posInfinity => negInfinity
  | negInfinity => posInfinity
  | nan => nan

def add : Number → Number → Number
  | fin a, fin b => ofRat (a + b)
  | nan, _ | _, nan | posInfinity, negInfinity | negInfinity, posInfinity => nan
  | posInfinity, _ | _, posInfinity => posInfinity
  | negInfinity, _ | _, negInfinity => negInfinity

def sub (a b : Number) : Number := add a (neg b)

/-- An infinity times a number of the sign of `q`. -/
def infinityTimes (q : ℚ) : Number :=
  if 0 < q then posInfinity else if q < 0 then negInfinity else nan

def mul : Number → Number → Number
  | fin a, fin b => ofRat (a * b)
  | nan, _ | _, nan => nan
  | posInfinity, fin b => infinityTimes b
  | fin a, posInfinity => infinityTimes a
  | negInfinity, fin b => infinityTimes (-b)
  | fin a, negInfinity => infinityTimes (-a)
  | posInfinity, posInfinity | negInfinity, negInfinity => posInfinity
  | posInfinity, negInfinity | negInfinity, posInfinity => negInfinity

/-- `a / 100`. -/
def hundredth : Number → Number
  | fin q => ofRat (q / 100)
  | a => a

/-- `Math.floor`. -/
def floor : Number → Number
  | fin q => fin ⌊q⌋
  | a => a

/-! ### Comparison -/

/-- `a < b`; nothing is less than what is not a number, nor more. -/
def lt : Number → Number → Bool
  | fin a, fin b => a < b
  | nan, _ | _, nan => false
  | negInfinity, b => b ≠ negInfinity
  | _, negInfinity => false
  | a, posInfinity => a ≠ posInfinity
  | posInfinity, _ => false

/-- `a === b`. -/
def eq (a b : Number) : Bool := a = b ∧ a ≠ nan

/-- `Math.min`. -/
def min (a b : Number) : Number :=
  if a = nan ∨ b = nan then nan else if lt a b then a else b

/-- The sign of `a - b`, as a sort reads it. -/
def order (a b : Number) : ℤ :=
  match sub a b with
  | fin q => if q < 0 then -1 else if 0 < q then 1 else 0
  | posInfinity => 1
  | negInfinity => -1
  | nan => 0

/-! ### Text -/

/-- The digits of a positive number, as few as tell it from the others, and where its point stands:
`(s, n)` for `0.s * 10 ^ n`. -/
def shortest (q : ℚ) : ℕ × ℤ :=
  let n := Int.log 10 q + 1
  ((List.range 17).findSome? fun (k : ℕ) =>
    let unit : ℚ := 10 ^ (n - (k + 1))
    let s := roundEven (q / unit)
    if ofRat (s * unit) = fin q then
      some (if s = 10 ^ (k + 1) then (1, n + 1) else (s.toNat, n))
    else none).getD (0, 0)

def zeros (n : ℕ) : String := String.ofList (List.replicate n '0')

/-- A positive number, as `String` writes it. -/
def writePositive (q : ℚ) : String :=
  let (s, n) := shortest q
  let digits := toString s
  let k : ℤ := digits.length
  if k ≤ n ∧ n ≤ 21 then digits ++ zeros (n - k).toNat
  else if 0 < n ∧ n ≤ 21 then (digits.take n.toNat).toString ++ "." ++ (digits.drop n.toNat).toString
  else if -6 < n ∧ n ≤ 0 then "0." ++ zeros (-n).toNat ++ digits
  else
    (if k = 1 then digits else (digits.take 1).toString ++ "." ++ (digits.drop 1).toString) ++ "e" ++
      (if n - 1 < 0 then "-" else "+") ++ toString (n - 1).natAbs

/-- `String(a)`. -/
def write : Number → String
  | fin q => if q < 0 then "-" ++ writePositive (-q) else if 0 < q then writePositive q else "0"
  | posInfinity => "Infinity"
  | negInfinity => "-Infinity"
  | nan => "NaN"

instance : Add Number := ⟨add⟩
instance : Sub Number := ⟨sub⟩
instance : Mul Number := ⟨mul⟩
instance : Min Number := ⟨min⟩
instance : BEq Number := ⟨eq⟩
instance : LT Number := ⟨fun a b => lt a b⟩
instance : LE Number := ⟨fun a b => lt a b || eq a b⟩
instance : DecidableLT Number := fun a b => inferInstanceAs (Decidable (lt a b = true))
instance : DecidableLE Number := fun a b => inferInstanceAs (Decidable ((lt a b || eq a b) = true))
instance : ToString Number := ⟨write⟩

end Number

/-! ### What rounding leaves -/

section Rounding

variable {q : ℚ} {n e : ℤ}

theorem roundEven_intCast (n : ℤ) : roundEven n = n := by
  simp [roundEven]

theorem roundEven_error (q : ℚ) : |(roundEven q : ℚ) - q| ≤ 1 / 2 := by
  have hlow := Int.floor_le q
  have hhigh := Int.lt_floor_add_one q
  unfold roundEven
  dsimp only
  rw [abs_le]
  split_ifs <;> constructor <;> push_cast <;> linarith

/-- Rounding moves a rational by at most half a unit in the last place. -/
theorem nearest_error (q : ℚ) : |nearest q - q| ≤ 2 ^ lastPlace q / 2 := by
  have hunit : (0 : ℚ) < 2 ^ lastPlace q := zpow_pos (by norm_num) _
  have hscaled : nearest q - q = (roundEven (q / 2 ^ lastPlace q) - q / 2 ^ lastPlace q) *
      2 ^ lastPlace q := by
    unfold nearest
    field_simp
  calc |nearest q - q|
      = |(roundEven (q / 2 ^ lastPlace q) : ℚ) - q / 2 ^ lastPlace q| * 2 ^ lastPlace q := by
        rw [hscaled, abs_mul, abs_of_pos hunit]
    _ ≤ 1 / 2 * 2 ^ lastPlace q := mul_le_mul_of_nonneg_right (roundEven_error _) hunit.le
    _ = 2 ^ lastPlace q / 2 := by ring

theorem lastPlace_le (h : |q| < 2 ^ (e + 53)) (he : -52 ≤ e) : lastPlace q ≤ e := by
  refine max_le ?_ (by omega)
  rcases (abs_nonneg q).eq_or_lt with hzero | hpos
  · rw [← hzero, Int.log_zero_right]
    omega
  · have := (Int.lt_zpow_iff_log_lt (b := 2) (by decide) hpos).mp (by exact_mod_cast h)
    omega

/-- The integers that a double tells apart from their neighbours. -/
def Safe (n : ℤ) : Prop := |n| ≤ 9007199254740991

instance : DecidablePred Safe := fun _ => inferInstanceAs (Decidable (_ ≤ _))

theorem safe_iff : Safe n ↔ -9007199254740991 ≤ n ∧ n ≤ 9007199254740991 := abs_le

theorem Safe.of_le {a b : ℤ} (hb : Safe b) (ha : 0 ≤ a) (hab : a ≤ b) : Safe a := by
  rw [safe_iff] at hb ⊢
  omega

/-- A safe integer needs no rounding. -/
theorem nearest_intCast (h : Safe n) : nearest n = n := by
  have hsmall : |(n : ℚ)| < 2 ^ ((0 : ℤ) + 53) := by
    rw [← Int.cast_abs]
    calc ((|n| : ℤ) : ℚ) ≤ 9007199254740991 := by exact_mod_cast h
      _ < 2 ^ ((0 : ℤ) + 53) := by norm_num
  have hplace := lastPlace_le hsmall (by norm_num)
  obtain ⟨k, hk⟩ := Int.eq_ofNat_of_zero_le (show 0 ≤ -lastPlace n by omega)
  have hunit : (2 : ℚ) ^ lastPlace n * 2 ^ k = 1 := by
    rw [← zpow_natCast, ← hk, ← zpow_add₀ (by norm_num), add_neg_cancel, zpow_zero]
  have hscaled : (n : ℚ) / 2 ^ lastPlace n = ((n * 2 ^ k : ℤ) : ℚ) := by
    rw [div_eq_iff (zpow_ne_zero _ (by norm_num)), Int.cast_mul, mul_assoc]
    push_cast
    rw [mul_comm ((2 : ℚ) ^ k), hunit, mul_one]
  rw [nearest, hscaled, roundEven_intCast]
  push_cast
  rw [mul_assoc, mul_comm ((2 : ℚ) ^ k), hunit, mul_one]

/-- A hundredth of a safe integer is moved by less than a hundredth. -/
theorem nearest_hundredth_error (h : Safe n) : |nearest ((n : ℚ) / 100) - n / 100| < 1 / 100 := by
  have hsmall : |(n : ℚ) / 100| < 2 ^ ((-6 : ℤ) + 53) := by
    rw [abs_div, ← Int.cast_abs, abs_of_pos (by norm_num : (0 : ℚ) < 100), div_lt_iff₀ (by norm_num)]
    calc ((|n| : ℤ) : ℚ) ≤ 9007199254740991 := by exact_mod_cast h
      _ < 2 ^ ((-6 : ℤ) + 53) * 100 := by norm_num
  have hplace : (2 : ℚ) ^ lastPlace ((n : ℚ) / 100) ≤ 2 ^ (-6 : ℤ) :=
    zpow_le_zpow_right₀ (by norm_num) (lastPlace_le hsmall (by norm_num))
  calc |nearest ((n : ℚ) / 100) - n / 100| ≤ 2 ^ lastPlace ((n : ℚ) / 100) / 2 := nearest_error _
    _ ≤ 2 ^ (-6 : ℤ) / 2 := by linarith
    _ < 1 / 100 := by norm_num

/-- The difference of two safe integers is less than 2⁵⁴, where rounding moves an integer by at most one:
one that is rounded is far from zero. -/
theorem nearest_sub {a b : ℤ} (ha : Safe a) (hb : Safe b) :
    |nearest (a - b : ℤ)| < 2 ^ 1024 ∧ (0 < nearest (a - b : ℤ) ↔ 0 < a - b) := by
  rw [safe_iff] at ha hb
  have hsmall : |((a - b : ℤ) : ℚ)| < 2 ^ ((1 : ℤ) + 53) := by
    rw [← Int.cast_abs]
    calc ((|a - b| : ℤ) : ℚ) ≤ 18014398509481982 := by exact_mod_cast abs_le.mpr ⟨by omega, by omega⟩
      _ < 2 ^ ((1 : ℤ) + 53) := by norm_num
  have hplace : (2 : ℚ) ^ lastPlace (a - b : ℤ) ≤ 2 ^ (1 : ℤ) :=
    zpow_le_zpow_right₀ (by norm_num) (lastPlace_le hsmall (by norm_num))
  have herror : |nearest (a - b : ℤ) - (a - b : ℤ)| ≤ 1 :=
    (nearest_error _).trans (by norm_num at hplace ⊢; linarith)
  obtain ⟨hlow, hhigh⟩ := abs_le.mp herror
  constructor
  · have hbound : |((a - b : ℤ) : ℚ)| ≤ 2 ^ 54 := hsmall.le.trans (by norm_num)
    obtain ⟨hneg, hpos⟩ := abs_le.mp hbound
    calc |nearest (a - b : ℤ)| ≤ 2 ^ 55 := abs_le.mpr ⟨by linarith, by linarith⟩
      _ < 2 ^ 1024 := pow_lt_pow_right₀ (by norm_num) (by norm_num)
  · by_cases hsafe : Safe (a - b)
    · rw [nearest_intCast hsafe, Int.cast_pos]
    · rw [safe_iff] at hsafe
      rcases lt_or_ge (a - b) 0 with hneg | hpos
      · have hfar : ((a - b : ℤ) : ℚ) ≤ -2 := by exact_mod_cast (show a - b ≤ -2 by omega)
        exact iff_of_false (by linarith) (by omega)
      · have hfar : (2 : ℚ) ≤ (a - b : ℤ) := by exact_mod_cast (show 2 ≤ a - b by omega)
        exact iff_of_true (by linarith) (by omega)

theorem Number.ofRat_of_lt (h : |nearest q| < 2 ^ 1024) : ofRat q = fin (nearest q) := by
  rw [abs_lt] at h
  rw [ofRat, if_neg (not_le.mpr h.2), if_neg (not_le.mpr h.1)]

end Rounding

/-! ### Safe integers -/

/-- An integer that is a double. -/
def IsDouble (n : ℤ) : Prop := Number.ofInt n = .fin n

instance : DecidablePred IsDouble := fun _ => inferInstanceAs (Decidable (_ = _))

namespace Number

section Safe

variable {a b : ℤ}

theorem ofInt_eq (h : Safe a) : ofInt a = fin a := by
  rw [ofInt, ofRat_of_lt, nearest_intCast h]
  rw [nearest_intCast h, ← Int.cast_abs]
  calc ((|a| : ℤ) : ℚ) ≤ 9007199254740991 := by exact_mod_cast h
    _ < 2 ^ 53 := by norm_num
    _ ≤ 2 ^ 1024 := pow_le_pow_right₀ (by norm_num) (by norm_num)

theorem add_ofInt (ha : Safe a) (hb : Safe b) : ofInt a + ofInt b = ofInt (a + b) := by
  rw [ofInt_eq ha, ofInt_eq hb]
  change ofRat (a + b) = ofInt (a + b)
  rw [ofInt, Int.cast_add]

theorem sub_ofInt (ha : Safe a) (hb : Safe b) : ofInt a - ofInt b = ofInt (a - b) := by
  rw [ofInt_eq ha, ofInt_eq hb]
  change ofRat (a + -b) = ofInt (a - b)
  rw [ofInt, Int.cast_sub, sub_eq_add_neg]

theorem mul_ofInt (ha : Safe a) (hb : Safe b) : ofInt a * ofInt b = ofInt (a * b) := by
  rw [ofInt_eq ha, ofInt_eq hb]
  change ofRat (a * b) = ofInt (a * b)
  rw [ofInt, Int.cast_mul]

theorem lt_ofInt (ha : Safe a) (hb : Safe b) : ofInt a < ofInt b ↔ a < b := by
  rw [ofInt_eq ha, ofInt_eq hb]
  change decide ((a : ℚ) < b) = true ↔ a < b
  rw [decide_eq_true_iff, Int.cast_lt]

theorem beq_ofInt (ha : Safe a) (hb : Safe b) : (ofInt a == ofInt b) = (a == b) := by
  rw [ofInt_eq ha, ofInt_eq hb]
  change eq (fin a) (fin b) = (a == b)
  rw [Bool.eq_iff_iff]
  simp [eq]

theorem le_ofInt (ha : Safe a) (hb : Safe b) : ofInt a ≤ ofInt b ↔ a ≤ b := by
  change (lt (ofInt a) (ofInt b) || ofInt a == ofInt b) = true ↔ a ≤ b
  rw [Bool.or_eq_true, beq_ofInt ha hb, beq_iff_eq, le_iff_lt_or_eq]
  exact or_congr_left (lt_ofInt ha hb)

theorem min_ofInt (ha : Safe a) (hb : Safe b) : Min.min (ofInt a) (ofInt b) = ofInt (Min.min a b) := by
  have hlt := lt_ofInt ha hb
  rw [ofInt_eq ha, ofInt_eq hb] at hlt ⊢
  change min (fin a) (fin b) = _
  rw [min, if_neg (by simp)]
  split
  · rename_i h
    rw [min_eq_left (hlt.mp h).le, ofInt_eq ha]
  · rename_i h
    rw [min_eq_right (not_lt.mp fun h' => h (hlt.mpr h')), ofInt_eq hb]

/-- The difference of safe integers may be rounded, but keeps its sign. -/
theorem order_ofInt (ha : Safe a) (hb : Safe b) : order (ofInt a) (ofInt b) ≤ 0 ↔ a ≤ b := by
  obtain ⟨hsmall, hsign⟩ := nearest_sub ha hb
  have hsub : sub (ofInt a) (ofInt b) = fin (nearest (a - b : ℤ)) :=
    (sub_ofInt ha hb).trans (ofRat_of_lt hsmall)
  have hle : a ≤ b ↔ ¬ 0 < nearest (a - b : ℤ) := by
    rw [hsign]
    omega
  rw [order, hsub, hle]
  dsimp only
  split_ifs with hneg hpos
  · simpa using hneg.le
  · simpa using hpos
  · simpa using hpos

/-- **The floor of a hundredth** is exact: a hundredth of a safe integer that is no integer is further
from the next one than rounding moves it. -/
theorem floor_hundredth_ofInt (ha : Safe a) : floor (hundredth (ofInt a)) = ofInt (a / 100) := by
  have hbounds := safe_iff.mp ha
  have hquot : Safe (a / 100) := safe_iff.mpr (by omega)
  obtain ⟨hlow, hhigh⟩ := abs_lt.mp (nearest_hundredth_error ha)
  have hfloor : ⌊nearest ((a : ℚ) / 100)⌋ = a / 100 := by
    have hdiv : (a : ℚ) = 100 * (a / 100 : ℤ) + (a % 100 : ℤ) := by
      exact_mod_cast (Int.mul_ediv_add_emod a 100).symm
    have hrest : (a % 100 : ℤ) ≤ 99 := by omega
    rcases (Int.emod_nonneg a (by decide : (100 : ℤ) ≠ 0)).eq_or_lt with hzero | hpos
    · have hint : (a : ℚ) / 100 = (a / 100 : ℤ) := by
        rw [← hzero] at hdiv
        push_cast at hdiv
        linarith
      rw [hint, nearest_intCast hquot, Int.floor_intCast]
    · have hpos : (1 : ℚ) ≤ (a % 100 : ℤ) := by exact_mod_cast hpos
      have hrest : ((a % 100 : ℤ) : ℚ) ≤ 99 := by exact_mod_cast hrest
      rw [Int.floor_eq_iff]
      constructor <;> linarith
  have hsmall : |nearest ((a : ℚ) / 100)| < 2 ^ 1024 := by
    have hbounds : |(a : ℚ)| ≤ 9007199254740991 := by
      rw [← Int.cast_abs]
      exact_mod_cast ha
    obtain ⟨hneg, hpos⟩ := abs_le.mp hbounds
    calc |nearest ((a : ℚ) / 100)| ≤ 2 ^ 53 := abs_le.mpr ⟨by linarith, by linarith⟩
      _ < 2 ^ 1024 := pow_lt_pow_right₀ (by norm_num) (by norm_num)
  rw [ofInt_eq ha, ofInt_eq hquot]
  change floor (ofRat ((a : ℚ) / 100)) = _
  rw [ofRat_of_lt hsmall, floor, hfloor]

end Safe

/-! ### Sums -/

section Sum

variable {α : Type} {l : List α} {value : α → ℤ}

/-- A sum of what is not negative only grows. -/
theorem le_foldl_add (hpos : ∀ x ∈ l, 0 ≤ value x) (s : ℤ) : s ≤ l.foldl (fun sum x => sum + value x) s := by
  induction l generalizing s with
  | nil => exact le_rfl
  | cons x l ih =>
    obtain ⟨hx, hl⟩ := List.forall_mem_cons.mp hpos
    exact (le_add_of_nonneg_right hx).trans (ih hl _)

/-- **A safe sum** is exact, as all sums on the way to it are. -/
theorem foldl_add_ofInt {term : α → Number} (hterm : ∀ x ∈ l, term x = ofInt (value x))
    (hpos : ∀ x ∈ l, 0 ≤ value x) {s : ℤ} (hs : 0 ≤ s)
    (hsafe : Safe (l.foldl (fun sum x => sum + value x) s)) :
    l.foldl (fun sum x => sum + term x) (ofInt s) = ofInt (l.foldl (fun sum x => sum + value x) s) := by
  induction l generalizing s with
  | nil => rfl
  | cons x l ih =>
    obtain ⟨hx, hl⟩ := List.forall_mem_cons.mp hpos
    obtain ⟨htermx, hterml⟩ := List.forall_mem_cons.mp hterm
    rw [List.foldl_cons] at hsafe
    have hle := le_foldl_add hl (s + value x)
    have hstep : ofInt s + term x = ofInt (s + value x) := by
      rw [htermx, add_ofInt (hsafe.of_le hs (by omega)) (hsafe.of_le hx (by omega))]
    rw [List.foldl_cons, List.foldl_cons, hstep]
    exact ih hterml hl (by omega) hsafe

end Sum

end Number

end Binary64
