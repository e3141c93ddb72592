import Gusto.Hacker.Mapping

/-!
# Coupon records that are malformed

What a record of `fetch_food_coupons` should be read as, where a field that is missing has its default
and a field that is there with another type or range makes the record malformed.

* `Field`: absent, a value, or malformed; `asCoupon`: the coupon of a record, if it is none of it malformed;
* `ReadAsMeant`: each record of a response as its coupon or as none, on its own;
* `readAsMeant_iff`: this is so exactly where no record has an object with a `toString` for an amount, on
  which the mapper throws, and none with a code has a malformed field;
* `not_readAsMeant`: a coupon of an unknown type that loses its threshold.
-/

set_option autoImplicit false

namespace Gusto.Hacker

/-! ### Fields -/

/-- What is found under a key. -/
inductive Field (α : Type) : Type
  | absent
  | value (a : α)
  | malformed
  deriving DecidableEq, Repr

namespace Field

variable {α : Type}

/-- The value, or what stands for one that is absent. -/
def read (default : α) : Field α → Option α
  | absent => some default
  | value a => some a
  | malformed => none

def ofOption : Option α → Field α
  | some a => value a
  | none => malformed

def map {β : Type} (f : α → β) : Field α → Field β
  | absent => absent
  | value a => value (f a)
  | malformed => malformed

/-- A field that may be null. -/
def nullable (read : Option (Json ℚ) → Field α) : Option (Json ℚ) → Field (Option α)
  | some .null => value none
  | v => (read v).map some

theorem ne_malformed {default a : α} {f : Field α} (h : f.read default = some a) : f ≠ malformed := by
  rintro rfl
  cases h

theorem exists_read (default : α) {f : Field α} (h : f ≠ malformed) : ∃ a, f.read default = some a := by
  cases f with
  | absent => exact ⟨default, rfl⟩
  | value a => exact ⟨a, rfl⟩
  | malformed => exact absurd rfl h

end Field

variable (number : Json ℚ → Option ℚ)

/-- An amount, as a number or as a string of one. -/
def amount : Option (Json ℚ) → Field ℤ
  | none => .absent
  | some (.num n) => .ofOption (asAmount n)
  | some (.str s) => .ofOption ((number (.str s)).bind asAmount)
  | some _ => .malformed

def flag : Option (Json ℚ) → Field Bool
  | none => .absent
  | some (.bool b) => .value b
  | some _ => .malformed

def text : Option (Json ℚ) → Field String
  | none => .absent
  | some (.str s) => .value s
  | some _ => .malformed

def discountType : Option (Json ℚ) → Field DiscountType
  | none => .absent
  | some (.str s) =>
    if s = "flat" then .value .flat else if s = "percentage" then .value .percentage else .malformed
  | some _ => .malformed

/-! ### Records -/

/-- The coupon of a record that has a code and no malformed field. -/
def asCoupon (item : Json ℚ) : Option Coupon :=
  match item.get "code" with
  | some (.str code) => do
    let minOrderValue ← (amount number (item.get "minCartValue")).read 0
    let requiresOnlinePayment ← (flag (item.get "requiresOnlinePayment")).read false
    let discountType ← (discountType (item.get "discountType")).read .flat
    let discountValue ← (amount number (item.get "discountValue")).read 0
    let maxDiscount ← (Field.nullable (amount number) (item.get "maxDiscount")).read none
    let isApplicable ← (Field.nullable flag (item.get "isApplicable")).read none
    let expiresAt ← (Field.nullable text (item.get "expiresAt")).read none
    return { code, discountType, discountValue, maxDiscount, minOrderValue,
             paymentModes := if requiresOnlinePayment then [.online] else [.cod],
             isApplicable, expiresAt }
  | _ => none

/-- A field that is there has another type or range than it should. -/
def Malformed (item : Json ℚ) : Prop :=
  amount number (item.get "minCartValue") = .malformed ∨
  flag (item.get "requiresOnlinePayment") = .malformed ∨
  discountType (item.get "discountType") = .malformed ∨
  amount number (item.get "discountValue") = .malformed ∨
  Field.nullable (amount number) (item.get "maxDiscount") = .malformed ∨
  Field.nullable flag (item.get "isApplicable") = .malformed ∨
  Field.nullable text (item.get "expiresAt") = .malformed

/-- A record that has its code. -/
def Coded (item : Json ℚ) : Prop := ∃ code, item.get "code" = some (.str code)

/-- The fields that are read by `Number`. -/
def amountKeys : List String := ["minCartValue", "discountValue", "maxDiscount"]

/-- An amount of the record has no text that `Number` could read. -/
def Throws (item : Json ℚ) : Prop := ∃ key ∈ amountKeys, ∃ v, item.get key = some v ∧ textless v

/-- What is answered for a response of one record. -/
def yields (item : Json ℚ) : Except Err (List Coupon) :=
  mapFetchFoodCouponsResponse number (some (.arr [item]))

/-- Each record comes to its coupon, or to none if it is malformed or has no code, and the coupons of a
response are those of its records. -/
def ReadAsMeant (items : List (Json ℚ)) : Prop :=
  (∀ item ∈ items, yields number item = .ok (asCoupon number item).toList) ∧
    mapFetchFoodCouponsResponse number (some (.arr items)) =
      .ok (items.flatMap fun item => (asCoupon number item).toList)

/-! ### The mapper against it -/

section

variable {number} {v : Option (Json ℚ)} {item : Json ℚ} {coupon : Coupon}

theorem nonnegativeInt_of_readable (h : ∀ w, v = some w → ¬ textless w) :
    nonnegativeInt number v = .ok ((v.bind (coerce number)).bind asAmount) := by
  cases v with
  | none => rfl
  | some w =>
    have hread : coerceNumber number (some w) = .ok (coerce number w) := if_neg (h w rfl)
    unfold nonnegativeInt
    rw [hread]
    rfl

/-- The mapper reads an amount that is not malformed as it is. -/
theorem amount_cases : amount number v = .malformed ∨
    (amount number v = .absent ∧ nonnegativeInt number v = .ok none) ∨
    ∃ n, amount number v = .value n ∧ nonnegativeInt number v = .ok (some n) := by
  cases v with
  | none => exact .inr (.inl ⟨rfl, rfl⟩)
  | some v =>
    have hread : ∀ o : Option ℤ, amount number (some v) = .ofOption o →
        nonnegativeInt number (some v) = .ok o →
        amount number (some v) = .malformed ∨
          ∃ n, amount number (some v) = .value n ∧ nonnegativeInt number (some v) = .ok (some n) := by
      intro o hamount hmapper
      rw [hamount, hmapper]
      cases o with
      | none => exact .inl rfl
      | some n => exact .inr ⟨n, rfl, rfl⟩
    cases v with
    | num q => exact (hread _ rfl rfl).imp_right .inr
    | str s => exact (hread _ rfl rfl).imp_right .inr
    | _ => exact .inl rfl

/-- What the mapper reads where an amount is not malformed. -/
theorem nonnegativeInt_of_amount (h : amount number v ≠ .malformed) :
    ∃ o, nonnegativeInt number v = .ok o ∧ ∀ default, (amount number v).read default = some (o.getD default) := by
  rcases amount_cases with hamount | ⟨hamount, hmapper⟩ | ⟨n, hamount, hmapper⟩
  · exact absurd hamount h
  · exact ⟨none, hmapper, fun default => by rw [hamount]; rfl⟩
  · exact ⟨some n, hmapper, fun default => by rw [hamount]; rfl⟩

theorem amount_read {n : ℤ} (h : (amount number v).read 0 = some n) :
    ∃ o, nonnegativeInt number v = .ok o ∧ o.getD 0 = n := by
  obtain ⟨o, hmapper, hread⟩ := nonnegativeInt_of_amount (Field.ne_malformed h)
  exact ⟨o, hmapper, Option.some.inj ((hread 0).symm.trans h)⟩

theorem cap_read {cap : Option ℤ} (h : (Field.nullable (amount number) v).read none = some cap) :
    nullableInt number v = .ok cap := by
  have hvalue : ((amount number v).map some).read none = some cap → nonnegativeInt number v = .ok cap := by
    intro h
    rcases amount_cases with hamount | ⟨hamount, hmapper⟩ | ⟨n, hamount, hmapper⟩
    · rw [hamount] at h
      cases h
    · rw [hamount] at h
      rw [hmapper]
      exact congrArg Except.ok (Option.some.inj h)
    · rw [hamount] at h
      rw [hmapper]
      exact congrArg Except.ok (Option.some.inj h)
  rcases v with _ | v
  · exact hvalue h
  · cases v with
    | null => exact congrArg Except.ok (Option.some.inj h)
    | _ => exact hvalue h

theorem flag_read {b : Bool} : (flag v).read false = some b →
    (match v with
      | some (.bool b) => b
      | _ => false) = b := by
  intro h
  rcases v with _ | v
  · exact Option.some.inj h
  · cases v <;> first | exact Option.some.inj h | cases h

theorem discountType_read {t : DiscountType} : (discountType v).read .flat = some t →
    (match v with
      | some (.str s) => if s = "percentage" then DiscountType.percentage else .flat
      | _ => .flat) = t := by
  intro h
  rcases v with _ | v
  · exact Option.some.inj h
  · cases v with
    | str s =>
      by_cases hflat : s = "flat"
      · subst hflat
        exact Option.some.inj h
      · by_cases hpercentage : s = "percentage"
        · subst hpercentage
          exact Option.some.inj h
        · simp [discountType, hflat, hpercentage, Field.read] at h
    | _ => cases h

theorem applicable_read {b : Option Bool} : (Field.nullable flag v).read none = some b →
    (match v with
      | some (.bool b) => some b
      | _ => none) = b := by
  intro h
  rcases v with _ | v
  · exact Option.some.inj h
  · cases v <;> first | exact Option.some.inj h | cases h

theorem expiry_read {e : Option String} : (Field.nullable text v).read none = some e →
    (match v with
      | some (.str s) => some s
      | _ => none) = e := by
  intro h
  rcases v with _ | v
  · exact Option.some.inj h
  · cases v <;> first | exact Option.some.inj h | cases h

/-- A record has its coupon where it has a code and no malformed field. -/
theorem asCoupon_isSome : (asCoupon number item).isSome ↔ Coded item ∧ ¬ Malformed number item := by
  constructor
  · intro h
    obtain ⟨coupon, h⟩ := Option.isSome_iff_exists.mp h
    unfold asCoupon at h
    split at h
    · rename_i code hcode
      simp only [Option.bind_eq_bind, Option.bind_eq_some_iff] at h
      obtain ⟨_, hmin, _, honline, _, htype, _, hvalue, _, hcap, _, happlicable, _, hexpiry, -⟩ := h
      refine ⟨⟨code, hcode⟩, ?_⟩
      rintro (hbad | hbad | hbad | hbad | hbad | hbad | hbad)
      · exact Field.ne_malformed hmin hbad
      · exact Field.ne_malformed honline hbad
      · exact Field.ne_malformed htype hbad
      · exact Field.ne_malformed hvalue hbad
      · exact Field.ne_malformed hcap hbad
      · exact Field.ne_malformed happlicable hbad
      · exact Field.ne_malformed hexpiry hbad
    · cases h
  · rintro ⟨⟨code, hcode⟩, hgood⟩
    unfold Malformed at hgood
    simp only [not_or] at hgood
    obtain ⟨hmin, honline, htype, hvalue, hcap, happlicable, hexpiry⟩ := hgood
    obtain ⟨_, hmin⟩ := Field.exists_read 0 hmin
    obtain ⟨_, honline⟩ := Field.exists_read false honline
    obtain ⟨_, htype⟩ := Field.exists_read .flat htype
    obtain ⟨_, hvalue⟩ := Field.exists_read 0 hvalue
    obtain ⟨_, hcap⟩ := Field.exists_read none hcap
    obtain ⟨_, happlicable⟩ := Field.exists_read none happlicable
    obtain ⟨_, hexpiry⟩ := Field.exists_read none hexpiry
    simp [asCoupon, hcode, hmin, honline, htype, hvalue, hcap, happlicable, hexpiry]

/-- **A record that is not malformed** is read as it is meant. -/
theorem parsed_of_asCoupon (h : asCoupon number item = some coupon) :
    ∃ raw, RawCouponSchema number item = .ok (some raw) ∧ raw.toCoupon = coupon := by
  obtain ⟨code, hcode⟩ := (asCoupon_isSome.mp (Option.isSome_iff_exists.mpr ⟨coupon, h⟩)).1
  unfold asCoupon at h
  rw [hcode] at h
  simp only [Option.bind_eq_bind, Option.bind_eq_some_iff] at h
  obtain ⟨_, hmin, _, honline, _, htype, _, hvalue, _, hcap, _, happlicable, _, hexpiry, h⟩ := h
  obtain ⟨minCartValue, hminRead, rfl⟩ := amount_read hmin
  obtain ⟨discountValue, hvalueRead, rfl⟩ := amount_read hvalue
  unfold RawCouponSchema
  rw [hminRead, hvalueRead, cap_read hcap, hcode]
  cases h
  refine ⟨_, rfl, ?_⟩
  simp only [RawCoupon.toCoupon, Coupon.mk.injEq]
  refine ⟨trivial, discountType_read htype, trivial, trivial, trivial, ?_, applicable_read happlicable,
    expiry_read hexpiry⟩
  exact congrArg (fun b : Bool => if b = true then [PaymentMode.online] else [.cod]) (flag_read honline)

/-! ### Records on which the mapper throws -/

theorem nonnegativeInt_ok : (∃ o, nonnegativeInt number v = .ok o) ↔ ∀ w, v = some w → ¬ textless w := by
  constructor
  · rintro ⟨o, h⟩ w rfl htextless
    obtain ⟨q, hread, -⟩ := bind_eq_ok.mp h
    have hthrow : coerceNumber number (some w) =
        .error (.error "Cannot convert object to primitive value") := if_pos htextless
    rw [hthrow] at hread
    cases hread
  · exact fun h => ⟨_, nonnegativeInt_of_readable h⟩

theorem nullableInt_ok : (∃ o, nullableInt number v = .ok o) ↔ ∀ w, v = some w → ¬ textless w := by
  rcases v with _ | v
  · exact nonnegativeInt_ok
  · cases v with
    | null => exact iff_of_true ⟨_, rfl⟩ fun w hw => by cases hw; exact Bool.false_ne_true
    | _ => exact nonnegativeInt_ok

/-- A record is read unless one of its amounts has no text. -/
theorem parsed_ok : (∃ parsed, RawCouponSchema number item = .ok parsed) ↔ ¬ Throws item := by
  have hthrows : ¬ Throws item ↔ ∀ key ∈ amountKeys, ∀ w, item.get key = some w → ¬ textless w := by
    simp only [Throws, not_exists, not_and]
  rw [hthrows]
  simp only [amountKeys, List.forall_mem_cons]
  constructor
  · rintro ⟨parsed, h⟩
    obtain ⟨minCartValue, hmin, h⟩ := bind_eq_ok.mp h
    obtain ⟨discountValue, hvalue, h⟩ := bind_eq_ok.mp h
    obtain ⟨maxDiscount, hmax, -⟩ := bind_eq_ok.mp h
    exact ⟨nonnegativeInt_ok.mp ⟨_, hmin⟩, nonnegativeInt_ok.mp ⟨_, hvalue⟩, nullableInt_ok.mp ⟨_, hmax⟩, nofun⟩
  · rintro ⟨hmin, hvalue, hmax, -⟩
    obtain ⟨minCartValue, hmin⟩ := nonnegativeInt_ok.mpr hmin
    obtain ⟨discountValue, hvalue⟩ := nonnegativeInt_ok.mpr hvalue
    obtain ⟨maxDiscount, hmax⟩ := nullableInt_ok.mpr hmax
    unfold RawCouponSchema
    rw [hmin, hvalue, hmax]
    cases item.get "code" with
    | none => exact ⟨_, rfl⟩
    | some code => cases code <;> exact ⟨_, rfl⟩

/-- What is answered for a record is what it is read as. -/
theorem yields_eq : yields number item =
    (RawCouponSchema number item).map fun parsed => (parsed.map RawCoupon.toCoupon).toList := by
  unfold yields
  rw [mapped_arr, List.mapM_cons]
  cases RawCouponSchema number item with
  | error e => rfl
  | ok parsed => cases parsed <;> rfl

theorem coded_parsed (h : Coded item) {parsed : Option RawCoupon}
    (hparsed : RawCouponSchema number item = .ok parsed) : ∃ raw, parsed = some raw := by
  obtain ⟨code, hcode⟩ := h
  obtain ⟨minCartValue, -, hparsed⟩ := bind_eq_ok.mp hparsed
  obtain ⟨discountValue, -, hparsed⟩ := bind_eq_ok.mp hparsed
  obtain ⟨maxDiscount, -, hparsed⟩ := bind_eq_ok.mp hparsed
  rw [hcode] at hparsed
  cases hparsed
  exact ⟨_, rfl⟩

theorem parsed_of_not_coded (h : ¬ Coded item) {parsed : Option RawCoupon}
    (hparsed : RawCouponSchema number item = .ok parsed) : parsed = none := by
  obtain ⟨minCartValue, -, hparsed⟩ := bind_eq_ok.mp hparsed
  obtain ⟨discountValue, -, hparsed⟩ := bind_eq_ok.mp hparsed
  obtain ⟨maxDiscount, -, hparsed⟩ := bind_eq_ok.mp hparsed
  split at hparsed
  · rename_i code hcode
    exact absurd ⟨code, hcode⟩ h
  · cases hparsed
    rfl

/-- **One record** comes to what it should unless an amount of it has no text, or it has a code and a
malformed field. -/
theorem yields_iff : yields number item = .ok (asCoupon number item).toList ↔
    ¬ Throws item ∧ (Coded item → ¬ Malformed number item) := by
  rw [yields_eq]
  cases hcoupon : asCoupon number item with
  | some coupon =>
    have hright : Coded item ∧ ¬ Malformed number item := asCoupon_isSome.mp (by rw [hcoupon]; rfl)
    obtain ⟨raw, hraw, rfl⟩ := parsed_of_asCoupon hcoupon
    refine iff_of_true ?_ ⟨parsed_ok.mp ⟨_, hraw⟩, fun _ => hright.2⟩
    rw [hraw]
    rfl
  | none =>
    have hwrong : Coded item → Malformed number item := fun hcoded => by
      by_contra hgood
      have := asCoupon_isSome.mpr ⟨hcoded, hgood⟩
      rw [hcoupon] at this
      cases this
    constructor
    · intro h
      cases hparsed : RawCouponSchema number item with
      | error e =>
        rw [hparsed] at h
        cases h
      | ok parsed =>
        refine ⟨parsed_ok.mp ⟨_, hparsed⟩, fun hcoded => ?_⟩
        obtain ⟨raw, rfl⟩ := coded_parsed hcoded hparsed
        rw [hparsed] at h
        cases h
    · rintro ⟨hreads, hclean⟩
      obtain ⟨parsed, hparsed⟩ := parsed_ok.mpr hreads
      have hcoded : ¬ Coded item := fun h => hclean h (hwrong h)
      rw [hparsed, parsed_of_not_coded hcoded hparsed]
      rfl

/-- The records of a response, each read on its own. -/
theorem mapped_of_yields {items : List (Json ℚ)}
    (h : ∀ item ∈ items, yields number item = .ok (asCoupon number item).toList) :
    mapFetchFoodCouponsResponse number (some (.arr items)) =
      .ok (items.flatMap fun item => (asCoupon number item).toList) := by
  induction items with
  | nil => rfl
  | cons item items ih =>
    rw [List.forall_mem_cons] at h
    have hitem := h.1
    rw [yields_eq] at hitem
    obtain ⟨rest, hrest, hitems⟩ := bind_eq_ok.mp (ih h.2)
    rw [List.flatMap_cons, ← Except.ok.inj hitems]
    rw [mapped_arr, List.mapM_cons, hrest]
    cases hparsed : RawCouponSchema number item with
    | error e =>
      rw [hparsed] at hitem
      cases hitem
    | ok parsed =>
      rw [hparsed] at hitem
      rw [← Except.ok.inj hitem]
      cases parsed <;> rfl

end

/-- **When malformed records are dropped**: exactly where the mapper throws on no record and no record with a
code has a malformed field, so that there is none to drop but for its code. -/
theorem readAsMeant_iff (number : Json ℚ → Option ℚ) (items : List (Json ℚ)) :
    ReadAsMeant number items ↔
      ∀ item ∈ items, ¬ Throws item ∧ (Coded item → ¬ Malformed number item) := by
  unfold ReadAsMeant
  rw [and_iff_left_of_imp mapped_of_yields]
  exact forall₂_congr fun item _ => yields_iff

/-- A coupon of an unknown type, for carts of minus one paisa and more. -/
def bogo : Json ℚ :=
  .obj [("code", .str "BOGO"), ("discountType", .str "bogo"), ("discountValue", .num 5000),
    ("minCartValue", .num (-1))]

/-- It is taken as 5000 paise off any cart. -/
theorem not_readAsMeant : ¬ ∀ (number : Json ℚ → Option ℚ) (items : List (Json ℚ)), ReadAsMeant number items := by
  intro h
  have hread := (h (fun _ => none) [bogo]).1 bogo (List.mem_singleton_self _)
  exact absurd hread (by decide +kernel)

end Gusto.Hacker
