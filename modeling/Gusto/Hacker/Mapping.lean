import Gusto.Contracts
import Gusto.Http
import Gusto.Lib.Json
import Mathlib.Data.List.ReduceOption

/-!
# coupon-optimization-service: the mappers

What the service reads of the responses of the gateway, of which it expects nothing:

* `mapFetchFoodCouponsResponse`: the coupons; a field that is not as expected has its fallback, and
  a record without a code is dropped;
* `mapMenuResponseToFillerCandidates`: the fillers of a page of a menu; a record without an id or a
  positive price is dropped.

`number` is what `Number` makes of a string or of an array; of other values it is given here.  It throws
where it finds no text for an object, and what it throws no `catch` of a schema takes.
-/

set_option autoImplicit false

namespace Gusto.Hacker

variable (number : Json ℚ → Option ℚ)

/-! ### Numbers -/

mutual

/-- A value that has no text: an object whose own `toString` hides that of all objects and cannot be
called, or an array with such an object in it. -/
def textless : Json ℚ → Bool
  | .obj fields => fields.any (·.1 = "toString")
  | .arr items => anyTextless items
  | _ => false

def anyTextless : List (Json ℚ) → Bool
  | [] => false
  | v :: vs => textless v || anyTextless vs

end

/-- `Number(v)`; `NaN` is `none`. -/
def coerce : Json ℚ → Option ℚ
  | .obj _ => none
  | .null => some 0
  | .bool b => some (if b then 1 else 0)
  | .num n => some n
  | v => number v

/-- `z.coerce.number()`. -/
def coerceNumber : Option (Json ℚ) → Except Err (Option ℚ)
  | none => .ok none
  | some v =>
    if textless v then .error (.error "Cannot convert object to primitive value")
    else .ok (coerce number v)

/-- An integer that is not negative. -/
def asAmount (n : ℚ) : Option ℤ := if n.den = 1 ∧ 0 ≤ n.num then some n.num else none

theorem nonneg_of_asAmount {q : ℚ} {n : ℤ} (h : asAmount q = some n) : 0 ≤ n := by
  unfold asAmount at h
  split at h
  · rename_i hc
    cases h
    exact hc.2
  · cases h

/-- `z.coerce.number().int().nonnegative()`. -/
def nonnegativeInt (v : Option (Json ℚ)) : Except Err (Option ℤ) := do
  return (← coerceNumber number v).bind asAmount

theorem nonneg_of_nonnegativeInt {v : Option (Json ℚ)} {o : Option ℤ}
    (h : nonnegativeInt number v = .ok o) : ∀ n ∈ o, 0 ≤ n := by
  intro n hn
  obtain ⟨q, -, h⟩ := bind_eq_ok.mp h
  cases h
  obtain ⟨q, -, hamount⟩ := Option.bind_eq_some_iff.mp hn
  exact nonneg_of_asAmount hamount

/-- `z.coerce.number().int().nonnegative().nullable()`. -/
def nullableInt : Option (Json ℚ) → Except Err (Option ℤ)
  | some .null => .ok none
  | v => nonnegativeInt number v

theorem nonneg_of_nullableInt {v : Option (Json ℚ)} {o : Option ℤ}
    (h : nullableInt number v = .ok o) : ∀ n ∈ o, 0 ≤ n := by
  unfold nullableInt at h
  split at h
  · cases h
    exact nofun
  · exact nonneg_of_nonnegativeInt number h

/-! ### Coupons -/

/-- A record of `fetch_food_coupons`, once it has been read. -/
structure RawCoupon where
  code : String
  minCartValue : ℤ
  requiresOnlinePayment : Bool
  discountType : DiscountType
  discountValue : ℤ
  maxDiscount : Option ℤ
  isApplicable : Option Bool
  expiresAt : Option String
  deriving DecidableEq, Repr

/-- `RawCouponSchema.safeParse`: every field is read, with or without a code. -/
def RawCouponSchema (item : Json ℚ) : Except Err (Option RawCoupon) := do
  let minCartValue ← nonnegativeInt number (item.get "minCartValue")
  let discountValue ← nonnegativeInt number (item.get "discountValue")
  let maxDiscount ← nullableInt number (item.get "maxDiscount")
  match item.get "code" with
  | some (.str code) =>
    return some
      { code
        minCartValue := minCartValue.getD 0
        requiresOnlinePayment :=
          match item.get "requiresOnlinePayment" with
          | some (.bool b) => b
          | _ => false
        discountType :=
          match item.get "discountType" with
          | some (.str s) => if s = "percentage" then .percentage else .flat
          | _ => .flat
        discountValue := discountValue.getD 0
        maxDiscount
        isApplicable :=
          match item.get "isApplicable" with
          | some (.bool b) => some b
          | _ => none
        expiresAt :=
          match item.get "expiresAt" with
          | some (.str s) => some s
          | _ => none }
  | _ => return none

def RawCoupon.toCoupon (raw : RawCoupon) : Coupon where
  code := raw.code
  discountType := raw.discountType
  discountValue := raw.discountValue
  maxDiscount := raw.maxDiscount
  minOrderValue := raw.minCartValue
  paymentModes := if raw.requiresOnlinePayment then [.online] else [.cod]
  isApplicable := raw.isApplicable
  expiresAt := raw.expiresAt

def mapFetchFoodCouponsResponse (raw : Option (Json ℚ)) : Except Err (List Coupon) :=
  match raw with
  | some (.arr items) => do
    let parsed ← items.mapM (RawCouponSchema number)
    return parsed.reduceOption.map RawCoupon.toCoupon
  | _ => .ok []

/-- What is answered for a response with a list of records. -/
theorem mapped_arr (items : List (Json ℚ)) : mapFetchFoodCouponsResponse number (some (.arr items)) =
    (do
      let parsed ← items.mapM (RawCouponSchema number)
      return parsed.reduceOption.map RawCoupon.toCoupon) := rfl

theorem nonneg_of_getD {v : Option (Json ℚ)} {o : Option ℤ} (h : nonnegativeInt number v = .ok o) :
    0 ≤ o.getD 0 := by
  cases o with
  | none => exact le_rfl
  | some n => exact nonneg_of_nonnegativeInt number h n rfl

/-- Each of what a list is read as is what one of its elements is read as. -/
theorem exists_of_mapM {α β : Type} {f : α → Except Err β} {l : List α} {l' : List β}
    (h : l.mapM f = .ok l') : ∀ b ∈ l', ∃ a ∈ l, f a = .ok b := by
  induction l generalizing l' with
  | nil =>
    cases h
    simp
  | cons a l ih =>
    rw [List.mapM_cons] at h
    obtain ⟨b, hb, h⟩ := bind_eq_ok.mp h
    obtain ⟨bs, hbs, h⟩ := bind_eq_ok.mp h
    cases h
    rw [List.forall_mem_cons]
    refine ⟨⟨a, by simp, hb⟩, fun b' hb' => ?_⟩
    obtain ⟨a', ha', hf⟩ := ih hbs b' hb'
    exact ⟨a', List.mem_cons_of_mem _ ha', hf⟩

theorem couponSchema_of_parsed {item : Json ℚ} {parsed : RawCoupon}
    (h : RawCouponSchema number item = .ok (some parsed)) : CouponSchema parsed.toCoupon := by
  obtain ⟨minCartValue, hmin, h⟩ := bind_eq_ok.mp h
  obtain ⟨discountValue, hvalue, h⟩ := bind_eq_ok.mp h
  obtain ⟨maxDiscount, hmax, h⟩ := bind_eq_ok.mp h
  split at h
  · cases h
    refine ⟨nonneg_of_getD number hvalue, fun cap hcap => ?_, nonneg_of_getD number hmin⟩
    exact nonneg_of_nullableInt number hmax cap hcap
  · cases h

/-- A coupon that is emitted is one of the contract; of a percentage it is only known that it is not
negative. -/
theorem couponSchema_of_mapped {raw : Option (Json ℚ)} {coupons : List Coupon}
    (h : mapFetchFoodCouponsResponse number raw = .ok coupons) :
    ∀ coupon ∈ coupons, CouponSchema coupon := by
  intro coupon hcoupon
  unfold mapFetchFoodCouponsResponse at h
  split at h
  · obtain ⟨parsed, hparsed, h⟩ := bind_eq_ok.mp h
    cases h
    obtain ⟨r, hr, rfl⟩ := List.mem_map.mp hcoupon
    obtain ⟨item, -, hitem⟩ := exists_of_mapM hparsed (some r) ((List.reduceOption_mem_iff).mp hr)
    exact couponSchema_of_parsed number hitem
  · cases h
    cases hcoupon

/-! ### Fillers -/

/-- `z.string().optional()`. -/
def optionalString : Option (Json ℚ) → Option (Option String)
  | none => some none
  | some (.str s) => some (some s)
  | some _ => none

/-- `RawMenuItemSchema.safeParse`, as the candidate that is pushed. -/
def RawMenuItemSchema (item : Json ℚ) : Except Err (Option FillerCandidate) := do
  let price ← coerceNumber number (item.get "price")
  return do
    let .str itemId ← item.get "id" | none
    let price ← price.bind positiveInt
    let category ← optionalString (item.get "category")
    let inStock :=
      match item.get "inStock" with
      | some (.bool b) => b
      | _ => true
    return { itemId, price, category, inStock }

/-- `z.array(z.unknown()).optional()`. -/
def itemsOf (v : Json ℚ) : Option (List (Json ℚ)) :=
  match v.get "items" with
  | none => some []
  | some (.arr items) => some items
  | some _ => none

/-- A category: an object whose items are a list, if it has any. -/
def categoryItems (category : Json ℚ) : Option (List (Json ℚ)) :=
  match category with
  | .obj _ => itemsOf category
  | _ => none

/-- `RawMenuResponseSchema.safeParse`, as the flat list of its items. -/
def RawMenuResponseSchema (raw : Option (Json ℚ)) : Option (List (Json ℚ)) := do
  let .obj fields ← raw | none
  let items ← itemsOf (.obj fields)
  let categories ←
    match (Json.obj fields).get "categories" with
    | none => some []
    | some (.arr categories) => categories.mapM categoryItems
    | some _ => none
  return items ++ categories.flatten

def mapMenuResponseToFillerCandidates (raw : Option (Json ℚ)) : Except Err (List FillerCandidate) := do
  let parsed ← ((RawMenuResponseSchema raw).getD []).mapM (RawMenuItemSchema number)
  return parsed.reduceOption

/-- A candidate that is emitted has a price. -/
theorem fillerCandidateSchema_of_mapped {raw : Option (Json ℚ)} {candidates : List FillerCandidate}
    (h : mapMenuResponseToFillerCandidates number raw = .ok candidates) :
    ∀ f ∈ candidates, FillerCandidateSchema f := by
  intro f hf
  obtain ⟨parsed, hparsed, h⟩ := bind_eq_ok.mp h
  cases h
  obtain ⟨item, -, hitem⟩ := exists_of_mapM hparsed (some f) ((List.reduceOption_mem_iff).mp hf)
  obtain ⟨price, -, hitem⟩ := bind_eq_ok.mp hitem
  have hitem := Except.ok.inj hitem
  simp only [Option.bind_eq_bind, Option.bind_eq_some_iff] at hitem
  obtain ⟨id, -, hid⟩ := hitem
  split at hid
  · simp only [Option.bind_eq_some_iff] at hid
    obtain ⟨price, ⟨q, -, hq⟩, category, -, hf⟩ := hid
    cases hf
    exact (positiveInt_eq_some.mp hq).2
  · cases hid

end Gusto.Hacker
