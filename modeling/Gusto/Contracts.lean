import Mathlib.Data.Rat.Defs

/-!
# Contracts

The data that the services hand each other.  Where a schema says `z.number().int()` the field is an
integer, and where it says `z.number()` it is a rational.  What the optimiser computes with is over any
type `ν` of numbers, the integers where none is named.
-/

set_option autoImplicit false

namespace Gusto

/-- An entry of the cart before optimisation; `price` is integer paise. -/
structure CartItem (ν : Type := ℤ) where
  itemId : String
  price : ν
  quantity : ν
  deriving DecidableEq, Repr

/-- What is ordered of an item. -/
structure OrderedItem (ν : Type := ℤ) where
  itemId : String
  quantity : ν
  deriving DecidableEq, Repr

/-- `CartItemSchema`, of what its type leaves open. -/
def CartItemSchema (item : CartItem) : Prop := 0 ≤ item.price ∧ 0 < item.quantity

instance : DecidablePred CartItemSchema := fun _ => inferInstanceAs (Decidable (_ ∧ _))

inductive Outcome
  | accepted
  | rejected
  deriving DecidableEq, Repr

/-- Why a coupon was taken or not. -/
structure DecisionLogEntry (ν : Type := ℤ) where
  couponCode : String
  outcome : Outcome
  reason : String
  computedTotal : Option ν
  deriving DecidableEq, Repr

def DecisionLogEntrySchema (entry : DecisionLogEntry) : Prop := ∀ total ∈ entry.computedTotal, 0 ≤ total

instance : DecidablePred DecisionLogEntrySchema := fun entry =>
  inferInstanceAs (Decidable (∀ total ∈ entry.computedTotal, _))

inductive DiscountType
  | flat
  | percentage
  deriving DecidableEq, Repr

inductive PaymentMode
  | online
  | cod
  | wallet
  deriving DecidableEq, Repr

/-- A coupon: `discountValue` is paise where it is flat, `maxDiscount` a cap where it is a percentage. -/
structure Coupon (ν : Type := ℤ) where
  code : String
  discountType : DiscountType
  discountValue : ν
  maxDiscount : Option ν
  minOrderValue : ν
  paymentModes : List PaymentMode
  isApplicable : Option Bool
  expiresAt : Option String
  deriving DecidableEq, Repr

def CouponSchema (coupon : Coupon) : Prop :=
  0 ≤ coupon.discountValue ∧ (∀ cap ∈ coupon.maxDiscount, 0 ≤ cap) ∧ 0 ≤ coupon.minOrderValue

instance : DecidablePred CouponSchema := fun _ => inferInstanceAs (Decidable (_ ∧ _ ∧ _))

/-- An item that may fill a cart up to the threshold of a coupon. -/
structure FillerCandidate (ν : Type := ℤ) where
  itemId : String
  price : ν
  category : Option String := none
  inStock : Bool
  deriving DecidableEq, Repr

def FillerCandidateSchema (candidate : FillerCandidate) : Prop := 0 < candidate.price

instance : DecidablePred FillerCandidateSchema := fun _ => inferInstanceAs (Decidable (_ < _))

/-- The cart the optimiser proposes and order-execution-service places. -/
structure OptimizedCart where
  items : List OrderedItem
  baseCost : ℚ
  fillerCost : ℚ := 0
  discountApplied : ℚ := 0
  finalTotal : ℚ
  savingsAchieved : ℚ := 0
  couponCode : Option String := none
  overBudget : Bool := false
  decisionLog : List DecisionLogEntry := []
  deriving DecidableEq, Repr

/-- `OptimizedCartSchema`, of what its type leaves open. -/
def OptimizedCartSchema (cart : OptimizedCart) : Prop :=
  (∀ item ∈ cart.items, 0 < item.quantity) ∧ 0 ≤ cart.baseCost ∧ 0 ≤ cart.fillerCost ∧
    0 ≤ cart.discountApplied ∧ 0 ≤ cart.finalTotal ∧ 0 ≤ cart.savingsAchieved ∧
    ∀ entry ∈ cart.decisionLog, DecisionLogEntrySchema entry

instance : DecidablePred OptimizedCartSchema := fun _ =>
  inferInstanceAs (Decidable (_ ∧ _ ∧ _ ∧ _ ∧ _ ∧ _ ∧ _))

/-- What `if (cart.couponCode)` lets through: an empty code is no coupon. -/
def OptimizedCart.coupon (cart : OptimizedCart) : Option String :=
  cart.couponCode.filter (· ≠ "")

/-- A dish; its price need not be an integer. -/
structure MenuItem where
  itemId : String
  restaurantId : String
  name : String
  price : ℚ
  description : Option String := none
  deriving DecidableEq, Repr

structure RankedMenuItem where
  itemId : String
  semanticTags : List String := []
  matchScore : ℚ
  deriving DecidableEq, Repr

inductive Diet
  | veg
  | nonVeg
  | eggetarian
  | vegan
  deriving DecidableEq, Repr

structure PreferenceProfile where
  diet : Diet
  spiceLevel : ℕ
  cuisineFavorites : List String
  nutritionTags : Option (List String) := none
  defaultAddressId : Option String := none
  defaultRestaurantId : Option String := none
  deriving DecidableEq, Repr

structure WeeklyBudget where
  totalAmount : ℤ
  spentSoFar : ℤ
  mealsRemaining : ℤ
  dailyAvgLimit : ℤ
  deriving DecidableEq, Repr

end Gusto
