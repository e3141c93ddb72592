import Gusto.Contracts
import Gusto.Lib.Number
import Mathlib.Algebra.Ring.Int.Defs
import Mathlib.Data.List.Sort

/-!
# coupon-optimization-service: `HackerAlgorithm`

The search for the coupon, and for the one or two fillers, under which a cart is cheapest:

* `HackerAlgorithm.discount`, `checkEligibility`, `bestFillerCombo`: the parts of the search;
* `HackerAlgorithm.optimizeSingleCoupon`: what a coupon comes to;
* `HackerAlgorithm.optimize`: the winner among the coupons and the cart as it is.

The search is over any type `ν` of numbers: the `Number` of the runtime, with which the code computes,
and the integers, which `Hacker.Exact` shows to come to the same as long as no sum, product or
difference of paise passes 2⁵³ - 1.  The sort of the runtime is stable, which with a comparison that is
total and transitive leaves one result; where a total is not a number the comparison is neither, the
language leaves the order open, and here it is that of an insertion sort.
-/

set_option autoImplicit false

namespace Gusto.Hacker

/-! ### Data -/

/-- What the runtime and its locale decide. -/
structure Runtime where
  /-- The instant that a date string names; of an invalid date there is none. -/
  parseDate : String → Option ℤ
  localeCompare : String → String → ℤ
  localeCompare_total (a b : String) : localeCompare a b ≤ 0 ∨ localeCompare b a ≤ 0
  localeCompare_trans (a b c : String) :
    localeCompare a b ≤ 0 → localeCompare b c ≤ 0 → localeCompare a c ≤ 0

/-- What the search asks of its numbers beside sums, products and comparisons. -/
class Amount (ν : Type) where
  /-- `Math.floor(a / 100)`. -/
  floorHundredth (a : ν) : ν
  /-- What a sort is told by `a - b`. -/
  order (a b : ν) : ℤ

instance : Amount ℤ where
  floorHundredth a := a / 100
  order a b := a - b

instance : Amount Binary64.Number where
  floorHundredth a := a.hundredth.floor
  order := Binary64.Number.order

structure OptimizationInput (ν : Type := ℤ) where
  cartItems : List (CartItem ν)
  coupons : List (Coupon ν)
  fillerCandidates : List (FillerCandidate ν)
  remainingDailyBudget : ν
  now : ℤ
  deriving DecidableEq, Repr

structure OptimizationResult (ν : Type := ℤ) where
  finalItems : List (OrderedItem ν)
  appliedCouponCode : Option String
  baseTotal : ν
  finalTotal : ν
  savingsAchieved : ν
  overBudget : Bool
  decisionLog : List (DecisionLogEntry ν)
  deriving DecidableEq, Repr

structure Contender (ν : Type := ℤ) where
  couponCode : Option String
  items : List (OrderedItem ν)
  total : ν
  fillersAdded : List String
  deriving DecidableEq, Repr

/-- The fillers that close a gap. -/
structure FillerCombo (ν : Type := ℤ) where
  itemIds : List String
  totalPrice : ν
  deriving DecidableEq, Repr

inductive Eligibility
  | eligible
  | ineligible (reason : String)
  deriving DecidableEq, Repr

/-- What a coupon comes to. -/
structure CouponOutcome (ν : Type := ℤ) where
  contender : Option (Contender ν)
  logEntry : DecisionLogEntry ν
  deriving DecidableEq, Repr

def FILLER_TIEBREAK_CATEGORIES : List String := ["side", "beverage", "dessert"]

namespace HackerAlgorithm

variable {ν : Type} [OfNat ν 0] [OfNat ν 1] [Add ν] [Sub ν] [Mul ν] [Min ν] [BEq ν] [LT ν] [LE ν]
  [DecidableLT ν] [DecidableLE ν] [ToString ν] [Amount ν]

/-! ### The parts of the search -/

def discount (amount : ν) (coupon : Coupon ν) : ν :=
  match coupon.discountType with
  | .flat => min coupon.discountValue amount
  | .percentage =>
    let raw := Amount.floorHundredth (amount * coupon.discountValue)
    min raw (coupon.maxDiscount.getD raw)

/-- `coupon.expiresAt && new Date(coupon.expiresAt) <= now`. -/
def expired (js : Runtime) (coupon : Coupon ν) (now : ℤ) : Bool :=
  match coupon.expiresAt with
  | some expiresAt => expiresAt ≠ "" && (js.parseDate expiresAt).any (· ≤ now)
  | none => false

def checkEligibility (js : Runtime) (coupon : Coupon ν) (baseTotal : ν) (now : ℤ)
    (affordableFillerBudget : ν) : Eligibility :=
  if coupon.isApplicable = some false then .ineligible "not applicable"
  else if expired js coupon now then .ineligible "expired"
  else if .online ∉ coupon.paymentModes ∧ .cod ∉ coupon.paymentModes then
    .ineligible "payment mode mismatch"
  else if coupon.minOrderValue > baseTotal + affordableFillerBudget then
    .ineligible "not globally optimal"
  else .eligible

/-- A category that is preferred where two fillers cost the same. -/
def preferred (candidate : FillerCandidate ν) : Bool :=
  candidate.category.getD "" ∈ FILLER_TIEBREAK_CATEGORIES

/-- The body of the scan for one filler. -/
def cheaper (gap : ν) (best : Option (FillerCandidate ν)) (candidate : FillerCandidate ν) :
    Option (FillerCandidate ν) :=
  if candidate.price < gap then best
  else
    match best with
    | none => some candidate
    | some best =>
      if candidate.price < best.price then some candidate
      else if candidate.price == best.price then
        if preferred candidate && !preferred best then some candidate else some best
      else some best

/-- The scan for two fillers from the positions `i` and `j = i + d`, with the best pair so far. -/
def twoFillers (gap : ν) (candidates : List (FillerCandidate ν)) :
    ℕ → ℕ → Option (FillerCombo ν) → Option (FillerCombo ν)
  | 0, _, bestPair => bestPair
  | d + 1, i, bestPair =>
    match candidates[i]?, candidates[i + (d + 1)]? with
    | some first, some second =>
      let sum := first.price + second.price
      if sum ≥ gap then
        twoFillers gap candidates d i
          (if bestPair.all (sum < ·.totalPrice) then
            some { itemIds := [first.itemId, second.itemId], totalPrice := sum }
          else bestPair)
      else twoFillers gap candidates d (i + 1) bestPair
    | _, _ => bestPair

def bestFillerCombo (gap : ν) (candidates : List (FillerCandidate ν)) : Option (FillerCombo ν) :=
  match candidates.foldl (cheaper gap) none with
  | some best => some { itemIds := [best.itemId], totalPrice := best.price }
  | none => twoFillers gap candidates (candidates.length - 1) 0 none

/-- The loop of `prepareFillerCandidates`, with the ids that have been seen. -/
def dedupe (affordableFillerBudget : ν) :
    List String → List (FillerCandidate ν) → List (FillerCandidate ν)
  | _, [] => []
  | seen, candidate :: candidates =>
    if candidate.itemId ∈ seen then dedupe affordableFillerBudget seen candidates
    else
      let seen := candidate.itemId :: seen
      if !candidate.inStock then dedupe affordableFillerBudget seen candidates
      else if candidate.price ≤ 0 then dedupe affordableFillerBudget seen candidates
      else if candidate.price > affordableFillerBudget then
        dedupe affordableFillerBudget seen candidates
      else candidate :: dedupe affordableFillerBudget seen candidates

def prepareFillerCandidates (candidates : List (FillerCandidate ν)) (affordableFillerBudget : ν) :
    List (FillerCandidate ν) :=
  (dedupe affordableFillerBudget [] candidates).insertionSort
    fun a b => Amount.order a.price b.price ≤ 0

/-! ### What a coupon comes to -/

/-- A coupon that is turned down. -/
def rejected (coupon : Coupon ν) (reason : String) (computedTotal : Option ν) : CouponOutcome ν where
  contender := none
  logEntry := { couponCode := coupon.code, outcome := .rejected, reason, computedTotal }

/-- The end of `optimizeSingleCoupon`, once it is clear what is ordered. -/
def judge (coupon : Coupon ν) (items : List (OrderedItem ν)) (fillersAdded : List String)
    (amountForDiscount baseTotal remainingDailyBudget : ν) : CouponOutcome ν :=
  let total := amountForDiscount - discount amountForDiscount coupon
  if total ≥ baseTotal then
    rejected coupon "reaches threshold but not cheaper than paying B directly" (some total)
  else if total > remainingDailyBudget then
    rejected coupon "would exceed remaining daily budget" (some total)
  else
    { contender := some { couponCode := some coupon.code, items, total, fillersAdded }
      logEntry := { couponCode := coupon.code, outcome := .accepted, reason := "accepted",
                    computedTotal := some total } }

def optimizeSingleCoupon (coupon : Coupon ν) (baselineItems : List (OrderedItem ν)) (baseTotal : ν)
    (sortedFillerCandidates : List (FillerCandidate ν)) (remainingDailyBudget : ν) : CouponOutcome ν :=
  if baseTotal < coupon.minOrderValue then
    match bestFillerCombo (coupon.minOrderValue - baseTotal) sortedFillerCandidates with
    | none => rejected coupon "no affordable filler combination reaches the threshold" none
    | some combo =>
      judge coupon (baselineItems ++ combo.itemIds.map fun itemId => { itemId, quantity := 1 })
        combo.itemIds (baseTotal + combo.totalPrice) baseTotal remainingDailyBudget
  else judge coupon baselineItems [] baseTotal baseTotal remainingDailyBudget

/-- The body of the loop over the coupons. -/
def considerCoupon (js : Runtime) (baselineItems : List (OrderedItem ν))
    (baseTotal remainingDailyBudget : ν) (now : ℤ) (sortedFillerCandidates : List (FillerCandidate ν))
    (coupon : Coupon ν) : CouponOutcome ν :=
  match checkEligibility js coupon baseTotal now (remainingDailyBudget - baseTotal) with
  | .ineligible reason => rejected coupon reason none
  | .eligible =>
    optimizeSingleCoupon coupon baselineItems baseTotal sortedFillerCandidates remainingDailyBudget

/-! ### The winner -/

/-- The comparison of `selectWinner`. -/
def compareContenders (js : Runtime) (a b : Contender ν) : ℤ :=
  if a.total != b.total then Amount.order a.total b.total
  else if (!a.fillersAdded.isEmpty) ≠ (!b.fillersAdded.isEmpty) then
    if a.fillersAdded.isEmpty then 1 else -1
  else if a.items.length ≠ b.items.length then (a.items.length : ℤ) - b.items.length
  else js.localeCompare (a.couponCode.getD "") (b.couponCode.getD "")

/-- `sorted[0]`, of contenders of which `baseline` is the first. -/
def selectWinner (js : Runtime) (baseline : Contender ν) (others : List (Contender ν)) : Contender ν :=
  (((baseline :: others).insertionSort fun a b => compareContenders js a b ≤ 0).head?).getD baseline

def buildResult (winner : Contender ν) (baseTotal remainingDailyBudget : ν)
    (decisionLog : List (DecisionLogEntry ν)) : Except String (OptimizationResult ν) :=
  if winner.total < 0 then
    .error s!"HackerAlgorithm invariant violated: finalTotal {winner.total} < 0"
  else
    .ok
      { finalItems := winner.items
        appliedCouponCode := winner.couponCode
        baseTotal
        finalTotal := winner.total
        savingsAchieved := baseTotal - winner.total
        overBudget := winner.total > remainingDailyBudget
        decisionLog }

/-- B, the price of the cart as it is. -/
def baseTotal (cartItems : List (CartItem ν)) : ν :=
  cartItems.foldl (fun sum item => sum + item.price * item.quantity) 0

def optimize (js : Runtime) (input : OptimizationInput ν) : Except String (OptimizationResult ν) :=
  let baseTotal := baseTotal input.cartItems
  let baselineItems : List (OrderedItem ν) :=
    input.cartItems.map fun item => { itemId := item.itemId, quantity := item.quantity }
  let baseline : Contender ν :=
    { couponCode := none, items := baselineItems, total := baseTotal, fillersAdded := [] }
  if input.cartItems.isEmpty || baseTotal == 0 then
    buildResult baseline baseTotal input.remainingDailyBudget []
  else
    let sortedFillerCandidates :=
      prepareFillerCandidates input.fillerCandidates (input.remainingDailyBudget - baseTotal)
    let outcomes := input.coupons.map (considerCoupon js baselineItems baseTotal
      input.remainingDailyBudget input.now sortedFillerCandidates)
    buildResult (selectWinner js baseline (outcomes.filterMap (·.contender))) baseTotal
      input.remainingDailyBudget (outcomes.map (·.logEntry))

end HackerAlgorithm

/-! ### Integers -/

@[simp] theorem floorHundredth_int (a : ℤ) : Amount.floorHundredth a = a / 100 := rfl
@[simp] theorem order_int (a b : ℤ) : Amount.order a b = a - b := rfl

theorem foldl_add_eq_sum {α : Type} (value : α → ℤ) (l : List α) :
    l.foldl (fun sum x => sum + value x) 0 = (l.map value).sum := by
  rw [List.sum_eq_foldl, List.foldl_map]

/-- Of integers B is a sum. -/
theorem baseTotal_eq_sum (cartItems : List CartItem) :
    HackerAlgorithm.baseTotal cartItems =
      (cartItems.map fun item => item.price * item.quantity).sum :=
  foldl_add_eq_sum _ cartItems

end Gusto.Hacker
