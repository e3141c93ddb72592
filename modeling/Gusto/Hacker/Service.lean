import Gusto.Hacker.Mapping
import Gusto.Hacker.Result
import Gusto.Lib.Prog

/-!
# coupon-optimization-service: `HackerService`

The service as a program over its calls to the gateway and to the event bus.

* `HackerService.fetchCoupons`, `fetchFillerCandidates`: what is read of the gateway; where it fails
  the service goes on with what it has;
* `HackerService.optimize`: the search, and the books of the cart that it answers;
* `optimize_under`: served by a gateway, it answers what `HackerAlgorithm` finds, with these books.

The search is here over the integers, which is what the code computes where `OptimizationInput.Exact`
holds of its input: `optimize_numbers` of `Hacker.Exact`, and `computed_of_result` of `Hacker.Books` for the
books.
-/

set_option autoImplicit false

namespace Gusto.Hacker

open Effects

/-! ### The calls -/

/-- A request that has been checked; it has at least one item. -/
structure OptimizeCartRequest where
  userId : String
  restaurantId : String
  addressId : String
  cartItems : List CartItem
  remainingDailyBudget : ℤ
  deriving DecidableEq, Repr

/-- A response of the gateway. -/
structure McpToolResponse where
  success : Bool
  data : Option (Json ℚ) := none

inductive HackerOp
  | fetch_food_coupons (restaurantId addressId userId : String)
  | get_restaurant_menu (addressId restaurantId : String) (page : ℕ) (userId : String)
  | now
  | publishCartOptimized (userId : String) (optimizedCart : OptimizedCart)

/-- What each call answers. -/
abbrev HackerOp.Answer : HackerOp → Type
  | .fetch_food_coupons _ _ _ | .get_restaurant_menu _ _ _ _ => McpToolResponse
  | .now => ℤ
  | .publishCartOptimized _ _ => Unit

/-- Programs of coupon-optimization-service. -/
abbrev HackerProg (α : Type) : Type := Prog HackerOp HackerOp.Answer Err α

namespace McpGateway

def fetch_food_coupons (request : OptimizeCartRequest) : HackerProg McpToolResponse :=
  Prog.await (HackerOp.fetch_food_coupons request.restaurantId request.addressId request.userId)

def get_restaurant_menu (request : OptimizeCartRequest) (page : ℕ) : HackerProg McpToolResponse :=
  Prog.await (HackerOp.get_restaurant_menu request.addressId request.restaurantId page request.userId)

end McpGateway

/-! ### `HackerService` -/

def MAX_MENU_PAGES : ℕ := 6

def MIN_FILLER_CANDIDATES_TARGET : ℕ := 60

namespace HackerService

variable (js : Runtime) (number : Json ℚ → Option ℚ) (request : OptimizeCartRequest)

def fetchCoupons : HackerProg (List Coupon) := do
  match ← (McpGateway.fetch_food_coupons request).attempt with
  | .error _ => return []
  | .ok response =>
    if !response.success then return []
    else
      match mapFetchFoodCouponsResponse number response.data with
      | .error _ => return []
      | .ok coupons => return coupons

/-- The loop of `fetchFillerCandidates`, with the pages that are left, from `page` on. -/
def fetchPages : ℕ → ℕ → List FillerCandidate → HackerProg (List FillerCandidate)
  | 0, _, candidates => return candidates
  | pages + 1, page, candidates => do
    match ← (McpGateway.get_restaurant_menu request page).attempt with
    | .error _ => return candidates
    | .ok response =>
      if !response.success then return candidates
      else
        match mapMenuResponseToFillerCandidates number response.data with
        | .error _ => return candidates
        | .ok pageItems =>
          if pageItems.isEmpty then return candidates
          else
            let candidates := candidates ++ pageItems
            if candidates.length ≥ MIN_FILLER_CANDIDATES_TARGET then return candidates
            else fetchPages pages (page + 1) candidates

def fetchFillerCandidates : HackerProg (List FillerCandidate) :=
  fetchPages number request MAX_MENU_PAGES 1 []

section Books

variable {ν : Type} [OfNat ν 0] [Add ν] [Sub ν] [Mul ν]

/-- The entry of `new Map(...)`: of two candidates with one id the later one. -/
def fillerCandidateByItemId (candidates : List (FillerCandidate ν)) (itemId : String) :
    Option (FillerCandidate ν) :=
  candidates.reverse.find? (·.itemId = itemId)

/-- What a filler of an order costs, as it is read back. -/
def fillerItemCost (candidates : List (FillerCandidate ν)) (item : OrderedItem ν) : ν :=
  match fillerCandidateByItemId candidates item.itemId with
  | some candidate => candidate.price * item.quantity
  | none => 0

/-- The price of the fillers, as it is read back from what is ordered. -/
def fillerCost (cartItems : List (CartItem ν)) (candidates : List (FillerCandidate ν))
    (finalItems : List (OrderedItem ν)) : ν :=
  let fillerItemIds := cartItems.map (·.itemId)
  let fillerItems := finalItems.filter (·.itemId ∉ fillerItemIds)
  fillerItems.foldl (fun sum item => sum + fillerItemCost candidates item) 0

/-- What is said to be taken off. -/
def discountApplied (result : OptimizationResult ν) (fillerCost : ν) : ν :=
  result.baseTotal + fillerCost - result.finalTotal

end Books

/-- The cart that is answered. -/
def optimizedCart (cartItems : List CartItem) (candidates : List FillerCandidate)
    (result : OptimizationResult) : OptimizedCart :=
  let fillerCost := fillerCost cartItems candidates result.finalItems
  { items := result.finalItems
    baseCost := result.baseTotal
    fillerCost
    discountApplied := (discountApplied result fillerCost : ℤ)
    finalTotal := result.finalTotal
    savingsAchieved := result.savingsAchieved
    couponCode := result.appliedCouponCode
    overBudget := result.overBudget
    decisionLog := result.decisionLog }

def optimize : HackerProg OptimizedCart := do
  let coupons ← fetchCoupons number request
  let fillerCandidates ← fetchFillerCandidates number request
  let now ← Prog.await HackerOp.now
  match HackerAlgorithm.optimize js
    { cartItems := request.cartItems, coupons, fillerCandidates,
      remainingDailyBudget := request.remainingDailyBudget, now } with
  | .error message => throw (.error message)
  | .ok result =>
    let optimizedCart := optimizedCart request.cartItems fillerCandidates result
    let _ ← (Prog.await (HackerOp.publishCartOptimized request.userId optimizedCart)).attempt
    return optimizedCart

end HackerService

/-! ### The gateway -/

/-- What the service meets: the answers of the gateway, the clock, and whether the bus takes events. -/
structure Gateway where
  coupons : Except Err McpToolResponse
  menu : ℕ → Except Err McpToolResponse
  now : ℤ
  publish : Except Err Unit := .ok ()

/-- The calls, served by a gateway. -/
def serveHacker : Handler HackerOp HackerOp.Answer Err Unit Gateway
  | gateway, .fetch_food_coupons _ _ _, s => (gateway.coupons, s)
  | gateway, .get_restaurant_menu _ _ page _, s => (gateway.menu page, s)
  | gateway, .now, s => (.ok gateway.now, s)
  | gateway, .publishCartOptimized _ _, s => (gateway.publish, s)

namespace Gateway

variable (gateway : Gateway) (number : Json ℚ → Option ℚ)

/-- The data of a response that was had. -/
def dataOf : Except Err McpToolResponse → Option (Option (Json ℚ))
  | .ok response => if response.success then some response.data else none
  | .error _ => none

/-- The coupons of the gateway; none where the mapper throws. -/
def couponList : List Coupon :=
  match dataOf gateway.coupons with
  | some data => (mapFetchFoodCouponsResponse number data).toOption.getD []
  | none => []

/-- The fillers of a page of the gateway; none where the mapper throws. -/
def pageItems (page : ℕ) : List FillerCandidate :=
  match dataOf (gateway.menu page) with
  | some data => (mapMenuResponseToFillerCandidates number data).toOption.getD []
  | none => []

/-- The fillers that are read, with what has been read before the pages that are left. -/
def readPages : ℕ → ℕ → List FillerCandidate → List FillerCandidate
  | 0, _, candidates => candidates
  | pages + 1, page, candidates =>
    if (gateway.pageItems number page).isEmpty then candidates
    else if (candidates ++ gateway.pageItems number page).length ≥ MIN_FILLER_CANDIDATES_TARGET then
      candidates ++ gateway.pageItems number page
    else readPages pages (page + 1) (candidates ++ gateway.pageItems number page)

/-- The input of the search for a request. -/
def input (request : OptimizeCartRequest) : OptimizationInput where
  cartItems := request.cartItems
  coupons := gateway.couponList number
  fillerCandidates := gateway.readPages number MAX_MENU_PAGES 1 []
  remainingDailyBudget := request.remainingDailyBudget
  now := gateway.now

end Gateway

namespace HackerService

variable {js : Runtime} {number : Json ℚ → Option ℚ} {request : OptimizeCartRequest}
  {gateway : Gateway} {β : Type}

theorem fetchCoupons_bind (f : List Coupon → HackerProg β) :
    (fetchCoupons number request >>= f).eval serveHacker gateway () =
      (f (gateway.couponList number)).eval serveHacker gateway () := by
  unfold fetchCoupons Gateway.couponList Gateway.dataOf
  simp only [McpGateway.fetch_food_coupons, Prog.await, Prog.attempt_call, Prog.call_bind,
    Prog.eval_call, serveHacker]
  cases gateway.coupons with
  | error e => rfl
  | ok response =>
    cases hs : response.success with
    | false => simp [hs]
    | true =>
      cases hmap : mapFetchFoodCouponsResponse number response.data <;>
        simp [hs, hmap, Except.toOption]

theorem fetchPages_bind (pages page : ℕ) (candidates : List FillerCandidate)
    (f : List FillerCandidate → HackerProg β) :
    (fetchPages number request pages page candidates >>= f).eval serveHacker gateway () =
      (f (gateway.readPages number pages page candidates)).eval serveHacker gateway () := by
  induction pages generalizing page candidates with
  | zero => rfl
  | succ pages ih =>
    unfold fetchPages Gateway.readPages
    simp only [McpGateway.get_restaurant_menu, Prog.await, Prog.attempt_call, Prog.call_bind,
      Prog.eval_call, serveHacker]
    cases hmenu : gateway.menu page with
    | error e =>
      have hnone : gateway.pageItems number page = [] := by simp [Gateway.pageItems, Gateway.dataOf, hmenu]
      rw [hnone]
      rfl
    | ok response =>
      cases hs : response.success with
      | false =>
        have hnone : gateway.pageItems number page = [] := by
          simp [Gateway.pageItems, Gateway.dataOf, hmenu, hs]
        simp [hs, hnone]
      | true =>
        simp only [Prog.attempt_ret, Prog.ret_bind, hs, Bool.not_true, Bool.false_eq_true, if_false]
        cases hmap : mapMenuResponseToFillerCandidates number response.data with
        | error e =>
          have hnone : gateway.pageItems number page = [] := by
            simp [Gateway.pageItems, Gateway.dataOf, hmenu, hs, hmap, Except.toOption]
          rw [hnone]
          rfl
        | ok pageItems =>
          have hitems : gateway.pageItems number page = pageItems := by
            simp [Gateway.pageItems, Gateway.dataOf, hmenu, hs, hmap, Except.toOption]
          rw [hitems]
          dsimp only
          split_ifs with hempty hmany
          · rfl
          · rfl
          · exact ih _ _

/-- **What the service answers**, served by a gateway. -/
theorem optimize_under : (optimize js number request).eval serveHacker gateway () =
    (match HackerAlgorithm.optimize js (gateway.input number request) with
      | .error message => .error (.error message)
      | .ok result => .ok (optimizedCart request.cartItems
        (gateway.input number request).fillerCandidates result), ()) := by
  unfold optimize fetchFillerCandidates
  rw [fetchCoupons_bind, fetchPages_bind]
  simp only [Prog.await, Prog.call_bind, Prog.eval_call, serveHacker]
  simp only [Prog.ret_bind]
  change Prog.eval serveHacker gateway
    (match HackerAlgorithm.optimize js (gateway.input number request) with
    | .error message => _
    | .ok result => _) () = _
  cases HackerAlgorithm.optimize js (gateway.input number request) with
  | error message => rfl
  | ok result =>
    simp only [Prog.attempt_call, Prog.call_bind, Prog.eval_call, serveHacker]
    cases gateway.publish <;> rfl

end HackerService

/-! ### What is read of the gateway -/

section Schemas

variable {number : Json ℚ → Option ℚ} {gateway : Gateway}

/-- Every coupon that is read of the gateway is of the schema. -/
theorem couponSchema_couponList : ∀ coupon ∈ gateway.couponList number, CouponSchema coupon := by
  intro coupon hcoupon
  unfold Gateway.couponList at hcoupon
  split at hcoupon
  · rename_i data _
    cases hmap : mapFetchFoodCouponsResponse number data with
    | error e =>
      rw [hmap] at hcoupon
      cases hcoupon
    | ok coupons =>
      rw [hmap] at hcoupon
      exact couponSchema_of_mapped number hmap coupon hcoupon
  · cases hcoupon

theorem fillerCandidateSchema_pageItems {page : ℕ} :
    ∀ f ∈ gateway.pageItems number page, FillerCandidateSchema f := by
  intro f hf
  unfold Gateway.pageItems at hf
  split at hf
  · rename_i data _
    cases hmap : mapMenuResponseToFillerCandidates number data with
    | error e =>
      rw [hmap] at hf
      cases hf
    | ok candidates =>
      rw [hmap] at hf
      exact fillerCandidateSchema_of_mapped number hmap f hf
  · cases hf

/-- Every candidate that is read of the gateway has a price. -/
theorem fillerCandidateSchema_readPages {pages page : ℕ} {candidates : List FillerCandidate}
    (h : ∀ f ∈ candidates, FillerCandidateSchema f) :
    ∀ f ∈ gateway.readPages number pages page candidates, FillerCandidateSchema f := by
  induction pages generalizing page candidates with
  | zero => exact h
  | succ pages ih =>
    have hpage : ∀ f ∈ candidates ++ gateway.pageItems number page, FillerCandidateSchema f :=
      List.forall_mem_append.mpr ⟨h, fillerCandidateSchema_pageItems⟩
    unfold Gateway.readPages
    split
    · exact h
    · split
      · exact hpage
      · exact ih hpage

end Schemas

end Gusto.Hacker
