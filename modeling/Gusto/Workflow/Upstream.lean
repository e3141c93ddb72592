import Gusto.Hacker.Books
import Gusto.Scout.Graph
import Gusto.Workflow.Proposal

/-!
# The services behind a proposal

What orchestrator-service is answered by ai-agent-service and by coupon-optimization-service.

* `parseOptimizeCartRequest`: the request that coupon-optimization-service takes;
* `Services`: the language model, the gateway, and all other services; `Services.env`: the environment
  that they make;
* `optimized`: what an answer of coupon-optimization-service says.

The carts that coupon-optimization-service answers are those of the search over the integers.
-/

set_option autoImplicit false

namespace Gusto.Workflow

open Effects WorkflowService

/-! ### The requests -/

/-- `CartItemSchema.safeParse`. -/
def parseCartItem (item : ProposedItem) : Option CartItem :=
  if item.price.den = 1 ∧ 0 ≤ item.price.num ∧ 0 < item.quantity then
    some { itemId := item.itemId, price := item.price.num, quantity := item.quantity }
  else none

/-- `OptimizeCartRequestSchema.safeParse`. -/
def parseOptimizeCartRequest (request : OptimizeCartRequest) : Option Hacker.OptimizeCartRequest :=
  match request.restaurantId, request.addressId, request.cartItems.mapM parseCartItem with
  | some restaurantId, some addressId, some cartItems =>
    if cartItems.isEmpty ∨ request.remainingDailyBudget < 0 then none
    else some
      { userId := request.userId, restaurantId, addressId, cartItems,
        remainingDailyBudget := request.remainingDailyBudget }
  | _, _, _ => none

/-- What a caller over HTTP gets where ai-agent-service throws: a body without a `message`. -/
def overFastApi : Err → Err
  | .http status _ =>
    .axios (some ⟨status, none, none⟩) ("Request failed with status code " ++ toString status)
  | _ => .axios (some ⟨500, none, none⟩) "Request failed with status code 500"

/-- What a body that does not parse is answered with. -/
def invalidBody : Err := .axios (some ⟨400, none, none⟩) "Request failed with status code 400"

/-! ### The services -/

/-- What the runtimes decide: the lower case of Python, the dates and strings of JavaScript, and how
its numbers are read. -/
structure Platform where
  lower : String → String
  js : Hacker.Runtime
  number : Json ℚ → Option ℚ

structure Services where
  llm : Scout.Claude
  gateway : Hacker.Gateway
  others : Env

namespace Services

variable (p : Platform) (services : Services)

/-- `POST /ai/scout/analyze`. -/
def analyze (request : ScoutAnalysisRequest) : Except Err (List RankedMenuItem) :=
  match Scout.ScoutAgent.analyze p.lower services.llm request.preferenceProfile request.menuItems
      (some request.weeklyBudget) with
  | .ok items => .ok (items.map (·.toRankedMenuItem))
  | .error err => .error (overFastApi err)

/-- `POST /optimize/cart`. -/
def optimizeCart (request : OptimizeCartRequest) : Except Err OptimizedCart :=
  match parseOptimizeCartRequest request with
  | none => .error invalidBody
  | some request =>
    match ((Hacker.HackerService.optimize p.js p.number request).eval Hacker.serveHacker
        services.gateway ()).1 with
    | .ok cart => .ok cart
    | .error err => .error err.overHttp

/-- A service is not reached, throws, or answers. -/
def answer {α : Type} (unreached : Option Err) (reply : Except Err α) (choice : α → WorkflowChoice) :
    WorkflowChoice :=
  match unreached, reply with
  | some err, _ => { error := some err }
  | none, .error err => { error := some err }
  | none, .ok a => choice a

/-- The environment of the workflow. -/
def env : Env
  | .analyze request => answer (services.others (.analyze request)).error (services.analyze p request)
      fun rankedItems => { rankedItems }
  | .optimizeCart request => answer (services.others (.optimizeCart request)).error
      (services.optimizeCart p request) fun optimizedCart => { optimizedCart }
  | i => services.others i

end Services

/-! ### What is answered -/

section

variable {p : Platform} {services : Services}

/-- Where no error is met, there is an answer. -/
theorem answer_of_error {α : Type} {unreached : Option Err} {reply : Except Err α}
    {choice : α → WorkflowChoice} (h : (Services.answer unreached reply choice).error = none) :
    ∃ a, reply = .ok a ∧ Services.answer unreached reply choice = choice a := by
  unfold Services.answer at *
  cases unreached with
  | some err => simp at h
  | none =>
    cases reply with
    | error err => simp at h
    | ok a => exact ⟨a, rfl, rfl⟩

/-- The optimiser has answered: the request parses, and the answer is the cart of the search. -/
theorem optimized {request : OptimizeCartRequest}
    (h : (services.env p (.optimizeCart request)).error = none) :
    ∃ parsed result, parseOptimizeCartRequest request = some parsed ∧
      Hacker.HackerAlgorithm.optimize p.js (services.gateway.input p.number parsed) = .ok result ∧
      (services.env p (.optimizeCart request)).optimizedCart =
        Hacker.HackerService.optimizedCart parsed.cartItems
          (services.gateway.input p.number parsed).fillerCandidates result := by
  obtain ⟨cart, hreply, hchoice⟩ := answer_of_error h
  have hcart : (services.env p (.optimizeCart request)).optimizedCart = cart :=
    congrArg WorkflowChoice.optimizedCart hchoice
  unfold Services.optimizeCart at hreply
  cases hparsed : parseOptimizeCartRequest request with
  | none =>
    rw [hparsed] at hreply
    cases hreply
  | some parsed =>
    rw [hparsed] at hreply
    dsimp only at hreply
    rw [Hacker.HackerService.optimize_under] at hreply
    cases hresult : Hacker.HackerAlgorithm.optimize p.js (services.gateway.input p.number parsed) with
    | error message =>
      rw [hresult] at hreply
      cases hreply
    | ok result =>
      rw [hresult] at hreply
      injection hreply with hreply
      exact ⟨parsed, result, rfl, hresult, hcart.trans hreply.symm⟩

/-- The request for a proposal has the proposal in its cart. -/
theorem cartItems_of_parse {env : Env} {userId : String} {addressId restaurantId : Option String}
    {proposal : MenuItem} {parsed : Hacker.OptimizeCartRequest}
    (h : parseOptimizeCartRequest (env.cartRequest userId addressId restaurantId proposal) =
      some parsed) : ∃ item, parsed.cartItems = [item] ∧ item.itemId = proposal.itemId := by
  unfold parseOptimizeCartRequest at h
  split at h
  · rename_i restaurantId' addressId' cartItems _ _ hitems
    split at h
    · cases h
    · cases h
      simp only [Env.cartRequest, List.mapM_cons, List.mapM_nil, Option.pure_def,
        Option.bind_eq_bind, Option.bind_some, Option.bind_eq_some_iff, Option.some.injEq] at hitems
      obtain ⟨item, hitem, rfl⟩ := hitems
      unfold parseCartItem at hitem
      split at hitem
      · cases hitem
        exact ⟨_, rfl, rfl⟩
      · cases hitem
  · cases h

end

end Gusto.Workflow
