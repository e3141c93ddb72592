import Gusto.Contracts
import Gusto.Http
import Mathlib.Algebra.Order.Ring.Rat
import Mathlib.Data.List.Sort

/-!
# orchestrator-service: `WorkflowService`

The meal of one day, as programs over the calls to the `workflow_state` table and to the services
upstream:

* `WorkflowStateMachine.canTransition`: the phases of a day and the edges between them;
* `WorkflowService.runScoutPhase`, `handleUserDecision`, `sendReminderIfPending`, `finalizeIfPending`;
* `WorkflowService.approve`, `skip`, `swap`, `fetchMenu`, `selectNextCandidate`.

A row is known by its user and its day, and its uuid is another name for these.  What the code asks
for at once (`Promise.all`) is asked for in turn.
-/

set_option autoImplicit false

namespace Gusto.Workflow

open Effects

/-! ### `WorkflowStateMachine` -/

inductive WorkflowPhase
  | SCOUTING
  | OPTIMIZING
  | AWAITING_APPROVAL
  | APPROVED
  | EXECUTING
  | COMPLETE
  | SKIPPED
  deriving DecidableEq, Repr

instance : ToString WorkflowPhase where
  toString
    | .SCOUTING => "SCOUTING"
    | .OPTIMIZING => "OPTIMIZING"
    | .AWAITING_APPROVAL => "AWAITING_APPROVAL"
    | .APPROVED => "APPROVED"
    | .EXECUTING => "EXECUTING"
    | .COMPLETE => "COMPLETE"
    | .SKIPPED => "SKIPPED"

def TRANSITIONS : WorkflowPhase → List WorkflowPhase
  | .SCOUTING => [.OPTIMIZING]
  | .OPTIMIZING => [.AWAITING_APPROVAL]
  | .AWAITING_APPROVAL => [.AWAITING_APPROVAL, .APPROVED, .SKIPPED]
  | .APPROVED => [.EXECUTING]
  | .EXECUTING => [.COMPLETE]
  | .COMPLETE => []
  | .SKIPPED => []

/-- `WorkflowStateMachine.canTransition`. -/
def canTransition (start next : WorkflowPhase) : Bool := (TRANSITIONS start).contains next

/-! ### Data -/

inductive Decision
  | APPROVE
  | SWAP
  | SKIP
  deriving DecidableEq, Repr

/-- The `shortlist` column. -/
structure ShortlistState where
  rankedItems : List RankedMenuItem
  currentItem : MenuItem
  deriving DecidableEq, Repr

/-- The user and the UTC day of a row. -/
structure RowId where
  userId : String
  cycleDate : ℤ
  deriving DecidableEq, Repr

/-- A row of `workflow_state`. -/
structure WorkflowRow where
  phase : WorkflowPhase
  addressId : Option String := none
  restaurantId : Option String := none
  shortlist : Option ShortlistState := none
  optimizedCart : Option OptimizedCart := none
  rejectedItemIds : Option (List String) := none
  decision : Option Decision := none
  deriving DecidableEq, Repr

/-- The `data` of an update: the columns it writes. -/
structure WorkflowUpdate where
  phase : WorkflowPhase
  shortlist : Option ShortlistState := none
  optimizedCart : Option OptimizedCart := none
  rejectedItemIds : Option (List String) := none
  decision : Option Decision := none
  deriving DecidableEq, Repr

/-- The row after an update. -/
def WorkflowUpdate.write (data : WorkflowUpdate) (row : WorkflowRow) : WorkflowRow :=
  { row with
    phase := data.phase
    shortlist := data.shortlist <|> row.shortlist
    optimizedCart := data.optimizedCart <|> row.optimizedCart
    rejectedItemIds := data.rejectedItemIds <|> row.rejectedItemIds
    decision := data.decision <|> row.decision }

/-- A field of a response that nobody has checked: absent, of another type, or of the type asked for. -/
inductive Raw (α : Type)
  | absent
  | wrong
  | value (a : α)
  deriving DecidableEq, Repr

/-- An item of `get_restaurant_menu`, as it comes. -/
structure RawMenuItem where
  id : Raw String := .absent
  name : Raw String := .absent
  price : Raw ℚ := .absent
  description : Raw String := .absent
  deriving DecidableEq, Repr

/-- The `data.categories` of `get_restaurant_menu`, each with its items.  A page that reading throws a TypeError on,
for a `null` among them, is a call that fails with this error. -/
structure MenuResponse where
  categories : Option (List (Option (List RawMenuItem))) := none
  deriving DecidableEq, Repr

/-- What the workflow reads of a subscription. -/
structure EscrowSubscription where
  totalDeposited : ℤ
  currentBalance : ℤ
  dailyAvgLimit : ℤ
  deriving DecidableEq, Repr

structure ScoutAnalysisRequest where
  preferenceProfile : PreferenceProfile
  menuItems : List MenuItem
  weeklyBudget : WeeklyBudget
  deriving DecidableEq, Repr

/-- The one entry of the cart that is sent to be optimised. -/
structure ProposedItem where
  itemId : String
  price : ℚ
  quantity : ℤ
  deriving DecidableEq, Repr

structure OptimizeCartRequest where
  userId : String
  restaurantId : Option String
  addressId : Option String
  cartItems : List ProposedItem
  remainingDailyBudget : ℤ
  deriving DecidableEq, Repr

structure ExecuteOrderRequest where
  userId : String
  addressId : Option String
  restaurantId : Option String
  cart : Option OptimizedCart
  deriving DecidableEq, Repr

structure ExecuteOrderResponse where
  orderId : String
  status : String
  deriving DecidableEq, Repr

structure MealApprovedEvent where
  userId : String
  itemId : String
  restaurantId : Option String
  price : ℚ
  name : String
  deriving DecidableEq, Repr

/-! ### The calls -/

inductive WorkflowOp
  | now
  | findUnique (id : RowId)
  | upsert (id : RowId) (addressId restaurantId : String)
  | update (id : RowId) (data : WorkflowUpdate)
  | getSubscription (userId : String)
  | rollover (userId : String)
  | getPreferenceProfile (userId : String)
  | get_restaurant_menu (addressId restaurantId : Option String) (userId : String)
  | analyze (request : ScoutAnalysisRequest)
  | optimizeCart (request : OptimizeCartRequest)
  | executeOrder (request : ExecuteOrderRequest)
  | sendMenuOfTheDay (userId : String) (cart : Option OptimizedCart)
  | publishScoutCompleted (userId : String)
  | publishMenuProposed (userId : String) (proposedItems : List MenuItem)
  | publishMealApproved (event : MealApprovedEvent)
  | publishMealSkipped (userId : String)
  deriving DecidableEq, Repr

/-- What each call answers.  Of a profile it is what `PreferenceProfileSchema` makes of it. -/
abbrev WorkflowOp.Answer : WorkflowOp → Type
  | .now => ℤ
  | .findUnique _ => Option WorkflowRow
  | .upsert _ _ _ | .update _ _ => WorkflowRow
  | .getSubscription _ => EscrowSubscription
  | .rollover _ => Unit
  | .getPreferenceProfile _ => Option PreferenceProfile
  | .get_restaurant_menu _ _ _ => MenuResponse
  | .analyze _ => List RankedMenuItem
  | .optimizeCart _ => OptimizedCart
  | .executeOrder _ => ExecuteOrderResponse
  | .sendMenuOfTheDay _ _ => Unit
  | .publishScoutCompleted _ | .publishMenuProposed _ _ | .publishMealApproved _
  | .publishMealSkipped _ => Unit

/-- Programs of orchestrator-service. -/
abbrev WorkflowProg (α : Type) : Type := Prog WorkflowOp WorkflowOp.Answer Err α

namespace Prisma

def findUnique (id : RowId) : WorkflowProg (Option WorkflowRow) := Prog.await (WorkflowOp.findUnique id)
def upsert (id : RowId) (addressId restaurantId : String) : WorkflowProg WorkflowRow :=
  Prog.await (WorkflowOp.upsert id addressId restaurantId)
def update (id : RowId) (data : WorkflowUpdate) : WorkflowProg WorkflowRow :=
  Prog.await (WorkflowOp.update id data)

end Prisma

/-- A request of a client that maps what the upstream throws. -/
def request (i : WorkflowOp) : WorkflowProg i.Answer := do
  match ← (Prog.await i : WorkflowProg i.Answer).attempt with
  | .ok answer => pure answer
  | .error err => throw (mapUpstreamError err)

/-- A call whose failure is logged. -/
def bestEffort (i : WorkflowOp) : WorkflowProg Unit := do
  let _ ← (Prog.await i : WorkflowProg i.Answer).attempt

/-! ### `WorkflowService` -/

/-- The milliseconds of a day. -/
def DAY : ℤ := 86400000

def startOfUtcDay (date : ℤ) : ℤ := date - date % DAY

/-- What the handlers answer. -/
inductive WorkflowReply
  | proposed (userId : String) (phase : WorkflowPhase) (optimizedCart : OptimizedCart)
  | ordered (userId : String) (phase : WorkflowPhase) (orderId orderStatus : String)
  | skipped (userId : String) (phase : WorkflowPhase) (currentItem : MenuItem)
  | finalized (userId : String) (finalized : Bool) (phase : Option WorkflowPhase)
  | reminded (userId : String) (sent : Bool)
  deriving DecidableEq, Repr

/-- What `skip` answers. -/
structure SkipReply where
  phase : WorkflowPhase
  currentItem : MenuItem
  deriving DecidableEq, Repr

namespace WorkflowService

/-- `MenuItemSchema.safeParse`. -/
def parseMenuItem (restaurantId : Option String) (raw : RawMenuItem) : Option MenuItem :=
  match raw.id, restaurantId, raw.name, raw.price, raw.description with
  | .value itemId, some restaurantId, .value name, .value price, .absent =>
    if 0 < price then some { itemId, restaurantId, name, price } else none
  | .value itemId, some restaurantId, .value name, .value price, .value description =>
    if 0 < price then some { itemId, restaurantId, name, price, description := some description }
    else none
  | _, _, _, _, _ => none

/-- What `fetchMenu` throws: what the gateway client throws is mapped, and comes from axios; a TypeError is thrown
after that, and is not. -/
def fetchMenuError : Err → Err
  | .error message => .error message
  | err => mapUpstreamError err

def fetchMenu (userId : String) (addressId restaurantId : Option String) :
    WorkflowProg (List MenuItem) := do
  let i : WorkflowOp := .get_restaurant_menu addressId restaurantId userId
  match ← (Prog.await i : WorkflowProg MenuResponse).attempt with
  | .ok response =>
    let rawItems := (response.categories.getD []).flatMap (·.getD [])
    return rawItems.filterMap (parseMenuItem restaurantId)
  | .error err => throw (fetchMenuError err)

/-- The entry of `new Map(...)`: of two items with one id the later one. -/
def menuById (menuItems : List MenuItem) (itemId : String) : Option MenuItem :=
  menuItems.reverse.find? (·.itemId = itemId)

def selectNextCandidate (menuItems : List MenuItem) (rankedItems : List RankedMenuItem)
    (rejectedItemIds : List String) : Option MenuItem :=
  let sorted := rankedItems.insertionSort fun a b => b.matchScore ≤ a.matchScore
  sorted.findSome? fun ranked =>
    if ranked.itemId ∈ rejectedItemIds then none else menuById menuItems ranked.itemId

def parsePreferenceProfile (parsed : Option PreferenceProfile) : PreferenceProfile :=
  parsed.getD { diet := .veg, spiceLevel := 3, cuisineFavorites := [] }

def publishScoutCompletedAndMenuProposed (userId : String) (menuItems : List MenuItem)
    (optimizedCart : OptimizedCart) (skipScoutCompleted : Bool := false) : WorkflowProg Unit := do
  if !skipScoutCompleted then
    bestEffort (.publishScoutCompleted userId)
  let proposedIds := optimizedCart.items.map (·.itemId)
  let proposedItems := menuItems.filter (·.itemId ∈ proposedIds)
  bestEffort (.publishMenuProposed userId proposedItems)

def dispatchMenuNotification (userId : String) (optimizedCart : Option OptimizedCart) :
    WorkflowProg Unit :=
  bestEffort (.sendMenuOfTheDay userId optimizedCart)

def weeklyBudget (subscription : EscrowSubscription) : WeeklyBudget where
  totalAmount := subscription.totalDeposited
  spentSoFar := subscription.totalDeposited - subscription.currentBalance
  mealsRemaining := max 1 (subscription.currentBalance.fdiv
    (if subscription.dailyAvgLimit = 0 then 1 else subscription.dailyAvgLimit))
  dailyAvgLimit := subscription.dailyAvgLimit

def runScoutPhase (userId addressId restaurantId : String) : WorkflowProg WorkflowReply := do
  let cycleDate := startOfUtcDay (← Prog.await WorkflowOp.now)
  let id : RowId := { userId, cycleDate }
  if let some existing ← Prisma.findUnique id then
    if existing.phase ≠ .SCOUTING then
      throw (.http 409
        s!"workflow already scouted for userId {userId} today (phase: {existing.phase})")
  let _ ← Prisma.upsert id addressId restaurantId
  if !canTransition .SCOUTING .OPTIMIZING then
    throw (.http 409 "SCOUTING -> OPTIMIZING transition is not permitted")
  let subscription ← request (.getSubscription userId)
  let profile ← request (.getPreferenceProfile userId)
  let menuItems ← fetchMenu userId (some addressId) (some restaurantId)
  let weeklyBudget := weeklyBudget subscription
  let rankedItems ← request
    (.analyze { preferenceProfile := parsePreferenceProfile profile, menuItems, weeklyBudget })
  let some proposal := selectNextCandidate menuItems rankedItems []
    | throw (.http 409 s!"no eligible menu items to propose for userId {userId}")
  if !canTransition .OPTIMIZING .AWAITING_APPROVAL then
    throw (.http 409 "OPTIMIZING -> AWAITING_APPROVAL transition is not permitted")
  let optimizedCart ← request (.optimizeCart
    { userId, restaurantId := some restaurantId, addressId := some addressId,
      cartItems := [{ itemId := proposal.itemId, price := proposal.price, quantity := 1 }],
      remainingDailyBudget := weeklyBudget.dailyAvgLimit })
  let updated ← Prisma.update id
    { phase := .AWAITING_APPROVAL, shortlist := some { rankedItems, currentItem := proposal },
      optimizedCart := some optimizedCart, rejectedItemIds := some [] }
  publishScoutCompletedAndMenuProposed userId menuItems optimizedCart
  dispatchMenuNotification userId (some optimizedCart)
  return .proposed userId updated.phase optimizedCart

def approve (id : RowId) (userId : String) (addressId restaurantId : Option String)
    (cart : Option OptimizedCart) (shortlist : Option ShortlistState) :
    WorkflowProg WorkflowReply := do
  if !canTransition .AWAITING_APPROVAL .APPROVED then
    throw (.http 409 "AWAITING_APPROVAL -> APPROVED transition is not permitted")
  let _ ← Prisma.update id { phase := .APPROVED, decision := some .APPROVE }
  let order ← request (.executeOrder { userId, addressId, restaurantId, cart })
  if !canTransition .APPROVED .EXECUTING then
    throw (.http 409 "APPROVED -> EXECUTING transition is not permitted")
  let updated ← Prisma.update id { phase := .EXECUTING }
  -- where there is no shortlist, the TypeError is caught with the failure of the publish
  if let some { currentItem, .. } := shortlist then
    bestEffort (.publishMealApproved
      { userId, itemId := currentItem.itemId, restaurantId, price := currentItem.price,
        name := currentItem.name })
  return .ordered userId updated.phase order.orderId order.status

/-- What reading `shortlist.currentItem` throws where there is no shortlist. -/
def noShortlist : Err := .error "Cannot read properties of null (reading 'currentItem')"

def skip (id : RowId) (userId : String) (shortlist : Option ShortlistState) :
    WorkflowProg SkipReply := do
  if !canTransition .AWAITING_APPROVAL .SKIPPED then
    throw (.http 409 "AWAITING_APPROVAL -> SKIPPED transition is not permitted")
  let updated ← Prisma.update id { phase := .SKIPPED, decision := some .SKIP }
  request (.rollover userId)
  bestEffort (.publishMealSkipped userId)
  let some { currentItem, .. } := shortlist | throw noShortlist
  return { phase := updated.phase, currentItem }

def swap (id : RowId) (userId : String) (addressId restaurantId : Option String)
    (shortlist : Option ShortlistState) (rejectedItemIds : List String) :
    WorkflowProg WorkflowReply := do
  if !canTransition .AWAITING_APPROVAL .AWAITING_APPROVAL then
    throw (.http 409 "AWAITING_APPROVAL self-loop transition is not permitted")
  let some { rankedItems, currentItem } := shortlist | throw noShortlist
  let nextRejected := rejectedItemIds ++ [currentItem.itemId]
  let menuItems ← fetchMenu userId addressId restaurantId
  match selectNextCandidate menuItems rankedItems nextRejected with
  | none =>
    let reply ← skip id userId shortlist
    return .skipped userId reply.phase reply.currentItem
  | some proposal =>
    let subscription ← request (.getSubscription userId)
    let optimizedCart ← request (.optimizeCart
      { userId, restaurantId, addressId,
        cartItems := [{ itemId := proposal.itemId, price := proposal.price, quantity := 1 }],
        remainingDailyBudget := subscription.dailyAvgLimit })
    let updated ← Prisma.update id
      { phase := .AWAITING_APPROVAL, shortlist := some { rankedItems, currentItem := proposal },
        optimizedCart := some optimizedCart, rejectedItemIds := some nextRejected }
    publishScoutCompletedAndMenuProposed userId menuItems optimizedCart true
    dispatchMenuNotification userId (some optimizedCart)
    return .proposed userId updated.phase optimizedCart

def handleUserDecision (userId : String) (decision : Decision) : WorkflowProg WorkflowReply := do
  let cycleDate := startOfUtcDay (← Prog.await WorkflowOp.now)
  let id : RowId := { userId, cycleDate }
  let some row ← Prisma.findUnique id
    | throw (.http 404 s!"no workflow state for userId {userId} today")
  if row.phase ≠ .AWAITING_APPROVAL then
    throw (.http 409 s!"workflow for userId {userId} is not awaiting approval (phase: {row.phase})")
  match decision with
  | .APPROVE => approve id userId row.addressId row.restaurantId row.optimizedCart row.shortlist
  | .SKIP => do
    let reply ← skip id userId row.shortlist
    return .skipped userId reply.phase reply.currentItem
  | .SWAP =>
    swap id userId row.addressId row.restaurantId row.shortlist (row.rejectedItemIds.getD [])

def sendReminderIfPending (userId : String) : WorkflowProg WorkflowReply := do
  let cycleDate := startOfUtcDay (← Prog.await WorkflowOp.now)
  let some row ← Prisma.findUnique { userId, cycleDate } | return .reminded userId false
  if row.phase ≠ .AWAITING_APPROVAL then
    return .reminded userId false
  dispatchMenuNotification userId row.optimizedCart
  return .reminded userId true

def finalizeIfPending (userId : String) : WorkflowProg WorkflowReply := do
  let cycleDate := startOfUtcDay (← Prog.await WorkflowOp.now)
  let id : RowId := { userId, cycleDate }
  let some row ← Prisma.findUnique id | return .finalized userId false none
  if row.phase ≠ .AWAITING_APPROVAL then
    return .finalized userId false none
  let result ← skip id userId row.shortlist
  return .finalized userId true (some result.phase)

end WorkflowService

/-! ### The handlers of the controllers -/

/-- A request to one of the handlers of the workflow, of one user. -/
inductive WorkflowCall
  | runScoutPhase (addressId restaurantId : String)
  | handleUserDecision (decision : Decision)
  | sendReminderIfPending
  | finalizeIfPending
  deriving DecidableEq, Repr

def WorkflowCall.prog (userId : String) : WorkflowCall → WorkflowProg WorkflowReply
  | .runScoutPhase addressId restaurantId =>
    WorkflowService.runScoutPhase userId addressId restaurantId
  | .handleUserDecision decision => WorkflowService.handleUserDecision userId decision
  | .sendReminderIfPending => WorkflowService.sendReminderIfPending userId
  | .finalizeIfPending => WorkflowService.finalizeIfPending userId

/-! ### The table and the services -/

/-- The `workflow_state` table: one row for a user and a day. -/
abbrev WorkflowStates : Type := RowId → Option WorkflowRow

/-- What the environment chooses for one call: whether it fails, and what the services answer. -/
structure WorkflowChoice where
  error : Option Err := none
  now : ℤ := 0
  subscription : EscrowSubscription := ⟨0, 0, 0⟩
  profile : Option PreferenceProfile := none
  menu : MenuResponse := {}
  rankedItems : List RankedMenuItem := []
  optimizedCart : OptimizedCart := { items := [], baseCost := 0, finalTotal := 0 }
  order : ExecuteOrderResponse := ⟨"", ""⟩

/-- What a call does that does not fail by itself, at an instant of the day of `today`. -/
def serve (today : ℤ) (c : WorkflowChoice) :
    (i : WorkflowOp) → WorkflowStates → Except Err i.Answer × WorkflowStates
  | .now, t => (.ok (startOfUtcDay today + c.now % DAY), t)
  | .findUnique id, t => (.ok (t id), t)
  | .upsert id addressId restaurantId, t =>
    let row : WorkflowRow :=
      { (t id).getD { phase := .SCOUTING } with
        addressId := some addressId, restaurantId := some restaurantId }
    (.ok row, Function.update t id (some row))
  | .update id data, t =>
    match t id with
    | some row => (.ok (data.write row), Function.update t id (some (data.write row)))
    | none => (.error (.error "Record to update not found."), t)
  | .getSubscription _, t => (.ok c.subscription, t)
  | .getPreferenceProfile _, t => (.ok c.profile, t)
  | .get_restaurant_menu _ _ _, t => (.ok c.menu, t)
  | .analyze _, t => (.ok c.rankedItems, t)
  | .optimizeCart _, t => (.ok c.optimizedCart, t)
  | .executeOrder _, t => (.ok c.order, t)
  | .rollover _, t | .sendMenuOfTheDay _ _, t | .publishScoutCompleted _, t
  | .publishMenuProposed _ _, t | .publishMealApproved _, t | .publishMealSkipped _, t => (.ok (), t)

/-- A call is served or fails without effect; the clock does not fail. -/
def exec (today : ℤ) : Handler WorkflowOp WorkflowOp.Answer Err WorkflowStates WorkflowChoice :=
  fun c i t =>
    match c.error with
    | some err => if i = .now then serve today c i t else (.error err, t)
    | none => serve today c i t

end Gusto.Workflow
