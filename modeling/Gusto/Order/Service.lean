import Gusto.Contracts
import Gusto.Http

/-!
# order-execution-service: `OrderService`

The life of an order, as programs over the calls to the `orders` table, escrow-service,
mcp-gateway-service, notification-service and the event bus:

* `OrderService.populateAndAwaitConfirmation`: reserve, create the row, fill the Swiggy cart;
* `OrderService.confirmAndPlace`: place the order, then `markPlaced`, `markFailed` or
  `reconcileAmbiguousFailure`;
* `OrderService.getStatus`, `OrderService.pollDeliveryStatus`.

The id of a row is its number in the table.  Event ids and times of occurrence are read by nobody
and left out.
-/

set_option autoImplicit false

namespace Gusto.Order

open Effects

/-! ### Data -/

inductive OrderStatus
  | PENDING_CONFIRMATION
  | PLACED
  | OUT_FOR_DELIVERY
  | DELIVERED
  | FAILED
  deriving DecidableEq, Repr

instance : ToString OrderStatus where
  toString
    | .PENDING_CONFIRMATION => "PENDING_CONFIRMATION"
    | .PLACED => "PLACED"
    | .OUT_FOR_DELIVERY => "OUT_FOR_DELIVERY"
    | .DELIVERED => "DELIVERED"
    | .FAILED => "FAILED"

/-- The `cart` column: an `OptimizedCart` and what Swiggy's tools need besides. -/
structure StoredOrderCart extends OptimizedCart where
  addressId : String
  restaurantId : String
  paymentMethod : Option String
  deriving DecidableEq, Repr

/-- A row of `orders`; times are milliseconds. -/
structure OrderRow where
  id : ℕ
  userId : String
  swiggyOrderRef : Option String := none
  status : OrderStatus
  cart : StoredOrderCart
  savingsAchieved : ℤ
  placedAt : Option ℤ := none
  deliveredAt : Option ℤ := none
  deriving DecidableEq, Repr

/-- The `data` of `order.create`. -/
structure OrderCreate where
  userId : String
  status : OrderStatus
  cart : StoredOrderCart
  savingsAchieved : ℚ
  deriving DecidableEq, Repr

/-- The `data` of `order.update`: the columns it writes. -/
structure OrderUpdate where
  status : OrderStatus
  swiggyOrderRef : Option String := none
  placedAt : Option ℤ := none
  deliveredAt : Option ℤ := none
  deriving DecidableEq, Repr

/-- The row after an update. -/
def OrderUpdate.write (data : OrderUpdate) (order : OrderRow) : OrderRow :=
  { order with
    status := data.status
    swiggyOrderRef := data.swiggyOrderRef <|> order.swiggyOrderRef
    placedAt := data.placedAt <|> order.placedAt
    deliveredAt := data.deliveredAt <|> order.deliveredAt }

/-- What the order service reads of the `data` of a tool response, and its JSON text. -/
structure ToolData where
  availablePaymentMethods : Option (List String) := none
  orderId : Option String := none
  order_id : Option String := none
  status : Option String := none
  json : String := "\x7b\x7d"
  deriving DecidableEq, Repr

/-- `McpToolResponse`; of `error` the message is read. -/
structure McpToolResponse where
  success : Bool
  data : Option ToolData := none
  message : Option String := none
  error : Option String := none
  deriving DecidableEq, Repr

/-- The Food tools the order service calls, with their input. -/
inductive FoodTool
  | update_food_cart (restaurantId addressId : String) (cartItems : List OrderedItem)
  | apply_food_coupon (couponCode addressId : String)
  | get_food_cart (addressId : String)
  | place_food_order (addressId : String) (paymentMethod : Option String)
  | get_food_orders (addressId : String)
  | track_food_order (orderId : String)
  deriving DecidableEq, Repr

structure OrderPlacedEvent where
  userId : String
  orderId : ℕ
  cart : OptimizedCart
  deriving DecidableEq, Repr

/-! ### The calls -/

inductive OrderOp
  | findUnique (id : ℕ)
  | create (data : OrderCreate)
  | update (id : ℕ) (data : OrderUpdate)
  | reserve (userId : String) (amount : ℚ)
  | capture (userId : String) (amount : ℚ)
  | release (userId : String) (amount : ℚ)
  | food (tool : FoodTool) (userId : String)
  | requestConfirmation (userId : String) (orderId : ℕ)
  | publishOrderPlaced (event : OrderPlacedEvent)
  | publishOrderFailed (userId : String) (orderId : ℕ) (reason : String)
  | publishOrderDelivered (userId : String) (orderId : ℕ)
  | randomUUID
  | now
  deriving DecidableEq, Repr

/-- What each call answers; what nobody reads of it is left out. -/
abbrev OrderOp.Answer : OrderOp → Type
  | .findUnique _ => Option OrderRow
  | .create _ | .update _ _ => OrderRow
  | .reserve _ _ | .capture _ _ | .release _ _ => Unit
  | .food _ _ => McpToolResponse
  | .requestConfirmation _ _ => Unit
  | .publishOrderPlaced _ | .publishOrderFailed _ _ _ | .publishOrderDelivered _ _ => Unit
  | .randomUUID => String
  | .now => ℤ

/-- Programs of order-execution-service. -/
abbrev OrderProg (α : Type) : Type := Prog OrderOp OrderOp.Answer Err α

namespace Prisma

def findUnique (id : ℕ) : OrderProg (Option OrderRow) := Prog.await (OrderOp.findUnique id)
def create (data : OrderCreate) : OrderProg OrderRow := Prog.await (OrderOp.create data)
def update (id : ℕ) (data : OrderUpdate) : OrderProg OrderRow := Prog.await (OrderOp.update id data)

end Prisma

namespace EscrowClient

def reserve (userId : String) (amount : ℚ) : OrderProg Unit :=
  Prog.await (OrderOp.reserve userId amount)
def capture (userId : String) (amount : ℚ) : OrderProg Unit :=
  Prog.await (OrderOp.capture userId amount)
def release (userId : String) (amount : ℚ) : OrderProg Unit :=
  Prog.await (OrderOp.release userId amount)

end EscrowClient

/-- `McpGatewayClient.food`. -/
def food (tool : FoodTool) (userId : String) : OrderProg McpToolResponse :=
  Prog.await (OrderOp.food tool userId)

def randomUUID : OrderProg String := Prog.await OrderOp.randomUUID
def now : OrderProg ℤ := Prog.await OrderOp.now

/-! ### `ConfirmationGateService` -/

namespace ConfirmationGateService

/-- Fire and forget: a failed notification is logged. -/
def requestConfirmation (orderId : ℕ) (userId : String) : OrderProg Unit := do
  let _ ← (Prog.await (OrderOp.requestConfirmation userId orderId)).attempt

end ConfirmationGateService

/-! ### `OrderService` -/

/-- What the calls that move an order answer. -/
structure OrderReply where
  orderId : ℕ
  status : OrderStatus
  swiggyOrderRef : Option String := none
  deriving DecidableEq, Repr

def MAX_ORDER_TOTAL_PAISE : ℚ := 100000

namespace OrderService

/-- Always throws: the row is FAILED, the hold released as far as escrow-service answers. -/
def markFailed {α : Type} (order : OrderRow) (storedCart : StoredOrderCart) (reason : String) :
    OrderProg α := do
  let _ ← Prisma.update order.id { status := .FAILED }
  let _ ← (EscrowClient.release order.userId storedCart.finalTotal).attempt
  Prog.await (OrderOp.publishOrderFailed order.userId order.id reason)
  throw (.http 422 reason)

/-- A refused capture is logged: the Swiggy order exists and cannot be undone. -/
def markPlaced (order : OrderRow) (storedCart : StoredOrderCart) (swiggyOrderRef : String) :
    OrderProg OrderReply := do
  let placedAt ← now
  let updated ← Prisma.update order.id
    { status := .PLACED, swiggyOrderRef := some swiggyOrderRef, placedAt := some placedAt }
  let _ ← (EscrowClient.capture order.userId storedCart.finalTotal).attempt
  Prog.await (OrderOp.publishOrderPlaced
    { userId := order.userId, orderId := order.id, cart := storedCart.toOptimizedCart })
  return { orderId := order.id, status := updated.status, swiggyOrderRef := some swiggyOrderRef }

/-- Fails closed whatever `get_food_orders` says. -/
def reconcileAmbiguousFailure (order : OrderRow) (storedCart : StoredOrderCart) (reason : String) :
    OrderProg OrderReply := do
  let reconciliationNote ←
    match ← (food (.get_food_orders storedCart.addressId) order.userId).attempt with
    | .ok orders =>
      pure ("get_food_orders returned: " ++ (orders.data.map (·.json)).getD "undefined")
    | .error err =>
      pure ("get_food_orders reconciliation call itself failed: " ++ describeError err)
  markFailed order storedCart
    ("ambiguous place_food_order failure: " ++ reason ++ ". " ++ reconciliationNote)

/-- The calls that copy the cart to Swiggy's.  What they answer is not looked at. -/
def populate (userId addressId restaurantId : String) (cart : OptimizedCart) : OrderProg Unit := do
  let _ ← food (.update_food_cart restaurantId addressId cart.items) userId
  if let some couponCode := cart.coupon then
    let _ ← food (.apply_food_coupon couponCode addressId) userId
  -- the answer only decides on a warning
  let _ ← food (.get_food_cart addressId) userId

def populateAndAwaitConfirmation (userId addressId restaurantId : String) (cart : OptimizedCart)
    (paymentMethod : Option String) : OrderProg OrderReply := do
  if MAX_ORDER_TOTAL_PAISE ≤ cart.finalTotal then
    throw (.http 422
      s!"cart total {cart.finalTotal} paise meets/exceeds Swiggy's ₹1000 MCP-beta order limit")
  if let .error err ← (EscrowClient.reserve userId cart.finalTotal).attempt then
    throw (mapUpstreamError err)
  let storedCart : StoredOrderCart := { cart with addressId, restaurantId, paymentMethod }
  let order ← Prisma.create
    { userId, status := .PENDING_CONFIRMATION, cart := storedCart,
      savingsAchieved := cart.savingsAchieved }
  if let .error err ← (populate userId addressId restaurantId cart).attempt then
    markFailed order storedCart ("failed to populate Swiggy cart: " ++ describeError err)
  let _ ← (ConfirmationGateService.requestConfirmation order.id userId).attempt
  return { orderId := order.id, status := .PENDING_CONFIRMATION }

def confirmAndPlace (orderId : ℕ) : OrderProg OrderReply := do
  let some order ← Prisma.findUnique orderId | throw (.http 404 s!"no order {orderId}")
  if order.status ≠ .PENDING_CONFIRMATION then
    throw (.http 409 s!"order {orderId} is not awaiting confirmation (status={order.status})")
  let storedCart := order.cart
  match ← (food (.place_food_order storedCart.addressId (storedCart.paymentMethod.filter (· ≠ "")))
      order.userId).attempt with
  | .error err => reconcileAmbiguousFailure order storedCart (describeError err)
  | .ok result =>
    if result.success then
      let swiggyOrderRef ←
        match (result.data.bind (·.orderId)) <|> (result.data.bind (·.order_id)) with
        | some ref => pure ref
        | none => randomUUID
      markPlaced order storedCart swiggyOrderRef
    else
      markFailed order storedCart
        ((result.error <|> result.message).getD "place_food_order rejected")

/-- What `getStatus` answers. -/
structure StatusReply where
  orderId : ℕ
  status : OrderStatus
  swiggyOrderRef : Option String
  placedAt : Option ℤ
  deliveredAt : Option ℤ
  deriving DecidableEq, Repr

def getStatus (orderId : ℕ) : OrderProg StatusReply := do
  let some order ← Prisma.findUnique orderId | throw (.http 404 s!"no order {orderId}")
  return { orderId := order.id, status := order.status, swiggyOrderRef := order.swiggyOrderRef,
           placedAt := order.placedAt, deliveredAt := order.deliveredAt }

/-- `toUpperCase`, as far as it can come to a word of plain capitals. -/
def toUpperCase (s : String) : String :=
  s.map fun c => if c = 'ı' then 'I' else if c = 'ſ' then 'S' else c.toUpper

/-- What `pollDeliveryStatus` answers. -/
structure PollReply where
  orderId : ℕ
  status : OrderStatus
  swiggyStatus : Option String := none
  deriving DecidableEq, Repr

def pollDeliveryStatus (orderId : ℕ) : OrderProg PollReply := do
  let some order ← Prisma.findUnique orderId | throw (.http 404 s!"no order {orderId}")
  let some ref := order.swiggyOrderRef.filter (· ≠ "")
    | throw (.http 409 s!"order {orderId} has no swiggyOrderRef yet (status={order.status})")
  let tracked ← food (.track_food_order ref) order.userId
  let swiggyStatus := tracked.data.bind (·.status)
  if swiggyStatus.map toUpperCase = some "DELIVERED" then
    let deliveredAt ← now
    let updated ← Prisma.update order.id { status := .DELIVERED, deliveredAt := some deliveredAt }
    Prog.await (OrderOp.publishOrderDelivered order.userId order.id)
    return { orderId := order.id, status := updated.status }
  return { orderId := order.id, status := order.status, swiggyStatus }

/-! ### The programs, call by call -/

/-- Nothing runs after `markFailed`. -/
theorem markFailed_bind {α β : Type} {order : OrderRow} {cart : StoredOrderCart} {reason : String}
    {f : α → OrderProg β} : (markFailed order cart reason >>= f) = markFailed order cart reason := by
  simp only [markFailed, bind_assoc, Prog.throw_def, Prog.throw_bind]

/-- What `populateAndAwaitConfirmation` does once the row is there. -/
def afterCreate (userId : String) (storedCart : StoredOrderCart) (order : OrderRow) :
    OrderProg OrderReply := do
  match ← (populate userId storedCart.addressId storedCart.restaurantId
      storedCart.toOptimizedCart).attempt with
  | .error err =>
    markFailed order storedCart ("failed to populate Swiggy cart: " ++ describeError err)
  | .ok _ =>
    let _ ← (ConfirmationGateService.requestConfirmation order.id userId).attempt
    return { orderId := order.id, status := .PENDING_CONFIRMATION }

theorem populateAndAwaitConfirmation_eq (userId addressId restaurantId : String)
    (cart : OptimizedCart) (paymentMethod : Option String) :
    populateAndAwaitConfirmation userId addressId restaurantId cart paymentMethod =
      if MAX_ORDER_TOTAL_PAISE ≤ cart.finalTotal then
        .throw (.http 422
          s!"cart total {cart.finalTotal} paise meets/exceeds Swiggy's ₹1000 MCP-beta order limit")
      else .call (.reserve userId cart.finalTotal) fun
        | .error err => .throw (mapUpstreamError err)
        | .ok _ => .call (.create
            { userId, status := .PENDING_CONFIRMATION,
              cart := { cart with addressId, restaurantId, paymentMethod },
              savingsAchieved := cart.savingsAchieved }) fun
          | .error err => .throw err
          | .ok order => afterCreate userId { cart with addressId, restaurantId, paymentMethod } order := by
  change (if MAX_ORDER_TOTAL_PAISE ≤ cart.finalTotal then _ else _) = _
  split
  · rfl
  · refine congrArg (Prog.call _) (funext fun r => ?_)
    rcases r with err | _
    · rfl
    · refine congrArg (Prog.call _) (funext fun r => ?_)
      rcases r with err | order
      · rfl
      · refine congrArg (_ >>= ·) (funext fun r => ?_)
        rcases r with err | _
        · exact markFailed_bind
        · rfl

/-- What `confirmAndPlace` does once `place_food_order` has answered. -/
def afterPlacement (order : OrderRow) : Except Err McpToolResponse → OrderProg OrderReply
  | .error err => reconcileAmbiguousFailure order order.cart (describeError err)
  | .ok result =>
    if result.success then
      match (result.data.bind (·.orderId)) <|> (result.data.bind (·.order_id)) with
      | some ref => markPlaced order order.cart ref
      | none => randomUUID >>= markPlaced order order.cart
    else
      markFailed order order.cart
        ((result.error <|> result.message).getD "place_food_order rejected")

theorem confirmAndPlace_eq (orderId : ℕ) :
    confirmAndPlace orderId = .call (.findUnique orderId) fun
      | .error err => .throw err
      | .ok none => .throw (.http 404 s!"no order {orderId}")
      | .ok (some order) =>
        if order.status = .PENDING_CONFIRMATION then
          .call (.food (.place_food_order order.cart.addressId
            (order.cart.paymentMethod.filter (· ≠ ""))) order.userId) (afterPlacement order)
        else .throw
          (.http 409 s!"order {orderId} is not awaiting confirmation (status={order.status})") := by
  refine congrArg (Prog.call _) (funext fun r => ?_)
  rcases r with err | _ | order
  · rfl
  · rfl
  · change (if order.status ≠ .PENDING_CONFIRMATION then _ else _) =
      (if order.status = .PENDING_CONFIRMATION then _ else _)
    by_cases hst : order.status = .PENDING_CONFIRMATION
    · rw [if_neg (not_not.mpr hst), if_pos hst]
      refine congrArg (Prog.call _) (funext fun r => ?_)
      rcases r with err | result
      · rfl
      · change (if result.success then _ else _) = (if result.success then _ else _)
        cases (result.data.bind (·.orderId)) <|> (result.data.bind (·.order_id)) <;> rfl
    · rw [if_pos hst, if_neg hst]
      rfl

end OrderService

/-! ### The calls that move orders -/

/-- A request to `POST /orders/execute` or `POST /orders/confirm`. -/
inductive OrderCall
  | execute (userId addressId restaurantId : String) (cart : OptimizedCart)
      (paymentMethod : Option String)
  | confirm (orderId : ℕ)
  deriving DecidableEq, Repr

def OrderCall.prog : OrderCall → OrderProg OrderReply
  | .execute userId addressId restaurantId cart paymentMethod =>
    OrderService.populateAndAwaitConfirmation userId addressId restaurantId cart paymentMethod
  | .confirm orderId => OrderService.confirmAndPlace orderId

end Gusto.Order
