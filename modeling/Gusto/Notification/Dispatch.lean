import Gusto.Contracts
import Gusto.Events.Subscriber

/-!
# notification-service: `DispatchService`

A notification for a user goes out on every channel that is set and not opted out:

* `DispatchService.send`, with `dispatchEmail`, `dispatchPush`, `ensurePushEndpoint` and `recordSent`,
  as programs over the calls to SES, SNS, the tables and the event bus;
* `MenuProposedConsumer.handle` and `NotificationClient.sendMenuOfTheDay`: the two that ask for a menu
  of the day.

Payloads are JSON.  What creates a row or an event draws an id and a time that nothing reads.
-/

set_option autoImplicit false

namespace Gusto.Notification

open Effects Events

/-! ### Data -/

inductive NotificationType
  | MENU_OF_THE_DAY
  | CONFIRM_PAYMENT
  | ORDER_STATUS
  deriving DecidableEq, Repr

instance : ToString NotificationType where
  toString
    | .MENU_OF_THE_DAY => "MENU_OF_THE_DAY"
    | .CONFIRM_PAYMENT => "CONFIRM_PAYMENT"
    | .ORDER_STATUS => "ORDER_STATUS"

def NOTIFICATION_TYPES : List NotificationType := [.MENU_OF_THE_DAY, .CONFIRM_PAYMENT, .ORDER_STATUS]

inductive Channel
  | email
  | push
  deriving DecidableEq, Repr

structure DispatchResult where
  channel : Channel
  success : Bool
  error : Option String := none
  deriving DecidableEq, Repr

/-- How a user can be reached. -/
structure ContactPreference where
  email : Option String := none
  phone : Option String := none
  pushToken : Option String := none
  pushPlatform : Option String := none
  pushEndpointArn : Option String := none
  emailOptOut : Bool := false
  pushOptOut : Bool := false
  deriving DecidableEq, Repr

/-- What an upsert writes; a column that it leaves out stays. -/
structure UpsertContactPreferenceInput where
  email : Option String := none
  phone : Option String := none
  pushToken : Option String := none
  pushPlatform : Option String := none
  emailOptOut : Option Bool := none
  pushOptOut : Option Bool := none
  deriving DecidableEq, Repr

def UpsertContactPreferenceInput.write (input : UpsertContactPreferenceInput)
    (contact : ContactPreference) : ContactPreference :=
  { contact with
    email := input.email <|> contact.email
    phone := input.phone <|> contact.phone
    pushToken := input.pushToken <|> contact.pushToken
    pushPlatform := input.pushPlatform <|> contact.pushPlatform
    emailOptOut := input.emailOptOut.getD contact.emailOptOut
    pushOptOut := input.pushOptOut.getD contact.pushOptOut }

/-- The fields of a request besides `userId` and `type`. -/
abbrev Payload (N : Type) : Type := List (String × Json N)

/-- A row of `notification_log`. -/
structure NotificationLog (N : Type) where
  userId : String
  type : NotificationType
  payload : Payload N
  channel : Channel

structure NotificationSentEvent where
  userId : String
  notificationType : NotificationType
  channel : Channel
  deriving DecidableEq, Repr

/-- What `send` answers. -/
structure DispatchReply where
  userId : String
  type : NotificationType
  dispatched : List DispatchResult
  deriving DecidableEq, Repr

/-- The variables of the environment. -/
structure DispatchEnv where
  SNS_IOS_PLATFORM_APPLICATION_ARN : Option String := none
  SNS_ANDROID_PLATFORM_APPLICATION_ARN : Option String := none
  deriving DecidableEq, Repr

/-- The application that endpoints of a platform belong to, if it is configured. -/
def DispatchEnv.platformArn (env : DispatchEnv) (pushPlatform : Option String) : Option String :=
  (if pushPlatform = some "ios" then env.SNS_IOS_PLATFORM_APPLICATION_ARN
    else env.SNS_ANDROID_PLATFORM_APPLICATION_ARN).filter (· ≠ "")

/-! ### The calls -/

inductive DispatchOp (N : Type)
  | findUnique (userId : String)
  | upsert (userId : String) (input : UpsertContactPreferenceInput)
  | setPushEndpointArn (userId pushEndpointArn : String)
  | createLog (data : NotificationLog N)
  | sendEmail (email subject body : String)
  | createEndpoint (platformApplicationArn pushToken : String)
  | publishPush (endpointArn : String) (message : Payload N)
  | publishNotificationSent (event : NotificationSentEvent)

abbrev DispatchOp.Answer {N : Type} : DispatchOp N → Type
  | .findUnique _ => Option ContactPreference
  | .upsert _ _ => ContactPreference
  | .createEndpoint _ _ => String
  | _ => Unit

/-- Programs of notification-service. -/
abbrev Dispatch (N α : Type) : Type := Prog (DispatchOp N) DispatchOp.Answer Err α

section Service

variable {N : Type}

def ask (op : DispatchOp N) : Dispatch N op.Answer := .await op

/-! ### Texts -/

def subjectFor : NotificationType → String
  | .MENU_OF_THE_DAY => "Your meal cart is ready for review"
  | .CONFIRM_PAYMENT => "Confirm your order"
  | .ORDER_STATUS => "Order update"

/-- The property `name` of a value; `undefined` is `none`. -/
def nameOf : Json N → Except Err (Option (Json N))
  | .null => .error (.error "Cannot read properties of null (reading 'name')")
  | item => .ok (item.get "name")

/-- The `proposedItems` of a payload; none where they are not an array. -/
def proposedItems (payload : Payload N) : List (Json N) :=
  match payload.lookup "proposedItems" with
  | some (.arr items) => items
  | _ => []

/-- `err.message`. -/
def errorMessage : Err → String
  | .http _ message | .axios _ message | .error message => message

variable (fmt : Json.NumberFormat N)

/-- `value ?? other`, in a template. -/
def textOr (value : Option (Json N)) (other : String) : String :=
  match value with
  | none | some .null => other
  | some v => String.ofList (toText fmt v)

variable [Zero N] [DecidableEq N]

/-- The text of a menu of the day whose dishes have these names. -/
def menuText (names : List (Option (Json N))) : String :=
  let names := ", ".intercalate
    ((names.filterMap (·.filter truthy)).map fun name => String.ofList (toText fmt name))
  if names ≠ "" then s!"Today's cart: {names}. Review and place your order."
  else "Your cart is ready. Review and place your order."

def bodyFor (type : NotificationType) (payload : Payload N) : Except Err String :=
  match type with
  | .MENU_OF_THE_DAY => do
    let names ← (proposedItems payload).mapM nameOf
    return menuText fmt names
  | .CONFIRM_PAYMENT => do
    let orderId := textOr fmt (payload.lookup "orderId") ""
    return s!"Please confirm order {orderId} to proceed."
  | .ORDER_STATUS => do
    let orderId := textOr fmt (payload.lookup "orderId") ""
    let status := textOr fmt (payload.lookup "status") "updated"
    return s!"Order {orderId} status: {status}."

/-! ### `DispatchService` -/

/-- The address that mails go to: it is set, and mails are not opted out. -/
def ContactPreference.mailsTo (contact : ContactPreference) : Option String :=
  if contact.emailOptOut then none else contact.email.filter (· ≠ "")

/-- Messages are pushed: a token is set, and they are not opted out. -/
def ContactPreference.pushes (contact : ContactPreference) : Bool :=
  (contact.pushToken.filter (· ≠ "")).isSome && !contact.pushOptOut

namespace DispatchService

variable (env : DispatchEnv) (userId : String) (type : NotificationType) (payload : Payload N)

def recordSent (channel : Channel) : Dispatch N Unit := do
  ask (.createLog { userId, type, payload, channel })
  ask (.publishNotificationSent { userId, notificationType := type, channel })

def ensurePushEndpoint (contact : ContactPreference) : Dispatch N String := do
  match env.platformArn contact.pushPlatform with
  | none =>
    let platform := contact.pushPlatform.getD "null"
    throw (.error s!"no SNS platform application ARN configured for platform {platform}")
  | some platformArn =>
    match contact.pushToken.filter (· ≠ "") with
    | none => throw (.error "no push token on file")
    | some pushToken =>
      let endpointArn : String ← ask (.createEndpoint platformArn pushToken)
      ask (.setPushEndpointArn userId endpointArn)
      return endpointArn

/-- What failed is logged, and answered as the error of the channel. -/
def caught (channel : Channel) (sending : Dispatch N Unit) : Dispatch N DispatchResult := do
  match ← sending.attempt with
  | .ok _ => return { channel, success := true }
  | .error err => return { channel, success := false, error := some (errorMessage err) }

def dispatchEmail (email : String) : Dispatch N DispatchResult :=
  caught .email do
    match bodyFor fmt type payload with
    | .error err => throw err
    | .ok body =>
      ask (.sendEmail email (subjectFor type) body)
      recordSent userId type payload .email

def dispatchPush (contact : ContactPreference) : Dispatch N DispatchResult :=
  caught .push do
    let endpointArn ← match contact.pushEndpointArn with
      | some endpointArn => pure endpointArn
      | none => ensurePushEndpoint env userId contact
    ask (.publishPush endpointArn (("type", .str (toString type)) :: payload))
    recordSent userId type payload .push

/-- By mail, if that is set and not opted out. -/
def onEmail (contact : ContactPreference) : Dispatch N (List DispatchResult) := do
  match contact.mailsTo with
  | some email => return [← dispatchEmail fmt userId type payload email]
  | none => return []

/-- By push, if that is set and not opted out. -/
def onPush (contact : ContactPreference) : Dispatch N (List DispatchResult) := do
  if contact.pushes then return [← dispatchPush env userId type payload contact]
  return []

def dispatchTo (contact : ContactPreference) : Dispatch N (List DispatchResult) := do
  let emailed ← onEmail fmt userId type payload contact
  let pushed ← onPush env userId type payload contact
  return emailed ++ pushed

def send (type : String) : Dispatch N DispatchReply := do
  match NOTIFICATION_TYPES.find? (toString · = type) with
  | none => throw (.http 400 s!"unknown notification type {type}")
  | some notificationType =>
    match ← ask (.findUnique userId) with
    | none => return { userId, type := notificationType, dispatched := [] }
    | some contact =>
      let dispatched ← dispatchTo fmt env userId notificationType payload contact
      return { userId, type := notificationType, dispatched }

end DispatchService

end Service

/-! ### Who asks for a menu of the day -/

section Menu

variable {N : Type} (num : ℚ → N)

/-- A dish as JSON; a description that is `undefined` is left out. -/
def menuItemJson (item : MenuItem) : Json N :=
  .obj ([("itemId", .str item.itemId), ("restaurantId", .str item.restaurantId),
    ("name", .str item.name), ("price", .num (num item.price))] ++
    (item.description.map fun description => ("description", .str description)).toList)

def decisionLogEntryJson (entry : DecisionLogEntry) : Json N :=
  .obj ([("couponCode", .str entry.couponCode),
    ("outcome", .str (match entry.outcome with | .accepted => "accepted" | .rejected => "rejected")),
    ("reason", .str entry.reason)] ++
    (entry.computedTotal.map fun total => ("computedTotal", .num (num total))).toList)

/-- A cart as JSON; a code that is `undefined` is left out. -/
def optimizedCartJson (cart : OptimizedCart) : Json N :=
  .obj ([("items", .arr (cart.items.map fun item =>
      .obj [("itemId", .str item.itemId), ("quantity", .num (num item.quantity))])),
    ("baseCost", .num (num cart.baseCost)), ("fillerCost", .num (num cart.fillerCost)),
    ("discountApplied", .num (num cart.discountApplied)), ("finalTotal", .num (num cart.finalTotal)),
    ("savingsAchieved", .num (num cart.savingsAchieved))] ++
    (cart.couponCode.map fun code => ("couponCode", .str code)).toList ++
    [("overBudget", .bool cart.overBudget),
      ("decisionLog", .arr (cart.decisionLog.map (decisionLogEntryJson num)))])

variable (fmt : Json.NumberFormat N) [Zero N] [DecidableEq N] (env : DispatchEnv)

/-- The handler of `registerMenuProposedConsumer`. -/
def MenuProposedConsumer.handle (userId : String) (proposedItems : List MenuItem) :
    Dispatch N DispatchReply :=
  DispatchService.send fmt env userId [("proposedItems", .arr (proposedItems.map (menuItemJson num)))]
    "MENU_OF_THE_DAY"

/-- What orchestrator-service posts to `/notify/send`. -/
def NotificationClient.sendMenuOfTheDay (userId : String) (cart : Option OptimizedCart) :
    Dispatch N DispatchReply :=
  DispatchService.send fmt env userId
    [("cart", (cart.map (optimizedCartJson num)).getD .null)] "MENU_OF_THE_DAY"

end Menu

/-! ### The world -/

/-- What SES and SNS have been given. -/
inductive Message (N : Type)
  | email (email subject body : String)
  | push (endpointArn : String) (message : Payload N)

structure Notifications (N : Type) where
  contacts : String → Option ContactPreference
  log : List (NotificationLog N) := []
  sent : List (Message N) := []

/-- What the environment chooses for one call: what is thrown instead of an answer, whether the call has been served all
the same, and the endpoint that SNS creates. -/
structure DispatchChoice where
  error : Option Err := none
  served : Bool := false
  endpointArn : String := ""
  deriving DecidableEq, Repr

section World

variable {N : Type}

/-- What a call does that does not fail by itself. -/
def serve (c : DispatchChoice) :
    (op : DispatchOp N) → Notifications N → Except Err op.Answer × Notifications N
  | .findUnique userId, s => (.ok (s.contacts userId), s)
  | .upsert userId input, s =>
    let contact := input.write ((s.contacts userId).getD {})
    (.ok contact, { s with contacts := Function.update s.contacts userId (some contact) })
  | .setPushEndpointArn userId pushEndpointArn, s =>
    match s.contacts userId with
    | none => (.error (.error "Record to update not found."), s)
    | some contact =>
      let contact := { contact with pushEndpointArn := some pushEndpointArn }
      (.ok (), { s with contacts := Function.update s.contacts userId (some contact) })
  | .createLog data, s => (.ok (), { s with log := s.log ++ [data] })
  | .sendEmail email subject body, s =>
    (.ok (), { s with sent := s.sent ++ [.email email subject body] })
  | .createEndpoint _ _, s => (.ok c.endpointArn, s)
  | .publishPush endpointArn message, s =>
    (.ok (), { s with sent := s.sent ++ [.push endpointArn message] })
  | .publishNotificationSent _, s => (.ok (), s)

/-- A call is served or fails, with its effect or without. -/
def exec : Handler (DispatchOp N) DispatchOp.Answer Err (Notifications N) DispatchChoice :=
  fun c op s =>
    match c.error with
    | some err => (.error err, if c.served then (serve c op s).2 else s)
    | none => serve c op s

end World

end Gusto.Notification
