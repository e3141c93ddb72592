import Gusto.Http
import Gusto.Lib.Json

/-!
# The event bus

What `EventPublisher` sends, and what `EventSubscriber` does with one message.

* `EventPublisher.publish`: the entry of an event;
* `decode`: the payload that a body has for the subscriber of an event type;
* `processMessage`: the handler, then the deletion; whatever is thrown in between is swallowed.
-/

set_option autoImplicit false

namespace Gusto.Events

open Effects

variable {N : Type} (fmt : Json.NumberFormat N)

/-! ### The publisher -/

/-- An entry of `PutEvents`. -/
structure Entry where
  Source : String
  DetailType : String
  Detail : String
  EventBusName : String
  deriving DecidableEq, Repr

/-- The entry that is sent to the bus. -/
def EventPublisher.publish (source eventType : String) (payload : Json N) : Entry where
  Source := source
  DetailType := eventType
  Detail := Json.stringify fmt payload
  EventBusName := "default"

/-! ### The values of JavaScript -/

/-- A value that a condition takes for true. -/
def truthy [Zero N] [DecidableEq N] : Json N → Bool
  | .null => false
  | .bool b => b
  | .num n => n ≠ 0
  | .str s => s ≠ ""
  | .arr _ | .obj _ => true

/-- `value || other`; `undefined` is `none`. -/
def orElse [Zero N] [DecidableEq N] (value : Option (Json N)) (other : Json N) : Json N :=
  (value.filter truthy).getD other

/-- The text of every object. -/
def objectText : List Char := "[object Object]".toList

mutual

/-- `String(value)`. -/
def toText : Json N → List Char
  | .null => ['n', 'u', 'l', 'l']
  | .bool true => ['t', 'r', 'u', 'e']
  | .bool false => ['f', 'a', 'l', 's', 'e']
  | .num n => fmt.print n
  | .str s => s.toList
  | .arr items => joinText items
  | .obj _ => objectText

/-- The items of an array with commas between them; `null` is left out. -/
def joinText : List (Json N) → List Char
  | [] => []
  | [.null] => []
  | [v] => toText v
  | .null :: w :: vs => ',' :: joinText (w :: vs)
  | v :: w :: vs => toText v ++ ',' :: joinText (w :: vs)

end

/-! ### The subscriber -/

/-- `JSON.parse`. -/
def parseJson (text : String) : Except Err (Json N) :=
  match Json.parse fmt text with
  | some v => .ok v
  | none => .error (.error "SyntaxError")

/-- The payload that a body has for the subscriber of `eventType`; `none` for another type. -/
def decode [Zero N] [DecidableEq N] (eventType text : String) :
    Except Err (Option (Json N)) := do
  let body ← parseJson fmt text
  if let .null := body then throw (.error "Cannot read properties of null (reading 'DetailType')")
  let (msgEventType, payload) ←
    match (body.get "DetailType").filter truthy, (body.get "Detail").filter truthy with
    | some detailType, some detail => do
      let payload ← parseJson fmt (String.ofList (toText fmt detail))
      pure (detailType, payload)
    | _, _ => pure (orElse (body.get "eventType") (.str eventType), orElse (body.get "payload") body)
  match msgEventType with
  | .str s => if s = eventType then return some payload else return none
  | _ => return none

/-- The calls of the subscriber, for payloads of type `T`. -/
inductive SubscriberOp (T : Type)
  | handler (payload : T)
  | deleteMessage

variable {T : Type}

/-- Handles a message and deletes it.  What is thrown is logged, and the message stays. -/
def processMessage (decode : String → Except Err (Option T)) (body : Option String) :
    Prog (SubscriberOp T) (fun _ => Unit) Err Unit :=
  tryCatch
    (do
      match body with
      | none | some "" => return
      | some text =>
        match decode text with
        | .error e => throw e
        | .ok payload =>
          if let some payload := payload then Prog.await (.handler payload)
          Prog.await .deleteMessage)
    fun _ => return

/-- The payloads that the handler was called with. -/
def payloads {σ χ : Type} (events : List (Event σ (SubscriberOp T) χ)) : List T :=
  events.filterMap fun e =>
    match e.call with
    | .handler payload => some payload
    | .deleteMessage => none

/-! ### What is called -/

/-- The payload that the handler of a message is called with. -/
def payloadOf (decode : String → Except Err (Option T)) (body : Option String) : Option T :=
  match body with
  | none | some "" => none
  | some text =>
    match decode text with
    | .ok payload => payload
    | .error _ => none

variable {decode : String → Except Err (Option T)} {body : Option String}

theorem payloadOf_eq {text : String} (htext : text ≠ "") {payload : Option T}
    (h : decode text = .ok payload) : payloadOf decode (some text) = payload := by
  unfold payloadOf
  split
  · rename_i heq
    cases heq
  · rename_i heq
    exact absurd (Option.some.inj heq) htext
  · rename_i heq
    cases heq
    rw [h]

/-- A message with a payload is handled, and deleted when the handler has not thrown. -/
theorem processMessage_of_payload {payload : T} (h : payloadOf decode body = some payload) :
    processMessage decode body = .call (.handler payload) fun r =>
      match r with
      | .ok _ => .call .deleteMessage fun _ => .ret ()
      | .error _ => .ret () := by
  unfold payloadOf at h
  unfold processMessage
  split at h
  · cases h
  · cases h
  · split at h
    · rename_i hdec
      subst h
      simp only [hdec]
      refine congrArg (Prog.call (SubscriberOp.handler payload)) (funext fun r => ?_)
      cases r with
      | ok a =>
        refine congrArg (Prog.call SubscriberOp.deleteMessage) (funext fun r => ?_)
        cases r <;> rfl
      | error e => rfl
    · cases h

/-- A message with none is deleted, or left. -/
theorem processMessage_of_none (h : payloadOf decode body = none) :
    processMessage decode body = .ret () ∨
      processMessage decode body = .call .deleteMessage fun _ => .ret () := by
  unfold payloadOf at h
  unfold processMessage
  split at h
  · exact .inl rfl
  · exact .inl rfl
  · split at h
    · rename_i hdec
      subst h
      simp only [hdec]
      refine .inr (congrArg (Prog.call SubscriberOp.deleteMessage) (funext fun r => ?_))
      cases r <;> rfl
    · rename_i hdec
      simp only [hdec]
      exact .inl rfl

end Gusto.Events
