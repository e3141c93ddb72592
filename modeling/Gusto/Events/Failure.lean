import Gusto.Auth.Login
import Gusto.Lib.Fault
import Gusto.Notification.Dispatch
import Gusto.Order.World

/-!
# A publish that fails

The operations of three services that publish an event, each run under a stream of choices of its
environment.  Once the event is due, the row is written, the token stored or the mail sent.

* `orderBus`, `loginBus`, `dispatchBus`: which calls publish, and what is kept;
* `tells_…`: none of the operations catches the failure of its publish where it stands, and each result
  says that there was one;
* `Operation`: the operations, with their choices and the state before them;
* `harmless_iff_quiet`: so a failing publish is without consequence exactly where none is made.
-/

set_option autoImplicit false

namespace Gusto.Events

open Effects

/-! ### The services -/

/-- Of order-execution-service everything is kept but the events that wait for their consumer. -/
def orderBus : Bus Order.OrderOp Order.OrderOp.Answer Err Order.World Order.Choice Order.World where
  exec := Order.exec
  publishes := Order.OrderOp.isPublish
  fail e c := { c with error := some e }
  kept w := { w with outbox := [] }
  fails e c i s hi := by cases i <;> first | rfl | cases hi

def isUserAuthenticated : Auth.LoginOp → Bool
  | .publish _ => true
  | _ => false

/-- The tables of auth-service. -/
def loginBus : Bus Auth.LoginOp Auth.LoginOp.Answer Err Auth.Tables Auth.LoginChoice
    ((String → Option Auth.PendingAuthSession) × (String → Option Auth.User)) where
  exec := Auth.reach
  publishes := isUserAuthenticated
  fail e c := { c with error := some e }
  kept t := (t.sessions, t.users)
  fails e c i s hi := by cases i <;> first | rfl | cases hi

def isNotificationSent {N : Type} : Notification.DispatchOp N → Bool
  | .publishNotificationSent _ => true
  | _ => false

/-- The tables of notification-service. -/
def dispatchBus (N : Type) : Bus (Notification.DispatchOp N) Notification.DispatchOp.Answer Err
    (Notification.Notifications N) Notification.DispatchChoice
    ((String → Option Notification.ContactPreference) × List (Notification.NotificationLog N)) where
  exec := Notification.exec
  publishes := isNotificationSent
  fail e c := { c with error := some e }
  kept s := (s.contacts, s.log)
  fails e c i s hi := by cases i <;> rfl

/-! ### `OrderService` -/

section Order

open Gusto.Order Gusto.Order.OrderService Bus

/-- The program has returned something. -/
def Returned {α : Type} (r : Except Err α) : Prop := ∃ a, r = .ok a

theorem not_returned {α : Type} {e : Err} : ¬ Returned (.error e : Except Err α) := fun ⟨_, h⟩ => nomatch h

theorem tells_markFailed {α : Type} (order : OrderRow) (cart : StoredOrderCart) (reason : String) :
    orderBus.Tells (markFailed order cart reason : OrderProg α) := by
  refine Silent.bind_tells (silent_await rfl) fun _ => ?_
  refine Silent.bind_tells (silent_await rfl).attempt fun _ => ?_
  have hthrown : Prog.Ends (· = .error (.http 422 reason))
      (.throw (.http 422 reason) : OrderProg α) := rfl
  exact (marks_publish (.error "") (fun _ => hthrown) (by simp) fun _ => silent_throw).tells

theorem tells_markPlaced (order : OrderRow) (cart : StoredOrderCart) (ref : String) :
    orderBus.Tells (markPlaced order cart ref) := by
  refine Silent.bind_tells (silent_await rfl) fun _ => ?_
  refine Silent.bind_tells (silent_await rfl) fun updated => ?_
  refine Silent.bind_tells (silent_await rfl).attempt fun _ => ?_
  have hreturned : ∀ reply : OrderReply, Prog.Ends Returned (.ret reply : OrderProg OrderReply) :=
    fun reply => ⟨reply, rfl⟩
  exact (marks_publish (.error "") (fun _ => hreturned _) not_returned fun _ => silent_ret).tells

theorem tells_reconcile (order : OrderRow) (cart : StoredOrderCart) (reason : String) :
    orderBus.Tells (reconcileAmbiguousFailure order cart reason) := by
  refine Silent.bind_tells (silent_await rfl).attempt fun r => ?_
  cases r <;> exact tells_markFailed ..

theorem tells_confirmAndPlace (orderId : ℕ) : orderBus.Tells (confirmAndPlace orderId) := by
  rw [confirmAndPlace_eq]
  refine tells_call rfl fun r => ?_
  rcases r with err | _ | order
  · exact silent_throw.tells
  · exact silent_throw.tells
  · dsimp only
    split
    · refine tells_call rfl fun r => ?_
      rcases r with err | result
      · exact tells_reconcile ..
      · unfold afterPlacement
        dsimp only
        split
        · split
          · exact tells_markPlaced ..
          · exact Silent.bind_tells (silent_await rfl) fun _ => tells_markPlaced ..
        · exact tells_markFailed ..
    · exact silent_throw.tells

theorem silent_populate (userId addressId restaurantId : String) (cart : OptimizedCart) :
    orderBus.Silent (populate userId addressId restaurantId cart) := by
  refine Silent.bind (silent_await rfl) fun _ => ?_
  cases cart.coupon with
  | none => exact Silent.bind (silent_await rfl) fun _ => silent_ret
  | some code =>
    exact Silent.bind (silent_await rfl) fun _ => Silent.bind (silent_await rfl) fun _ => silent_ret

theorem tells_populateAndAwaitConfirmation (userId addressId restaurantId : String)
    (cart : OptimizedCart) (paymentMethod : Option String) :
    orderBus.Tells (populateAndAwaitConfirmation userId addressId restaurantId cart paymentMethod) := by
  rw [populateAndAwaitConfirmation_eq]
  split
  · exact silent_throw.tells
  · refine tells_call rfl fun r => ?_
    rcases r with err | _
    · exact silent_throw.tells
    · refine tells_call rfl fun r => ?_
      rcases r with err | order
      · exact silent_throw.tells
      · refine Silent.bind_tells (silent_populate ..).attempt fun r => ?_
        rcases r with err | _
        · exact tells_markFailed ..
        · refine Silent.tells (Silent.bind (Silent.attempt ?_) fun _ => silent_ret)
          exact Silent.bind (silent_await rfl).attempt fun _ => silent_ret

theorem tells_pollDeliveryStatus (orderId : ℕ) : orderBus.Tells (pollDeliveryStatus orderId) := by
  refine Silent.bind_tells (silent_await rfl) fun order => ?_
  rcases order with _ | order
  · exact silent_throw.tells
  · dsimp only
    cases order.swiggyOrderRef.filter (· ≠ "") with
    | none => exact silent_throw.tells
    | some ref =>
      refine Silent.bind_tells (silent_await rfl) fun tracked => ?_
      split
      · refine Silent.bind_tells (silent_await rfl) fun _ => ?_
        refine Silent.bind_tells (silent_await rfl) fun updated => ?_
        have hreturned : ∀ reply : PollReply, Prog.Ends Returned (.ret reply : OrderProg PollReply) :=
          fun reply => ⟨reply, rfl⟩
        exact (marks_publish (.error "") (fun _ => hreturned _) not_returned fun _ => silent_ret).tells
      · exact silent_ret.tells

end Order

/-! ### `OAuthService` -/

section Auth

open Gusto.Auth Bus

theorem tells_storeToken (env : LoginEnv) (session : PendingAuthSession)
    (swiggyToken : SwiggyTokenResponse) :
    loginBus.Tells (OAuthService.storeToken env session swiggyToken) := by
  refine Silent.bind_tells (silent_await rfl) fun _ => ?_
  refine Silent.bind_tells (silent_await rfl) fun _ => ?_
  refine Silent.bind_tells (silent_await rfl) fun _ => ?_
  refine Silent.bind_tells (Silent.bind (silent_await rfl).attempt fun _ => silent_ret) fun _ => ?_
  refine Silent.bind_tells (silent_await rfl) fun _ => ?_
  refine Silent.bind_tells (silent_await rfl) fun _ => ?_
  refine Silent.bind_tells (silent_await rfl) fun _ => ?_
  refine Silent.bind_tells (silent_await rfl) fun _ => ?_
  have hreturned : ∀ reply : LoginSession, Prog.Ends Returned (.ret reply : Login LoginSession) :=
    fun reply => ⟨reply, rfl⟩
  exact (marks_publish (.error "") (fun _ => hreturned _) not_returned fun _ => silent_ret).tells

theorem tells_exchangeCodeForToken (env : LoginEnv) (code state : String) :
    loginBus.Tells (OAuthService.exchangeCodeForToken env code state) := by
  refine Silent.bind_tells (silent_await rfl) fun session => ?_
  rcases session with _ | session
  · exact silent_throw.tells
  · refine Silent.bind_tells (silent_await rfl) fun now => ?_
    dsimp only
    split
    · refine Silent.tells (Silent.bind ?_ fun _ => silent_throw)
      exact Silent.bind (silent_await rfl).attempt fun _ => silent_ret
    · refine Silent.bind_tells ?_ fun swiggyToken => tells_storeToken env session swiggyToken
      refine Silent.bind (silent_await rfl) fun reply => ?_
      rcases reply with response | body | _
      · exact silent_ret
      · exact silent_throw
      · exact silent_throw

end Auth

/-! ### `DispatchService` -/

section Dispatch

open Gusto.Notification Gusto.Notification.DispatchService Bus

variable {N : Type}

theorem marks_recordSent (userId : String) (type : NotificationType) (payload : Payload N)
    (channel : Channel) :
    (dispatchBus N).Marks Returned (recordSent userId type payload channel) := by
  refine Silent.bind_marks (silent_await rfl) fun _ => ?_
  rw [← bind_pure (ask _)]
  exact marks_publish (.error "") (fun _ => ⟨_, rfl⟩) not_returned fun _ => silent_ret

/-- The channel has answered that its message is sent. -/
def Sent (channel : Channel) (r : Except Err DispatchResult) : Prop := r = .ok { channel, success := true }

/-- One of the answers is that the message is sent. -/
def SentOn (channel : Channel) (r : Except Err (List DispatchResult)) : Prop :=
  ∃ results, r = .ok results ∧ { channel, success := true } ∈ results

/-- There are answers of one channel only. -/
def OnlyOn (channel : Channel) (r : Except Err (List DispatchResult)) : Prop :=
  ∃ results, r = .ok results ∧ ∀ x ∈ results, x.channel = channel

theorem marks_caught {channel : Channel} {sending : Dispatch N Unit}
    (h : (dispatchBus N).Marks Returned sending) :
    (dispatchBus N).Marks (Sent channel) (caught channel sending) := by
  have hattempt : (dispatchBus N).Marks (fun r => ∃ x, r = .ok x ∧ Returned x) sending.attempt :=
    h.attempt fun r => by simp
  refine hattempt.bind ⟨fun r => ?_, fun e => by simp [Sent]⟩ fun r => ?_
  · rcases r with err | _
    · simp [Prog.Ends, Sent, Returned]
    · simp [Prog.Ends, Sent, Returned]
  · cases r <;> exact silent_ret.marks

theorem ends_caught {channel : Channel} {sending : Dispatch N Unit} :
    (caught channel sending).Ends fun r => ∃ x, r = .ok x ∧ x.channel = channel := by
  have hattempt : sending.attempt.Ends fun r => ∃ x, r = .ok x :=
    Prog.ends_true.attempt fun r _ => ⟨r, rfl⟩
  refine hattempt.bind (fun r _ => ?_) nofun
  cases r <;> exact ⟨_, rfl, rfl⟩

/-- The one answer of a channel, as a list. -/
theorem shows_singleton {channel : Channel} :
    Shows (Sent channel) (fun r => (.ret [r] : Dispatch N (List DispatchResult))) (SentOn channel) := by
  refine ⟨fun r => ?_, fun e => by simp [Sent, SentOn]⟩
  simp [Prog.Ends, Sent, SentOn, eq_comm]

variable (env : DispatchEnv) (userId : String) (type : NotificationType) (payload : Payload N)
  (contact : ContactPreference)

theorem silent_ensurePushEndpoint :
    (dispatchBus N).Silent (ensurePushEndpoint env userId contact) := by
  unfold ensurePushEndpoint
  split
  · exact silent_throw
  · split
    · exact silent_throw
    · exact Silent.bind (silent_await rfl) fun _ => Silent.bind (silent_await rfl) fun _ => silent_ret

theorem marks_onPush :
    (dispatchBus N).Marks (SentOn .push) (onPush env userId type payload contact) := by
  unfold onPush
  split
  · refine Marks.bind (marks_caught ?_) shows_singleton fun _ => silent_ret.marks
    have hpublish : ∀ endpointArn, (dispatchBus N).Marks Returned
        (ask (.publishPush endpointArn (("type", .str (toString type)) :: payload)) >>= fun _ =>
          recordSent userId type payload .push) := fun endpointArn =>
      Silent.bind_marks (silent_await rfl) fun _ => marks_recordSent ..
    cases contact.pushEndpointArn with
    | some endpointArn => exact hpublish endpointArn
    | none => exact Silent.bind_marks (silent_ensurePushEndpoint ..) hpublish
  · exact silent_ret.marks

theorem ends_onPush : (onPush env userId type payload contact).Ends (OnlyOn .push) := by
  unfold onPush
  split
  · refine ends_caught.bind (fun r hr => ?_) nofun
    obtain ⟨x, heq, hx⟩ := hr
    cases heq
    exact ⟨[r], rfl, by simpa using hx⟩
  · exact ⟨[], rfl, nofun⟩

variable [Zero N] [DecidableEq N] (fmt : Json.NumberFormat N)

theorem marks_onEmail :
    (dispatchBus N).Marks (SentOn .email) (onEmail fmt userId type payload contact) := by
  unfold onEmail
  cases contact.mailsTo with
  | none => exact silent_ret.marks
  | some email =>
    refine Marks.bind (marks_caught ?_) shows_singleton fun _ => silent_ret.marks
    cases bodyFor fmt type payload with
    | error err => exact silent_throw.marks
    | ok body => exact Silent.bind_marks (silent_await rfl) fun _ => marks_recordSent ..

theorem tells_dispatchTo :
    (dispatchBus N).Tells (dispatchTo fmt env userId type payload contact) := by
  unfold dispatchTo
  refine (marks_onEmail userId type payload contact fmt).bind_tells
    (T := SentOn .email) ⟨fun emailed => ?_, fun e => by simp [SentOn]⟩ fun emailed => ?_
  -- what is pushed has no answer of the mails
  · refine (ends_onPush env userId type payload contact).bind (fun pushed hpushed => ?_) nofun
    obtain ⟨results, heq, honly⟩ := hpushed
    cases heq
    have hnot : { channel := .email, success := true } ∉ pushed := fun h => by
      cases honly _ h
    simp [Prog.Ends, SentOn, hnot]
  -- after the answers to the mails, the rest are those that have been pushed
  · refine (marks_onPush env userId type payload contact).bind_tells
      (T := fun r => ∃ pushed, r = .ok (emailed ++ pushed) ∧ SentOn .push (.ok pushed))
      ⟨fun pushed => ?_, fun e => by simp [SentOn]⟩ fun _ => silent_ret.tells
    simp [Prog.Ends, SentOn]

theorem tells_send (type : String) :
    (dispatchBus N).Tells (send fmt env userId payload type) := by
  unfold send
  split
  · exact silent_throw.tells
  · refine Silent.bind_tells (silent_await rfl) fun contact => ?_
    cases contact with
    | none => exact silent_ret.tells
    | some contact =>
      refine (tells_dispatchTo env userId _ payload contact fmt).bind_ret fun _ _ h => ?_
      exact (DispatchReply.mk.inj h).2.2

end Dispatch

/-! ### The operations -/

section Operations

open Gusto.Order Gusto.Auth Gusto.Notification

/-- An operation that publishes, what the calls that it makes come to, and the state before it. -/
inductive Operation (N : Type)
  | confirmAndPlace (orderId : ℕ) (cs : ℕ → Order.Choice) (w : Order.World)
  | populateAndAwaitConfirmation (userId addressId restaurantId : String) (cart : OptimizedCart)
      (paymentMethod : Option String) (cs : ℕ → Order.Choice) (w : Order.World)
  | pollDeliveryStatus (orderId : ℕ) (cs : ℕ → Order.Choice) (w : Order.World)
  | exchangeCodeForToken (env : LoginEnv) (code state : String) (cs : ℕ → LoginChoice) (t : Tables)
  | send (fmt : Json.NumberFormat N) (env : DispatchEnv) (userId : String) (payload : Payload N)
      (type : String) (cs : ℕ → DispatchChoice) (s : Notifications N)

variable {N : Type} [Zero N] [DecidableEq N]

/-- A publish that fails where it had succeeded changes neither the result nor what is kept. -/
def Operation.Harmless : Operation N → Prop
  | confirmAndPlace orderId cs w => orderBus.Harmless (OrderService.confirmAndPlace orderId) cs w
  | populateAndAwaitConfirmation userId addressId restaurantId cart paymentMethod cs w =>
    orderBus.Harmless (OrderService.populateAndAwaitConfirmation userId addressId restaurantId cart
      paymentMethod) cs w
  | pollDeliveryStatus orderId cs w => orderBus.Harmless (OrderService.pollDeliveryStatus orderId) cs w
  | exchangeCodeForToken env code state cs t =>
    loginBus.Harmless (OAuthService.exchangeCodeForToken env code state) cs t
  | send fmt env userId payload type cs s =>
    (dispatchBus N).Harmless (DispatchService.send fmt env userId payload type) cs s

/-- No publish succeeds. -/
def Operation.Quiet : Operation N → Prop
  | confirmAndPlace orderId cs w => orderBus.Quiet (OrderService.confirmAndPlace orderId) cs w
  | populateAndAwaitConfirmation userId addressId restaurantId cart paymentMethod cs w =>
    orderBus.Quiet (OrderService.populateAndAwaitConfirmation userId addressId restaurantId cart
      paymentMethod) cs w
  | pollDeliveryStatus orderId cs w => orderBus.Quiet (OrderService.pollDeliveryStatus orderId) cs w
  | exchangeCodeForToken env code state cs t =>
    loginBus.Quiet (OAuthService.exchangeCodeForToken env code state) cs t
  | send fmt env userId payload type cs s =>
    (dispatchBus N).Quiet (DispatchService.send fmt env userId payload type) cs s

/-- **A failed publish** changes nothing else exactly where no publish succeeds, so that there is none to
fail: of every operation that publishes, from every state, and whatever the other calls come to. -/
theorem harmless_iff_quiet (op : Operation N) : op.Harmless ↔ op.Quiet := by
  cases op with
  | confirmAndPlace orderId => exact (tells_confirmAndPlace orderId).harmless_iff
  | populateAndAwaitConfirmation userId addressId restaurantId cart paymentMethod =>
    exact (tells_populateAndAwaitConfirmation userId addressId restaurantId cart paymentMethod).harmless_iff
  | pollDeliveryStatus orderId => exact (tells_pollDeliveryStatus orderId).harmless_iff
  | exchangeCodeForToken env code state => exact (tells_exchangeCodeForToken env code state).harmless_iff
  | send fmt env userId payload type => exact (tells_send env userId payload fmt type).harmless_iff

/-! ### An order that is placed -/

/-- An order that awaits its confirmation. -/
def pendingOrder : Order.World where
  wallets _ := none
  orders := Orders.create {}
    { userId := "u", status := .PENDING_CONFIRMATION
      cart := { items := [], baseCost := 100, finalTotal := 100, addressId := "home",
                restaurantId := "r", paymentMethod := none }
      savingsAchieved := 0 }

/-- Swiggy places it. -/
def placesOrder : ℕ → Order.Choice := fun _ =>
  { response := { success := true, data := some { orderId := some "swiggy-1" } } }

/-- It is placed, and to the caller its confirmation has failed. -/
theorem not_failedPublishHarmless : ¬ ∀ (N : Type) [Zero N] [DecidableEq N] (op : Operation N), op.Harmless := by
  intro h
  have hquiet := (tells_confirmAndPlace 0).harmless_iff.mp (h ℤ (.confirmAndPlace 0 placesOrder pendingOrder))
  obtain ⟨ev, hev, hsucc⟩ : ∃ ev,
      ((OrderService.confirmAndPlace 0).play Order.exec placesOrder pendingOrder).events[5]? = some ev ∧
        orderBus.Succeeds ev := ⟨_, rfl, rfl, (), rfl⟩
  exact hquiet ev (List.mem_of_getElem? hev) hsucc

end Operations

end Gusto.Events
