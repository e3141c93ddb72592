import Gusto.Lib.Told
import Gusto.Notification.Endpoint

/-!
# What is said to have been sent

Any requests to notification-service, whose calls interleave and may fail: contacts are registered and read, and
notifications are dispatched, over the route and by the consumers of three events.

* `NotificationRequest.prog`: what the routes and the consumers do;
* `Sent`, `Delivered`: a thread has sent a notification on a channel; and it has logged and announced it too;
* `Truthful`: what each call of a dispatch has behind it;
* `dispatchTruthful`: messages go to the contacts of the user only, what is logged or announced was sent, and the
  answer names a channel as served only where all three were done.
-/

set_option autoImplicit false

namespace Gusto.Notification

open Effects DispatchService

variable {N : Type}

/-! ### The requests -/

/-- `GET /notify/preferences/:userId`. -/
def ContactPreferenceService.get (userId : String) : Dispatch N ContactPreference := do
  match ← ask (.findUnique userId) with
  | some pref => return pref
  | none => throw (.http 404 s!"no contact preference for userId {userId}")

/-- What a notification is about. -/
structure DispatchData (N : Type) where
  userId : String
  type : NotificationType
  payload : Payload N

/-- A request to the routes, or an event of which a consumer tells its user. -/
inductive NotificationRequest (N : Type)
  | upsert (userId : String) (input : UpsertContactPreferenceInput)
  | get (userId : String)
  | send (userId type : String) (payload : Payload N)
  | menuProposed (userId : String) (proposedItems : List MenuItem)
  | orderPlaced (userId orderId : String) (cart : OptimizedCart)
  | orderDelivered (userId orderId : String)

inductive NotificationAnswer
  | contact (contact : ContactPreference)
  | dispatched (reply : DispatchReply)
  deriving DecidableEq, Repr

section Programs

variable (num : ℚ → N) (isEmail : String → Bool) (fmt : Json.NumberFormat N) (env : DispatchEnv)

/-- The payload of `registerOrderPlacedConsumer`. -/
def placedPayload (orderId : String) (cart : OptimizedCart) : Payload N :=
  [("orderId", .str orderId), ("status", .str "PLACED"), ("cart", optimizedCartJson num cart)]

/-- The payload of `registerOrderDeliveredConsumer`. -/
def deliveredPayload (orderId : String) : Payload N := [("orderId", .str orderId), ("status", .str "DELIVERED")]

variable [Zero N] [DecidableEq N]

/-- The handler of `registerOrderPlacedConsumer`. -/
def OrderPlacedConsumer.handle (userId orderId : String) (cart : OptimizedCart) : Dispatch N DispatchReply :=
  send fmt env userId (placedPayload num orderId cart) "ORDER_STATUS"

/-- The handler of `registerOrderDeliveredConsumer`. -/
def OrderDeliveredConsumer.handle (userId orderId : String) : Dispatch N DispatchReply :=
  send fmt env userId (deliveredPayload orderId) "ORDER_STATUS"

def NotificationRequest.prog : NotificationRequest N → Dispatch N NotificationAnswer
  | .upsert userId input => NotificationAnswer.contact <$> ContactPreferenceController.upsert isEmail userId input
  | .get userId => NotificationAnswer.contact <$> ContactPreferenceService.get userId
  | .send userId type payload => NotificationAnswer.dispatched <$> DispatchService.send fmt env userId payload type
  | .menuProposed userId proposedItems =>
    NotificationAnswer.dispatched <$> MenuProposedConsumer.handle num fmt env userId proposedItems
  | .orderPlaced userId orderId cart =>
    NotificationAnswer.dispatched <$> OrderPlacedConsumer.handle num fmt env userId orderId cart
  | .orderDelivered userId orderId =>
    NotificationAnswer.dispatched <$> OrderDeliveredConsumer.handle fmt env userId orderId

end Programs

/-- The user, the type and the payload that a request gives to `send`. -/
def NotificationRequest.sends (num : ℚ → N) : NotificationRequest N → Option (String × String × Payload N)
  | .upsert _ _ | .get _ => none
  | .send userId type payload => some (userId, type, payload)
  | .menuProposed userId proposedItems =>
    some (userId, "MENU_OF_THE_DAY", [("proposedItems", .arr (proposedItems.map (menuItemJson num)))])
  | .orderPlaced userId orderId cart => some (userId, "ORDER_STATUS", placedPayload num orderId cart)
  | .orderDelivered userId orderId => some (userId, "ORDER_STATUS", deliveredPayload orderId)

/-- What a request dispatches: one of the types that are known. -/
def NotificationRequest.data (num : ℚ → N) (request : NotificationRequest N) : Option (DispatchData N) :=
  (request.sends num).bind fun x =>
    (NOTIFICATION_TYPES.find? (toString · = x.2.1)).map fun type => ⟨x.1, type, x.2.2⟩

abbrev NotificationPool (N : Type) : Type :=
  Pool (NotificationRequest N) (DispatchOp N) DispatchOp.Answer Err NotificationAnswer (Notifications N)
abbrev NotificationNote (N : Type) : Type :=
  Note (NotificationRequest N) (Notifications N) (DispatchOp N) DispatchChoice

/-! ### What is asked -/

section Asked

variable [Zero N] [DecidableEq N] (fmt : Json.NumberFormat N) (env : DispatchEnv) (os : List (NotificationNote N))
  (tid : ℕ) (tag : NotificationRequest N) (d : DispatchData N)

/-- The thread has read the contact of its user. -/
def Reads (contact : Option ContactPreference) : Prop :=
  Answered exec os tid tag (.findUnique d.userId) (.ok contact)

/-- The endpoint is the one of the contact, or one that the thread has had created for its token. -/
def EndpointOf (contact : ContactPreference) (endpointArn : String) : Prop :=
  contact.pushEndpointArn = some endpointArn ∨ ∃ platformArn pushToken,
    env.platformArn contact.pushPlatform = some platformArn ∧ contact.pushToken = some pushToken ∧
      Answered exec os tid tag (.createEndpoint platformArn pushToken) (.ok endpointArn)

/-- The notification, as it is pushed. -/
def DispatchData.message (d : DispatchData N) : Payload N := ("type", .str (toString d.type)) :: d.payload

/-- The thread has sent the notification, to the contact of its user. -/
def Sent : Channel → Prop
  | .email => ∃ contact email body, Reads os tid tag d (some contact) ∧ contact.mailsTo = some email ∧
    bodyFor fmt d.type d.payload = .ok body ∧
    Answered exec os tid tag (.sendEmail email (subjectFor d.type) body) (.ok ())
  | .push => ∃ contact endpointArn, Reads os tid tag d (some contact) ∧ contact.pushes ∧
    EndpointOf env os tid tag contact endpointArn ∧
    Answered exec os tid tag (.publishPush endpointArn d.message) (.ok ())

/-- It has logged it, too. -/
def Logged (channel : Channel) : Prop :=
  Sent fmt env os tid tag d channel ∧
    Answered exec os tid tag (.createLog { userId := d.userId, type := d.type, payload := d.payload, channel }) (.ok ())

/-- And it has announced it. -/
def Delivered (channel : Channel) : Prop :=
  Logged fmt env os tid tag d channel ∧ Answered exec os tid tag
    (.publishNotificationSent { userId := d.userId, notificationType := d.type, channel }) (.ok ())

/-- **What a call of a dispatch has behind it.** -/
def Truthful : DispatchOp N → Prop
  | .findUnique userId => userId = d.userId
  | .upsert _ _ => False
  | .createEndpoint platformArn pushToken => ∃ contact, Reads os tid tag d (some contact) ∧
    env.platformArn contact.pushPlatform = some platformArn ∧ contact.pushToken = some pushToken
  | .setPushEndpointArn userId endpointArn => userId = d.userId ∧ ∃ platformArn pushToken,
    Answered exec os tid tag (.createEndpoint platformArn pushToken) (.ok endpointArn)
  | .sendEmail email subject body => subject = subjectFor d.type ∧ bodyFor fmt d.type d.payload = .ok body ∧
    ∃ contact, Reads os tid tag d (some contact) ∧ contact.mailsTo = some email
  | .publishPush endpointArn message => message = d.message ∧
    ∃ contact, Reads os tid tag d (some contact) ∧ contact.pushes ∧ EndpointOf env os tid tag contact endpointArn
  | .createLog data => data.userId = d.userId ∧ data.type = d.type ∧ data.payload = d.payload ∧
    Sent fmt env os tid tag d data.channel
  | .publishNotificationSent event => event.userId = d.userId ∧ event.notificationType = d.type ∧
    Logged fmt env os tid tag d event.channel

/-- The channels by which a user can be reached. -/
def channelsOf : Option ContactPreference → List Channel
  | none => []
  | some contact => (if contact.mailsTo.isSome then [.email] else []) ++ if contact.pushes then [.push] else []

/-- **What an answer says.** Each channel of the contact is named once, and as served only where the notification was
sent, logged and announced; a dispatch fails only where its contact could not be read. -/
def Honest : Except Err DispatchReply → Prop
  | .ok reply => reply.userId = d.userId ∧ reply.type = d.type ∧ ∃ contact, Reads os tid tag d contact ∧
    reply.dispatched.map (·.channel) = channelsOf contact ∧
    ∀ result ∈ reply.dispatched, if result.success then Delivered fmt env os tid tag d result.channel
      else result.error.isSome
  | .error e => Answered exec os tid tag (.findUnique d.userId) (.error e)

variable (num : ℚ → N) (isEmail : String → Bool)

/-- What a request may ask for; contacts are written by their route alone, and as it checked them. -/
def Asked (op : DispatchOp N) : Prop :=
  match tag.data num with
  | some d => Truthful fmt env os tid tag d op
  | none => (∃ userId input, tag = .upsert userId input ∧ op = .upsert userId input ∧
      UpsertContactPreferenceRequestSchema isEmail userId input) ∨
    ∃ userId, tag = .get userId ∧ op = .findUnique userId

/-- What the end of a request says. -/
def Told (r : Except Err NotificationAnswer) : Prop :=
  ∀ d, tag.data num = some d → ∃ r', r = r'.map .dispatched ∧ Honest fmt env os tid tag d r'

end Asked

/-! ### The programs -/

section Yields

variable [Zero N] [DecidableEq N] {fmt : Json.NumberFormat N} {env : DispatchEnv} {os : List (NotificationNote N)}
  {tid : ℕ} {tag : NotificationRequest N} {d : DispatchData N} {contact : ContactPreference}

variable (fmt env os tid tag d) in
/-- The part of a dispatch is truthful, by what the thread is answered, and its result meets `Q`. -/
abbrev Says {α : Type} (p : Dispatch N α) (Q : Except Err α → Prop) : Prop :=
  p.Yields (Answered exec os tid tag) (Truthful fmt env os tid tag d) Q

theorem says_recordSent {channel : Channel} (h : Sent fmt env os tid tag d channel) :
    Says fmt env os tid tag d (recordSent d.userId d.type d.payload channel)
      fun r => r = .ok () → Delivered fmt env os tid tag d channel := by
  unfold recordSent
  refine Prog.Yields.bind (Prog.Yields.await ⟨rfl, rfl, rfl, h⟩) (fun _ hlog => ?_) fun e _ he => by cases he
  refine (Prog.Yields.await ⟨rfl, rfl, h, hlog⟩).mono ?_
  rintro r hevent rfl
  exact ⟨⟨h, hlog⟩, hevent⟩

/-- What is thrown is answered, with its message. -/
theorem says_caught {channel : Channel} {sending : Dispatch N Unit}
    (h : Says fmt env os tid tag d sending fun r => r = .ok () → Delivered fmt env os tid tag d channel) :
    Says fmt env os tid tag d (caught channel sending) fun r => ∃ result, r = .ok result ∧
      result.channel = channel ∧
      if result.success then Delivered fmt env os tid tag d channel else result.error.isSome := by
  unfold caught
  refine Prog.Yields.attempt_bind h fun r hr => ?_
  cases r with
  | ok _ => exact ⟨_, rfl, rfl, hr rfl⟩
  | error e => exact ⟨_, rfl, rfl, rfl⟩

theorem says_dispatchEmail (hread : Reads os tid tag d (some contact)) {email : String}
    (hemail : contact.mailsTo = some email) :
    Says fmt env os tid tag d (dispatchEmail fmt d.userId d.type d.payload email) fun r => ∃ result, r = .ok result ∧
      result.channel = .email ∧
      if result.success then Delivered fmt env os tid tag d .email else result.error.isSome := by
  refine says_caught ?_
  cases hbody : bodyFor fmt d.type d.payload with
  | error e => exact fun he => by cases he
  | ok body =>
    refine Prog.Yields.bind (Prog.Yields.await ⟨rfl, hbody, contact, hread, hemail⟩) (fun _ hsent => ?_)
      fun e _ he => by cases he
    exact says_recordSent ⟨contact, email, body, hread, hemail, hbody, hsent⟩

/-- The endpoint of the contact, or a new one. -/
theorem says_ensurePushEndpoint (hread : Reads os tid tag d (some contact)) :
    Says fmt env os tid tag d (ensurePushEndpoint env d.userId contact) fun r => ∀ endpointArn, r = .ok endpointArn →
      EndpointOf env os tid tag contact endpointArn := by
  unfold ensurePushEndpoint
  cases hplatform : env.platformArn contact.pushPlatform with
  | none => exact fun _ he => by cases he
  | some platformArn =>
    dsimp only
    cases htoken : contact.pushToken.filter (· ≠ "") with
    | none => exact fun _ he => by cases he
    | some pushToken =>
      have hsome : contact.pushToken = some pushToken := Option.eq_some_of_filter_eq_some htoken
      refine Prog.Yields.bind (Prog.Yields.await ⟨contact, hread, hplatform, hsome⟩) (fun endpointArn hcreated => ?_)
        fun e _ _ he => by cases he
      refine Prog.Yields.bind (Prog.Yields.await ⟨rfl, platformArn, pushToken, hcreated⟩) (fun _ _ => ?_)
        fun e _ _ he => by cases he
      intro arn heq
      cases heq
      exact .inr ⟨platformArn, pushToken, hplatform, hsome, hcreated⟩

theorem says_dispatchPush (hread : Reads os tid tag d (some contact)) (hpushes : contact.pushes) :
    Says fmt env os tid tag d (dispatchPush env d.userId d.type d.payload contact) fun r => ∃ result,
      r = .ok result ∧ result.channel = .push ∧
      if result.success then Delivered fmt env os tid tag d .push else result.error.isSome := by
  refine says_caught ?_
  have hpublish (endpointArn : String) (hendpoint : EndpointOf env os tid tag contact endpointArn) :
      Says fmt env os tid tag d (ask (.publishPush endpointArn d.message) >>= fun _ =>
        recordSent d.userId d.type d.payload .push) fun r => r = .ok () → Delivered fmt env os tid tag d .push := by
    refine Prog.Yields.bind (Prog.Yields.await ⟨rfl, contact, hread, hpushes, hendpoint⟩) (fun _ hsent => ?_)
      fun e _ he => by cases he
    exact says_recordSent ⟨contact, endpointArn, hread, hpushes, hendpoint, hsent⟩
  cases harn : contact.pushEndpointArn with
  | some endpointArn => exact hpublish endpointArn (.inl harn)
  | none =>
    refine Prog.Yields.bind (says_ensurePushEndpoint hread) (fun endpointArn h => ?_) fun e _ he => by cases he
    exact hpublish endpointArn (h endpointArn rfl)

/-- **A dispatch** to a contact names each of its channels. -/
theorem says_dispatchTo (hread : Reads os tid tag d (some contact)) :
    Says fmt env os tid tag d (dispatchTo fmt env d.userId d.type d.payload contact) fun r => ∃ results,
      r = .ok results ∧ results.map (·.channel) = channelsOf (some contact) ∧
      ∀ result ∈ results, if result.success then Delivered fmt env os tid tag d result.channel
        else result.error.isSome := by
  have hemail : Says fmt env os tid tag d (onEmail fmt d.userId d.type d.payload contact) fun r => ∃ results,
      r = .ok results ∧ results.map (·.channel) = (if contact.mailsTo.isSome then [.email] else []) ∧
      ∀ result ∈ results, if result.success then Delivered fmt env os tid tag d result.channel
        else result.error.isSome := by
    unfold onEmail
    cases hmails : contact.mailsTo with
    | none => exact ⟨[], rfl, rfl, by simp⟩
    | some email =>
      refine Prog.Yields.bind (says_dispatchEmail hread hmails) ?_ fun e he => ?_
      · rintro result ⟨_, heq, hchannel, hresult⟩
        cases heq
        exact ⟨[result], rfl, by simp [hchannel], by simpa [hchannel] using hresult⟩
      · obtain ⟨_, heq, -⟩ := he
        cases heq
  have hpush : Says fmt env os tid tag d (onPush env d.userId d.type d.payload contact) fun r => ∃ results,
      r = .ok results ∧ results.map (·.channel) = (if contact.pushes then [.push] else []) ∧
      ∀ result ∈ results, if result.success then Delivered fmt env os tid tag d result.channel
        else result.error.isSome := by
    unfold onPush
    by_cases hpushes : contact.pushes
    · rw [if_pos hpushes, if_pos hpushes]
      refine Prog.Yields.bind (says_dispatchPush hread hpushes) ?_ fun e he => ?_
      · rintro result ⟨_, heq, hchannel, hresult⟩
        cases heq
        exact ⟨[result], rfl, by simp [hchannel], by simpa [hchannel] using hresult⟩
      · obtain ⟨_, heq, -⟩ := he
        cases heq
    · rw [if_neg hpushes, if_neg hpushes]
      exact ⟨[], rfl, rfl, by simp⟩
  refine Prog.Yields.bind hemail ?_ fun e he => ?_
  · rintro emailed ⟨_, heq, hchannels, hemailed⟩
    cases heq
    refine Prog.Yields.bind hpush ?_ fun e he => ?_
    · rintro pushed ⟨_, heq, hchannels', hpushed⟩
      cases heq
      refine ⟨emailed ++ pushed, rfl, by simp [hchannels, hchannels', channelsOf], fun result hresult => ?_⟩
      rcases List.mem_append.mp hresult with hresult | hresult
      · exact hemailed result hresult
      · exact hpushed result hresult
    · obtain ⟨_, heq, -⟩ := he
      cases heq
  · obtain ⟨_, heq, -⟩ := he
    cases heq

/-- **`DispatchService.send`.** -/
theorem says_send {type : String} (htype : NOTIFICATION_TYPES.find? (toString · = type) = some d.type) :
    Says fmt env os tid tag d (send fmt env d.userId d.payload type) (Honest fmt env os tid tag d) := by
  unfold send
  simp only [htype]
  refine Prog.Yields.bind (Prog.Yields.await rfl) (fun contact hread => ?_) fun e he => he
  cases contact with
  | none => exact ⟨rfl, rfl, none, hread, rfl, by simp⟩
  | some contact =>
    refine Prog.Yields.bind (says_dispatchTo hread) ?_ fun e he => ?_
    · rintro results ⟨_, heq, hchannels, hresults⟩
      cases heq
      exact ⟨rfl, rfl, some contact, hread, hchannels, hresults⟩
    · obtain ⟨_, heq, -⟩ := he
      cases heq

variable {num : ℚ → N} {isEmail : String → Bool}

omit [Zero N] [DecidableEq N] in
theorem data_of_sends {userId type : String} {payload : Payload N} (h : tag.sends num = some (userId, type, payload)) :
    tag.data num = (NOTIFICATION_TYPES.find? (toString · = type)).map fun type => ⟨userId, type, payload⟩ := by
  unfold NotificationRequest.data
  rw [h]
  rfl

theorem prog_of_sends {userId type : String} {payload : Payload N} (h : tag.sends num = some (userId, type, payload)) :
    tag.prog num isEmail fmt env = .dispatched <$> send fmt env userId payload type := by
  cases tag <;> cases h <;> rfl

/-- **A request.** -/
theorem yields_prog (tid : ℕ) (tag : NotificationRequest N) (os : List (NotificationNote N)) :
    (tag.prog num isEmail fmt env).Yields (Answered exec os tid tag) (Asked fmt env os tid tag num isEmail)
      (Told fmt env os tid tag num) := by
  cases hsends : tag.sends num with
  | none =>
    cases tag with
    | upsert userId input =>
      have hput : (ContactPreferenceController.upsert isEmail userId input : Dispatch N ContactPreference).Yields
          (Answered exec os tid (.upsert userId input)) (Asked fmt env os tid (.upsert userId input) num isEmail)
          fun _ => True := by
        unfold ContactPreferenceController.upsert
        by_cases hschema : UpsertContactPreferenceRequestSchema isEmail userId input
        · rw [if_pos hschema]
          exact (Prog.Yields.await (.inl ⟨userId, input, rfl, rfl, hschema⟩)).mono fun _ _ => trivial
        · rw [if_neg hschema]
          trivial
      exact hput.map.mono fun _ _ d hd => by cases hd
    | get userId =>
      have hget : (ContactPreferenceService.get userId : Dispatch N ContactPreference).Yields
          (Answered exec os tid (.get userId)) (Asked fmt env os tid (.get userId) num isEmail) fun _ => True := by
        refine Prog.Yields.bind (Prog.Yields.await (.inr ⟨userId, rfl, rfl⟩)) (fun pref _ => ?_) fun _ _ => trivial
        cases pref <;> trivial
      exact hget.map.mono fun _ _ d hd => by cases hd
    | send => cases hsends
    | menuProposed => cases hsends
    | orderPlaced => cases hsends
    | orderDelivered => cases hsends
  | some sends =>
    obtain ⟨userId, type, payload⟩ := sends
    have hdata := data_of_sends hsends
    rw [prog_of_sends hsends]
    unfold Asked Told
    cases htype : NOTIFICATION_TYPES.find? (toString · = type) with
    | none =>
      rw [htype] at hdata
      rw [hdata]
      unfold send
      simp only [htype]
      exact fun _ hd => by cases hd
    | some notificationType =>
      rw [htype] at hdata
      rw [hdata]
      refine (says_send (d := ⟨userId, notificationType, payload⟩) htype).map.mono fun r hr d hd => ?_
      cases hd
      exact hr

end Yields

/-! ### Runs -/

section Runs

variable [Zero N] [DecidableEq N] (num : ℚ → N) (isEmail : String → Bool) (fmt : Json.NumberFormat N)
  (env : DispatchEnv)

/-- Requests ask for what they may, and end as they say. -/
def DispatchContract : Contract (NotificationRequest N) (DispatchOp N) Err NotificationAnswer (Notifications N)
    DispatchChoice where
  inv _ _ := True
  rely _ _ := True
  pre tid tag op os _ := Asked fmt env os tid tag num isEmail op
  post tid tag r os _ := Told fmt env os tid tag num r

theorem dispatchContract_sound : (DispatchContract num isEmail fmt env).Sound exec :=
  ⟨fun _ => trivial, fun _ _ _ _ _ => trivial, fun _ _ _ _ _ _ _ _ => ⟨trivial, trivial⟩⟩

variable (requests : List (NotificationRequest N)) (s : Notifications N)

/-- The requests, none of which has run. -/
abbrev notifications : NotificationPool N := Pool.start (NotificationRequest.prog num isEmail fmt env) requests s

theorem notifications_meet :
    (notifications num isEmail fmt env requests s).Meets (DispatchContract num isEmail fmt env) exec [] := by
  refine Pool.Meets.start trivial fun tid tag _ => ?_
  refine Prog.Meets.of_yields (K := fun os => Answered exec os tid tag)
    (A := fun os => Asked fmt env os tid tag num isEmail) (Q := fun os => Told fmt env os tid tag num)
    (fun os os' op r hos h => h.later hos) (fun os s op c _ _ => answered_self) (fun os s op _ h => h)
    (fun r os s h => h) fun os _ => ?_
  exact yields_prog tid tag os

/-- **Nothing is said to have been sent that was not.** Whatever requests are interleaved, and whatever fails: for a
notification, mails and pushes go to the contact that was read of its user alone, and say what it is about; what is
logged and announced was sent before on that channel; and a dispatch that has ended has answered for each channel of
the contact once, as served only if the notification was sent there, logged and announced, or with the error that its
contact could not be read with. -/
theorem dispatchTruthful (P : NotificationPool N) (os : List (NotificationNote N))
    (hr : Run (Pool.step exec) anyStep (notifications num isEmail fmt env requests s) P os) :
    (∀ pre o post, os = pre ++ o :: post → Asked fmt env pre o.tid o.tag num isEmail o.event.call) ∧
    ∀ tid th r, P.threads[tid]? = some th → th.prog.result = some r → Told fmt env os tid th.tag num r := by
  have hmeets := notifications_meet num isEmail fmt env requests s
  have hsound := dispatchContract_sound num isEmail fmt env
  constructor
  · rintro pre o post rfl
    exact (Contract.run_at hsound hmeets hr).2.1
  · intro tid th r hth hresult
    obtain ⟨⟨-, hths⟩, -, -⟩ := Contract.run hsound hmeets hr
    exact (hths tid th hth).of_result hsound hresult

end Runs

/-- A phone is registered and its user is told of an order, twice at once; the log fails for one of them. -/
def twoDispatches : List (NotificationRequest ℤ) :=
  [.upsert "user-1" { pushToken := some "token-1", pushPlatform := some "ios" },
    .orderDelivered "user-1" "order-1", .orderDelivered "user-1" "order-1"]

theorem dispatchTruthful_twoDispatches : ∃ P os th,
    Run (Pool.step exec) anyStep (notifications Rat.floor (fun _ => true) Json.integers bothPlatforms twoDispatches
      noContacts) P os ∧ P.threads[1]? = some th ∧
    Told Json.integers bothPlatforms os 1 th.tag Rat.floor
      (.ok (.dispatched ⟨"user-1", .ORDER_STATUS, [⟨.push, true, none⟩]⟩)) := by
  have hr := Run.of_runSteps .nil (show runSteps (Pool.step exec) anyStep
    [(0, {}), (1, {}), (2, {}), (1, { endpointArn := "endpoint-1" }), (2, { endpointArn := "endpoint-2" }), (1, {}),
      (2, {}), (1, {}), (2, {}), (2, { error := some (.error "timeout") }), (1, {}), (1, {})]
    (notifications Rat.floor (fun _ => true) Json.integers bothPlatforms twoDispatches noContacts) [] =
    some (_, _) from rfl)
  exact ⟨_, _, _, hr, rfl, (dispatchTruthful Rat.floor (fun _ => true) Json.integers bothPlatforms twoDispatches
    noContacts _ _ hr).2 1 _ _ rfl rfl⟩

end Gusto.Notification
