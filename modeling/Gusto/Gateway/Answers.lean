import Gusto.Gateway.Service
import Gusto.Lib.Local

/-!
# What the gateway answers

Any requests to the gateway, any number of which auth-service takes up, and anything else it is asked for; their calls
interleave, and requests and answers may be late or lost.

* `Sent`, `Replied`: a request was sent under a number; auth-service has answered a request under a number;
* `Passes`: what a route may send, for the user of the token that its guard has let through;
* `ExchangeContract`: what is taken up was sent, and what is answered was asked;
* `answersOwn`: a route answers with what auth-service has answered to the request that it sent itself.
-/

set_option autoImplicit false

namespace Gusto.Gateway

open Effects Auth

/-! ### What has happened -/

section Facts

variable (os : List GatewayNote)

/-- The thread has sent a request under this number. -/
def SentBy (tid id : ℕ) (request : AuthRequest) : Prop :=
  ∃ o ∈ os, o.tid = tid ∧ o.event.call = .send request ∧ o.event.pre.sent = id

def Sent (id : ℕ) (request : AuthRequest) : Prop := ∃ tid, SentBy os tid id request

/-- auth-service has answered the request under this number. -/
def Replied (id : ℕ) (request : AuthRequest) (outcome : Except Err GatewayReply) : Prop :=
  ∃ o ∈ os, o.tag = .serve request ∧ o.event.call = .reply id outcome

/-- There is an answer under this number. -/
def Arrived (id : ℕ) (outcome : Except Err GatewayReply) : Prop :=
  ∃ request, Sent os id request ∧ Replied os id request outcome

variable (decode : String → Option JwtPayload) (tid : ℕ) (tag : GatewayCall)

/-- The thread has verified the token of the header, which is this user's, and then not found it on the blocklist. -/
def Verified (authHeader : Option String) (userId : String) : Prop :=
  ∃ token payload n, bearer authHeader = some token ∧ verifyJwt decode token n = .ok payload ∧ payload.sub = userId ∧
    Answered exec os tid tag (.session .now) (.ok n) ∧
    Answered exec os tid tag (.session (.get (BLOCKLIST_KEY_PREFIX ++ payload.jti))) (.ok none)

/-- What the guard throws for a header: there is no token, or it does not verify at the instant that the thread has
read, or it was found on the blocklist; or a call of the guard has failed. -/
inductive Refusal (authHeader : Option String) : Err → Prop
  | missing : bearer authHeader = none → Refusal authHeader (.http 401 "Missing or malformed Authorization header")
  | invalid {token : String} {n : ℤ} {e : Err} : bearer authHeader = some token →
    Answered exec os tid tag (.session .now) (.ok n) → verifyJwt decode token n = .error e →
    Refusal authHeader (.http 401 "Invalid or expired token")
  | revoked {token value : String} {n : ℤ} {payload : GustoJwtPayload} : bearer authHeader = some token →
    Answered exec os tid tag (.session .now) (.ok n) → verifyJwt decode token n = .ok payload →
    Answered exec os tid tag (.session (.get (BLOCKLIST_KEY_PREFIX ++ payload.jti))) (.ok (some value)) →
    Refusal authHeader (.http 401 "Token has been revoked")
  | failed {op : SessionOp} {e : Err} : Answered exec os tid tag (.session op) (.error e) → Refusal authHeader e

/-- The guard of a route that is not public has refused its header. -/
def Refused (route : GatewayRoute) (e : Err) : Prop :=
  match route with
  | .loginStart _ | .loginCallback _ _ => False
  | .refresh authHeader | .logout authHeader => Refusal os decode tid tag authHeader e

/-- What the guard finds: the user of a verified token, or it refuses. -/
def Guarded (authHeader : Option String) : Except Err (Option String) → Prop
  | .ok user => ∃ userId, user = some userId ∧ Verified os decode tid tag authHeader userId
  | .error e => Refusal os decode tid tag authHeader e

/-- What a route may send. -/
def Passes (route : GatewayRoute) (request : AuthRequest) : Prop :=
  match route with
  | .loginStart userId => request = .start userId
  | .loginCallback code state => request = .callback code state
  | .refresh authHeader => ∃ userId, request = .refresh userId ∧ Verified os decode tid tag authHeader userId
  | .logout authHeader => request = .logout authHeader ∧ ∃ userId, Verified os decode tid tag authHeader userId

end Facts

/-- How an error of auth-service is answered by the gateway. -/
def relayed (e : Err) : Err :=
  match e.overHttp with
  | .axios (some response) _ => .http response.status (response.message.getD "Http Exception")
  | e => e

def unreachable : Err := .http 503 "Could not reach auth-service"

section Contract

variable (decode : String → Option JwtPayload)

/-- What is known of the messages. -/
structure Exchanged (os : List GatewayNote) (s : GatewayState) : Prop where
  numbered : ∀ id request, Sent os id request → id < s.sent
  unique : ∀ id tid tid' request request', SentBy os tid id request → SentBy os tid' id request' →
    tid = tid' ∧ request = request'
  inFlight : ∀ id request, (id, request) ∈ s.inFlight → Sent os id request
  replies : ∀ id outcome, (id, outcome) ∈ s.replies → Arrived os id outcome

/-- What a thread may ask for. -/
def Allowed (os : List GatewayNote) (tid : ℕ) : GatewayCall → GatewayOp → Prop
  | .route route, .send request => Passes os decode tid (.route route) route request
  | .route _, .session _ | .route _, .receive _ => True
  | .serve request, .accept request' => request' = request
  | .serve request, .session _ | .serve request, .auth _ | .serve request, .pipe _ => ∃ id, Sent os id request
  | .serve request, .reply id _ => Sent os id request
  | .service _, .auth _ => True
  | _, _ => False

/-- What a request to the gateway is answered: its guard has refused it, or auth-service could not be reached, or what
auth-service has answered under the number of what it has sent. -/
def Answers (os : List GatewayNote) (tid : ℕ) (tag : GatewayCall) (r : Except Err GatewayReply) : Prop :=
  ∀ route, tag = .route route →
    (∃ e, r = .error e ∧ Refused os decode tid tag route e) ∨ r = .error unreachable ∨ ∃ id request outcome,
      SentBy os tid id request ∧ Passes os decode tid tag route request ∧ Arrived os id outcome ∧ r = outcome.mapError relayed

def ExchangeContract : Contract GatewayCall GatewayOp Err GatewayReply GatewayState GatewayChoice where
  inv := Exchanged
  rely _ _ := True
  pre tid tag op os _ := Allowed decode os tid tag op
  post tid tag r os _ := Answers decode os tid tag r

/-- What a thread knows of an answer. -/
def Known (os : List GatewayNote) (tid : ℕ) (tag : GatewayCall) : (op : GatewayOp) → Except Err op.Answer → Prop
  | .send request, r => (∃ id, r = .ok id ∧ SentBy os tid id request) ∨ ∃ message, r = .error (.axios none message)
  | .accept request, r => ∀ id, r = .ok id → Sent os id request
  | .receive id, r => (∃ outcome, Arrived os id outcome ∧ r = outcome.mapError Err.overHttp) ∨
      ∃ message, r = .error (.axios none message)
  | op, r => Answered exec os tid tag op r

end Contract

/-! ### What a message leaves -/

section Sound

variable {decode : String → Option JwtPayload} {os os' : List GatewayNote} {s : GatewayState} {tid : ℕ}
  {tag : GatewayCall} {op : GatewayOp} {c : GatewayChoice}

theorem SentBy.mono {i id : ℕ} {request : AuthRequest} (h : SentBy os i id request) (hos : os <+: os') :
    SentBy os' i id request := h.imp fun _ h => ⟨hos.subset h.1, h.2⟩

theorem Sent.mono {id : ℕ} {request : AuthRequest} (h : Sent os id request) (hos : os <+: os') :
    Sent os' id request := h.imp fun _ h => h.mono hos

theorem Replied.mono {id : ℕ} {request : AuthRequest} {outcome : Except Err GatewayReply}
    (h : Replied os id request outcome) (hos : os <+: os') : Replied os' id request outcome :=
  h.imp fun _ h => ⟨hos.subset h.1, h.2⟩

theorem Arrived.mono {id : ℕ} {outcome : Except Err GatewayReply} (h : Arrived os id outcome) (hos : os <+: os') :
    Arrived os' id outcome := h.imp fun _ h => ⟨h.1.mono hos, h.2.mono hos⟩

/-- A number is counted on with each request that is sent. -/
theorem sent_exec : (exec c op s).2.sent = s.sent + (match op with | .send _ => 1 | _ => 0) := by
  cases op with
  | accept request =>
    unfold exec
    dsimp only
    split <;> rfl
  | _ => rfl

theorem mem_inFlight_exec {id : ℕ} {request : AuthRequest} (h : (id, request) ∈ (exec c op s).2.inFlight) :
    (id, request) ∈ s.inFlight ∨ op = .send request ∧ id = s.sent := by
  cases op with
  | send request' =>
    change (id, request) ∈ (if c.arrives then s.inFlight ++ [(s.sent, request')] else s.inFlight) at h
    split at h
    · rcases List.mem_append.mp h with h | h
      · exact .inl h
      · cases List.mem_singleton.mp h
        exact .inr ⟨rfl, rfl⟩
    · exact .inl h
  | accept request' =>
    unfold exec at h
    dsimp only at h
    split at h
    · exact .inl (List.mem_of_mem_erase h)
    · exact .inl h
  | _ => exact .inl h

theorem mem_replies_exec {id : ℕ} {outcome : Except Err GatewayReply} (h : (id, outcome) ∈ (exec c op s).2.replies) :
    (id, outcome) ∈ s.replies ∨ op = .reply id outcome := by
  cases op with
  | reply id' outcome' =>
    rcases List.mem_append.mp h with h | h
    · exact .inl h
    · cases List.mem_singleton.mp h
      exact .inr rfl
  | accept request' =>
    unfold exec at h
    dsimp only at h
    split at h <;> exact .inl h
  | _ => exact .inl h

theorem sentBy_concat {i id : ℕ} {request : AuthRequest} (h : SentBy (os ++ [⟨tid, tag, ⟨s, op, c⟩⟩]) i id request) :
    SentBy os i id request ∨ tid = i ∧ op = .send request ∧ s.sent = id := by
  obtain ⟨o, ho, hcall⟩ := h
  rcases List.mem_append.mp ho with ho | ho
  · exact .inl ⟨o, ho, hcall⟩
  · rw [List.mem_singleton.mp ho] at hcall
    exact .inr hcall

/-- **A message** is taken up as it was sent. -/
theorem exchangeContract_sound : (ExchangeContract decode).Sound exec where
  refl _ := trivial
  trans _ _ _ _ _ := trivial
  step os s tid tag op c h hpre := by
    have h : Exchanged os s := h
    have hlater := List.prefix_append os [(⟨tid, tag, ⟨s, op, c⟩⟩ : GatewayNote)]
    have hself (request : AuthRequest) (hop : op = .send request) :
        Sent (os ++ [⟨tid, tag, ⟨s, op, c⟩⟩]) s.sent request :=
      ⟨tid, _, List.mem_append_right _ (List.mem_singleton_self _), rfl, hop, rfl⟩
    refine ⟨⟨fun id request hsent => ?_, fun id i j request request' hi hj => ?_, fun id request hmem => ?_,
      fun id outcome hmem => ?_⟩, trivial⟩
    · rw [sent_exec]
      obtain ⟨i, hi⟩ := hsent
      rcases sentBy_concat hi with hi | ⟨-, rfl, rfl⟩
      · have := h.numbered id request ⟨i, hi⟩
        omega
      · exact Nat.lt_succ_self _
    · rcases sentBy_concat hi with hi | ⟨hti, rfl, rfl⟩ <;> rcases sentBy_concat hj with hj | ⟨htj, heq, hid⟩
      · exact h.unique id i j request request' hi hj
      · exact absurd (h.numbered id request ⟨i, hi⟩) (by omega)
      · exact absurd (h.numbered s.sent request' ⟨j, hj⟩) (by omega)
      · exact ⟨hti.symm.trans htj, GatewayOp.send.inj heq⟩
    · rcases mem_inFlight_exec hmem with hmem | ⟨hop, rfl⟩
      · exact (h.inFlight id request hmem).mono hlater
      · exact hself request hop
    · rcases mem_replies_exec hmem with hmem | rfl
      · exact (h.replies id outcome hmem).mono hlater
      · cases tag with
        | serve request =>
          have hsent : Sent os id request := hpre
          exact ⟨request, hsent.mono hlater, _, List.mem_append_right _ (List.mem_singleton_self _), rfl, rfl⟩
        | route route => exact hpre.elim
        | service call => exact hpre.elim

theorem Known.mono (hos : os <+: os') (op : GatewayOp) (r : Except Err op.Answer) (h : Known os tid tag op r) :
    Known os' tid tag op r := by
  cases op with
  | send request =>
    rcases h with ⟨id, hr, hsent⟩ | h
    · exact .inl ⟨id, hr, hsent.mono hos⟩
    · exact .inr h
  | accept request => exact fun id hr => (h id hr).mono hos
  | receive id =>
    rcases h with ⟨outcome, harrived, hr⟩ | h
    · exact .inl ⟨outcome, harrived.mono hos, hr⟩
    · exact .inr h
  | session op => exact Answered.later h hos
  | auth op => exact Answered.later h hos
  | pipe request => exact Answered.later h hos
  | reply id outcome => exact Answered.later h hos

/-- **What is answered** is known. -/
theorem known_exec (h : Exchanged os s) :
    Known (os ++ [⟨tid, tag, ⟨s, op, c⟩⟩]) tid tag op (exec c op s).1 := by
  have hlater := List.prefix_append os [(⟨tid, tag, ⟨s, op, c⟩⟩ : GatewayNote)]
  cases op with
  | send request =>
    cases herror : c.error with
    | none =>
      refine .inl ⟨s.sent, ?_, _, List.mem_append_right _ (List.mem_singleton_self _), rfl, rfl, rfl⟩
      simp only [exec, GatewayState.after, herror]
    | some message =>
      refine .inr ⟨message, ?_⟩
      simp only [exec, GatewayState.after, herror]
  | accept request =>
    intro id hr
    unfold exec at hr
    dsimp only at hr
    split at hr
    · rename_i hmem
      cases hr
      exact (h.inFlight _ request hmem).mono hlater
    · cases hr
  | receive id =>
    cases hlookup : s.replies.lookup id with
    | none =>
      refine .inr ⟨c.error.getD "timeout of 10000ms exceeded", ?_⟩
      simp only [exec, GatewayState.after, hlookup]
    | some outcome =>
      cases herror : c.error with
      | some message =>
        refine .inr ⟨message, ?_⟩
        simp only [exec, GatewayState.after, hlookup, herror, Option.getD_some]
      | none =>
        obtain ⟨before, after, hmem, -⟩ := List.lookup_eq_some_iff.mp hlookup
        refine .inl ⟨outcome, (h.replies id outcome (hmem ▸ by simp)).mono hlater, ?_⟩
        simp only [exec, GatewayState.after, hlookup, herror]
  | session op => exact answered_self
  | auth op => exact answered_self
  | pipe request => exact answered_self
  | reply id outcome => exact answered_self

end Sound

/-! ### The programs -/

section Programs

variable {decode : String → Option JwtPayload} {env : AuthEnv} {os : List GatewayNote} {tid : ℕ} {tag : GatewayCall}

variable (decode os tid tag) in
/-- The part of a thread asks for what it may, by what it is answered, and its result meets `Q`. -/
abbrev Asking {α : Type} (p : GatewayProg α) (Q : Except Err α → Prop) : Prop :=
  p.Yields (Known os tid tag) (Allowed decode os tid tag) Q

/-- **The guard** finds the user of a token that is verified and not revoked. -/
theorem asking_canActivate {route : GatewayRoute} {authHeader : Option String} :
    Asking decode os tid (.route route) (onSession (JwtAuthGuard.canActivate decode false authHeader))
      (Guarded os decode tid (.route route) authHeader) := by
  unfold JwtAuthGuard.canActivate
  cases hb : bearer authHeader with
  | none => exact .missing hb
  | some token =>
    refine ⟨trivial, fun r hr => ?_⟩
    cases r with
    | error e => exact .failed hr
    | ok n =>
      simp only [Except.map, Prog.bind]
      cases hverify : verifyJwt decode token n with
      | error e => exact .invalid hb hr hverify
      | ok payload =>
        refine ⟨trivial, fun r' hr' => ?_⟩
        cases r' with
        | error e => exact .failed hr'
        | ok value => cases value with
          | some value => exact .revoked hb hr hverify hr'
          | none => exact ⟨payload.sub, rfl, token, payload, n, hb, hverify, rfl, hr, hr'⟩

/-- What a service throws comes with a response. -/
theorem overHttp_response (e : Err) : ∃ response message, e.overHttp = .axios (some response) message := by
  cases e <;> exact ⟨_, _, rfl⟩

/-- **What is passed on** is answered as auth-service has answered it. -/
theorem asking_forward {route : GatewayRoute} {request : AuthRequest}
    (h : Passes os decode tid (.route route) route request) :
    Asking decode os tid (.route route) (AuthProxyService.forward request)
      (Answers decode os tid (.route route)) := by
  have hexchange : Asking decode os tid (.route route) (do ask (.receive (← ask (.send request)))) fun r =>
      (∃ id outcome, SentBy os tid id request ∧ Arrived os id outcome ∧ r = outcome.mapError Err.overHttp) ∨
      ∃ message, r = .error (.axios none message) := by
    refine Prog.Yields.bind (Prog.Yields.await h) (fun id hsent => ?_) fun e he => ?_
    · refine (Prog.Yields.await trivial).mono fun r hr => ?_
      rcases hr with ⟨outcome, harrived, hr⟩ | hlost
      · rcases hsent with ⟨id', hid, hsent⟩ | ⟨message, herr⟩
        · cases hid
          exact .inl ⟨id, outcome, hsent, harrived, hr⟩
        · cases herr
      · exact .inr hlost
    · rcases he with ⟨id, herr, -⟩ | ⟨message, hlost⟩
      · cases herr
      · cases hlost
        exact .inr ⟨message, rfl⟩
  unfold AuthProxyService.forward
  refine Prog.Yields.attempt_bind hexchange fun r hr => ?_
  rcases hr with ⟨id, outcome, hsent, harrived, rfl⟩ | ⟨message, rfl⟩
  · cases outcome with
    | ok reply =>
      intro route' hroute
      cases hroute
      exact .inr (.inr ⟨id, request, .ok reply, hsent, h, harrived, rfl⟩)
    | error e =>
      obtain ⟨response, message, hresponse⟩ := overHttp_response e
      have hmap : (Except.error e : Except Err GatewayReply).mapError Err.overHttp =
          .error (.axios (some response) message) := congrArg _ hresponse
      rw [hmap]
      intro route' hroute
      cases hroute
      refine .inr (.inr ⟨id, request, .error e, hsent, h, harrived, ?_⟩)
      show Except.error _ = Except.error (relayed e)
      rw [relayed, hresponse]
  · intro route' hroute
    exact .inr (.inl rfl)

/-- **A route.** -/
theorem asking_route (route : GatewayRoute) :
    Asking decode os tid (.route route) (route.prog decode) (Answers decode os tid (.route route)) := by
  cases route with
  | loginStart userId => exact asking_forward rfl
  | loginCallback code state => exact asking_forward rfl
  | refresh authHeader =>
    refine Prog.Yields.bind asking_canActivate ?_ fun e he route' hroute => ?_
    · rintro user ⟨userId, rfl, hverified⟩
      exact asking_forward ⟨userId, rfl, hverified⟩
    · cases hroute
      exact .inl ⟨e, rfl, he⟩
  | logout authHeader =>
    refine Prog.Yields.bind asking_canActivate ?_ fun e he route' hroute => ?_
    · rintro user ⟨userId, rfl, hverified⟩
      exact asking_forward ⟨rfl, userId, hverified⟩
    · cases hroute
      exact .inl ⟨e, rfl, he⟩

/-- The handler of a request asks for nothing but what its service does. -/
theorem asking_handle {request : AuthRequest} (hsent : ∃ id, Sent os id request) :
    Asking decode os tid (.serve request) (request.handle decode env) fun _ => True := by
  have hsession {α : Type} (p : Session α) :
      Asking decode os tid (.serve request) (onSession p) fun _ => True :=
    (Prog.Asks.renamed (P := Allowed decode os tid (.serve request)) (Prog.asks_of_forall fun _ => hsent)).yields
  have hauth {α : Type} (p : AuthProg α) : Asking decode os tid (.serve request) (onAuth p) fun _ => True :=
    (Prog.Asks.renamed (P := Allowed decode os tid (.serve request)) (Prog.asks_of_forall fun _ => hsent)).yields
  cases request with
  | logout authHeader => exact (hsession _).map.mono fun _ _ => trivial
  | _ => exact (hauth _).map.mono fun _ _ => trivial

/-- **A request that is taken up** is answered under its number. -/
theorem asking_serve (request : AuthRequest) :
    Asking decode os tid (.serve request) (request.serve decode env) (Answers decode os tid (.serve request)) := by
  have hnone (r : Except Err GatewayReply) : Answers decode os tid (.serve request) r := fun _ htag => by cases htag
  refine Prog.Yields.bind (Prog.Yields.await rfl) (fun id hid => ?_) fun e _ => hnone _
  have hsent : Sent os id request := hid id rfl
  have hserved : Asking decode os tid (.serve request) (do ask (.pipe request); request.handle decode env)
      fun _ => True :=
    Prog.Yields.bind (Prog.Yields.await ⟨id, hsent⟩) (fun _ _ => asking_handle ⟨id, hsent⟩) fun _ _ => trivial
  refine Prog.Yields.attempt_bind hserved fun outcome _ => ?_
  refine Prog.Yields.bind (Prog.Yields.await hsent) (fun _ _ => ?_) fun e _ => hnone _
  cases outcome <;> exact hnone _

theorem asking_service (call : AuthCall) :
    Asking decode os tid (.service call) (GatewayReply.auth <$> onAuth (AuthCall.prog env call))
      (Answers decode os tid (.service call)) := by
  have hcall : Asking decode os tid (.service call) (onAuth (AuthCall.prog env call)) fun _ => True :=
    (Prog.Asks.renamed (P := Allowed decode os tid (.service call)) (Prog.asks_of_forall fun _ => trivial)).yields
  exact hcall.map.mono fun _ _ _ htag => by cases htag

end Programs

/-! ### Runs -/

section Runs

variable (decode : String → Option JwtPayload) (env : AuthEnv) (calls : List GatewayCall) (clock : ℤ)

theorem exchanged_nil : Exchanged [] { tables := ⟨clock, fun _ => none, fun _ => none, []⟩ } where
  numbered _ _ h := by simp [Sent, SentBy] at h
  unique _ _ _ _ _ h := by simp [SentBy] at h
  inFlight _ _ h := by cases h
  replies _ _ h := by cases h

theorem serving_exchanges : (serving decode env calls clock).Meets (ExchangeContract decode) exec [] := by
  refine Pool.Meets.start (exchanged_nil clock) fun tid call _ => ?_
  refine Prog.Meets.of_yields (K := fun os => Known os tid call) (A := fun os => Allowed decode os tid call)
    (Q := fun os => Answers decode os tid call) (fun os os' op r hos h => h.mono hos op r)
    (fun os s op c hinv _ => known_exec hinv) (fun os s op _ h => h) (fun r os s h => h) fun os _ => ?_
  cases call with
  | route route => exact asking_route route
  | serve request => exact asking_serve request
  | service call => exact asking_service call

variable {decode env calls clock}

/-- What a thread asked for, and the state and the messages at that time. -/
theorem allowed_of_split {P : GatewayPool} {pre post : List GatewayNote} {o : GatewayNote}
    (hr : Run (Pool.step exec) anyStep (serving decode env calls clock) P (pre ++ o :: post)) :
    Allowed decode pre o.tid o.tag o.event.call :=
  (Contract.run_at exchangeContract_sound (serving_exchanges decode env calls clock) hr).2.1

/-- A route that has ended. -/
theorem answer_of_result {P : GatewayPool} {os : List GatewayNote} {tid : ℕ} {th : GatewayThread}
    {r : Except Err GatewayReply} {route : GatewayRoute}
    (hr : Run (Pool.step exec) anyStep (serving decode env calls clock) P os) (hth : P.threads[tid]? = some th)
    (htag : th.tag = .route route) (hresult : th.prog.result = some r) :
    (∃ e, r = .error e ∧ Refused os decode tid th.tag route e) ∨ r = .error unreachable ∨ ∃ id request outcome,
      SentBy os tid id request ∧ Passes os decode tid th.tag route request ∧ Replied os id request outcome ∧
      r = outcome.mapError relayed := by
  obtain ⟨⟨hinv, hths⟩, -, -⟩ := Contract.run exchangeContract_sound (serving_exchanges decode env calls clock) hr
  rcases (hths tid th hth).of_result exchangeContract_sound hresult route htag with hrefused | hlost |
    ⟨id, request, outcome, hsent, hpasses, ⟨request', ⟨tid', hsent'⟩, hreplied⟩, hr⟩
  · exact .inl hrefused
  · exact .inr (.inl hlost)
  -- the number is that of one request only
  · obtain ⟨-, rfl⟩ := Exchanged.unique hinv id tid tid' request request' hsent hsent'
    exact .inr (.inr ⟨id, request, outcome, hsent, hpasses, hreplied, hr⟩)

variable (decode env calls clock)

/-- **Answers.** Whatever requests are made to the gateway and taken up by auth-service, however they interleave and
whatever is lost: auth-service takes up only what the gateway has sent, which is a refresh of the user whose token the
guard of the route has verified and not found revoked, or a logout with such a token, or a login as it was asked for;
and a route that has ended has answered with what its guard, if it has one, throws for its header, with 503, or with
what auth-service has answered to the very request that it sent, an error with its status. -/
theorem answersOwn (P : GatewayPool) (os : List GatewayNote)
    (hr : Run (Pool.step exec) anyStep (serving decode env calls clock) P os) :
    (∀ pre o post, os = pre ++ o :: post → Allowed decode pre o.tid o.tag o.event.call) ∧
    ∀ tid th r route, P.threads[tid]? = some th → th.tag = .route route → th.prog.result = some r →
      (∃ e, r = .error e ∧ Refused os decode tid th.tag route e) ∨ r = .error unreachable ∨ ∃ id request outcome,
        SentBy os tid id request ∧ Passes os decode tid th.tag route request ∧ Replied os id request outcome ∧
        r = outcome.mapError relayed := by
  refine ⟨?_, fun tid th r route hth htag hresult => answer_of_result hr hth htag hresult⟩
  rintro pre o post rfl
  exact allowed_of_split hr

end Runs

/-- A user asks for a refresh, and is sent to the login. -/
def oneRefresh : List GatewayCall := [.route (.refresh (some "Bearer token-1")), .serve (.refresh "user-1")]

/-- The request is taken up and answered, and then the answer arrives. -/
def oneRefreshChoices : List (ℕ × GatewayChoice) :=
  [(0, {}), (0, {}), (0, {}), (1, {}), (1, {}), (1, {}), (1, {}), (1, {}), (1, { login := { random := "verifier" } }),
    (1, { login := { random := "state-1" } }), (1, {}), (1, {}), (1, {}), (0, {})]

theorem answersOwn_oneRefresh : ∃ P os th challenge,
    Run (Pool.step exec) anyStep (serving oneToken zeroAuthEnv oneRefresh 0) P os ∧ P.threads[0]? = some th ∧
    th.prog.result = some (.ok (.auth (.refreshed (.reauthenticationRequired challenge)))) ∧
    ∃ id request, SentBy os 0 id request ∧ ∃ outcome, Replied os id request outcome ∧
      Except.ok (.auth (.refreshed (.reauthenticationRequired challenge))) = outcome.mapError relayed := by
  have hr := Run.of_runSteps .nil (show runSteps (Pool.step exec) anyStep oneRefreshChoices
    (serving oneToken zeroAuthEnv oneRefresh 0) [] = some (_, _) from rfl)
  rcases (answersOwn oneToken zeroAuthEnv oneRefresh 0 _ _ hr).2 0 _ _ _ rfl rfl rfl with ⟨e, he, -⟩ | he |
    ⟨id, request, outcome, hsent, -, hreplied, houtcome⟩
  · cases he
  · cases he
  · exact ⟨_, _, _, _, hr, rfl, rfl, id, request, hsent, outcome, hreplied, houtcome⟩

end Gusto.Gateway
