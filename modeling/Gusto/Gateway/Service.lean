import Gusto.Auth.Handover
import Gusto.Auth.Logout
import Gusto.Lib.Part

/-!
# api-gateway in front of auth-service

The routes of `AuthProxyController` behind `JwtAuthGuard`, and the service they are passed on to.  A request that is
passed on is in flight until auth-service takes it up; the two go on by themselves, so it may not arrive, or its answer
may not, or too late, and the gateway gives up whatever becomes of it.

* `GatewayOp`, `GatewayState`, `exec`: the calls of the two services, and of the network between them;
* `AuthProxyService.forward`: what is answered for a request that is passed on;
* `GatewayCall.prog`: the routes, the service, and what others ask of it.
-/

set_option autoImplicit false

namespace Gusto.Gateway

open Effects Expiring Auth

/-! ### The calls -/

/-- What auth-service is asked by the gateway. -/
inductive AuthRequest
  | start (userId : String)
  | callback (code state : String)
  | refresh (userId : String)
  | logout (authHeader : Option String)
  deriving DecidableEq, Repr

inductive GatewayReply
  | auth (reply : AuthReply)
  | loggedOut
  deriving DecidableEq, Repr

/-- A call of one of the services; what crosses the network, with the number of its exchange; and what the pipes of
auth-service let through. -/
inductive GatewayOp
  | session (op : SessionOp)
  | auth (op : AuthOp)
  | send (request : AuthRequest)
  | receive (id : ℕ)
  | accept (request : AuthRequest)
  | pipe (request : AuthRequest)
  | reply (id : ℕ) (outcome : Except Err GatewayReply)

abbrev GatewayOp.Answer : GatewayOp → Type
  | .session op => op.Answer
  | .auth op => op.Answer
  | .send _ => ℕ
  | .receive _ => GatewayReply
  | .accept _ => ℕ
  | .pipe _ => Unit
  | .reply _ _ => Unit

abbrev GatewayProg (α : Type) : Type := Prog GatewayOp GatewayOp.Answer Err α

def ask (op : GatewayOp) : GatewayProg op.Answer := .await op

def onSession {α : Type} (p : Session α) : GatewayProg α := Prog.translate GatewayOp.session (fun _ a => a) p
def onAuth {α : Type} (p : AuthProg α) : GatewayProg α := Prog.translate GatewayOp.auth (fun _ a => a) p

/-! ### The world -/

/-- What the services act on, under one clock, and what is on its way between them. -/
structure GatewayState where
  tables : Tables
  blocklist : Store String String ℤ := Store.empty
  inFlight : List (ℕ × AuthRequest) := []
  replies : List (ℕ × Except Err GatewayReply) := []
  sent : ℕ := 0

/-- What the environment chooses for one call: of a request that is sent, whether it arrives, whether its sender is
told otherwise, and which is taken up; and what the pipes reject. -/
structure GatewayChoice where
  session : SessionChoice := {}
  login : LoginChoice := {}
  elapsed : ℕ := 0
  arrives : Bool := true
  error : Option String := none
  id : ℕ := 0
  rejected : Option Err := none

def GatewayState.after (s : GatewayState) (elapsed : ℕ) : GatewayState :=
  { s with tables := { s.tables with clock := s.tables.clock + elapsed } }

def nothingArrives : Err := .error "nothing arrives"

/-- A call of a service is answered as it is there; a message takes its time. -/
def exec : Handler GatewayOp GatewayOp.Answer Err GatewayState GatewayChoice := fun c op s =>
  match op with
  | .session op =>
    let r := Auth.exec c.session op ⟨s.tables.clock, s.blocklist⟩
    (r.1, { s with tables := { s.tables with clock := r.2.clock }, blocklist := r.2.blocklist })
  | .auth op =>
    let r := reachAuth c.login op s.tables
    (r.1, { s with tables := r.2 })
  | .send request =>
    let s := s.after c.elapsed
    (match c.error with
      | none => .ok s.sent
      | some message => .error (.axios none message),
    { s with inFlight := if c.arrives then s.inFlight ++ [(s.sent, request)] else s.inFlight, sent := s.sent + 1 })
  | .receive id =>
    let s := s.after c.elapsed
    (match s.replies.lookup id, c.error with
      | some outcome, none => outcome.mapError Err.overHttp
      | _, message => .error (.axios none (message.getD "timeout of 10000ms exceeded")), s)
  | .accept request =>
    let s := s.after c.elapsed
    if (c.id, request) ∈ s.inFlight then (.ok c.id, { s with inFlight := s.inFlight.erase (c.id, request) })
    else (.error nothingArrives, s)
  | .pipe _ =>
    (match c.rejected with
      | none => .ok ()
      | some e => .error e, s.after c.elapsed)
  | .reply id outcome =>
    let s := s.after c.elapsed
    (.ok (), { s with replies := s.replies ++ [(id, outcome)] })

/-! ### The gateway -/

def AuthProxyService.forward (request : AuthRequest) : GatewayProg GatewayReply := do
  let response ← (do ask (.receive (← ask (.send request)))).attempt
  match response with
  | .ok data => return data
  -- the upstream has answered with an error status
  | .error (.axios (some response) _) => throw (.http response.status (response.message.getD "Http Exception"))
  | .error (.axios none _) => throw (.http 503 "Could not reach auth-service")
  | .error e => throw e

namespace AuthProxyController

def loginStart (userId : String) : GatewayProg GatewayReply := AuthProxyService.forward (.start userId)

def loginCallback (code state : String) : GatewayProg GatewayReply := AuthProxyService.forward (.callback code state)

/-- The user is the one that the guard has found. -/
def refresh (user : Option String) : GatewayProg GatewayReply :=
  match user with
  | some userId => AuthProxyService.forward (.refresh userId)
  | none => throw (.error "Cannot read properties of undefined (reading 'userId')")

def logout (authHeader : Option String) : GatewayProg GatewayReply := AuthProxyService.forward (.logout authHeader)

end AuthProxyController

section Programs

variable (decode : String → Option JwtPayload) (env : AuthEnv)

/-- A request to the gateway, with the header that its route reads. -/
inductive GatewayRoute
  | loginStart (userId : String)
  | loginCallback (code state : String)
  | refresh (authHeader : Option String)
  | logout (authHeader : Option String)
  deriving DecidableEq, Repr

/-- The header that the guard of a route reads. -/
def GatewayRoute.authHeader : GatewayRoute → Option String
  | .loginStart _ | .loginCallback _ _ => none
  | .refresh authHeader | .logout authHeader => authHeader

/-- The guard of a route. -/
def GatewayRoute.guard : GatewayRoute → Session (Option String)
  | .loginStart _ | .loginCallback _ _ => JwtAuthGuard.canActivate decode true none
  | .refresh authHeader | .logout authHeader => JwtAuthGuard.canActivate decode false authHeader

/-- What a route does for the user that its guard has found. -/
def GatewayRoute.handle (user : Option String) : GatewayRoute → GatewayProg GatewayReply
  | .loginStart userId => AuthProxyController.loginStart userId
  | .loginCallback code state => AuthProxyController.loginCallback code state
  | .refresh _ => AuthProxyController.refresh user
  | .logout authHeader => AuthProxyController.logout authHeader

def GatewayRoute.prog (route : GatewayRoute) : GatewayProg GatewayReply := do
  let user ← onSession (route.guard decode)
  route.handle user

/-- The handler of a request in auth-service. -/
def AuthRequest.handle : AuthRequest → GatewayProg GatewayReply
  | .start userId => .auth <$> onAuth (AuthCall.prog env (.start userId))
  | .callback code state => .auth <$> onAuth (AuthCall.prog env (.callback code state))
  | .refresh userId => .auth <$> onAuth (AuthCall.prog env (.refresh userId))
  | .logout authHeader => (fun _ => .loggedOut) <$> onSession (SessionCall.prog decode (.logout authHeader))

/-- auth-service takes up a request and answers it. -/
def AuthRequest.serve (request : AuthRequest) : GatewayProg GatewayReply := do
  let id ← ask (.accept request)
  let outcome ← (do ask (.pipe request); request.handle decode env).attempt
  ask (.reply id outcome)
  .ofExcept outcome

/-- A request to the gateway; auth-service, with a request of the gateway; and what others ask of auth-service. -/
inductive GatewayCall
  | route (route : GatewayRoute)
  | serve (request : AuthRequest)
  | service (call : AuthCall)
  deriving DecidableEq, Repr

def GatewayCall.prog : GatewayCall → GatewayProg GatewayReply
  | .route r => r.prog decode
  | .serve request => request.serve decode env
  | .service call => .auth <$> onAuth (AuthCall.prog env call)

abbrev GatewayPool : Type := Pool GatewayCall GatewayOp GatewayOp.Answer Err GatewayReply GatewayState
abbrev GatewayThread : Type := Thread GatewayCall GatewayOp GatewayOp.Answer Err GatewayReply
abbrev GatewayNote : Type := Note GatewayCall GatewayState GatewayOp GatewayChoice

/-- A thread for each of `calls`, over empty tables. -/
def serving (calls : List GatewayCall) (clock : ℤ) : GatewayPool :=
  Pool.start (GatewayCall.prog decode env) calls { tables := ⟨clock, fun _ => none, fun _ => none, []⟩ }

variable {P : GatewayOp → Prop}

theorem calls_forward {request : AuthRequest} (hsend : P (.send request)) (hreceive : ∀ id, P (.receive id)) :
    (AuthProxyService.forward request).Calls fun op _ => P op := by
  have hawait {op : GatewayOp} (h : P op) : (ask op).Calls fun op _ => P op :=
    ⟨h, fun r => by cases r <;> trivial⟩
  unfold AuthProxyService.forward
  refine Prog.Calls.bind (Prog.Calls.attempt ?_ fun _ _ h => h) (fun _ _ h => h) fun response => ?_
  · exact Prog.Calls.bind (hawait hsend) (fun _ _ h => h) fun id => hawait (hreceive id)
  · split <;> trivial

/-- A route sends, and receives. -/
theorem GatewayRoute.calls_handle {route : GatewayRoute} {user : Option String} (hsend : ∀ request, P (.send request))
    (hreceive : ∀ id, P (.receive id)) : (route.handle user).Calls fun op _ => P op := by
  cases route with
  | refresh authHeader => cases user with
    | none => trivial
    | some userId => exact calls_forward (hsend _) hreceive
  | _ => exact calls_forward (hsend _) hreceive

end Programs

/-! ### What a call leaves -/

section Exec

variable {c : GatewayChoice} {op : GatewayOp} {s : GatewayState}

theorem exec_clock : s.tables.clock ≤ (exec c op s).2.tables.clock := by
  cases op with
  | session op =>
    show s.tables.clock ≤ (Auth.exec c.session op ⟨s.tables.clock, s.blocklist⟩).2.clock
    rw [Auth.exec_clock]
    exact Int.le_add_of_nonneg_right (Int.natCast_nonneg _)
  | auth op =>
    show s.tables.clock ≤ (reachAuth c.login op s.tables).2.clock
    rw [reachAuth_clock]
    exact Int.le_add_of_nonneg_right (Int.natCast_nonneg _)
  | accept request =>
    unfold exec
    dsimp only
    split <;> exact Int.le_add_of_nonneg_right (Int.natCast_nonneg _)
  | _ => exact Int.le_add_of_nonneg_right (Int.natCast_nonneg _)

/-- The blocklist is touched by commands to it only. -/
theorem exec_blocklist (h : ∀ i, op ≠ .session i) : (exec c op s).2.blocklist = s.blocklist := by
  cases op with
  | session op => exact absurd rfl (h op)
  | accept request =>
    unfold exec
    dsimp only
    split <;> rfl
  | _ => rfl

/-- All but auth-service leave its tables. -/
theorem exec_tables (h : ∀ i, op ≠ .auth i) :
    (exec c op s).2.tables = { s.tables with clock := (exec c op s).2.tables.clock } := by
  cases op with
  | auth op => exact absurd rfl (h op)
  | accept request =>
    unfold exec
    dsimp only
    split <;> rfl
  | _ => rfl

end Exec

end Gusto.Gateway
