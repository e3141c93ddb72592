import Gusto.Auth.Session

/-!
# Login

`OAuthService.startPkceFlow` and `OAuthService.exchangeCodeForToken`, over the tables of auth-service.

Requests are taken as the controller hands them on.  Hashes, URLs and the encryption of tokens are
functions of the environment; what is drawn at random, the initialisation vector of an encryption
included, and what Swiggy replies is chosen call by call.
-/

set_option autoImplicit false

namespace Gusto.Auth

open Effects

/-! ### The tables and the calls -/

structure PendingAuthSession where
  state : String
  userId : String
  codeVerifier : String
  redirectUri : String
  expiresAt : ℤ
  deriving DecidableEq, Repr

/-- What is stored of the Swiggy token of a user. -/
structure User where
  encryptedMcpToken : String
  mcpTokenExpiresAt : ℤ
  mcpTokenScope : String
  deriving DecidableEq, Repr

structure SwiggyTokenResponse where
  access_token : String
  expires_in : ℤ
  scope : String
  deriving DecidableEq, Repr

/-- The body of an error response of Swiggy. -/
structure SwiggyErrorBody where
  error : Option String
  error_description : Option String
  deriving DecidableEq, Repr

/-- What comes back from the token endpoint. -/
inductive SwiggyReply
  | token (response : SwiggyTokenResponse)
  | rejected (body : Option SwiggyErrorBody)
  | unreachable
  deriving DecidableEq, Repr

structure UserAuthenticatedEvent where
  eventId : String
  occurredAt : ℤ
  userId : String
  deriving DecidableEq, Repr

/-- The environment: its variables, and the functions of the platform. -/
structure LoginEnv where
  SWIGGY_OAUTH_REDIRECT_URI : String
  JWT_EXPIRES_IN_SECONDS : ℤ
  /-- The SHA-256 hash in base64url. -/
  sha256 : String → String
  /-- The URL of a code challenge and a state. -/
  buildAuthorizationUrl : String → String → String
  /-- `TokenVaultService.encrypt`, with the initialisation vector that is drawn for it. -/
  encrypt : String → String → String

inductive LoginOp
  | now
  /-- `randomBytes` and `randomUUID`. -/
  | random
  | sweepExpiredSessions (before : ℤ)
  | createSession (data : PendingAuthSession)
  | findSession (state : String)
  | deleteSession (state : String)
  | requestToken (code codeVerifier redirectUri : String)
  | upsertUser (userId : String) (data : User)
  | publish (event : UserAuthenticatedEvent)
  deriving DecidableEq, Repr

abbrev LoginOp.Answer : LoginOp → Type
  | .now => ℤ
  | .random => String
  | .findSession _ => Option PendingAuthSession
  | .requestToken .. => SwiggyReply
  | _ => Unit

abbrev Login (α : Type) : Type := Prog LoginOp LoginOp.Answer Err α

def ask (op : LoginOp) : Login op.Answer := .await op

/-! ### The service -/

def PENDING_SESSION_TTL_MS : ℤ := 10 * 60 * 1000

structure AuthorizationChallenge where
  authorizationUrl : String
  state : String
  deriving DecidableEq, Repr

/-- What a callback returns; a JWT is given by what it carries. -/
structure LoginSession where
  token : JwtPayload
  userId : String
  deriving DecidableEq, Repr

namespace OAuthService

variable (env : LoginEnv)

def sweepExpiredSessions : Login Unit := do
  let now : ℤ ← ask .now
  ask (.sweepExpiredSessions now)

/-- A session that cannot be deleted is left. -/
def deleteSession (state : String) : Login Unit := do
  let _ ← (ask (.deleteSession state)).attempt

def requestToken (code codeVerifier redirectUri : String) : Login SwiggyTokenResponse := do
  match ← ask (.requestToken code codeVerifier redirectUri) with
  | .token response => return response
  | .rejected body =>
    let description := ((body.bind (·.error_description)).or (body.bind (·.error))).getD
      "Swiggy rejected the token exchange"
    throw (.http 401 description)
  | .unreachable => throw (.http 503 "Could not reach Swiggy's OAuth server")

def startPkceFlow (userId : String) : Login AuthorizationChallenge := do
  sweepExpiredSessions
  let codeVerifier : String ← ask .random
  let state : String ← ask .random
  let now : ℤ ← ask .now
  ask (.createSession {
    state, userId, codeVerifier
    redirectUri := env.SWIGGY_OAUTH_REDIRECT_URI
    expiresAt := now + PENDING_SESSION_TTL_MS })
  return { authorizationUrl := env.buildAuthorizationUrl (env.sha256 codeVerifier) state, state }

/-- What follows once Swiggy has exchanged the code of a session. -/
def storeToken (session : PendingAuthSession) (swiggyToken : SwiggyTokenResponse) : Login LoginSession := do
  let iv : String ← ask .random
  let now : ℤ ← ask .now
  ask (.upsertUser session.userId {
    encryptedMcpToken := env.encrypt iv swiggyToken.access_token
    mcpTokenExpiresAt := now + swiggyToken.expires_in * 1000
    mcpTokenScope := swiggyToken.scope })
  deleteSession session.state
  let jti : String ← ask .random
  let issuedAt : ℤ ← ask .now
  let token := JwtIssuerService.issue env.JWT_EXPIRES_IN_SECONDS session.userId jti issuedAt
  let eventId : String ← ask .random
  let occurredAt : ℤ ← ask .now
  ask (.publish { eventId, occurredAt, userId := session.userId })
  return { token, userId := session.userId }

def exchangeCodeForToken (code state : String) : Login LoginSession := do
  let invalid : Err := .http 401 "Authorization session is invalid or has expired -- restart login"
  match ← ask (.findSession state) with
  | none => throw invalid
  | some session =>
    let now : ℤ ← ask .now
    if session.expiresAt < now then
      deleteSession session.state
      throw invalid
    let swiggyToken ← requestToken code session.codeVerifier session.redirectUri
    storeToken env session swiggyToken

end OAuthService

/-! ### The world -/

structure Tables where
  clock : ℤ
  sessions : String → Option PendingAuthSession
  users : String → Option User
  published : List UserAuthenticatedEvent

/-- How long a call takes, what is drawn, what Swiggy replies, what is thrown instead of an answer, and
whether the call has been served all the same. -/
structure LoginChoice where
  elapsed : ℕ := 0
  random : String := ""
  swiggy : SwiggyReply := .unreachable
  error : Option Err := none
  served : Bool := false
  deriving DecidableEq, Repr

/-- A call that is served. -/
def answer (c : LoginChoice) (t : Tables) : (op : LoginOp) → Except Err op.Answer × Tables
  | .now => (.ok t.clock, t)
  | .random => (.ok c.random, t)
  | .sweepExpiredSessions before =>
    (.ok (), { t with sessions := fun state => (t.sessions state).filter fun s => !decide (s.expiresAt < before) })
  | .createSession data =>
    match t.sessions data.state with
    | some _ => (.error (.error "Unique constraint failed on the fields: (state)"), t)
    | none => (.ok (), { t with sessions := Function.update t.sessions data.state (some data) })
  | .findSession state => (.ok (t.sessions state), t)
  | .deleteSession state =>
    match t.sessions state with
    | none => (.error (.error "Record to delete does not exist."), t)
    | some _ => (.ok (), { t with sessions := Function.update t.sessions state none })
  | .requestToken .. => (.ok c.swiggy, t)
  | .upsertUser userId data => (.ok (), { t with users := Function.update t.users userId (some data) })
  | .publish event => (.ok (), { t with published := t.published ++ [event] })

/-- Time passes, and then the call is served or fails. -/
def reach : Handler LoginOp LoginOp.Answer Err Tables LoginChoice
  | c, op, t =>
    let t := { t with clock := t.clock + c.elapsed }
    match op, c.error with
    | .now, _ => answer c t .now
    | .random, _ => answer c t .random
    | op, none => answer c t op
    | op, some e => (.error e, if c.served then (answer c t op).2 else t)

/-- The requests that are let through without a session. -/
inductive LoginCall
  | start (userId : String)
  | callback (code state : String)
  deriving DecidableEq, Repr

inductive LoginReply
  | challenge (challenge : AuthorizationChallenge)
  | session (session : LoginSession)
  deriving DecidableEq, Repr

def LoginCall.prog (env : LoginEnv) : LoginCall → Login LoginReply
  | .start userId => .challenge <$> OAuthService.startPkceFlow env userId
  | .callback code state => .session <$> OAuthService.exchangeCodeForToken env code state

end Gusto.Auth
