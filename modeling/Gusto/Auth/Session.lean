import Gusto.Http
import Gusto.Lib.Expiring
import Gusto.Lib.Rely
import Mathlib.Algebra.Order.Ring.Int

/-!
# Sessions

The JWT of a session: what `JwtIssuerService` puts into it, how `verifyJwt` and `verifyWithExpiry`
check it, the blocklist of `TokenBlocklistService`, `OAuthService.logout` and `JwtAuthGuard`.

Each call is made some milliseconds after the one before, on one clock.  The signature check of
`jsonwebtoken` is a parameter: what a token carries, or `none` where its signature is wrong.
-/

set_option autoImplicit false

namespace Gusto.Auth

open Effects Expiring

/-! ### Tokens -/

/-- What a token carries; a field that is missing or of another type is `none`. -/
structure JwtPayload where
  sub : Option String
  jti : Option String
  exp : Option ℤ
  deriving DecidableEq, Repr

structure GustoJwtPayload where
  sub : String
  jti : String
  deriving DecidableEq, Repr

structure VerifiedToken extends GustoJwtPayload where
  exp : ℤ
  deriving DecidableEq, Repr

/-- `JwtIssuerService.issue` at the instant `now`, in milliseconds: `jti` is the `randomUUID()` of the
token. -/
def JwtIssuerService.issue (JWT_EXPIRES_IN_SECONDS : ℤ) (userId jti : String) (now : ℤ) : JwtPayload where
  sub := some userId
  jti := some jti
  exp := some (now / 1000 + JWT_EXPIRES_IN_SECONDS)

/-- Whether the time of a token is up at the instant `now`. -/
def JwtPayload.expired (payload : JwtPayload) (now : ℤ) : Bool :=
  match payload.exp with
  | some exp => decide (exp ≤ now / 1000)
  | none => false

section

variable (decode : String → Option JwtPayload)

/-- `jwt.verify`. -/
def jwtVerify (token : String) (now : ℤ) : Except Err JwtPayload :=
  match decode token with
  | none => .error (.error "invalid signature")
  | some payload => if payload.expired now then .error (.error "jwt expired") else .ok payload

/-- `verifyJwt` of auth-middleware. -/
def verifyJwt (token : String) (now : ℤ) : Except Err GustoJwtPayload :=
  match jwtVerify decode token now with
  | .error e => .error e
  | .ok ⟨some sub, some jti, _⟩ => .ok ⟨sub, jti⟩
  | .ok _ => .error (.error "Malformed token payload")

/-- `JwtIssuerService.verifyWithExpiry`. -/
def JwtIssuerService.verifyWithExpiry (token : String) (now : ℤ) : Except Err VerifiedToken :=
  match jwtVerify decode token now with
  | .error _ => .error (.http 401 "Invalid or expired token")
  | .ok ⟨some sub, some jti, some exp⟩ => .ok ⟨⟨sub, jti⟩, exp⟩
  | .ok _ => .error (.http 401 "Malformed token payload")

end

/-- The token of an `Authorization` header. -/
def bearer (authHeader : Option String) : Option String :=
  authHeader.bind fun header =>
    if "Bearer ".toList.isPrefixOf header.toList then some (String.ofList (header.toList.drop 7)) else none

/-! ### Programs -/

/-- A reading of the clock, or a command of the Redis client. -/
inductive SessionOp
  | now
  | get (key : String)
  | setex (key : String) (seconds : ℤ) (value : String)
  deriving DecidableEq, Repr

/-- What a call is answered. -/
abbrev SessionOp.Answer : SessionOp → Type
  | .now => ℤ
  | .get _ => Option String
  | .setex .. => Unit

abbrev Session (α : Type) : Type := Prog SessionOp SessionOp.Answer Err α

def call (op : SessionOp) : Session op.Answer := .await op

def BLOCKLIST_KEY_PREFIX : String := "jwt:blocklist:"

namespace TokenBlocklistService

def revoke (jti : String) (ttlSeconds : ℤ) : Session Unit := do
  if ttlSeconds ≤ 0 then return
  call (.setex (BLOCKLIST_KEY_PREFIX ++ jti) ttlSeconds "1")

def isRevoked (jti : String) : Session Bool := do
  let value ← call (.get (BLOCKLIST_KEY_PREFIX ++ jti))
  return value.isSome

end TokenBlocklistService

variable (decode : String → Option JwtPayload)

/-- `OAuthService.logout`. -/
def OAuthService.logout (token : String) : Session Unit := do
  let verifiedAt : ℤ ← call .now
  match JwtIssuerService.verifyWithExpiry decode token verifiedAt with
  | .error e => throw e
  | .ok verified =>
    let now : ℤ ← call .now
    let ttlSeconds := verified.exp - now / 1000
    TokenBlocklistService.revoke verified.jti ttlSeconds

/-- `OAuthController.logout`. -/
def OAuthController.logout (authHeader : Option String) : Session Unit :=
  match bearer authHeader with
  | none => throw (.http 401 "Missing or malformed Authorization header")
  | some token => OAuthService.logout decode token

/-- `JwtAuthGuard.canActivate`: the user that a request goes on for; nobody on a public route. -/
def JwtAuthGuard.canActivate (isPublic : Bool) (authHeader : Option String) : Session (Option String) := do
  if isPublic then return none
  match bearer authHeader with
  | none => throw (.http 401 "Missing or malformed Authorization header")
  | some token =>
    let now : ℤ ← call .now
    match verifyJwt decode token now with
    | .error _ => throw (.http 401 "Invalid or expired token")
    | .ok payload =>
      let revoked ← TokenBlocklistService.isRevoked payload.jti
      if revoked then throw (.http 401 "Token has been revoked")
      return some payload.sub

/-! ### The world -/

/-- The clock, in milliseconds, and the keys of the blocklist. -/
structure World where
  clock : ℤ
  blocklist : Store String String ℤ

/-- How long a call takes, what the Redis client throws instead of an answer, and whether the command
has been served all the same. -/
structure SessionChoice where
  elapsed : ℕ := 0
  error : Option String := none
  served : Bool := false
  deriving DecidableEq, Repr

/-- A command of the Redis client at the instant of `s`. -/
def serve (s : World) : (op : SessionOp) → op.Answer × World
  | .now => (s.clock, s)
  | .get key => (s.blocklist.get s.clock key, s)
  | .setex key seconds value =>
    ((), { s with blocklist := s.blocklist.put key value (some (s.clock + seconds * 1000)) })

def World.after (s : World) (elapsed : ℕ) : World := { s with clock := s.clock + elapsed }

/-- Time passes, and then the call is served or fails; reading the clock does not fail. -/
def exec : Handler SessionOp SessionOp.Answer Err World SessionChoice
  | c, .now, s => (.ok (serve (s.after c.elapsed) .now).1, s.after c.elapsed)
  | c, op, s =>
    match c.error with
    | some message =>
      (.error (.error message), if c.served then (serve (s.after c.elapsed) op).2 else s.after c.elapsed)
    | none => (.ok (serve (s.after c.elapsed) op).1, (serve (s.after c.elapsed) op).2)

/-- What is asked of the services: a logout, or a request to a route of api-gateway. -/
inductive SessionCall
  | logout (authHeader : Option String)
  | request (isPublic : Bool) (authHeader : Option String)
  deriving DecidableEq, Repr

def SessionCall.prog : SessionCall → Session (Option String)
  | .logout authHeader => do OAuthController.logout decode authHeader; return none
  | .request isPublic authHeader => JwtAuthGuard.canActivate decode isPublic authHeader

end Gusto.Auth
