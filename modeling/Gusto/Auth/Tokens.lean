import Gusto.Auth.Linked
import Gusto.Auth.TokenVault
import Gusto.Lib.Translate

/-!
# The stored token

What is done with the Swiggy token of a user once it is stored: `OAuthService.refresh`,
`OAuthService.getDecryptedMcpToken` behind `InternalSecretGuard`, and `SessionCleanupService.sweep`, over
the same tables as the login.

A user is a row with a token, since the rows are written by the login only.
-/

set_option autoImplicit false

namespace Gusto.Auth

open Effects

/-! ### The environment -/

/-- The environment with its vault: what `encrypt` returns, `TokenVaultService.encrypt` does with the bytes
that are drawn. -/
structure AuthEnv extends LoginEnv where
  INTERNAL_SHARED_SECRET : String
  min : 16 ≤ INTERNAL_SHARED_SECRET.length
  crypto : Crypto
  vault : VaultEnv
  randomBytes : String → List UInt8
  drawn : ∀ iv, (randomBytes iv).length = IV_LENGTH_BYTES
  encrypts : ∀ iv rawToken, TokenVaultService.encrypt crypto vault (randomBytes iv) (Utf16.encode rawToken.toList) =
    .ok (Utf16.encode (encrypt iv rawToken).toList)

/-- `TokenVaultService.decrypt`. -/
def AuthEnv.decrypt (env : AuthEnv) (encryptedToken : String) : Except Err String :=
  match TokenVaultService.decrypt env.crypto env.vault (Utf16.encode encryptedToken.toList) with
  | .ok rawToken => .ok (String.ofList (Utf16.decodeLossy rawToken))
  | .error message => .error (.error message)

/-! ### Programs -/

/-- A call of the login, or the read of a user. -/
inductive AuthOp
  | login (op : LoginOp)
  | findUser (userId : String)
  deriving DecidableEq, Repr

abbrev AuthOp.Answer : AuthOp → Type
  | .login op => op.Answer
  | .findUser _ => Option User

abbrev AuthProg (α : Type) : Type := Prog AuthOp AuthOp.Answer Err α

def request (op : AuthOp) : AuthProg op.Answer := .await op

/-- A program of the login. -/
def login {α : Type} (p : Login α) : AuthProg α := p.translate .login fun _ r => r

def REAUTH_THRESHOLD_MS : ℤ := 60 * 1000

inductive RefreshReply
  | valid (expiresAt : ℤ)
  | reauthenticationRequired (challenge : AuthorizationChallenge)
  deriving DecidableEq, Repr

namespace OAuthService

variable (env : AuthEnv)

/-- Whether the token of a user is good for some time yet. -/
def stillValid : Option User → AuthProg Bool
  | none => return false
  | some user => do
    if user.encryptedMcpToken = "" then return false
    let now : ℤ ← request (.login .now)
    return decide (user.mcpTokenExpiresAt - now > REAUTH_THRESHOLD_MS)

def refresh (userId : String) : AuthProg RefreshReply := do
  let user : Option User ← request (.findUser userId)
  let valid ← stillValid user
  match user, valid with
  | some user, true => return .valid user.mcpTokenExpiresAt
  | _, _ => login (.reauthenticationRequired <$> startPkceFlow env.toLoginEnv userId)

def getDecryptedMcpToken (userId : String) : AuthProg String := do
  match ← request (.findUser userId) with
  | none => throw (.http 401 "User does not have an active Swiggy MCP token")
  | some user =>
    if user.encryptedMcpToken = "" then
      throw (.http 401 "User does not have an active Swiggy MCP token")
    let now : ℤ ← request (.login .now)
    if user.mcpTokenExpiresAt < now then throw (.http 401 "Swiggy MCP token has expired")
    .ofExcept (env.decrypt user.encryptedMcpToken)

end OAuthService

/-- Whether a request brings the shared secret; an empty header is none. -/
def InternalSecretGuard.canActivate (env : AuthEnv) (provided : Option String) : Except Err Unit :=
  if provided.getD "" = "" ∨ provided ≠ some env.INTERNAL_SHARED_SECRET then
    .error (.http 401 "Missing or invalid X-Internal-Secret header")
  else .ok ()

/-- A sweep that fails is left to the next hour. -/
def SessionCleanupService.sweep : AuthProg Unit := do
  let _ ← (login OAuthService.sweepExpiredSessions).attempt

/-- What is asked of auth-service: its routes, and its cron job. -/
inductive AuthCall
  | start (userId : String)
  | callback (code state : String)
  | refresh (userId : String)
  | internalToken (provided : Option String) (userId : String)
  | sweep
  deriving DecidableEq, Repr

inductive AuthReply
  | challenge (challenge : AuthorizationChallenge)
  | session (session : LoginSession)
  | refreshed (reply : RefreshReply)
  | token (token : String)
  | swept
  deriving DecidableEq, Repr

def AuthCall.prog (env : AuthEnv) : AuthCall → AuthProg AuthReply
  | .start userId => login (.challenge <$> OAuthService.startPkceFlow env.toLoginEnv userId)
  | .callback code state => login (.session <$> OAuthService.exchangeCodeForToken env.toLoginEnv code state)
  | .refresh userId => .refreshed <$> OAuthService.refresh env userId
  | .internalToken provided userId => do
    Prog.ofExcept (InternalSecretGuard.canActivate env provided)
    return .token (← OAuthService.getDecryptedMcpToken env userId)
  | .sweep => (fun _ => .swept) <$> SessionCleanupService.sweep

/-! ### The world -/

/-- The read of a user takes its time and may fail, as the calls of the login do. -/
def reachAuth : Handler AuthOp AuthOp.Answer Err Tables LoginChoice
  | c, .login op, t => reach c op t
  | c, .findUser userId, t =>
    (match c.error with
      | none => .ok (t.users userId)
      | some e => .error e,
    { t with clock := t.clock + c.elapsed })

abbrev AuthPool : Type := Pool AuthCall AuthOp AuthOp.Answer Err AuthReply Tables
abbrev AuthThread : Type := Thread AuthCall AuthOp AuthOp.Answer Err AuthReply
abbrev AuthNote : Type := Note AuthCall Tables AuthOp LoginChoice

/-- A thread for each of `calls`, over empty tables. -/
def requests (env : AuthEnv) (calls : List AuthCall) (clock : ℤ) : AuthPool :=
  Pool.start (AuthCall.prog env) calls ⟨clock, fun _ => none, fun _ => none, []⟩

/-! ### What is recorded -/

/-- When a call was served. -/
def servedAt (o : AuthNote) : ℤ := o.event.pre.clock + o.event.choice.elapsed

/-- A call that was answered, or that failed once it had been served. -/
def WasServed (o : AuthNote) : Prop := o.event.choice.error = none ∨ o.event.choice.served = true

instance : DecidablePred WasServed := fun _ => inferInstanceAs (Decidable (_ ∨ _))

/-- The session that a call has put into the table. -/
def opened (o : AuthNote) : Option PendingAuthSession :=
  match o.event.call with
  | .login (.createSession data) =>
    if WasServed o ∧ o.event.pre.sessions data.state = none then some data else none
  | _ => none

/-- The state whose session a call has removed. -/
def closed (o : AuthNote) : Option String :=
  match o.event.call with
  | .login (.deleteSession state) => if WasServed o then some state else none
  | _ => none

/-- What a call has stored for a user. -/
def storedRow (userId : String) (o : AuthNote) : Option User :=
  match o.event.call with
  | .login (.upsertUser u data) => if u = userId ∧ WasServed o then some data else none
  | _ => none

/-- The row of a user, by what has been stored. -/
def latest (userId : String) (os : List AuthNote) : Option User :=
  (os.filterMap (storedRow userId)).getLast?

/-- No state has been drawn for two sessions. -/
def DistinctStates (os : List AuthNote) : Prop := ((os.filterMap opened).map (·.state)).Nodup

instance : DecidablePred DistinctStates := fun _ => inferInstanceAs (Decidable (List.Nodup _))

/-! ### What a call does -/

section Calls

variable {env : AuthEnv}

/-- **The vault** returns what it was given. -/
theorem AuthEnv.decrypt_encrypt (hgcm : Aes256Gcm env.crypto) (iv rawToken : String) :
    env.decrypt (env.encrypt iv rawToken) = .ok rawToken := by
  have hround := @TokenVaultService.decrypt_encrypt env.crypto env.vault (env.randomBytes iv)
    (Utf16.encode rawToken.toList) hgcm (env.drawn iv)
  rw [env.encrypts iv rawToken, Utf16.decodeLossy_encode] at hround
  have hdec : TokenVaultService.decrypt env.crypto env.vault (Utf16.encode (env.encrypt iv rawToken).toList) =
      .ok (Utf16.encode rawToken.toList) := hround
  rw [decrypt, hdec]
  dsimp only
  rw [Utf16.decodeLossy_encode, String.ofList_toList]

/-- The guard lets through who brings the secret. -/
theorem InternalSecretGuard.canActivate_eq_ok {provided : Option String} :
    canActivate env provided = .ok () ↔ provided = some env.INTERNAL_SHARED_SECRET := by
  unfold canActivate
  by_cases hsecret : provided = some env.INTERNAL_SHARED_SECRET
  · have hne : env.INTERNAL_SHARED_SECRET ≠ "" := by
      intro h
      have hmin := env.min
      rw [h] at hmin
      exact absurd hmin (by decide)
    simp [hsecret, hne]
  · simp [hsecret]

theorem login_ask_bind {α : Type} {op : LoginOp} {f : op.Answer → Login α} :
    login (ask op >>= f) = request (.login op) >>= fun a => login (f a) := by
  rw [login, Prog.translate_bind, ask, Prog.translate_await, id_map']
  rfl

theorem login_attempt_bind {α : Type} {op : LoginOp} {f : Except Err op.Answer → Login α} :
    login ((ask op).attempt >>= f) = (request (.login op)).attempt >>= fun r => login (f r) := by
  rw [login, Prog.translate_bind, Prog.translate_attempt, ask, Prog.translate_await, id_map']
  rfl

theorem reachAuth_clock {c : LoginChoice} {op : AuthOp} {t : Tables} :
    (reachAuth c op t).2.clock = t.clock + c.elapsed := by
  cases op with
  | login op => exact reach_clock
  | findUser userId => rfl

variable {o : AuthNote} {tid : ℕ} {tag : AuthCall} {op : AuthOp} {c : LoginChoice} {t : Tables}

/-- A call that is served does what `answer` does; one that is not leaves the tables. -/
theorem reach_login {op : LoginOp} :
    (WasServed ⟨tid, tag, ⟨t, .login op, c⟩⟩ ∨ op = .now ∨ op = .random) ∧
        (reach c op t).2 = (answer c { t with clock := t.clock + c.elapsed } op).2 ∨
      ¬ WasServed ⟨tid, tag, ⟨t, .login op, c⟩⟩ ∧
        (reach c op t).2 = { t with clock := t.clock + c.elapsed } := by
  unfold WasServed
  cases op <;> cases he : c.error <;> cases hs : c.served <;> simp [reach, he, hs]

theorem opened_eq_some {d : PendingAuthSession} : opened o = some d ↔
    o.event.call = .login (.createSession d) ∧ WasServed o ∧ o.event.pre.sessions d.state = none := by
  unfold opened
  split
  · rename_i data hcall
    rw [hcall]
    constructor
    · intro h
      split at h
      · cases h
        exact ⟨rfl, ‹_›⟩
      · cases h
    · rintro ⟨hop, hs⟩
      cases hop
      exact if_pos hs
  · rename_i hno
    exact iff_of_false (by simp) fun h => hno d h.1

theorem closed_eq_some {state : String} :
    closed o = some state ↔ o.event.call = .login (.deleteSession state) ∧ WasServed o := by
  unfold closed
  split
  · rename_i state' hcall
    rw [hcall]
    constructor
    · intro h
      split at h
      · cases h
        exact ⟨rfl, ‹_›⟩
      · cases h
    · rintro ⟨hop, hs⟩
      cases hop
      exact if_pos hs
  · rename_i hno
    exact iff_of_false (by simp) fun h => hno state h.1

/-- What a call leaves of the sessions. -/
theorem reachAuth_sessions (tid : ℕ) (tag : AuthCall) (c : LoginChoice) (op : AuthOp) (t : Tables)
    (state : String) :
    let o : AuthNote := ⟨tid, tag, ⟨t, op, c⟩⟩
    let after := (reachAuth c op t).2.sessions state
    (after = t.sessions state ∧ closed o ≠ some state ∧ ∀ d, opened o = some d → d.state ≠ state) ∨
      (t.sessions state = none ∧ ∃ d, opened o = some d ∧ d.state = state ∧ after = some d) ∨
      (after = none ∧ opened o = none ∧ (closed o = some state ∨
        ∃ before d, op = .login (.sweepExpiredSessions before) ∧ t.sessions state = some d ∧
          d.expiresAt < before)) := by
  intro o after
  -- a call that neither opens nor removes a session
  have hother (hopen : ∀ d, op ≠ .login (.createSession d)) (hclose : ∀ s, op ≠ .login (.deleteSession s)) :
      closed o ≠ some state ∧ ∀ d, opened o = some d → d.state ≠ state :=
    ⟨fun h => hclose state (closed_eq_some.mp h).1, fun d h => absurd (opened_eq_some.mp h).1 (hopen d)⟩
  cases op with
  | findUser userId => exact .inl ⟨rfl, hother (by simp) (by simp)⟩
  | login op =>
    rcases @reach_login tid tag c t op with ⟨hserved, hafter⟩ | ⟨hnot, hafter⟩
    · have hto : after = (answer c { t with clock := t.clock + c.elapsed } op).2.sessions state :=
        congrArg (fun t : Tables => t.sessions state) hafter
      cases op with
      | createSession data =>
        have hs : WasServed o := by simpa using hserved
        have hclose : closed o ≠ some state := by simp [closed, o]
        cases hrow : t.sessions data.state with
        | some d =>
          refine .inl ⟨by rw [hto]; simp [answer, hrow], hclose, fun d' hd' => ?_⟩
          obtain ⟨hop, -, hnone⟩ := opened_eq_some.mp hd'
          cases hop
          cases hnone.symm.trans hrow
        | none =>
          have ho : opened o = some data := opened_eq_some.mpr ⟨rfl, hs, hrow⟩
          by_cases hstate : data.state = state
          · subst hstate
            exact .inr (.inl ⟨hrow, data, ho, rfl, by rw [hto]; simp [answer, hrow]⟩)
          · refine .inl ⟨?_, hclose, fun d hd => ?_⟩
            · rw [hto]
              simp [answer, hrow, Function.update_of_ne (Ne.symm hstate)]
            · rwa [← Option.some.inj (ho.symm.trans hd)]
      | deleteSession s =>
        have hs : WasServed o := by simpa using hserved
        have hc : closed o = some s := closed_eq_some.mpr ⟨rfl, hs⟩
        by_cases hstate : s = state
        · subst hstate
          refine .inr (.inr ⟨?_, rfl, .inl hc⟩)
          rw [hto]
          cases hrow : t.sessions s <;> simp [answer, hrow]
        · refine .inl ⟨?_, fun h => hstate (Option.some.inj (hc.symm.trans h)), fun d hd => by cases hd⟩
          rw [hto]
          cases hrow : t.sessions s <;> simp [answer, hrow, Function.update_of_ne (Ne.symm hstate)]
      | sweepExpiredSessions before =>
        cases hrow : t.sessions state with
        | none => exact .inl ⟨by rw [hto]; simp [answer, hrow], hother (by simp) (by simp)⟩
        | some d =>
          by_cases hold : d.expiresAt < before
          · exact .inr (.inr ⟨by rw [hto]; simp [answer, hrow, hold], rfl, .inr ⟨before, d, rfl, rfl, hold⟩⟩)
          · exact .inl ⟨by rw [hto]; simp [answer, hrow, hold], hother (by simp) (by simp)⟩
      | _ => exact .inl ⟨hto, hother (by simp) (by simp)⟩
    · have hto : (reach c op t).2.sessions state = t.sessions state := by rw [hafter]
      exact .inl ⟨hto, fun h => hnot (closed_eq_some.mp h).2, fun d h => absurd (opened_eq_some.mp h).2.1 hnot⟩

/-- What a call leaves of the users. -/
theorem reachAuth_users {userId : String} :
    (reachAuth c op t).2.users userId = (storedRow userId ⟨tid, tag, ⟨t, op, c⟩⟩).or (t.users userId) := by
  cases op with
  | findUser u => rfl
  | login op =>
    show (reach c op t).2.users userId = _
    rcases @reach_login tid tag c t op with ⟨hserved, hafter⟩ | ⟨hnot, hafter⟩
    · rw [hafter]
      cases op with
      | upsertUser u data =>
        have hs : WasServed ⟨tid, tag, ⟨t, .login (.upsertUser u data), c⟩⟩ := by simpa using hserved
        by_cases hu : u = userId
        · subst hu
          simp [answer, storedRow, hs]
        · simp [answer, storedRow, hu, Function.update_of_ne (Ne.symm hu)]
      | createSession data => cases hrow : t.sessions data.state <;> simp [answer, storedRow, hrow]
      | deleteSession s => cases hrow : t.sessions s <;> simp [answer, storedRow, hrow]
      | _ => rfl
    · rw [hafter]
      cases op with
      | upsertUser u data => simp [storedRow, hnot]
      | _ => rfl

/-- A read of a user that is answered gives the row. -/
theorem reachAuth_findUser {userId : String} {user : Option User}
    (h : (reachAuth c (.findUser userId) t).1 = .ok user) : user = t.users userId := by
  cases he : c.error <;> simp_all [reachAuth]

/-- A session that is found is in the table. -/
theorem reachAuth_findSession {state : String} {session : Option PendingAuthSession}
    (h : (reachAuth c (.login (.findSession state)) t).1 = .ok session) : session = t.sessions state := by
  cases he : c.error <;> simp_all [reachAuth, reach, answer]

/-- A call that is answered has not failed. -/
theorem error_eq_none_of_ok (hnow : op ≠ .login .now) (hrandom : op ≠ .login .random) {a : op.Answer}
    (h : (reachAuth c op t).1 = .ok a) : c.error = none := by
  cases he : c.error with
  | none => rfl
  | some e =>
    cases op with
    | findUser u => simp [reachAuth, he] at h
    | login op => cases op <;> simp_all [reachAuth, reach]

/-- A session whose creation is answered was put into the table. -/
theorem opened_of_ok (tid : ℕ) (tag : AuthCall) {data : PendingAuthSession} {a : Unit}
    (h : (reachAuth c (.login (.createSession data)) t).1 = .ok a) :
    opened ⟨tid, tag, ⟨t, .login (.createSession data), c⟩⟩ = some data := by
  have hnone := error_eq_none_of_ok (by simp) (by simp) h
  cases hrow : t.sessions data.state with
  | none => exact opened_eq_some.mpr ⟨rfl, .inl hnone, hrow⟩
  | some d => simp [reachAuth, reach, answer, hnone, hrow] at h

end Calls

end Gusto.Auth
