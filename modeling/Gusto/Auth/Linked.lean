import Gusto.Auth.Login
import Gusto.Lib.Search

/-!
# Whose account is linked

Any logins, their calls interleaved.  `account` is the Swiggy account that has authorised a code.

* `LoginContract`: a Swiggy token is stored for the user that a pending session names, by a callback
  that has found this session;
* `noHijack_of_owned`: where each callback brings a code of the account that owns the user of its
  session, no account gets at the user of another;
* `not_noHijack`: a start that names the user of another.
-/

set_option autoImplicit false

namespace Gusto.Auth

open Effects Search

abbrev LoginPool : Type := Pool LoginCall LoginOp LoginOp.Answer Err LoginReply Tables
abbrev LoginThread : Type := Thread LoginCall LoginOp LoginOp.Answer Err LoginReply
abbrev LoginNote : Type := Note LoginCall Tables LoginOp LoginChoice

/-- A thread for each of `calls`, over empty tables. -/
def logins (env : LoginEnv) (calls : List LoginCall) (clock : ℤ) : LoginPool :=
  Pool.start (LoginCall.prog env) calls ⟨clock, fun _ => none, fun _ => none, []⟩

/-! ### What is asked -/

/-- The user whose Swiggy token a call stores. -/
def LoginOp.storesFor : LoginOp → Option String
  | .upsertUser userId _ => some userId
  | _ => none

/-- The Swiggy token of a user is stored, or replaced. -/
def Stored (userId : String) (o : LoginNote) : Prop :=
  o.event.call.storesFor = some userId ∧ (o.event.choice.error = none ∨ o.event.choice.served = true)

instance (userId : String) : DecidablePred (Stored userId) :=
  fun _ => inferInstanceAs (Decidable (_ ∧ (_ ∨ _)))

/-- The code that a callback brings, and the session that it finds. -/
def redeemed (o : LoginNote) : Option (String × PendingAuthSession) :=
  match o.tag, o.event.call with
  | .callback code _, .findSession state => (o.event.pre.sessions state).map fun session => (code, session)
  | _, _ => none

section

variable {A : Type} (account : String → A) (owner : String → A)

/-- The account whose code a callback brings. -/
def linkedBy (tag : LoginCall) : Option A :=
  match tag with
  | .start _ => none
  | .callback code _ => some (account code)

/-- A user who was first linked by `a` gets tokens of `a` only, and is a session for nobody else. -/
def NoHijack (P : LoginPool) (os : List LoginNote) : Prop :=
  ∀ userId a o, First (Stored userId) os o → linkedBy account o.tag = some a →
    (∀ o' ∈ os, Stored userId o' → linkedBy account o'.tag = some a) ∧
    ∀ code state s, (⟨.callback code state, .ret (.session s)⟩ : LoginThread) ∈ P.threads →
      s.token.sub = some userId → account code = a

/-- A callback that finds a pending session in time brings a code of the account that owns its user. -/
def Owned (o : LoginNote) : Prop :=
  ∀ p ∈ redeemed o, o.event.pre.clock ≤ p.2.expiresAt → account p.1 = owner p.2.userId

instance [DecidableEq A] : DecidablePred (Owned account owner) :=
  fun o => inferInstanceAs (Decidable (∀ p ∈ redeemed o, _))

end

/-! ### The contract -/

/-- A callback has found a session of the user in time. -/
def Redeems (os : List LoginNote) (tag : LoginCall) (userId : String) : Prop :=
  ∃ code state session, tag = .callback code state ∧ session.userId = userId ∧
    ∃ o ∈ os, redeemed o = some (code, session) ∧ o.event.pre.clock ≤ session.expiresAt

/-- A token is stored by a callback that has found a session of its user. -/
def LoginContract : Contract LoginCall LoginOp Err LoginReply Tables LoginChoice where
  inv os _ := ∀ o ∈ os, ∀ userId, Stored userId o → Redeems os o.tag userId
  rely t t' := t.clock ≤ t'.clock
  pre _ tag op os _ :=
    match op with
    | .upsertUser userId _ => Redeems os tag userId
    | _ => True
  post _ tag r os _ :=
    match r with
    | .ok (.session s) => s.token.sub = some s.userId ∧ ∃ o ∈ os, o.tag = tag ∧ Stored s.userId o
    | _ => True

theorem Redeems.mono {os os' : List LoginNote} {tag : LoginCall} {userId : String}
    (h : Redeems os tag userId) (hos : os <+: os') : Redeems os' tag userId := by
  obtain ⟨code, state, session, htag, hu, o, ho, hrest⟩ := h
  exact ⟨code, state, session, htag, hu, o, hos.subset ho, hrest⟩

theorem reach_clock {c : LoginChoice} {op : LoginOp} {t : Tables} :
    (reach c op t).2.clock = t.clock + c.elapsed := by
  have hanswer : ∀ (op : LoginOp) (t : Tables), (answer c t op).2.clock = t.clock := by
    intro op t
    cases op <;> simp only [answer] <;> try split <;> rfl
  cases op <;> cases he : c.error <;> cases hs : c.served <;> simp [reach, he, hs, hanswer]

theorem loginContract_sound : LoginContract.Sound reach where
  refl _ := le_rfl
  trans _ _ _ h h' := h.trans h'
  step os t tid tag op c hinv hpre := by
    refine ⟨fun o ho userId hstored => ?_, ?_⟩
    · rcases List.mem_append.mp ho with ho | ho
      · exact (hinv o ho userId hstored).mono (List.prefix_append os _)
      · obtain ⟨hop, -⟩ := List.mem_singleton.mp ho ▸ hstored
        rw [List.mem_singleton.mp ho]
        cases op with
        | upsertUser u data =>
          obtain rfl : u = userId := Option.some.inj hop
          exact Redeems.mono hpre (List.prefix_append os _)
        | _ => cases hop
    · show t.clock ≤ (reach c op t).2.clock
      rw [reach_clock]
      omega

/-! ### The programs -/

section Programs

variable {env : LoginEnv} {tid : ℕ} {tag : LoginCall} {os : List LoginNote} {t : Tables}

theorem meets_throw (e : Err) :
    (Prog.throw e : Login LoginReply).Meets LoginContract reach tid tag os t := fun _ _ _ _ => trivial

/-- A call that is awaited; where it fails nothing is promised. -/
theorem meets_ask {op : LoginOp} {f : op.Answer → Login LoginReply}
    (h : ∀ os' t', os <+: os' → t.clock ≤ t'.clock → LoginContract.pre tid tag op os' t' ∧
      ∀ c a, (reach c op t').1 = .ok a → (f a).Meets LoginContract reach tid tag
        (os' ++ [⟨tid, tag, ⟨t', op, c⟩⟩]) (reach c op t').2) :
    (ask op >>= f).Meets LoginContract reach tid tag os t := by
  refine Prog.Meets.await_bind fun os' t' hos ht _ => ?_
  obtain ⟨hpre, hnext⟩ := h os' t' hos ht
  refine ⟨hpre, fun c => ?_⟩
  cases hres : (reach c op t').1 with
  | ok a => exact hnext c a hres
  | error e => exact meets_throw e

/-- A call that stores no token, and of whose answer nothing is known. -/
theorem meets_ask_any {op : LoginOp} {f : op.Answer → Login LoginReply}
    (hop : ∀ os' t', LoginContract.pre tid tag op os' t')
    (h : ∀ a os' t', os <+: os' → t.clock ≤ t'.clock → (f a).Meets LoginContract reach tid tag os' t') :
    (ask op >>= f).Meets LoginContract reach tid tag os t := by
  refine meets_ask fun os' t' hos ht => ⟨hop os' t', fun c a _ => ?_⟩
  refine h a _ _ (hos.trans (List.prefix_append os' _)) (ht.trans ?_)
  rw [reach_clock]
  omega

theorem meets_deleteSession {state : String} {f : Unit → Login LoginReply}
    (h : ∀ os' t', os <+: os' → t.clock ≤ t'.clock → (f ()).Meets LoginContract reach tid tag os' t') :
    (OAuthService.deleteSession state >>= f).Meets LoginContract reach tid tag os t := by
  unfold OAuthService.deleteSession ask
  intro os' t' hos ht _
  refine ⟨trivial, fun c => ?_⟩
  have hnext : (f ()).Meets LoginContract reach tid tag
      (os' ++ [⟨tid, tag, ⟨t', .deleteSession state, c⟩⟩]) (reach c (.deleteSession state) t').2 := by
    refine h _ _ (hos.trans (List.prefix_append os' _)) (le_trans ht ?_)
    rw [reach_clock]
    omega
  cases hres : (reach c (.deleteSession state) t').1 with
  | ok a => exact hnext
  | error e => exact hnext

theorem meets_start (userId : String) :
    (LoginCall.prog env (.start userId)).Meets LoginContract reach tid tag os t := by
  show Prog.Meets _ _ _ _ (LoginReply.challenge <$> OAuthService.startPkceFlow env userId) os t
  rw [map_eq_pure_bind]
  unfold OAuthService.startPkceFlow OAuthService.sweepExpiredSessions
  simp only [bind_assoc]
  refine meets_ask_any (fun _ _ => trivial) fun now os₁ t₁ _ _ => ?_
  refine meets_ask_any (fun _ _ => trivial) fun _ os₂ t₂ _ _ => ?_
  refine meets_ask_any (fun _ _ => trivial) fun codeVerifier os₃ t₃ _ _ => ?_
  refine meets_ask_any (fun _ _ => trivial) fun state os₄ t₄ _ _ => ?_
  refine meets_ask_any (fun _ _ => trivial) fun now' os₅ t₅ _ _ => ?_
  refine meets_ask_any (fun _ _ => trivial) fun _ os₆ t₆ _ _ => ?_
  exact fun _ _ _ _ => trivial

variable (env tid t) in
/-- A callback that has found a session of the user in time may store a token for this user. -/
theorem meets_storeToken {session : PendingAuthSession} (swiggyToken : SwiggyTokenResponse)
    (h : Redeems os tag session.userId) :
    (LoginReply.session <$> OAuthService.storeToken env session swiggyToken).Meets LoginContract reach
      tid tag os t := by
  rw [map_eq_pure_bind]
  unfold OAuthService.storeToken
  simp only [bind_assoc]
  refine meets_ask_any (fun _ _ => trivial) fun iv os₀ t₀ hos₀ _ => ?_
  refine meets_ask_any (fun _ _ => trivial) fun now os₁ t₁ hos₁ _ => ?_
  refine meets_ask fun os₂ t₂ hos₂ _ => ⟨h.mono (hos₀.trans (hos₁.trans hos₂)), fun c a hok => ?_⟩
  have hserved : c.error = none := by
    cases he : c.error with
    | none => rfl
    | some e => simp [reach, he] at hok
  have hmem := List.mem_append_right os₂ (List.mem_singleton_self (⟨tid, tag, ⟨t₂, .upsertUser session.userId
    { encryptedMcpToken := env.encrypt iv swiggyToken.access_token
      mcpTokenExpiresAt := now + swiggyToken.expires_in * 1000
      mcpTokenScope := swiggyToken.scope }, c⟩⟩ : LoginNote))
  refine meets_deleteSession fun os₃ t₃ hos₃ _ => ?_
  refine meets_ask_any (fun _ _ => trivial) fun jti os₄ t₄ hos₄ _ => ?_
  refine meets_ask_any (fun _ _ => trivial) fun issuedAt os₅ t₅ hos₅ _ => ?_
  refine meets_ask_any (fun _ _ => trivial) fun eventId os₆ t₆ hos₆ _ => ?_
  refine meets_ask_any (fun _ _ => trivial) fun occurredAt os₇ t₇ hos₇ _ => ?_
  refine meets_ask_any (fun _ _ => trivial) fun _ os₈ t₈ hos₈ _ => ?_
  intro os₉ t₉ hos₉ _
  have hlater := hos₃.trans (hos₄.trans (hos₅.trans (hos₆.trans (hos₇.trans (hos₈.trans hos₉)))))
  exact ⟨rfl, _, hlater.subset hmem, rfl, rfl, .inl hserved⟩

theorem meets_callback (code state : String) :
    (LoginCall.prog env (.callback code state)).Meets LoginContract reach tid (.callback code state) os t := by
  show Prog.Meets _ _ _ _ (LoginReply.session <$> OAuthService.exchangeCodeForToken env code state) os t
  rw [map_eq_pure_bind]
  unfold OAuthService.exchangeCodeForToken
  simp only [bind_assoc]
  refine meets_ask fun os₁ t₁ _ _ => ⟨trivial, fun c found hfound => ?_⟩
  cases found with
  | none => exact meets_throw _
  | some session =>
    have hsession : t₁.sessions state = some session := by
      cases he : c.error with
      | none => simpa [reach, he, answer] using hfound
      | some e => simp [reach, he] at hfound
    dsimp only
    rw [bind_assoc]
    refine meets_ask fun os₂ t₂ hos₂ ht₂ => ⟨trivial, fun c' now hnow => ?_⟩
    have hclock : t₁.clock ≤ now := by
      have hread : t₂.clock + c'.elapsed = now := by simpa [reach, answer] using hnow
      rw [reach_clock] at ht₂
      omega
    split
    · rw [bind_assoc]
      refine meets_deleteSession fun os₃ t₃ _ _ => ?_
      exact meets_throw (.http 401 "Authorization session is invalid or has expired -- restart login")
    · rename_i hlive
      have hredeems : Redeems os₂ (.callback code state) session.userId :=
        ⟨code, state, session, rfl, rfl, _, hos₂.subset
          (List.mem_append_right os₁ (List.mem_singleton_self _)), by simp [redeemed, hsession],
          hclock.trans (not_lt.mp hlive)⟩
      unfold OAuthService.requestToken
      rw [bind_assoc, bind_assoc]
      refine meets_ask_any (fun _ _ => trivial) fun reply os₃ t₃ hos₃ _ => ?_
      cases reply with
      | token response =>
        have hstore := meets_storeToken env tid t₃ response
          (hredeems.mono ((List.prefix_append os₂ _).trans hos₃))
        rwa [map_eq_pure_bind] at hstore
      | rejected body => exact meets_throw _
      | unreachable => exact meets_throw _

theorem logins_meets (env : LoginEnv) (calls : List LoginCall) (clock : ℤ) :
    (logins env calls clock).Meets LoginContract reach [] := by
  refine Pool.Meets.start (fun o ho => absurd ho List.not_mem_nil) fun tid c _ => ?_
  cases c with
  | start userId => exact meets_start userId
  | callback code state => exact meets_callback code state

end Programs

/-! ### Runs -/

section Runs

variable {A : Type} {account : String → A} {owner : String → A} {env : LoginEnv}

/-- A callback that has redeemed a session of a user brings the code of this user's account. -/
theorem Redeems.owned {os : List LoginNote} {tag : LoginCall} {userId : String}
    (h : Redeems os tag userId) (howned : ∀ o ∈ os, Owned account owner o) :
    linkedBy account tag = some (owner userId) := by
  obtain ⟨code, state, session, rfl, rfl, o, ho, hfound, hlive⟩ := h
  exact congrArg some (howned o ho (code, session) hfound hlive)

/-- **Logins.** Where each callback that finds a pending session in time brings a code of the account
that owns its user, no account gets at a user that another was linked to first. -/
theorem noHijack_of_owned (env : LoginEnv) (account owner : String → A) (calls : List LoginCall) (clock : ℤ)
    {P : LoginPool} {os : List LoginNote}
    (hr : Run (Pool.step reach) anyStep (logins env calls clock) P os)
    (howned : ∀ o ∈ os, Owned account owner o) : NoHijack account P os := by
  obtain ⟨⟨hinv, hths⟩, -, -⟩ := Contract.run loginContract_sound (logins_meets env calls clock) hr
  rw [List.nil_append] at hinv hths
  have hstored : ∀ o ∈ os, ∀ u, Stored u o → linkedBy account o.tag = some (owner u) :=
    fun o ho u hu => (hinv o ho u hu).owned howned
  intro userId a o hfirst ha
  obtain rfl : owner userId = a :=
    Option.some.inj ((hstored o hfirst.mem userId hfirst.meets).symm.trans ha)
  refine ⟨fun o' ho' hu => hstored o' ho' userId hu, fun code state s hth hsub => ?_⟩
  obtain ⟨tid, hget⟩ := List.mem_iff_getElem?.mp hth
  obtain ⟨htoken, o', ho', htag, hu⟩ := (hths tid _ hget).of_ret loginContract_sound
  obtain rfl : s.userId = userId := Option.some.inj (htoken.symm.trans hsub)
  have hlinked := hstored o' ho' _ hu
  rw [htag] at hlinked
  exact Option.some.inj hlinked

/-- All tokens that are stored for a user are then of one account. -/
theorem NoHijack.agree {P : LoginPool} {os : List LoginNote} (h : NoHijack account P os) {u : String}
    (hcallbacks : ∀ o ∈ os, Stored u o → (linkedBy account o.tag).isSome) :
    ∀ o₁ ∈ os, ∀ o₂ ∈ os, Stored u o₁ → Stored u o₂ →
      linkedBy account o₁.tag = linkedBy account o₂.tag := by
  intro o₁ ho₁ o₂ ho₂ hu₁ hu₂
  obtain ⟨o, hfirst⟩ := exists_first ⟨o₁, ho₁, hu₁⟩
  obtain ⟨a, ha⟩ := Option.isSome_iff_exists.mp (hcallbacks o hfirst.mem hfirst.meets)
  have hall := (h u a o hfirst ha).1
  rw [hall o₁ ho₁ hu₁, hall o₂ ho₂ hu₂]

end Runs

/-! ### With and without an owner -/

def plainEnv : LoginEnv := ⟨"https://gusto.example/callback", 3600, id, fun _ state => state, fun _ => id⟩

/-- Codes that name their accounts. -/
def codeAccount (code : String) : String := if code = "code-a" then "swiggy-a" else "swiggy-b"

def granted : LoginChoice := { swiggy := .token ⟨"token", 432000, "mcp:tools"⟩ }

/-- A start, its callback, then a second start and its callback. -/
def twoLogins (user₁ code₁ user₂ code₂ : String) : LoginPool :=
  logins plainEnv [.start user₁, .callback code₁ "state-1", .start user₂, .callback code₂ "state-2"] 0

/-- The choices of a start, and of a callback that goes through. -/
def startChoices (tid : ℕ) (state : String) : List (ℕ × LoginChoice) :=
  [(tid, {}), (tid, {}), (tid, { random := "verifier" }), (tid, { random := state }), (tid, {}), (tid, {})]

def callbackChoices (tid : ℕ) : List (ℕ × LoginChoice) :=
  [(tid, {}), (tid, {}), (tid, granted), (tid, { random := "iv" }), (tid, {}), (tid, {}), (tid, {}),
    (tid, { random := "jti" }), (tid, {}), (tid, { random := "event" }), (tid, {}), (tid, {})]

def twoLoginChoices : List (ℕ × LoginChoice) :=
  startChoices 0 "state-1" ++ callbackChoices 1 ++ startChoices 2 "state-2" ++ callbackChoices 3

/-- Two users, each with an account. -/
theorem noHijack_twoUsers : ∃ P os,
    Run (Pool.step reach) anyStep (twoLogins "user-a" "code-a" "user-b" "code-b") P os ∧
    (∃ o ∈ os, Stored "user-b" o) ∧ NoHijack codeAccount P os := by
  have hr := Run.of_runSteps .nil (show runSteps (Pool.step reach) anyStep twoLoginChoices
    (twoLogins "user-a" "code-a" "user-b" "code-b") [] = some (_, _) from rfl)
  refine ⟨_, _, hr, by decide, noHijack_of_owned plainEnv codeAccount
    (fun userId => if userId = "user-a" then "swiggy-a" else "swiggy-b") _ 0 hr (by decide)⟩

/-- The second start names the user of the first; its callback gets a session of that user, and its
account replaces the one that was linked. -/
theorem not_noHijack : ¬ ∀ (env : LoginEnv) (account : String → String) (calls : List LoginCall) (clock : ℤ)
    (P : LoginPool) (os : List LoginNote), Run (Pool.step reach) anyStep (logins env calls clock) P os →
    NoHijack account P os := by
  intro h
  have hr := Run.of_runSteps .nil (show runSteps (Pool.step reach) anyStep twoLoginChoices
    (twoLogins "user-a" "code-a" "user-a" "code-b") [] = some (_, _) from rfl)
  exact absurd ((h _ codeAccount _ _ _ _ hr).agree (u := "user-a") (by decide)) (by decide)

end Gusto.Auth
