import Gusto.Auth.Tokens

/-!
# What the calls of auth-service keep

Any requests to auth-service and any sweeps, their calls interleaved.

* `AuthContract`: a session is opened by a start or a refresh, with a verifier that was drawn for it; a
  token is asked for, and stored, by a callback that has found such a session; a session is removed when
  its token has been stored, or when its time is up;
* `meets_prog`, `requests_meets`: the programs meet it.
-/

set_option autoImplicit false

namespace Gusto.Auth

open Effects

/-! ### What a thread has done -/

section Facts

variable (tid : ℕ) (os : List AuthNote)

/-- The thread has read the clock at `n`. -/
def HasRead (n : ℤ) : Prop := ∃ o ∈ os, o.tid = tid ∧ o.event.call = .login .now ∧ servedAt o = n

/-- The thread has drawn `x`. -/
def HasDrawn (x : String) : Prop :=
  ∃ o ∈ os, o.tid = tid ∧ o.event.call = .login .random ∧ o.event.choice.random = x

/-- The thread has put the session into the table. -/
def HasOpened (d : PendingAuthSession) : Prop := ∃ o ∈ os, o.tid = tid ∧ opened o = some d

/-- The session was put into the table. -/
def WasOpened (d : PendingAuthSession) : Prop := ∃ o ∈ os, opened o = some d

/-- The thread has found the session. -/
def HasFound (d : PendingAuthSession) : Prop :=
  ∃ o ∈ os, o.tid = tid ∧ o.event.call = .login (.findSession d.state) ∧ o.event.pre.sessions d.state = some d

/-- Swiggy has given the thread `response` for `code` and the verifier of the session. -/
def HasGot (code : String) (d : PendingAuthSession) (response : SwiggyTokenResponse) : Prop :=
  ∃ o ∈ os, o.tid = tid ∧ o.event.call = .login (.requestToken code d.codeVerifier d.redirectUri) ∧
    o.event.choice.error = none ∧ o.event.choice.swiggy = .token response

/-- The thread has read the row of a user, `row` at that time. -/
def HasLookedUp (userId : String) (row : Option User) : Prop :=
  ∃ pre o, pre ++ [o] <+: os ∧ o.tid = tid ∧ o.event.call = .findUser userId ∧ latest userId pre = row

end Facts

/-- The thread has stored a row for a user. -/
def HasStored (tid : ℕ) (tag : AuthCall) (os : List AuthNote) (userId : String) : Prop :=
  ∃ o ∈ os, o.tid = tid ∧ o.tag = tag ∧ (storedRow userId o).isSome

/-! ### What a call asks for -/

section Contract

variable (env : AuthEnv)

/-- A start or a refresh opens a session of its user, with a verifier of its own. -/
def Opens (tid : ℕ) (tag : AuthCall) (d : PendingAuthSession) (os : List AuthNote) : Prop :=
  (tag = .start d.userId ∨ tag = .refresh d.userId) ∧ HasDrawn tid os d.codeVerifier ∧
    d.redirectUri = env.SWIGGY_OAUTH_REDIRECT_URI ∧ ∃ n, HasRead tid os n ∧ d.expiresAt = n + PENDING_SESSION_TTL_MS

/-- A start or a refresh has handed out the state of a session that it has opened, and the hash of its
verifier. -/
def HandsOut (tid : ℕ) (userId : String) (challenge : AuthorizationChallenge) (os : List AuthNote) : Prop :=
  ∃ d, HasOpened tid os d ∧ d.userId = userId ∧ challenge.state = d.state ∧
    challenge.authorizationUrl = env.buildAuthorizationUrl (env.sha256 d.codeVerifier) d.state

/-- A callback has found the session of its state, in time. -/
def Claims (tid : ℕ) (tag : AuthCall) (code : String) (d : PendingAuthSession) (os : List AuthNote) : Prop :=
  tag = .callback code d.state ∧ WasOpened os d ∧ HasFound tid os d ∧ ∃ n, HasRead tid os n ∧ n ≤ d.expiresAt

/-- A callback has got the token that it stores for the user of its session. -/
def Authorises (tid : ℕ) (tag : AuthCall) (userId : String) (row : User) (os : List AuthNote) : Prop :=
  ∃ code d response iv n, Claims tid tag code d os ∧ d.userId = userId ∧ HasGot tid os code d response ∧
    HasDrawn tid os iv ∧ HasRead tid os n ∧
    row = ⟨env.encrypt iv response.access_token, n + response.expires_in * 1000, response.scope⟩

/-- A callback removes the session of its state: its time is up, or its token has been stored. -/
def Ends (tid : ℕ) (tag : AuthCall) (state : String) (os : List AuthNote) (t : Tables) : Prop :=
  ∃ code d, tag = .callback code d.state ∧ d.state = state ∧ WasOpened os d ∧
    (d.expiresAt < t.clock ∨ HasStored tid tag os d.userId)

/-- What is known of the tables. -/
structure Kept (os : List AuthNote) (t : Tables) : Prop where
  /-- A session in the table was put there. -/
  found : ∀ state d, t.sessions state = some d → d.state = state ∧ WasOpened os d
  /-- A session is in the table until its time is up or a callback has stored its token. -/
  kept : DistinctStates os → ∀ d, WasOpened os d → t.sessions d.state = some d ∨ d.expiresAt < t.clock ∨
    ∃ o ∈ os, (storedRow d.userId o).isSome ∧ ∃ code, o.tag = .callback code d.state
  /-- A session that is removed was there. -/
  known : ∀ o ∈ os, ∀ state, closed o = some state → ∃ d, WasOpened os d ∧ d.state = state
  /-- A session that was removed is not there again. -/
  gone : DistinctStates os → ∀ o ∈ os, ∀ state, closed o = some state → t.sessions state = none
  /-- The row of a user is the last that was stored. -/
  users : ∀ userId, t.users userId = latest userId os

/-- What a request for the token of a user is refused for. -/
def Unavailable (tid : ℕ) (os : List AuthNote) (provided : Option String) (userId : String) : Prop :=
  provided ≠ some env.INTERNAL_SHARED_SECRET ∨
    (∃ o ∈ os, o.tid = tid ∧ o.event.call = .findUser userId ∧ o.event.choice.error ≠ none) ∨
    ∃ row, HasLookedUp tid os userId row ∧ ∀ user ∈ row, user.encryptedMcpToken = "" ∨
      (∃ n, HasRead tid os n ∧ user.mcpTokenExpiresAt < n) ∨
      ∀ rawToken, env.decrypt user.encryptedMcpToken ≠ .ok rawToken

/-- What each call asks for, and what a request promises at its end. -/
def AuthContract : Contract AuthCall AuthOp Err AuthReply Tables LoginChoice where
  inv := Kept
  rely t t' := t.clock ≤ t'.clock
  pre tid tag op os t :=
    match op with
    | .login (.sweepExpiredSessions before) => before ≤ t.clock
    | .login (.createSession data) => Opens env tid tag data os
    | .login (.deleteSession state) => Ends tid tag state os t
    | .login (.requestToken code codeVerifier redirectUri) => ∃ d, Claims tid tag code d os ∧
      codeVerifier = d.codeVerifier ∧ redirectUri = d.redirectUri
    | .login (.upsertUser userId row) => Authorises env tid tag userId row os
    | _ => True
  post tid tag r os _ :=
    match tag, r with
    | .callback _ _, .ok (.session s) => s.token.sub = some s.userId ∧ ∃ pre o, pre ++ [o] <+: os ∧
      o.tid = tid ∧ o.tag = tag ∧ ∃ row, storedRow s.userId o = some row ∧ Authorises env tid tag s.userId row pre
    | .internalToken provided userId, .ok (.token token) => provided = some env.INTERNAL_SHARED_SECRET ∧
      ∃ user, HasLookedUp tid os userId (some user) ∧ env.decrypt user.encryptedMcpToken = .ok token ∧
        ∃ n, HasRead tid os n ∧ n ≤ user.mcpTokenExpiresAt
    | .internalToken provided userId, .error _ => Unavailable env tid os provided userId
    | .start userId, .ok (.challenge challenge) => HandsOut env tid userId challenge os
    | .refresh userId, .ok (.refreshed (.reauthenticationRequired challenge)) =>
      HandsOut env tid userId challenge os
    | .refresh userId, .ok (.refreshed (.valid expiresAt)) => ∃ user, HasLookedUp tid os userId (some user) ∧
      user.encryptedMcpToken ≠ "" ∧ user.mcpTokenExpiresAt = expiresAt ∧
        ∃ n, HasRead tid os n ∧ REAUTH_THRESHOLD_MS < expiresAt - n
    | _, _ => True

end Contract

/-! ### What lasts -/

section Lasting

variable {env : AuthEnv} {tid : ℕ} {tag : AuthCall} {os os' : List AuthNote}

theorem exists_mem_mono {P : AuthNote → Prop} (h : ∃ o ∈ os, P o) (hos : os <+: os') : ∃ o ∈ os', P o :=
  h.imp fun _ h => ⟨hos.subset h.1, h.2⟩

variable (os) in
theorem mem_concat {P : AuthNote → Prop} {o : AuthNote} (h : P o) : ∃ o' ∈ os ++ [o], P o' :=
  ⟨o, List.mem_append_right _ (List.mem_singleton_self o), h⟩

theorem HasRead.mono {n : ℤ} (h : HasRead tid os n) (hos : os <+: os') : HasRead tid os' n :=
  exists_mem_mono h hos

theorem HasDrawn.mono {x : String} (h : HasDrawn tid os x) (hos : os <+: os') : HasDrawn tid os' x :=
  exists_mem_mono h hos

theorem HasOpened.mono {d : PendingAuthSession} (h : HasOpened tid os d) (hos : os <+: os') :
    HasOpened tid os' d := exists_mem_mono h hos

theorem WasOpened.mono {d : PendingAuthSession} (h : WasOpened os d) (hos : os <+: os') : WasOpened os' d :=
  exists_mem_mono h hos

theorem HasFound.mono {d : PendingAuthSession} (h : HasFound tid os d) (hos : os <+: os') :
    HasFound tid os' d := exists_mem_mono h hos

theorem HasGot.mono {code : String} {d : PendingAuthSession} {response : SwiggyTokenResponse}
    (h : HasGot tid os code d response) (hos : os <+: os') : HasGot tid os' code d response :=
  exists_mem_mono h hos

theorem HasStored.mono {userId : String} (h : HasStored tid tag os userId) (hos : os <+: os') :
    HasStored tid tag os' userId := exists_mem_mono h hos

theorem HasLookedUp.mono {userId : String} {row : Option User} (h : HasLookedUp tid os userId row)
    (hos : os <+: os') : HasLookedUp tid os' userId row := by
  obtain ⟨pre, o, hpre, hrest⟩ := h
  exact ⟨pre, o, hpre.trans hos, hrest⟩

theorem Claims.mono {code : String} {d : PendingAuthSession} (h : Claims tid tag code d os) (hos : os <+: os') :
    Claims tid tag code d os' := by
  obtain ⟨htag, hopened, hfound, n, hn, hle⟩ := h
  exact ⟨htag, hopened.mono hos, hfound.mono hos, n, hn.mono hos, hle⟩

theorem Unavailable.mono {provided : Option String} {userId : String}
    (h : Unavailable env tid os provided userId) (hos : os <+: os') :
    Unavailable env tid os' provided userId := by
  rcases h with h | h | ⟨row, hrow, h⟩
  · exact .inl h
  · exact .inr (.inl (exists_mem_mono h hos))
  · refine .inr (.inr ⟨row, hrow.mono hos, fun user huser => ?_⟩)
    rcases h user huser with h | ⟨n, hn, h⟩ | h
    · exact .inl h
    · exact .inr (.inl ⟨n, hn.mono hos, h⟩)
    · exact .inr (.inr h)

/-- A session that is opened with a state of its own is the only one with it. -/
theorem DistinctStates.unique (h : DistinctStates os) {d d' : PendingAuthSession} (hd : WasOpened os d)
    (hd' : WasOpened os d') (hstate : d.state = d'.state) : d = d' := by
  obtain ⟨o, ho, hod⟩ := hd
  obtain ⟨o', ho', hod'⟩ := hd'
  exact List.inj_on_of_nodup_map h (List.mem_filterMap.mpr ⟨o, ho, hod⟩)
    (List.mem_filterMap.mpr ⟨o', ho', hod'⟩) hstate

theorem DistinctStates.earlier (h : DistinctStates os') (hos : os <+: os') : DistinctStates os :=
  List.Nodup.sublist ((hos.sublist.filterMap opened).map _) h

theorem DistinctStates.before {o : AuthNote} (h : DistinctStates (os ++ [o])) : DistinctStates os :=
  h.earlier (List.prefix_append os [o])

/-- A session that is opened has a state that no session before it had. -/
theorem DistinctStates.fresh {o : AuthNote} {d d' : PendingAuthSession} (h : DistinctStates (os ++ [o]))
    (ho : opened o = some d) (hd' : WasOpened os d') : d'.state ≠ d.state := by
  obtain ⟨o', ho', hod'⟩ := hd'
  unfold DistinctStates at h
  rw [List.filterMap_append, List.map_append, List.nodup_append] at h
  refine h.2.2 _ (List.mem_map_of_mem (List.mem_filterMap.mpr ⟨o', ho', hod'⟩)) _ ?_
  simp [ho]

theorem latest_concat {userId : String} {o : AuthNote} :
    latest userId (os ++ [o]) = (storedRow userId o).or (latest userId os) := by
  unfold latest
  rw [List.filterMap_append]
  cases hrow : storedRow userId o with
  | none => simp [hrow]
  | some row => simp [hrow]

end Lasting

/-! ### Soundness -/

section Sound

variable {env : AuthEnv} {tid : ℕ} {tag : AuthCall} {os : List AuthNote} {op : AuthOp} {c : LoginChoice}
  {t : Tables}

theorem wasOpened_concat {o : AuthNote} {d : PendingAuthSession} :
    WasOpened (os ++ [o]) d ↔ WasOpened os d ∨ opened o = some d := by
  unfold WasOpened
  simp only [List.mem_append, List.mem_singleton, or_and_right, exists_or, exists_eq_left]

/-- A call that meets its precondition keeps what is known of the tables. -/
theorem Kept.step (h : Kept os t) (hpre : (AuthContract env).pre tid tag op os t) :
    Kept (os ++ [⟨tid, tag, ⟨t, op, c⟩⟩]) (reachAuth c op t).2 := by
  have hclock := @reachAuth_clock c op t
  have hsessions := reachAuth_sessions tid tag c op t
  generalize ho : (⟨tid, tag, ⟨t, op, c⟩⟩ : AuthNote) = o at *
  have hlast : os <+: os ++ [o] := List.prefix_append os _
  have hcall : o.event.call = op := by rw [← ho]
  refine ⟨fun state d hd => ?_, fun hdist d hd => ?_, fun o' ho' state hclosed => ?_,
    fun hdist o' ho' state hclosed => ?_, fun userId => ?_⟩
  · rcases hsessions state with ⟨hsame, -⟩ | ⟨-, d', ho', hstate, hafter⟩ | ⟨hafter, -⟩
    · obtain ⟨hstate, hopened⟩ := h.found state d (hsame ▸ hd)
      exact ⟨hstate, hopened.mono hlast⟩
    · obtain rfl : d' = d := Option.some.inj (hafter.symm.trans hd)
      exact ⟨hstate, o, by simp, ho'⟩
    · cases hafter.symm.trans hd
  · rcases wasOpened_concat.mp hd with hd | hd
    · rcases h.kept hdist.before d hd with hthere | hold | hspent
      · rcases hsessions d.state with ⟨hsame, -⟩ | ⟨hnone, -⟩ | ⟨-, -, hclosed | ⟨before, d', hop, hd', hold⟩⟩
        · exact .inl (hsame.trans hthere)
        · cases hnone.symm.trans hthere
        · obtain ⟨hop, -⟩ := closed_eq_some.mp hclosed
          rw [← hcall, hop] at hpre
          obtain ⟨code, d', htag, hstate, hopened, hold | hstored⟩ := hpre
          · rw [hdist.before.unique hopened hd hstate] at hold
            exact .inr (.inl (by omega))
          · obtain rfl := hdist.before.unique hopened hd hstate
            obtain ⟨o', ho', -, htag', hrow⟩ := hstored
            exact .inr (.inr ⟨o', hlast.subset ho', hrow, code, htag'.trans htag⟩)
        · obtain rfl : d' = d := Option.some.inj (hd'.symm.trans hthere)
          rw [hop] at hpre
          have hbefore : before ≤ t.clock := hpre
          exact .inr (.inl (by omega))
      · exact .inr (.inl (by omega))
      · obtain ⟨o', ho', hrest⟩ := hspent
        exact .inr (.inr ⟨o', hlast.subset ho', hrest⟩)
    · rcases hsessions d.state with ⟨-, hother⟩ | ⟨-, d', ho', -, hafter⟩ | ⟨-, hnone, -⟩
      · exact absurd rfl (hother.2 d hd)
      · obtain rfl : d' = d := Option.some.inj (ho'.symm.trans hd)
        exact .inl hafter
      · cases hnone.symm.trans hd
  · rcases List.mem_append.mp ho' with ho' | ho'
    · obtain ⟨d, hd, hstate⟩ := h.known o' ho' state hclosed
      exact ⟨d, hd.mono hlast, hstate⟩
    · rw [List.mem_singleton.mp ho'] at hclosed
      obtain ⟨hop, -⟩ := closed_eq_some.mp hclosed
      rw [← hcall, hop] at hpre
      obtain ⟨code, d, -, hstate, hopened, -⟩ := hpre
      exact ⟨d, hopened.mono hlast, hstate⟩
  · rcases List.mem_append.mp ho' with ho' | ho'
    · have hnone := h.gone hdist.before o' ho' state hclosed
      rcases hsessions state with ⟨hsame, -⟩ | ⟨-, d, hd, hstate, -⟩ | ⟨hafter, -⟩
      · exact hsame.trans hnone
      -- a state that was removed was drawn before
      · obtain ⟨d', hd', hstate'⟩ := h.known o' ho' state hclosed
        exact absurd (hstate'.trans hstate.symm) (hdist.fresh hd hd')
      · exact hafter
    · rw [List.mem_singleton.mp ho'] at hclosed
      obtain ⟨hop, -⟩ := closed_eq_some.mp hclosed
      have hnew : opened o = none := by rw [opened, hop]
      rcases hsessions state with ⟨-, hopen, -⟩ | ⟨-, d, hd, -⟩ | ⟨hafter, -⟩
      · exact absurd hclosed hopen
      · cases hnew.symm.trans hd
      · exact hafter
  · have husers := @reachAuth_users tid tag op c t userId
    rw [ho] at husers
    rw [husers, h.users, latest_concat]

theorem authContract_sound (env : AuthEnv) : (AuthContract env).Sound reachAuth where
  refl _ := le_rfl
  trans _ _ _ h h' := h.trans h'
  step os t tid tag op c hinv hpre := by
    refine ⟨hinv.step hpre, ?_⟩
    show t.clock ≤ (reachAuth c op t).2.clock
    rw [reachAuth_clock]
    omega

end Sound

/-! ### The programs -/

section Programs

variable {env : AuthEnv} {tid : ℕ} {tag : AuthCall} {os : List AuthNote} {t : Tables}

/-- What a thread of `tag` that throws has promised. -/
def Quiet (env : AuthEnv) (tid : ℕ) (tag : AuthCall) : Prop :=
  ∀ e os t, (AuthContract env).post tid tag (.error e) os t

/-- A call that is awaited; where it fails nothing is promised. -/
theorem meets_request_bind (hq : Quiet env tid tag) {op : AuthOp} {f : op.Answer → AuthProg AuthReply}
    (h : ∀ os' t', os <+: os' → t.clock ≤ t'.clock → Kept os' t' → (AuthContract env).pre tid tag op os' t' ∧
      ∀ c a, (reachAuth c op t').1 = .ok a → (f a).Meets (AuthContract env) reachAuth tid tag
        (os' ++ [⟨tid, tag, ⟨t', op, c⟩⟩]) (reachAuth c op t').2) :
    (request op >>= f).Meets (AuthContract env) reachAuth tid tag os t := by
  refine Prog.Meets.await_bind fun os' t' hos ht hkept => ?_
  obtain ⟨hpre, hnext⟩ := h os' t' hos ht hkept
  refine ⟨hpre, fun c => ?_⟩
  cases hres : (reachAuth c op t').1 with
  | ok a => exact hnext c a hres
  | error e => exact fun _ _ _ _ => hq e _ _

/-- A call of the login of whose answer nothing is known. -/
theorem meets_login_any (hq : Quiet env tid tag) {op : LoginOp} {f : op.Answer → Login AuthReply}
    (hop : ∀ os' t', os <+: os' → (AuthContract env).pre tid tag (.login op) os' t')
    (h : ∀ a os' t', os <+: os' → (login (f a)).Meets (AuthContract env) reachAuth tid tag os' t') :
    (login (ask op >>= f)).Meets (AuthContract env) reachAuth tid tag os t := by
  rw [login_ask_bind]
  refine meets_request_bind hq fun os' t' hos _ _ => ⟨hop os' t' hos, fun c a _ => ?_⟩
  exact h a _ _ (hos.trans (List.prefix_append os' _))

/-- The clock, which does not fail. -/
theorem meets_now_bind {f : ℤ → AuthProg AuthReply}
    (h : ∀ n os' t', os <+: os' → HasRead tid os' n → t.clock ≤ n → t'.clock = n →
      (f n).Meets (AuthContract env) reachAuth tid tag os' t') :
    (request (.login .now) >>= f).Meets (AuthContract env) reachAuth tid tag os t := by
  refine Prog.Meets.await_bind fun os' t' hos ht _ => ⟨trivial, fun c => ?_⟩
  have hclock : t.clock ≤ t'.clock := ht
  refine h _ _ _ (hos.trans (List.prefix_append os' _)) ⟨_, List.mem_append_right _ (List.mem_singleton_self _),
    rfl, rfl, rfl⟩ ?_ rfl
  show t.clock ≤ t'.clock + c.elapsed
  omega

theorem meets_login_now {f : ℤ → Login AuthReply}
    (h : ∀ n os' t', os <+: os' → HasRead tid os' n → t.clock ≤ n → t'.clock = n →
      (login (f n)).Meets (AuthContract env) reachAuth tid tag os' t') :
    (login (ask .now >>= f)).Meets (AuthContract env) reachAuth tid tag os t := by
  rw [login_ask_bind]
  exact meets_now_bind h

theorem meets_login_random {f : String → Login AuthReply}
    (h : ∀ x os' t', os <+: os' → HasDrawn tid os' x →
      (login (f x)).Meets (AuthContract env) reachAuth tid tag os' t') :
    (login (ask .random >>= f)).Meets (AuthContract env) reachAuth tid tag os t := by
  rw [login_ask_bind]
  refine Prog.Meets.await_bind fun os' t' hos _ _ => ⟨trivial, fun c => ?_⟩
  exact h _ _ _ (hos.trans (List.prefix_append os' _)) ⟨_, List.mem_append_right _ (List.mem_singleton_self _),
    rfl, rfl, rfl⟩

theorem meets_login_ret {r : AuthReply} (h : ∀ os' t', os <+: os' → (AuthContract env).post tid tag (.ok r) os' t') :
    (login (.ret r)).Meets (AuthContract env) reachAuth tid tag os t :=
  fun os' t' hos _ => h os' t' hos

theorem meets_login_throw (hq : Quiet env tid tag) (e : Err) :
    (login (.throw e : Login AuthReply)).Meets (AuthContract env) reachAuth tid tag os t :=
  fun os' t' _ _ => hq e os' t'

variable (env tid t) in
/-- A flow that is started for a user opens a session of this user. -/
theorem meets_startPkceFlow (hq : Quiet env tid tag) {userId : String}
    (htag : tag = .start userId ∨ tag = .refresh userId) {f : AuthorizationChallenge → AuthReply}
    (hpost : ∀ challenge os t, HandsOut env tid userId challenge os →
      (AuthContract env).post tid tag (.ok (f challenge)) os t) :
    (login (f <$> OAuthService.startPkceFlow env.toLoginEnv userId)).Meets (AuthContract env) reachAuth
      tid tag os t := by
  rw [map_eq_pure_bind]
  unfold OAuthService.startPkceFlow OAuthService.sweepExpiredSessions
  simp only [bind_assoc]
  refine meets_login_now fun before os₁ t₁ _ _ _ ht₁ => ?_
  rw [login_ask_bind]
  refine meets_request_bind hq fun os₂ t₂ _ ht₂ _ => ⟨ht₁ ▸ ht₂, fun c a _ => ?_⟩
  refine meets_login_random fun codeVerifier os₃ t₃ _ hdrawn => ?_
  refine meets_login_random fun state os₄ t₄ hos₄ _ => ?_
  refine meets_login_now fun now os₅ t₅ hos₅ hread _ _ => ?_
  rw [login_ask_bind]
  refine meets_request_bind hq fun os₆ t₆ hos₆ _ _ => ⟨?_, fun c' a hok => ?_⟩
  · exact ⟨htag, hdrawn.mono (hos₄.trans (hos₅.trans hos₆)), rfl, now, hread.mono hos₆, rfl⟩
  · have hopened : HasOpened tid (os₆ ++ [_]) _ := mem_concat os₆ ⟨rfl, opened_of_ok tid tag hok⟩
    exact meets_login_ret fun os₇ t₇ hos₇ => hpost _ os₇ t₇ ⟨_, hopened.mono hos₇, rfl, rfl, rfl⟩

variable (env tid t) in
theorem meets_deleteSession_bind {state : String} {f : Unit → Login AuthReply}
    (hend : ∀ os' t', os <+: os' → t.clock ≤ t'.clock → Ends tid tag state os' t')
    (h : ∀ os' t', os <+: os' → (login (f ())).Meets (AuthContract env) reachAuth tid tag os' t') :
    (login (OAuthService.deleteSession state >>= f)).Meets (AuthContract env) reachAuth tid tag os t := by
  unfold OAuthService.deleteSession
  rw [bind_assoc, login_attempt_bind]
  intro os' t' hos ht _
  refine ⟨hend os' t' hos ht, fun c => ?_⟩
  have hnext := h (os' ++ [⟨tid, tag, ⟨t', .login (.deleteSession state), c⟩⟩])
    (reachAuth c (.login (.deleteSession state)) t').2 (hos.trans (List.prefix_append os' _))
  cases hres : (reachAuth c (.login (.deleteSession state)) t').1 with
  | ok a => exact hnext
  | error e => exact hnext

theorem quiet_callback {code state : String} : Quiet env tid (.callback code state) := fun _ _ _ => trivial

variable (env tid t) in
/-- A callback that has got a token for its session may store it, and is then a session of its user. -/
theorem meets_storeToken_of_got {code : String} {d : PendingAuthSession} {response : SwiggyTokenResponse}
    (hclaims : Claims tid (.callback code d.state) code d os) (hgot : HasGot tid os code d response) :
    (login (.session <$> OAuthService.storeToken env.toLoginEnv d response)).Meets (AuthContract env) reachAuth
      tid (.callback code d.state) os t := by
  rw [map_eq_pure_bind]
  unfold OAuthService.storeToken
  simp only [bind_assoc]
  refine meets_login_random fun iv os₀ t₀ hos₀ hdrawn => ?_
  refine meets_login_now fun now os₁ t₁ hos₁ hread _ _ => ?_
  rw [login_ask_bind]
  refine meets_request_bind quiet_callback fun os₂ t₂ hos₂ _ _ => ?_
  have hos := hos₀.trans (hos₁.trans hos₂)
  have hauthorises : Authorises env tid (.callback code d.state) d.userId
      ⟨env.encrypt iv response.access_token, now + response.expires_in * 1000, response.scope⟩ os₂ :=
    ⟨code, d, response, iv, now, hclaims.mono hos, rfl, hgot.mono hos, hdrawn.mono (hos₁.trans hos₂),
      hread.mono hos₂, rfl⟩
  refine ⟨hauthorises, fun c a hok => ?_⟩
  have hserved : c.error = none := error_eq_none_of_ok (by simp) (by simp) hok
  generalize hnote : (⟨tid, .callback code d.state, ⟨t₂, .login (.upsertUser d.userId _), c⟩⟩ : AuthNote) = o
  have hrow : storedRow d.userId o = some ⟨env.encrypt iv response.access_token,
      now + response.expires_in * 1000, response.scope⟩ := by
    rw [← hnote]
    exact if_pos ⟨rfl, .inl hserved⟩
  have hstored : HasStored tid (.callback code d.state) (os₂ ++ [o]) d.userId :=
    ⟨o, by simp, by rw [← hnote], by rw [← hnote], by rw [hrow]; rfl⟩
  refine meets_deleteSession_bind env tid _ (fun os' t' hos' _ => ?_) fun os₃ t₃ hos₃ => ?_
  · exact ⟨code, d, rfl, rfl, hclaims.2.1.mono (hos.trans ((List.prefix_append os₂ _).trans hos')),
      .inr (hstored.mono hos')⟩
  refine meets_login_random fun jti os₄ t₄ hos₄ _ => ?_
  refine meets_login_now fun issuedAt os₅ t₅ hos₅ _ _ _ => ?_
  refine meets_login_random fun eventId os₆ t₆ hos₆ _ => ?_
  refine meets_login_now fun occurredAt os₇ t₇ hos₇ _ _ _ => ?_
  refine meets_login_any quiet_callback (fun _ _ _ => trivial) fun _ os₈ t₈ hos₈ => ?_
  refine meets_login_ret fun os₉ t₉ hos₉ => ⟨rfl, os₂, o, ?_, by rw [← hnote], by rw [← hnote],
    _, hrow, hauthorises⟩
  exact hos₃.trans (hos₄.trans (hos₅.trans (hos₆.trans (hos₇.trans (hos₈.trans hos₉)))))

theorem meets_auth_callback (code state : String) :
    (AuthCall.prog env (.callback code state)).Meets (AuthContract env) reachAuth tid (.callback code state) os t := by
  show (login (AuthReply.session <$> OAuthService.exchangeCodeForToken env.toLoginEnv code state)).Meets _ _ _ _ os t
  rw [map_eq_pure_bind]
  unfold OAuthService.exchangeCodeForToken
  simp only [bind_assoc]
  rw [login_ask_bind]
  refine meets_request_bind quiet_callback fun os₁ t₁ _ _ hkept => ⟨trivial, fun c found hfound => ?_⟩
  have hrow := reachAuth_findSession hfound
  cases found with
  | none => exact meets_login_throw quiet_callback _
  | some session =>
    obtain ⟨rfl, hopened⟩ := hkept.found state session hrow.symm
    have hlast := List.prefix_append os₁ [(⟨tid, .callback code session.state,
      ⟨t₁, .login (.findSession session.state), c⟩⟩ : AuthNote)]
    have hhas : HasFound tid (os₁ ++ [⟨tid, .callback code session.state,
        ⟨t₁, .login (.findSession session.state), c⟩⟩]) session := mem_concat _ ⟨rfl, rfl, hrow.symm⟩
    dsimp only
    rw [bind_assoc]
    refine meets_login_now fun now os₂ t₂ hos₂ hread _ hnow => ?_
    split
    · rename_i hold
      rw [bind_assoc]
      refine meets_deleteSession_bind env tid _ (fun os' t' hos' ht' => ?_) fun os₃ t₃ _ => ?_
      · exact ⟨code, session, rfl, rfl, hopened.mono (hlast.trans (hos₂.trans hos')), .inl (by omega)⟩
      · exact meets_login_throw quiet_callback (.http 401 "Authorization session is invalid or has expired -- restart login")
    · rename_i hlive
      have hclaims : Claims tid (.callback code session.state) code session os₂ :=
        ⟨rfl, hopened.mono (hlast.trans hos₂), hhas.mono hos₂, now, hread, not_lt.mp hlive⟩
      unfold OAuthService.requestToken
      rw [bind_assoc, bind_assoc, login_ask_bind]
      refine meets_request_bind quiet_callback fun os₃ t₃ hos₃ _ _ =>
        ⟨⟨session, hclaims.mono hos₃, rfl, rfl⟩, fun c' reply hreply => ?_⟩
      cases reply with
      | token response =>
        have hgranted : c'.error = none ∧ c'.swiggy = .token response := by
          cases he : c'.error <;> simp_all [reachAuth, reach, answer]
        have hstore := meets_storeToken_of_got env tid
          (reachAuth c' (.login (.requestToken code session.codeVerifier session.redirectUri)) t₃).2
          (hclaims.mono (hos₃.trans (List.prefix_append os₃ _)))
          (mem_concat _ ⟨rfl, rfl, hgranted.1, hgranted.2⟩ : HasGot tid (os₃ ++ [⟨tid, .callback code session.state,
            ⟨t₃, .login (.requestToken code session.codeVerifier session.redirectUri), c'⟩⟩]) code session response)
        rwa [map_eq_pure_bind] at hstore
      | rejected body => exact meets_login_throw quiet_callback _
      | unreachable => exact meets_login_throw quiet_callback _

theorem meets_refused {provided : Option String} {userId : String} (e : Err)
    (h : Unavailable env tid os provided userId) :
    (Prog.throw e : AuthProg AuthReply).Meets (AuthContract env) reachAuth tid (.internalToken provided userId)
      os t := fun _ _ hos _ => h.mono hos

theorem meets_internalToken (provided : Option String) (userId : String) :
    (AuthCall.prog env (.internalToken provided userId)).Meets (AuthContract env) reachAuth tid
      (.internalToken provided userId) os t := by
  by_cases hsecret : provided = some env.INTERNAL_SHARED_SECRET
  · simp only [AuthCall.prog, InternalSecretGuard.canActivate_eq_ok.mpr hsecret, Prog.ofExcept_ok, Prog.ret_bind]
    unfold OAuthService.getDecryptedMcpToken
    rw [bind_assoc]
    refine Prog.Meets.await_bind fun os₁ t₁ _ _ hkept => ⟨trivial, fun c => ?_⟩
    have hkept : Kept os₁ t₁ := hkept
    cases hres : (reachAuth c (.findUser userId) t₁).1 with
    | error e =>
      have herr : c.error ≠ none := by
        intro hnone
        simp [reachAuth, hnone] at hres
      exact meets_refused e (.inr (.inl (mem_concat _ ⟨rfl, rfl, herr⟩)))
    | ok row =>
      have hrow : latest userId os₁ = row := (hkept.users userId).symm.trans (reachAuth_findUser hres).symm
      have hlooked : HasLookedUp tid (os₁ ++ [⟨tid, .internalToken provided userId, ⟨t₁, .findUser userId, c⟩⟩])
          userId row := ⟨os₁, _, List.prefix_refl _, rfl, rfl, hrow⟩
      cases row with
      | none => exact meets_refused _ (.inr (.inr ⟨none, hlooked, by simp⟩))
      | some user =>
        dsimp only
        split
        · rename_i hempty
          exact meets_refused _ (.inr (.inr ⟨some user, hlooked, fun u hu => .inl (Option.some.inj hu ▸ hempty)⟩))
        · simp only [Prog.pure_def, bind_assoc]
          refine meets_now_bind fun now os₂ t₂ hos₂ hread _ _ => ?_
          split
          · rename_i hold
            exact meets_refused _ (.inr (.inr ⟨some user, hlooked.mono hos₂, fun u hu =>
              .inr (.inl ⟨now, hread, Option.some.inj hu ▸ hold⟩)⟩))
          · rename_i hlive
            cases hdec : env.decrypt user.encryptedMcpToken with
            | error e =>
              refine meets_refused e (.inr (.inr ⟨some user, hlooked.mono hos₂, fun u hu => .inr (.inr ?_)⟩))
              intro rawToken hraw
              rw [← Option.some.inj hu, hdec] at hraw
              cases hraw
            | ok rawToken =>
              exact fun os₃ t₃ hos₃ _ => ⟨hsecret, user, hlooked.mono (hos₂.trans hos₃), hdec, now,
                hread.mono hos₃, not_lt.mp hlive⟩
  · cases hguard : InternalSecretGuard.canActivate env provided with
    | error e =>
      simp only [AuthCall.prog, hguard, Prog.ofExcept_error, Prog.throw_bind]
      exact meets_refused e (.inl hsecret)
    | ok u => exact absurd (InternalSecretGuard.canActivate_eq_ok.mp hguard) hsecret

theorem meets_refresh (userId : String) :
    (AuthCall.prog env (.refresh userId)).Meets (AuthContract env) reachAuth tid (.refresh userId) os t := by
  have hq : Quiet env tid (.refresh userId) := fun _ _ _ => trivial
  have hflow (os : List AuthNote) (t : Tables) :
      (do let reply ← login (.reauthenticationRequired <$> OAuthService.startPkceFlow env.toLoginEnv userId)
          return AuthReply.refreshed reply : AuthProg AuthReply).Meets
        (AuthContract env) reachAuth tid (.refresh userId) os t := by
    have hmeets : (login ((fun challenge => AuthReply.refreshed (.reauthenticationRequired challenge)) <$>
        OAuthService.startPkceFlow env.toLoginEnv userId)).Meets (AuthContract env) reachAuth tid
          (.refresh userId) os t :=
      meets_startPkceFlow env tid t hq (.inr rfl) fun _ _ _ h => h
    simp only [login, map_eq_pure_bind, Prog.translate_bind, bind_assoc] at hmeets ⊢
    exact hmeets
  show Prog.Meets _ _ _ _ (AuthReply.refreshed <$> OAuthService.refresh env userId) os t
  rw [map_eq_pure_bind]
  unfold OAuthService.refresh
  rw [bind_assoc]
  refine meets_request_bind hq fun os₁ t₁ _ _ hkept => ⟨trivial, fun c row hres => ?_⟩
  have hrow : latest userId os₁ = row := (hkept.users userId).symm.trans (reachAuth_findUser hres).symm
  have hlooked : HasLookedUp tid (os₁ ++ [⟨tid, .refresh userId, ⟨t₁, .findUser userId, c⟩⟩]) userId row :=
    ⟨os₁, _, List.prefix_refl _, rfl, rfl, hrow⟩
  cases row with
  | none => exact hflow _ _
  | some user =>
    simp only [OAuthService.stillValid, bind_assoc]
    split
    · exact hflow _ _
    · rename_i hfull
      simp only [Prog.pure_def, bind_assoc]
      refine meets_now_bind fun now os₂ t₂ hos₂ hread _ _ => ?_
      by_cases hlong : user.mcpTokenExpiresAt - now > REAUTH_THRESHOLD_MS
      · simp only [hlong, decide_true, Prog.ret_bind]
        exact fun os₃ t₃ hos₃ _ => ⟨user, hlooked.mono (hos₂.trans hos₃), hfull, rfl, now, hread.mono hos₃, hlong⟩
      · simp only [hlong, decide_false, Prog.ret_bind]
        exact hflow _ _

/-- A sweep removes what had expired when it read the clock. -/
theorem meets_sweep : (AuthCall.prog env .sweep).Meets (AuthContract env) reachAuth tid .sweep os t := by
  show Prog.Meets _ _ _ _ ((fun _ => AuthReply.swept) <$> SessionCleanupService.sweep) os t
  rw [map_eq_pure_bind]
  unfold SessionCleanupService.sweep OAuthService.sweepExpiredSessions
  rw [bind_assoc]
  intro os₁ t₁ _ _ _
  refine ⟨trivial, fun c => ?_⟩
  intro os₂ t₂ _ ht₂ _
  refine ⟨ht₂, fun c' => ?_⟩
  cases hres : (reachAuth c' (.login (.sweepExpiredSessions (t₁.clock + c.elapsed))) t₂).1 with
  | ok a => exact fun _ _ _ _ => trivial
  | error e => exact fun _ _ _ _ => trivial

theorem kept_nil (clock : ℤ) : Kept [] ⟨clock, fun _ => none, fun _ => none, []⟩ where
  found _ _ h := by cases h
  kept _ _ h := by simp [WasOpened] at h
  known _ h := by cases h
  gone _ _ h := by cases h
  users _ := rfl

/-- **A request, and a sweep,** meet the contract. -/
theorem meets_prog (call : AuthCall) :
    (AuthCall.prog env call).Meets (AuthContract env) reachAuth tid call os t := by
  cases call with
  | start userId =>
    have hq : Quiet env tid (.start userId) := fun _ _ _ => trivial
    exact meets_startPkceFlow env tid _ hq (.inl rfl) fun _ _ _ h => h
  | callback code state => exact meets_auth_callback code state
  | refresh userId => exact meets_refresh userId
  | internalToken provided userId => exact meets_internalToken provided userId
  | sweep => exact meets_sweep

theorem requests_meets (env : AuthEnv) (calls : List AuthCall) (clock : ℤ) :
    (requests env calls clock).Meets (AuthContract env) reachAuth [] :=
  Pool.Meets.start (kept_nil clock) fun _ call _ => meets_prog call

end Programs

end Gusto.Auth
