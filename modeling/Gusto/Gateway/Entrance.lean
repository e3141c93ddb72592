import Gusto.Gateway.Answers

/-!
# Who comes in at the gateway

auth-service, as it is a part of the whole.

* `authPart`: what it sees of it; it keeps the contract that it keeps by itself;
* `Unforged`: the tokens that are presented have been handed out;
* `refresh_authentic`: a refresh is made for a user who has logged in with Swiggy, by who has the token of that login.
-/

set_option autoImplicit false

namespace Gusto.Gateway

open Effects Auth

/-- auth-service acts for the requests it takes up, and for those of others. -/
def authRole : GatewayCall → Option AuthCall
  | .serve (.start userId) => some (.start userId)
  | .serve (.callback code state) => some (.callback code state)
  | .serve (.refresh userId) => some (.refresh userId)
  | .service call => some call
  | _ => none

def authPart : Part AuthCall GatewayCall GatewayOp.auth reachAuth exec where
  which
    | .auth op => some op
    | _ => none
  role := authRole
  view := GatewayState.tables
  choose c := c.login
  which_eq_some i' i := by cases i' <;> simp
  answers c i s := rfl
  leaves c i s := rfl

section Contract

variable (env : AuthEnv)

/-- An answer is one to what was asked. -/
def Fits : AuthCall → AuthReply → Prop
  | .start _, .challenge _ => True
  | .callback _ _, .session _ => True
  | .refresh _, .refreshed _ => True
  | .internalToken _ _, .token _ => True
  | .sweep, .swept => True
  | _, _ => False

/-- What auth-service has promised of an answer. -/
def AuthPromised (tid : ℕ) (tag : GatewayCall) (reply : AuthReply) (os : List GatewayNote) (s : GatewayState) : Prop :=
  ∃ k, authRole tag = some k ∧ Fits k reply ∧
    (AuthContract env).post tid k (.ok reply) (authPart.history os) (authPart.view s)

/-- Where auth-service answers, it keeps what it has promised. -/
def AnswersKept : Contract GatewayCall GatewayOp Err GatewayReply GatewayState GatewayChoice :=
  authPart.lift (AuthContract env) (fun tid tag op os s =>
    match op with
    | .reply _ (.ok (.auth reply)) => AuthPromised env tid tag reply os s
    | _ => True) fun _ _ _ _ _ => True

end Contract

section Sound

variable {env : AuthEnv}

/-- What is known of the tables lasts. -/
theorem kept_later {os : List AuthNote} {t : Tables} {n : ℤ} (h : Kept os t) (hn : t.clock ≤ n) :
    Kept os { t with clock := n } where
  found := h.found
  kept hdist d hd := (h.kept hdist d hd).imp_right (Or.imp_left fun hold => lt_of_lt_of_le hold hn)
  known := h.known
  gone := h.gone
  users := h.users

theorem authPart_harmless : authPart.Harmless (AuthContract env) := by
  intro os c op s hother hinv
  have htables : (exec c op s).2.tables = { s.tables with clock := (exec c op s).2.tables.clock } :=
    exec_tables fun i hi => by
      subst hi
      cases hother
  refine ⟨?_, exec_clock⟩
  show Kept os (exec c op s).2.tables
  rw [htables]
  exact kept_later hinv exec_clock

theorem answersKept_sound : (AnswersKept env).Sound exec := Part.lift_sound (authContract_sound env) authPart_harmless

end Sound

/-! ### The programs -/

section Programs

variable {decode : String → Option JwtPayload} {env : AuthEnv} {tid : ℕ} {os : List GatewayNote} {s : GatewayState}

theorem fits_prog (call : AuthCall) : (AuthCall.prog env call).Ends fun r => ∀ reply, r = .ok reply → Fits call reply := by
  have hmap {α : Type} {p : AuthProg α} {f : α → AuthReply} (hf : ∀ a, Fits call (f a)) :
      (f <$> p).Ends fun r => ∀ reply, r = .ok reply → Fits call reply := by
    rw [← bind_pure_comp]
    refine Prog.Ends.bind Prog.ends_true (fun a _ reply hr => ?_) fun e _ reply hr => by cases hr
    cases hr
    exact hf a
  have hlogin {α : Type} {p : Login α} {f : α → AuthReply} (hf : ∀ a, Fits call (f a)) :
      (login (f <$> p)).Ends fun r => ∀ reply, r = .ok reply → Fits call reply := by
    rw [← bind_pure_comp, login, Prog.translate_bind]
    refine Prog.Ends.bind Prog.ends_true (fun a _ reply hr => ?_) fun e _ reply hr => by cases hr
    cases hr
    exact hf a
  cases call with
  | start userId => exact hlogin fun _ => trivial
  | callback code state => exact hlogin fun _ => trivial
  | refresh userId => exact hmap fun _ => trivial
  | internalToken provided userId =>
    refine Prog.Ends.bind Prog.ends_true (fun _ _ => ?_) fun e _ reply hr => by cases hr
    exact hmap fun _ => trivial
  | sweep => exact hmap fun _ => trivial

variable (env) in
/-- What a handler that has succeeded has promised for good. -/
def AuthPromise (tid : ℕ) (tag : GatewayCall) (r : Except Err GatewayReply) (os : List GatewayNote) (s : GatewayState) :
    Prop :=
  ∀ os' s', os <+: os' → s.tables.clock ≤ s'.tables.clock → ∀ reply, r = .ok (.auth reply) →
    AuthPromised env tid tag reply os' s'

/-- **A request to auth-service,** in the whole. -/
theorem meets_onAuth {tag : GatewayCall} {call : AuthCall} (hk : authRole tag = some call) :
    (GatewayReply.auth <$> onAuth (AuthCall.prog env call)).Meets ((AnswersKept env).withPost (AuthPromise env)) exec tid
      tag os s := by
  refine Prog.Meets.map (Q := fun tid tag r os s => AuthPromise env tid tag (r.map .auth) os s) ?_ fun _ _ _ h => h
  have hrole : authPart.role tag = some call := hk
  refine Prog.Meets.lift hrole ?_ (((meets_prog call).lasting (authContract_sound env)).and_ends (fits_prog call))
  intro r os s h os' s' hos hs reply hr
  obtain ⟨hpost, hfits⟩ := h
  cases r with
  | ok a =>
    cases hr
    exact ⟨call, hk, hfits reply rfl, hpost _ _ (Part.history_mono hos) hs⟩
  | error e => cases hr

theorem answers_handle (request : AuthRequest) :
    (request.handle decode env).Meets ((AnswersKept env).withPost (AuthPromise env)) exec tid (.serve request) os s := by
  cases request with
  | logout authHeader =>
    refine Prog.Meets.map (Q := fun _ _ _ _ _ => True) ?_ fun r os s _ os' s' _ _ reply hr => ?_
    · exact authPart_harmless.meets (authContract_sound env) (fun _ _ _ _ _ => trivial)
        (Prog.calls_translate fun i => ⟨rfl, fun _ _ _ _ => trivial⟩)
    · cases r <;> cases hr
  | start userId => exact meets_onAuth rfl
  | callback code state => exact meets_onAuth rfl
  | refresh userId => exact meets_onAuth rfl

theorem answers_serve (request : AuthRequest) :
    (request.serve decode env).Meets (AnswersKept env) exec tid (.serve request) os s := by
  unfold AuthRequest.serve
  refine Prog.Meets.await_bind fun os₁ s₁ _ _ _ => ⟨trivial, fun c => ?_⟩
  cases (exec c (.accept request) s₁).1 with
  | error e => exact fun _ _ _ _ => trivial
  | ok id =>
    refine Prog.Meets.attempt_bind (Q := AuthPromise env) (fun _ => le_rfl) ?_ fun outcome os₂ s₂ _ hpromise => ?_
    · refine Prog.Meets.await_bind fun os₂ s₂ _ _ _ => ⟨trivial, fun c => ?_⟩
      cases (exec c (.pipe request) s₂).1 with
      | error e => exact fun os₃ s₃ _ _ os' s' _ _ reply hr => by cases hr
      | ok _ => exact answers_handle request
    · refine authPart_harmless.meets (authContract_sound env) (fun _ _ _ _ _ => trivial)
        ⟨⟨rfl, fun os₃ s₃ hos hs => ?_⟩, fun r => ?_⟩
      · cases outcome with
        | ok reply => cases reply with
          | auth reply => exact hpromise os₃ s₃ hos hs reply rfl
          | loggedOut => trivial
        | error e => trivial
      · cases r <;> cases outcome <;> trivial

theorem serving_keepsAnswers (decode : String → Option JwtPayload) (env : AuthEnv) (calls : List GatewayCall) (clock : ℤ) :
    (serving decode env calls clock).Meets (AnswersKept env) exec [] := by
  refine Pool.Meets.start (kept_nil clock) fun tid call _ => ?_
  cases call with
  | route route =>
    refine authPart_harmless.meets (authContract_sound env) (fun _ _ _ _ _ => trivial) ?_
    refine Prog.Calls.bind (Prog.calls_translate (P := fun op => authPart.which op = none ∧ _) fun i => ?_)
      (fun _ _ h => h) fun user => GatewayRoute.calls_handle ?_ ?_
    · exact ⟨rfl, fun _ _ _ _ => trivial⟩
    · exact fun request => ⟨rfl, fun _ _ _ _ => trivial⟩
    · exact fun id => ⟨rfl, fun _ _ _ _ => trivial⟩
  | serve request => exact answers_serve request
  | service call => exact (meets_onAuth rfl).of_post fun _ _ _ _ => trivial

end Programs

/-! ### Runs -/

/-- The token that a request to the gateway brings. -/
def presented (o : GatewayNote) : Option String :=
  match o.tag with
  | .route route => bearer route.authHeader
  | _ => none

/-- The tokens that are presented and accepted have been handed out before, as the answers to logins. -/
def Unforged (decode : String → Option JwtPayload) (os : List GatewayNote) : Prop :=
  ∀ pre o post, os = pre ++ o :: post → ∀ token p, presented o = some token → decode token = some p →
    ∃ o' ∈ pre, ∃ id session, o'.event.call = .reply id (.ok (.auth (.session session))) ∧ session.token = p

section Runs

variable {decode : String → Option JwtPayload} {env : AuthEnv} {calls : List GatewayCall} {clock : ℤ} {P : GatewayPool}

/-- The user of a token is the one it carries. -/
theorem sub_of_verified {token : String} {n : ℤ} {payload : GustoJwtPayload}
    (h : verifyJwt decode token n = .ok payload) : ∃ p, decode token = some p ∧ p.sub = some payload.sub := by
  unfold verifyJwt jwtVerify at h
  cases hdecode : decode token with
  | none =>
    rw [hdecode] at h
    cases h
  | some p =>
    rw [hdecode] at h
    dsimp only at h
    split at h
    · cases h
    · rename_i sub jti exp hok
      split at hok
      · cases hok
      · cases hok
        cases h
        exact ⟨_, rfl, rfl⟩
    · cases h

/-- A refresh that is taken up was sent by a route whose guard has let its user through. -/
theorem sent_refresh {pre post : List GatewayNote} {id : ℕ} {userId : String}
    (hr : Run (Pool.step exec) anyStep (serving decode env calls clock) P (pre ++ post))
    (h : Sent pre id (.refresh userId)) : ∃ before o after authHeader, pre = before ++ o :: after ∧
      o.tag = .route (.refresh authHeader) ∧ Verified before decode o.tid (.route (.refresh authHeader)) authHeader userId := by
  obtain ⟨i, o, ho, -, hcall, -⟩ := h
  obtain ⟨before, after, rfl⟩ := List.append_of_mem ho
  have hr' : Run (Pool.step exec) anyStep (serving decode env calls clock) P (before ++ o :: (after ++ post)) := by
    simpa using hr
  have hallowed := allowed_of_split hr'
  rw [hcall] at hallowed
  cases htag : o.tag with
  | serve request =>
    rw [htag] at hallowed
    exact hallowed.elim
  | service call =>
    rw [htag] at hallowed
    exact hallowed.elim
  | route route =>
    rw [htag] at hallowed
    cases route with
    | loginStart u => cases hallowed
    | loginCallback code state => cases hallowed
    | refresh authHeader =>
      obtain ⟨u, heq, hverified⟩ := hallowed
      cases heq
      exact ⟨before, o, after, authHeader, rfl, htag, hverified⟩
    | logout authHeader => cases hallowed.1

/-- A session that a login has found was opened by a start or a refresh of its user. -/
theorem opened_by {pre post : List GatewayNote} {d : PendingAuthSession}
    (hr : Run (Pool.step exec) anyStep (serving decode env calls clock) P (pre ++ post))
    (h : WasOpened (authPart.history pre) d) :
    ∃ n ∈ authPart.history pre, opened n = some d ∧ (n.tag = .start d.userId ∨ n.tag = .refresh d.userId) := by
  obtain ⟨n, hn, hopened⟩ := h
  obtain ⟨g, hg, hnote⟩ := Part.mem_history.mp hn
  obtain ⟨hrole, hcall, -⟩ := Part.note_eq_some.mp hnote
  obtain ⟨before, after, rfl⟩ := List.append_of_mem hg
  have hr' : Run (Pool.step exec) anyStep (serving decode env calls clock) P (before ++ g :: (after ++ post)) := by
    simpa using hr
  obtain ⟨-, hpre, -⟩ := Contract.run_at answersKept_sound (serving_keepsAnswers decode env calls clock) hr'
  dsimp only [AnswersKept, Part.lift] at hpre
  rw [hcall, (opened_eq_some.mp hopened).1] at hpre
  obtain ⟨k, hk, hopens⟩ := hpre
  obtain rfl := Option.some.inj (hrole.symm.trans hk)
  exact ⟨n, hn, hopened, hopens.1⟩

/-- An answer with a token is one to a login that Swiggy has granted. -/
theorem session_granted {pre post : List GatewayNote} {o : GatewayNote} {id : ℕ} {session : LoginSession}
    (hr : Run (Pool.step exec) anyStep (serving decode env calls clock) P (pre ++ o :: post))
    (hcall : o.event.call = .reply id (.ok (.auth (.session session)))) :
    session.token.sub = some session.userId ∧ ∃ code d response, o.tag = .serve (.callback code d.state) ∧
      d.userId = session.userId ∧ HasGot o.tid (authPart.history pre) code d response ∧
      ∃ n ∈ authPart.history pre, opened n = some d ∧ (n.tag = .start d.userId ∨ n.tag = .refresh d.userId) := by
  have hallowed := allowed_of_split hr
  obtain ⟨-, hpre, -⟩ := Contract.run_at answersKept_sound (serving_keepsAnswers decode env calls clock) hr
  dsimp only [AnswersKept, Part.lift] at hpre
  rw [hcall] at hpre hallowed
  obtain ⟨k, hk, hfits, hpost⟩ := hpre
  cases k with
  | callback code state =>
    obtain ⟨hsub, before, n, hprefix, -, -, row, -, code', d, response, iv, m, ⟨htag, hopened, -⟩, huser, hgot, -⟩ :=
      hpost
    have hbefore : before <+: authPart.history pre := (List.prefix_append before [n]).trans hprefix
    cases htag
    refine ⟨hsub, code, d, response, ?_, huser, hgot.mono hbefore, opened_by hr (hopened.mono hbefore)⟩
    cases htag : o.tag with
    | route route =>
      rw [htag] at hk
      cases hk
    | service call =>
      rw [htag] at hallowed
      exact hallowed.elim
    | serve request =>
      rw [htag] at hk
      cases request <;> cases hk
      rfl
  | start userId => exact hfits.elim
  | refresh userId => exact hfits.elim
  | internalToken provided userId => exact hfits.elim
  | sweep => exact hfits.elim

/-- **Who comes in.** Where no token is accepted that was not handed out: whatever auth-service does for a refresh that
it has taken up, it does for the user whose token the guard of the gateway has verified and not found revoked; and that
token it had handed out itself, in the answer to a login for whose code Swiggy has given a token, with the verifier of
the session that a start or a refresh of this user had opened. -/
theorem refresh_authentic (decode : String → Option JwtPayload) (env : AuthEnv) (calls : List GatewayCall) (clock : ℤ)
    (P : GatewayPool) (pre post : List GatewayNote) (o : GatewayNote)
    (hr : Run (Pool.step exec) anyStep (serving decode env calls clock) P (pre ++ o :: post))
    (hunforged : Unforged decode pre) (userId : String) (htag : o.tag = .serve (.refresh userId)) (op : AuthOp)
    (hcall : o.event.call = .auth op) :
    ∃ i authHeader token session, bearer authHeader = some token ∧ decode token = some session.token ∧
      session.userId = userId ∧ Verified pre decode i (.route (.refresh authHeader)) authHeader userId ∧
      ∃ before o' after id code d response, pre = before ++ o' :: after ∧
        o'.event.call = .reply id (.ok (.auth (.session session))) ∧ o'.tag = .serve (.callback code d.state) ∧
        d.userId = userId ∧ HasGot o'.tid (authPart.history before) code d response ∧
        ∃ n ∈ authPart.history before, opened n = some d ∧ (n.tag = .start userId ∨ n.tag = .refresh userId) := by
  have hallowed := allowed_of_split hr
  rw [htag, hcall] at hallowed
  obtain ⟨id, hsent⟩ := hallowed
  obtain ⟨b, g, a, authHeader, rfl, hgtag, hverified⟩ := sent_refresh hr hsent
  obtain ⟨token, payload, n, hbearer, hverify, hsub, hread, hlisted⟩ := hverified
  obtain ⟨p, hdecode, hp⟩ := sub_of_verified hverify
  have hpresented : presented g = some token := by
    rw [presented, hgtag]
    exact hbearer
  obtain ⟨o', ho', id', session, hreply, rfl⟩ := hunforged b g a rfl token p hpresented hdecode
  obtain ⟨before, after, rfl⟩ := List.append_of_mem ho'
  have hr' : Run (Pool.step exec) anyStep (serving decode env calls clock) P
      (before ++ o' :: (after ++ g :: a ++ o :: post)) := by simpa using hr
  obtain ⟨hown, code, d, response, htag', huser, hgot, hopened⟩ := session_granted hr' hreply
  have hsame : session.userId = userId := by
    rw [hp, hsub] at hown
    exact (Option.some.inj hown).symm
  have hlater : before ++ o' :: after <+: before ++ o' :: after ++ g :: a := List.prefix_append _ _
  refine ⟨g.tid, authHeader, token, session, hbearer, hdecode, hsame,
    ⟨token, payload, n, hbearer, hverify, hsub, hread.later hlater, hlisted.later hlater⟩,
    before, o', after ++ g :: a, id', code, d, response, by simp, hreply, htag', huser.trans hsame, hgot, ?_⟩
  rwa [huser, hsame] at hopened

/-- Where one token is accepted, and presented only after it was handed out. -/
theorem unforged_of_split {os : List GatewayNote} (k : ℕ) (hbefore : ∀ o ∈ os.take k, presented o = none) {id : ℕ}
    {session : LoginSession} {o' : GatewayNote} (ho' : o' ∈ os.take k)
    (hreply : o'.event.call = .reply id (.ok (.auth (.session session))))
    (hdecode : ∀ token p, decode token = some p → session.token = p) : Unforged decode os := by
  rintro pre o post rfl token p hpresented hp
  have hpre : pre ++ [o] <+: pre ++ o :: post := ⟨post, by simp⟩
  refine ⟨o', ?_, id, session, hreply, hdecode token p hp⟩
  rcases List.prefix_or_prefix_of_prefix hpre (List.take_prefix k _) with hin | hout
  · cases (hbefore o (hin.subset (by simp))).symm.trans hpresented
  · rcases List.prefix_concat_iff.mp hout with heq | hout
    · cases (hbefore o (heq ▸ by simp)).symm.trans hpresented
    · exact hout.subset ho'

end Runs

/-! ### A login and a refresh -/

/-- The token of one login. -/
def loginToken (token : String) : Option JwtPayload :=
  if token = "token" then some (JwtIssuerService.issue 3600 "user" "jti" 0) else none

/-- A start, its callback, and a refresh with the token, all by the gateway. -/
def loginThenRefresh : List GatewayCall :=
  [.route (.loginStart "user"), .serve (.start "user"), .route (.loginCallback "code" "state-1"),
    .serve (.callback "code" "state-1"), .route (.refresh (some "Bearer token")), .serve (.refresh "user")]

def turn (tid : ℕ) : ℕ × GatewayChoice := (tid, {})

def atAuth (choices : List (ℕ × LoginChoice)) : List (ℕ × GatewayChoice) := choices.map fun l => (l.1, { login := l.2 })

def loginThenRefreshChoices : List (ℕ × GatewayChoice) :=
  [0, 1, 1].map turn ++ atAuth (startChoices 1 "state-1") ++ [1, 0, 2].map turn ++ [(3, { id := 1 }), turn 3] ++
    atAuth (callbackChoices 3) ++ [3, 2, 4, 4, 4].map turn ++ [(5, { id := 2 }), turn 5, turn 5]

theorem loginToken_eq_some {token : String} {p : JwtPayload} (h : loginToken token = some p) :
    JwtIssuerService.issue 3600 "user" "jti" 0 = p := by
  unfold loginToken at h
  split at h
  · exact Option.some.inj h
  · cases h

theorem refresh_authentic_login : ∃ P pre o,
    Run (Pool.step exec) anyStep (serving loginToken zeroAuthEnv loginThenRefresh 0) P (pre ++ [o]) ∧
    Unforged loginToken pre ∧ o.event.call = .auth (.findUser "user") ∧
    ∃ (token : String) (session : LoginSession), loginToken token = some session.token ∧ session.userId = "user" := by
  have hr := Run.of_runSteps .nil (show runSteps (Pool.step exec) anyStep loginThenRefreshChoices
    (serving loginToken zeroAuthEnv loginThenRefresh 0) [] = some (_, _ ++ [_]) from rfl)
  obtain ⟨P, pre, o, hr, hunforged, htag, hcall⟩ : ∃ P pre o,
      Run (Pool.step exec) anyStep (serving loginToken zeroAuthEnv loginThenRefresh 0) P (pre ++ [o]) ∧
      Unforged loginToken pre ∧ o.tag = .serve (.refresh "user") ∧ o.event.call = .auth (.findUser "user") :=
    ⟨_, _, _, hr, unforged_of_split 27 (by decide) (List.mem_of_getElem? (i := 26) rfl) rfl
      fun _ _ => loginToken_eq_some, rfl, rfl⟩
  obtain ⟨i, authHeader, token, session, -, hdecode, huser, -⟩ :=
    refresh_authentic loginToken zeroAuthEnv loginThenRefresh 0 P pre [] o hr hunforged "user" htag _ hcall
  exact ⟨P, pre, o, hr, hunforged, hcall, token, session, hdecode, huser⟩

end Gusto.Gateway
