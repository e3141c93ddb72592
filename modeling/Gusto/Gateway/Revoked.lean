import Gusto.Gateway.Answers

/-!
# Logged out at the gateway

The guard of the gateway and the logouts of auth-service, as they are parts of the whole.

* `sessionPart`: what they see of it; they keep the contract that they keep by themselves;
* `logout_everywhere`: after a logout has been answered, the gateway sends nothing more on for that token, but for a
  request whose token runs out while it is being checked.
-/

set_option autoImplicit false

namespace Gusto.Gateway

open Effects Auth

/-- A route acts for its guard, and auth-service for the logouts it takes up. -/
def sessionRole : GatewayCall → Option SessionCall
  | .route (.loginStart _) | .route (.loginCallback _ _) => some (.request true none)
  | .route (.refresh authHeader) | .route (.logout authHeader) => some (.request false authHeader)
  | .serve (.logout authHeader) => some (.logout authHeader)
  | _ => none

def sessionPart : Part SessionCall GatewayCall GatewayOp.session Auth.exec exec where
  which
    | .session op => some op
    | _ => none
  role := sessionRole
  view s := ⟨s.tables.clock, s.blocklist⟩
  choose c := c.session
  which_eq_some i' i := by cases i' <;> simp
  answers c i s := rfl
  leaves c i s := rfl

section Contract

variable (decode : String → Option JwtPayload)

/-- What the part of a thread has promised. -/
def SessionPromised (tid : ℕ) (tag : GatewayCall) (os : List GatewayNote) (s : GatewayState) : Prop :=
  ∀ k, sessionRole tag = some k →
    (SessionContract decode).post tid k (.ok none) (sessionPart.history os) (sessionPart.view s)

/-- Where a route sends, its guard has let it through; where auth-service answers that it is done, it is. -/
def SessionsKept : Contract GatewayCall GatewayOp Err GatewayReply GatewayState GatewayChoice :=
  sessionPart.lift (SessionContract decode) (fun tid tag op os s =>
    match op with
    | .send _ | .reply _ (.ok _) => SessionPromised decode tid tag os s
    | _ => True) fun _ _ _ _ _ => True

end Contract

section Sound

variable {decode : String → Option JwtPayload}

/-- What is sent, and what is done to the tables, takes time. -/
theorem sessionPart_harmless : sessionPart.Harmless (SessionContract decode) := by
  intro os c op s hother hinv
  have hblocklist : (exec c op s).2.blocklist = s.blocklist := exec_blocklist fun i hi => by
    subst hi
    cases hother
  refine ⟨⟨?_, ?_⟩, exec_clock, ?_⟩
  · show ∀ token jti exp e, _ → (exec c op s).2.blocklist _ = _ → _
    rw [hblocklist]
    exact hinv.covers
  · show ∀ jti e, (exec c op s).2.blocklist _ = _ → _
    rw [hblocklist]
    exact hinv.caused
  · show ∀ key, _ → ((exec c op s).2.blocklist key).isSome
    rw [hblocklist]
    exact fun _ => id

theorem sessionsKept_sound (hd : DistinctJti decode) : (SessionsKept decode).Sound exec :=
  Part.lift_sound (sound hd) sessionPart_harmless

end Sound

/-! ### The programs -/

section Programs

variable {decode : String → Option JwtPayload} {env : AuthEnv} {tid : ℕ} {os : List GatewayNote} {s : GatewayState}

theorem meets_session (k : SessionCall) {os : List SessionNote} {s : World} :
    (SessionCall.prog decode k).Meets (SessionContract decode) Auth.exec tid k os s := by
  cases k with
  | logout authHeader => exact meets_logout authHeader
  | request isPublic authHeader => exact meets_request isPublic authHeader

/-- What is promised of a success is the same whatever it returns. -/
theorem post_ok {k : SessionCall} {os : List SessionNote} {s : World} {a b : Option String}
    (h : (SessionContract decode).post tid k (.ok a) os s) : (SessionContract decode).post tid k (.ok b) os s := by
  cases k with
  | logout authHeader => exact h
  | request isPublic authHeader => cases isPublic <;> exact h

variable (decode) in
/-- What a part that has succeeded has promised for good. -/
def SessionPromise {α : Type} (tid : ℕ) (tag : GatewayCall) (r : Except Err α) (os : List GatewayNote)
    (s : GatewayState) : Prop :=
  ∀ os' s', os <+: os' → Later (sessionPart.view s) (sessionPart.view s') → (∃ a, r = .ok a) →
    SessionPromised decode tid tag os' s'

/-- **A guard, or a logout,** in the whole. -/
theorem meets_onSession (hd : DistinctJti decode) {tag : GatewayCall} {k : SessionCall} (hk : sessionRole tag = some k) :
    (onSession (SessionCall.prog decode k)).Meets ((SessionsKept decode).withPost (SessionPromise decode)) exec tid tag
      os s := by
  refine Prog.Meets.lift hk (fun r os s h os' s' hos hs hr k' hk' => ?_) ((meets_session k).lasting (sound hd))
  obtain ⟨a, rfl⟩ := hr
  cases hk.symm.trans hk'
  exact post_ok (h _ _ (Part.history_mono hos) hs)

theorem meets_route (hd : DistinctJti decode) (route : GatewayRoute) :
    (route.prog decode).Meets (SessionsKept decode) exec tid (.route route) os s := by
  obtain ⟨k, hk, hguard⟩ : ∃ k, sessionRole (.route route) = some k ∧ route.guard decode = SessionCall.prog decode k := by
    cases route <;> exact ⟨_, rfl, rfl⟩
  unfold GatewayRoute.prog
  rw [hguard]
  refine Prog.Meets.bind (fun _ => ⟨le_rfl, fun _ => id⟩) (meets_onSession hd hk) (fun user os' s' _ hpromise => ?_)
    fun _ _ _ _ _ _ _ _ => trivial
  refine sessionPart_harmless.meets (sound hd) ?_ (GatewayRoute.calls_handle ?_ ?_)
  · exact fun _ _ _ _ _ => trivial
  · exact fun request => ⟨rfl, fun os'' s'' hos hs => hpromise os'' s'' hos hs ⟨user, rfl⟩⟩
  · exact fun id => ⟨rfl, fun _ _ _ _ => trivial⟩

/-- The handler of a request keeps what it has promised. -/
theorem meets_handle (hd : DistinctJti decode) (request : AuthRequest) :
    (request.handle decode env).Meets ((SessionsKept decode).withPost (SessionPromise decode)) exec tid (.serve request)
      os s := by
  have hother (call : AuthCall) (hnone : sessionRole (.serve request) = none) :
      (GatewayReply.auth <$> onAuth (AuthCall.prog env call)).Meets
        ((SessionsKept decode).withPost (SessionPromise decode)) exec tid (.serve request) os s := by
    refine Prog.Meets.map (Q := SessionPromise decode) ?_ fun r os s h os' s' hos hs hr k hk => ?_
    · refine sessionPart_harmless.meets (sound hd) ?_ (Prog.calls_translate fun i => ?_)
      · exact fun _ _ _ _ _ _ _ _ _ _ k hk => by cases hnone.symm.trans hk
      · exact ⟨rfl, fun _ _ _ _ => trivial⟩
    · cases hnone.symm.trans hk
  cases request with
  | logout authHeader =>
    refine Prog.Meets.map (meets_onSession hd (k := .logout authHeader) rfl) fun r os s h os' s' hos hs hr => ?_
    cases r with
    | ok a => exact h os' s' hos hs ⟨a, rfl⟩
    | error e =>
      obtain ⟨a, ha⟩ := hr
      cases ha
  | start userId => exact hother _ rfl
  | callback code state => exact hother _ rfl
  | refresh userId => exact hother _ rfl

theorem meets_serve (hd : DistinctJti decode) (request : AuthRequest) :
    (request.serve decode env).Meets (SessionsKept decode) exec tid (.serve request) os s := by
  have hrefl (s : GatewayState) : (SessionsKept decode).rely s s := ⟨le_rfl, fun _ => id⟩
  unfold AuthRequest.serve
  refine Prog.Meets.await_bind fun os₁ s₁ _ _ _ => ⟨trivial, fun c => ?_⟩
  cases (exec c (.accept request) s₁).1 with
  | error e => exact fun _ _ _ _ => trivial
  | ok id =>
    refine Prog.Meets.attempt_bind (Q := SessionPromise decode) hrefl ?_ fun outcome os₂ s₂ _ hpromise => ?_
    · refine Prog.Meets.await_bind fun os₂ s₂ _ _ _ => ⟨trivial, fun c => ?_⟩
      cases (exec c (.pipe request) s₂).1 with
      | error e =>
        intro os₃ s₃ _ _ os' s' _ _ hr
        obtain ⟨a, ha⟩ := hr
        cases ha
      | ok _ => exact meets_handle hd request
    · refine sessionPart_harmless.meets (sound hd) (fun _ _ _ _ _ => trivial) ⟨⟨rfl, fun os₃ s₃ hos hs => ?_⟩, fun r => ?_⟩
      · cases outcome with
        | ok reply => exact hpromise os₃ s₃ hos hs ⟨reply, rfl⟩
        | error e => trivial
      · cases r <;> cases outcome <;> trivial

theorem serving_keepsSessions (hd : DistinctJti decode) (calls : List GatewayCall) (clock : ℤ) :
    (serving decode env calls clock).Meets (SessionsKept decode) exec [] := by
  refine Pool.Meets.start ⟨fun _ _ _ _ _ he => (by cases he), fun _ _ he => (by cases he)⟩ fun tid call _ => ?_
  cases call with
  | route route => exact meets_route hd route
  | serve request => exact meets_serve hd request
  | service call =>
    refine Prog.Meets.map (Q := fun _ _ _ _ _ => True) ?_ fun _ _ _ _ => trivial
    exact sessionPart_harmless.meets (sound hd) (fun _ _ _ _ _ => trivial)
      (Prog.calls_translate fun i => ⟨rfl, fun _ _ _ _ => trivial⟩)

end Programs

/-! ### Runs -/

section Runs

variable {decode : String → Option JwtPayload} {env : AuthEnv} {calls : List GatewayCall} {clock : ℤ}

/-- A logout that the gateway has answered is done. -/
theorem barred_of_loggedOut (hd : DistinctJti decode) {P : GatewayPool} {os : List GatewayNote}
    (hr : Run (Pool.step exec) anyStep (serving decode env calls clock) P os) {i : ℕ} {authHeader : Option String}
    (hi : P.threads[i]? = some ⟨.route (.logout authHeader), .ret .loggedOut⟩) {token jti : String} {exp : ℤ}
    (hb : bearer authHeader = some token) (hcarries : Carries decode token jti exp) :
    Barred jti exp (sessionPart.view P.state) := by
  rcases answer_of_result hr hi rfl rfl with ⟨e, he, -⟩ | he | ⟨id, request, outcome, -, ⟨rfl, -⟩, hreplied, hout⟩
  · cases he
  · cases he
  · obtain rfl : outcome = .ok .loggedOut := by
      cases outcome with
      | ok reply => rw [Except.ok.inj hout]
      | error e => cases hout
    obtain ⟨o, ho, htag, hcall⟩ := hreplied
    obtain ⟨before, after, rfl⟩ := List.append_of_mem ho
    obtain ⟨-, hpre, hlater⟩ := Contract.run_at (sessionsKept_sound hd) (serving_keepsSessions hd calls clock) hr
    dsimp only [SessionsKept, Part.lift] at hpre
    rw [hcall, htag] at hpre
    exact Barred.later (hpre (.logout authHeader) rfl token jti exp hb hcarries) hlater

/-- The instant of a command to Redis or of a reading of the clock. -/
def sessionInstant (o : GatewayNote) : ℤ := o.event.pre.tables.clock + o.event.choice.session.elapsed

/-- **Logout, at the gateway.** Once a logout with a token has been answered, the gateway sends on no request with
that token that comes after, unless the token expires after it has been verified and before the blocklist is read. -/
theorem logout_everywhere (hd : DistinctJti decode) (P₁ P₂ : GatewayPool) (os₁ os₂ : List GatewayNote)
    (hr₁ : Run (Pool.step exec) anyStep (serving decode env calls clock) P₁ os₁)
    (hr₂ : Run (Pool.step exec) anyStep P₁ P₂ os₂) (token userId jti : String) (lifetime issuedAt : ℤ)
    (hissued : decode token = some (JwtIssuerService.issue lifetime userId jti issuedAt)) (i : ℕ)
    (logoutHeader : Option String) (hlogout : bearer logoutHeader = some token)
    (hi : P₁.threads[i]? = some ⟨.route (.logout logoutHeader), .ret .loggedOut⟩) (o : GatewayNote) (ho : o ∈ os₂)
    (hnew : ∀ o' ∈ os₁, o'.tid ≠ o.tid) (route : GatewayRoute) (htag : o.tag = .route route)
    (hroute : bearer route.authHeader = some token) (request : AuthRequest) (hsend : o.event.call = .send request) :
    ∃ o₁ ∈ os₂, ∃ o₂ ∈ os₂, o₁.tid = o.tid ∧ o₁.event.call = .session .now ∧
      sessionInstant o₁ < 1000 * (issuedAt / 1000 + lifetime) ∧ o₂.tid = o.tid ∧
      o₂.event.call = .session (.get (BLOCKLIST_KEY_PREFIX ++ jti)) ∧
      1000 * (issuedAt / 1000 + lifetime) ≤ sessionInstant o₂ := by
  have hcarries := carries_issue hissued
  obtain ⟨hmeets₁, -, -⟩ := Contract.run (sessionsKept_sound hd) (serving_keepsSessions hd calls clock) hr₁
  rw [List.nil_append] at hmeets₁
  have hbarred := barred_of_loggedOut hd hr₁ hi hlogout hcarries
  have hlater := (Contract.run (sessionsKept_sound hd) hmeets₁ hr₂).2.2
  obtain ⟨before, after, rfl⟩ := List.append_of_mem ho
  obtain ⟨-, hpre, -⟩ := Contract.run_at (sessionsKept_sound hd) hmeets₁ hr₂
  dsimp only [SessionsKept, Part.lift] at hpre
  rw [hsend, htag] at hpre
  have hadmitted : Admitted o.tid jti (issuedAt / 1000 + lifetime) (sessionPart.history (os₁ ++ before)) := by
    cases route with
    | loginStart userId => cases hroute
    | loginCallback code state => cases hroute
    | refresh authHeader => exact hpre (.request false authHeader) rfl token jti _ hroute hcarries
    | logout authHeader => exact hpre (.request false authHeader) rfl token jti _ hroute hcarries
  have hmine {n : SessionNote} (hn : n ∈ sessionPart.history (os₁ ++ before)) (htid : n.tid = o.tid) :
      ∃ g ∈ before ++ o :: after, g.tid = o.tid ∧ g.event.call = .session n.event.call ∧
        sessionPart.view g.event.pre = n.event.pre ∧ sessionInstant g = instant n := by
    obtain ⟨g, hg, hnote⟩ := Part.mem_history.mp hn
    obtain ⟨-, hcall, hid, hview, hchoice⟩ := Part.note_eq_some.mp hnote
    have hinstant : sessionInstant g = instant n := by
      rw [instant, ← hview, ← hchoice]
      rfl
    rcases List.mem_append.mp hg with hg | hg
    · exact absurd (hid.trans htid) (hnew g hg)
    · exact ⟨g, List.mem_append_left _ hg, hid.trans htid, hcall, hview, hinstant⟩
  obtain ⟨n₁, hn₁, n₂, hn₂, htid₁, hnow, hfresh, htid₂, hget, hgone⟩ := hadmitted
  obtain ⟨o₁, ho₁, hid₁, hcall₁, -, hinstant₁⟩ := hmine hn₁ htid₁
  obtain ⟨o₂, ho₂, hid₂, hcall₂, hview₂, hinstant₂⟩ := hmine hn₂ htid₂
  rw [hnow] at hcall₁
  rw [hget] at hcall₂
  refine ⟨o₁, ho₁, o₂, ho₂, hid₁, hcall₁, hinstant₁ ▸ hfresh, hid₂, hcall₂, ?_⟩
  rw [hinstant₂]
  rcases hbarred.later (hlater o₂ ho₂) with hpast | hlisted
  · rw [hview₂] at hpast
    unfold instant
    omega
  · rw [hview₂] at hlisted
    exact hgone hlisted

end Runs

/-! ### With the time to send -/

/-- A logout, which auth-service takes up; and a refresh with the same token. -/
def logoutThenRefresh : GatewayPool :=
  serving oneToken zeroAuthEnv [.route (.logout (some "Bearer token-1")), .serve (.logout (some "Bearer token-1")),
    .route (.refresh (some "Bearer token-1"))] 0

def logoutChoices : List (ℕ × GatewayChoice) :=
  [(0, {}), (0, {}), (0, {}), (1, {}), (1, {}), (1, {}), (1, {}), (1, {}), (1, {}), (0, {})]

/-- The same once the logout has been answered. -/
def answered : GatewayPool × List GatewayNote :=
  (runSteps (Pool.step exec) anyStep logoutChoices logoutThenRefresh []).getD (logoutThenRefresh, [])

/-- The refresh verifies the token in its last millisecond, and reads the blocklist in the next. -/
theorem logout_everywhere_lastMoment : ∃ P₂ os₂ o, Run (Pool.step exec) anyStep logoutThenRefresh answered.1 answered.2 ∧
    Run (Pool.step exec) anyStep answered.1 P₂ os₂ ∧ o ∈ os₂ ∧ o.event.call = .send (.refresh "user-1") ∧
    ∃ o₂ ∈ os₂, o₂.event.call = .session (.get (BLOCKLIST_KEY_PREFIX ++ "jti-1")) ∧ 3600000 ≤ sessionInstant o₂ := by
  have hr₁ := Run.of_runSteps .nil (show runSteps (Pool.step exec) anyStep logoutChoices logoutThenRefresh [] =
    some (answered.1, answered.2) from rfl)
  have hr₂ := Run.of_runSteps .nil (show runSteps (Pool.step exec) anyStep
    [(2, { session := { elapsed := 3599999 } }), (2, { session := { elapsed := 1 } }), (2, {})] answered.1 [] =
    some (_, [_, _, _]) from rfl)
  obtain ⟨-, -, o₂, ho₂, -, -, -, -, hget, hlate⟩ := logout_everywhere distinctJti_oneToken _ _ _ _ hr₁ hr₂ "token-1"
    "user-1" "jti-1" 3600 0 rfl 0 (some "Bearer token-1") rfl rfl _ (List.mem_of_getElem? (i := 2) rfl) (by decide)
    (.refresh (some "Bearer token-1")) rfl rfl (.refresh "user-1") rfl
  exact ⟨_, _, _, hr₁, hr₂, List.mem_of_getElem? (i := 2) rfl, rfl, o₂, ho₂, hget, hlate⟩

end Gusto.Gateway
