import Gusto.Auth.Session

/-!
# Logout

Any logouts and requests, their calls interleaved.

* `SessionContract`: an entry of the blocklist lives at least until the token has expired, and is there
  because of a logout of that token;
* `logout_final`: after a logout a request gets through only if its token is verified before, and its
  blocklist is read after, the token expires; and no other token is refused;
* `not_logoutFinal`: such a request.
-/

set_option autoImplicit false

namespace Gusto.Auth

open Effects Expiring

abbrev SessionPool : Type := Pool SessionCall SessionOp SessionOp.Answer Err (Option String) World
abbrev SessionThread : Type := Thread SessionCall SessionOp SessionOp.Answer Err (Option String)
abbrev SessionNote : Type := Note SessionCall World SessionOp SessionChoice

/-- When a call was served. -/
def instant (o : SessionNote) : ℤ := o.event.pre.clock + o.event.choice.elapsed

/-- A thread for each of `calls`, over an empty blocklist. -/
def sessions (decode : String → Option JwtPayload) (calls : List SessionCall) (clock : ℤ) : SessionPool :=
  Pool.start (SessionCall.prog decode) calls ⟨clock, Store.empty⟩

section Tokens

variable (decode : String → Option JwtPayload)

/-- The tokens that have been signed each have a `jti` of their own. -/
def DistinctJti : Prop :=
  ∀ token token' p p' jti, decode token = some p → decode token' = some p' → p.jti = some jti →
    p'.jti = some jti → p = p'

/-- A token with a right signature, its `jti` and its expiry. -/
def Carries (token jti : String) (exp : ℤ) : Prop :=
  ∃ p, decode token = some p ∧ p.jti = some jti ∧ p.exp = some exp

/-- A token with this `jti` has been handed to a logout. -/
def LoggedOut (os : List SessionNote) (jti : String) : Prop :=
  ∃ o ∈ os, ∃ header token p, o.tag = .logout header ∧ bearer header = some token ∧
    decode token = some p ∧ p.jti = some jti

variable {decode}

theorem Carries.unique (hd : DistinctJti decode) {token token' jti : String} {exp exp' : ℤ}
    (h : Carries decode token jti exp) (h' : Carries decode token' jti exp') : exp = exp' := by
  obtain ⟨p, hp, hj, hx⟩ := h
  obtain ⟨p', hp', hj', hx'⟩ := h'
  have heq := hd token token' p p' jti hp hp' hj hj'
  rw [heq, hx'] at hx
  exact (Option.some.inj hx).symm

theorem Carries.same {token jti jti' : String} {exp exp' : ℤ} (h : Carries decode token jti exp)
    (h' : Carries decode token jti' exp') : jti = jti' ∧ exp = exp' := by
  obtain ⟨p, hp, hj, hx⟩ := h
  obtain ⟨p', hp', hj', hx'⟩ := h'
  obtain rfl := Option.some.inj (hp.symm.trans hp')
  exact ⟨Option.some.inj (hj.symm.trans hj'), Option.some.inj (hx.symm.trans hx')⟩

theorem LoggedOut.mono {os os' : List SessionNote} {jti : String} (h : LoggedOut decode os jti)
    (hos : os <+: os') : LoggedOut decode os' jti := by
  obtain ⟨o, ho, hrest⟩ := h
  exact ⟨o, hos.subset ho, hrest⟩

theorem carries_issue {token userId jti : String} {lifetime issuedAt : ℤ}
    (h : decode token = some (JwtIssuerService.issue lifetime userId jti issuedAt)) :
    Carries decode token jti (issuedAt / 1000 + lifetime) := ⟨_, h, rfl, rfl⟩

end Tokens

/-! ### What a call does -/

section Exec

variable {c : SessionChoice} {op : SessionOp} {s : World}

theorem exec_clock : (exec c op s).2.clock = s.clock + c.elapsed := by
  cases op <;> cases he : c.error <;> cases hs : c.served <;> simp [exec, he, hs, serve, World.after]

variable (c op s) in
/-- A call leaves the blocklist as it is, or puts one entry there. -/
theorem exec_blocklist : (exec c op s).2.blocklist = s.blocklist ∨ ∃ key seconds value,
    op = .setex key seconds value ∧ (exec c op s).2.blocklist =
      s.blocklist.put key value (some (s.clock + c.elapsed + seconds * 1000)) := by
  cases op with
  | now => exact .inl rfl
  | get key =>
    refine .inl ?_
    cases he : c.error <;> cases hs : c.served <;> simp [exec, he, hs, serve, World.after]
  | setex key seconds value =>
    cases he : c.error with
    | none => exact .inr ⟨key, seconds, value, rfl, by simp [exec, he, serve, World.after]⟩
    | some message =>
      cases hs : c.served with
      | false => exact .inl (by simp [exec, he, hs, World.after])
      | true => exact .inr ⟨key, seconds, value, rfl, by simp [exec, he, hs, serve, World.after]⟩

end Exec

/-! ### The contract -/

section Contract

variable (decode : String → Option JwtPayload)

/-- What is known of the blocklist. -/
structure Listed (os : List SessionNote) (s : World) : Prop where
  /-- An entry outlives its token. -/
  covers : ∀ token jti exp e, Carries decode token jti exp →
    s.blocklist (BLOCKLIST_KEY_PREFIX ++ jti) = some e → ∃ d, e.deadline = some d ∧ 1000 * exp ≤ d
  /-- An entry comes of a logout. -/
  caused : ∀ jti e, s.blocklist (BLOCKLIST_KEY_PREFIX ++ jti) = some e → LoggedOut decode os jti

/-- Time goes on, and no entry is removed. -/
def Later (s s' : World) : Prop :=
  s.clock ≤ s'.clock ∧ ∀ key, (s.blocklist key).isSome → (s'.blocklist key).isSome

/-- The token is past its expiry, or on the blocklist. -/
def Barred (jti : String) (exp : ℤ) (s : World) : Prop :=
  1000 * exp ≤ s.clock ∨ (s.blocklist (BLOCKLIST_KEY_PREFIX ++ jti)).isSome

/-- Before a `SETEX`: it is that of a logout, which has read the clock at `n`. -/
def Revokes (tag : SessionCall) (key : String) (seconds : ℤ) (s : World) : Prop :=
  ∃ header token jti exp n, tag = .logout header ∧ bearer header = some token ∧
    Carries decode token jti exp ∧ key = BLOCKLIST_KEY_PREFIX ++ jti ∧ n ≤ s.clock ∧
    seconds = exp - n / 1000

/-- A request got through: it verified its token before the expiry, and found no entry. -/
def Admitted (tid : ℕ) (jti : String) (exp : ℤ) (os : List SessionNote) : Prop :=
  ∃ o₁ ∈ os, ∃ o₂ ∈ os, o₁.tid = tid ∧ o₁.event.call = .now ∧ instant o₁ < 1000 * exp ∧
    o₂.tid = tid ∧ o₂.event.call = .get (BLOCKLIST_KEY_PREFIX ++ jti) ∧
    ((o₂.event.pre.blocklist (BLOCKLIST_KEY_PREFIX ++ jti)).isSome → 1000 * exp ≤ instant o₂)

/-- A request was refused: its token had expired, or had been handed to a logout. -/
def Refused (tid : ℕ) (jti : String) (exp : ℤ) (os : List SessionNote) : Prop :=
  (∃ o ∈ os, o.tid = tid ∧ o.event.call = .now ∧ 1000 * exp ≤ instant o) ∨ LoggedOut decode os jti

/-- What each call of a logout or of a guard asks for, and what it promises at its end. -/
def SessionContract : Contract SessionCall SessionOp Err (Option String) World SessionChoice where
  inv := Listed decode
  rely := Later
  pre _ tag op _ s :=
    match op with
    | .setex key seconds _ => Revokes decode tag key seconds s
    | _ => True
  post tid tag r os s :=
    match tag, r with
    | .logout header, .ok _ => ∀ token jti exp, bearer header = some token →
        Carries decode token jti exp → Barred jti exp s
    | .request false header, .ok _ => ∀ token jti exp, bearer header = some token →
        Carries decode token jti exp → Admitted tid jti exp os
    | .request false header, .error (.http _ _) => ∀ token userId jti lifetime issuedAt,
        bearer header = some token →
        decode token = some (JwtIssuerService.issue lifetime userId jti issuedAt) →
        Refused decode tid jti (issuedAt / 1000 + lifetime) os
    | _, _ => True

variable {decode}

theorem Later.trans {s s' s'' : World} (h : Later s s') (h' : Later s' s'') : Later s s'' :=
  ⟨h.1.trans h'.1, fun key hk => h'.2 key (h.2 key hk)⟩

theorem Barred.later {jti : String} {exp : ℤ} {s s' : World} (h : Barred jti exp s) (hs : Later s s') :
    Barred jti exp s' := h.imp (fun hx => hx.trans hs.1) (hs.2 _)

/-- An entry that is put there by a logout outlives its token. -/
theorem Listed.step (hd : DistinctJti decode) {os : List SessionNote} {s : World} {tid : ℕ}
    {tag : SessionCall} {op : SessionOp} {c : SessionChoice} (h : Listed decode os s)
    (hpre : (SessionContract decode).pre tid tag op os s) :
    Listed decode (os ++ [⟨tid, tag, ⟨s, op, c⟩⟩]) (exec c op s).2 ∧ Later s (exec c op s).2 := by
  have hclock : s.clock ≤ (exec c op s).2.clock := by
    rw [exec_clock]
    omega
  rcases exec_blocklist c op s with hsame | ⟨key, seconds, value, rfl, hput⟩
  · refine ⟨⟨?_, ?_⟩, hclock, ?_⟩
    · rw [hsame]
      exact h.covers
    · rw [hsame]
      exact fun jti e he => (h.caused jti e he).mono (List.prefix_append os _)
    · rw [hsame]
      exact fun _ => id
  · obtain ⟨header, token, jti, exp, n, htag, hbearer, hcarries, rfl, hn, hseconds⟩ := hpre
    refine ⟨⟨?_, ?_⟩, hclock, ?_⟩
    · intro token' jti' exp' e hcarries' he
      rw [hput] at he
      by_cases hjti : jti' = jti
      · subst hjti
        obtain rfl := hcarries.unique hd hcarries'
        rw [Store.put_self, Option.some.injEq] at he
        exact ⟨_, by rw [← he], by omega⟩
      · rw [Store.put_of_ne fun hkey => hjti ((String.append_right_inj _).mp hkey)] at he
        exact h.covers token' jti' exp' e hcarries' he
    · intro jti' e he
      rw [hput] at he
      by_cases hjti : jti' = jti
      · subst hjti
        obtain ⟨p, hp, hj, -⟩ := hcarries
        exact ⟨_, List.mem_append_right _ (List.mem_singleton_self _), header, token, p, htag, hbearer, hp, hj⟩
      · rw [Store.put_of_ne fun hkey => hjti ((String.append_right_inj _).mp hkey)] at he
        exact (h.caused jti' e he).mono (List.prefix_append os _)
    · intro key hkey
      rw [hput]
      by_cases hk : key = BLOCKLIST_KEY_PREFIX ++ jti
      · rw [hk, Store.put_self]
        rfl
      · rwa [Store.put_of_ne hk]

theorem sound (hd : DistinctJti decode) : (SessionContract decode).Sound exec where
  refl _ := ⟨le_rfl, fun _ => id⟩
  trans _ _ _ h h' := h.trans h'
  step _ _ _ _ _ _ h hpre := h.step hd hpre

end Contract

/-! ### The programs -/

section Programs

variable {decode : String → Option JwtPayload} {tid : ℕ} {os : List SessionNote} {s : World}

/-- What `verifyWithExpiry` has accepted. -/
theorem carries_of_verified {token : String} {now : ℤ} {verified : VerifiedToken}
    (h : JwtIssuerService.verifyWithExpiry decode token now = .ok verified) :
    Carries decode token verified.jti verified.exp := by
  unfold JwtIssuerService.verifyWithExpiry jwtVerify at h
  cases hdec : decode token with
  | none => simp [hdec] at h
  | some p =>
    rw [hdec] at h
    dsimp only at h
    split at h
    · cases h
    · rename_i sub jti exp hok
      split at hok
      · cases hok
      · cases hok
        cases h
        exact ⟨_, hdec, rfl, rfl⟩
    · cases h

theorem meets_logout (header : Option String) :
    (SessionCall.prog decode (.logout header)).Meets (SessionContract decode) exec tid
      (.logout header) os s := by
  show Prog.Meets _ _ _ _ (OAuthController.logout decode header >>= fun _ => pure none) os s
  unfold OAuthController.logout
  cases hb : bearer header with
  | none => exact fun _ _ _ _ => trivial
  | some token =>
    show Prog.Meets _ _ _ _ (OAuthService.logout decode token >>= fun _ => pure none) os s
    unfold OAuthService.logout call
    rw [bind_assoc]
    refine Prog.Meets.await_bind fun os₁ s₁ _ _ _ => ⟨trivial, fun c => ?_⟩
    dsimp only [exec, serve, World.after]
    cases hv : JwtIssuerService.verifyWithExpiry decode token (s₁.clock + c.elapsed) with
    | error e => exact fun _ _ _ _ => trivial
    | ok verified =>
      have hcarries := carries_of_verified hv
      rw [bind_assoc]
      refine Prog.Meets.await_bind fun os₂ s₂ _ _ _ => ⟨trivial, fun c' => ?_⟩
      dsimp only [exec, serve, World.after]
      unfold TokenBlocklistService.revoke
      split
      -- the time is up already, so there is nothing to put on the blocklist
      · rename_i httl
        intro os₃ s₃ _ hs₃ token' jti exp hb' hcarries'
        obtain rfl : token = token' := Option.some.inj (hb.symm.trans hb')
        obtain ⟨rfl, rfl⟩ := hcarries.same hcarries'
        have hclock : s₂.clock + c'.elapsed ≤ s₃.clock := hs₃.1
        exact .inl (by omega)
      · refine Prog.Meets.await_bind fun os₃ s₃ _ hs₃ _ => ⟨?_, fun c'' => ?_⟩
        · exact ⟨header, token, verified.jti, verified.exp, s₂.clock + c'.elapsed, rfl, hb, hcarries, rfl,
            hs₃.1, rfl⟩
        · cases he : c''.error with
          | some message =>
            simp only [exec, he]
            exact fun _ _ _ _ => trivial
          | none =>
            simp only [exec, he, serve]
            intro os₄ s₄ _ hs₄ token' jti exp hb' hcarries'
            obtain rfl : token = token' := Option.some.inj (hb.symm.trans hb')
            obtain ⟨rfl, rfl⟩ := hcarries.same hcarries'
            exact .inr (hs₄.2 _ (by simp))

/-- What `verifyJwt` makes of a token that `JwtIssuerService` has issued. -/
theorem verifyJwt_issue {token userId jti : String} {lifetime issuedAt now : ℤ}
    (h : decode token = some (JwtIssuerService.issue lifetime userId jti issuedAt)) :
    verifyJwt decode token now =
      if issuedAt / 1000 + lifetime ≤ now / 1000 then .error (.error "jwt expired") else .ok ⟨userId, jti⟩ := by
  unfold verifyJwt jwtVerify
  rw [h]
  by_cases hx : issuedAt / 1000 + lifetime ≤ now / 1000 <;>
    simp [JwtPayload.expired, JwtIssuerService.issue, hx]

/-- What `verifyJwt` has accepted. -/
theorem verifyJwt_eq_ok {token : String} {now : ℤ} {payload : GustoJwtPayload}
    (h : verifyJwt decode token now = .ok payload) :
    ∃ p, decode token = some p ∧ p.jti = some payload.jti ∧ p.expired now = false := by
  unfold verifyJwt jwtVerify at h
  cases hdec : decode token with
  | none => simp [hdec] at h
  | some p =>
    rw [hdec] at h
    dsimp only at h
    by_cases hx : p.expired now = true
    · simp [hx] at h
    · rw [if_neg hx] at h
      split at h
      · cases h
      · rename_i hok
        cases hok
        cases h
        exact ⟨_, rfl, rfl, by simpa using hx⟩
      · cases h

/-- The read of the blocklist, once the token has been verified. -/
theorem meets_isRevoked {header : Option String} {token : String} {payload : GustoJwtPayload} {o : SessionNote}
    (hb : bearer header = some token) (hv : verifyJwt decode token (instant o) = .ok payload) (ho : o ∈ os)
    (htid : o.tid = tid) (hnow : o.event.call = .now) :
    (do
      let revoked ← TokenBlocklistService.isRevoked payload.jti
      if revoked then do
        throw (.http 401 "Token has been revoked")
        pure (some payload.sub)
      else pure (some payload.sub) : Session (Option String)).Meets (SessionContract decode) exec tid
        (.request false header) os s := by
  obtain ⟨p, hp, hj, hfresh⟩ := verifyJwt_eq_ok hv
  unfold TokenBlocklistService.isRevoked call
  rw [bind_assoc]
  refine Prog.Meets.await_bind fun os₁ s₁ hos₁ _ hinv₁ => ⟨trivial, fun c => ?_⟩
  cases he : c.error with
  | some message =>
    simp only [exec, he]
    exact fun _ _ _ _ => trivial
  | none =>
    simp only [exec, he, serve]
    cases hget : (s₁.after c.elapsed).blocklist.get (s₁.after c.elapsed).clock
        (BLOCKLIST_KEY_PREFIX ++ payload.jti) with
    | some value =>
      intro os₂ s₂ hos₂ _ token' userId jti lifetime issuedAt hb' hdec
      obtain rfl : token = token' := Option.some.inj (hb.symm.trans hb')
      obtain ⟨e, hentry, -, -⟩ := Store.get_eq_some.mp hget
      obtain rfl := Option.some.inj (hp.symm.trans hdec)
      obtain rfl : jti = payload.jti := Option.some.inj hj
      exact .inr ((hinv₁.caused payload.jti e hentry).mono ((List.prefix_append _ _).trans hos₂))
    | none =>
      intro os₂ s₂ hos₂ _ token' jti exp hb' hcarries
      obtain rfl : token = token' := Option.some.inj (hb.symm.trans hb')
      obtain ⟨p', hp', hj', hx'⟩ := id hcarries
      obtain rfl := Option.some.inj (hp.symm.trans hp')
      obtain rfl : payload.jti = jti := Option.some.inj (hj.symm.trans hj')
      refine ⟨o, hos₂.subset (List.mem_append_left _ (hos₁.subset ho)), _,
        hos₂.subset (List.mem_append_right _ (List.mem_singleton_self _)), htid, hnow, ?_, rfl, rfl, ?_⟩
      · simp only [JwtPayload.expired, hx', decide_eq_false_iff_not] at hfresh
        omega
      · intro hsome
        obtain ⟨e, hentry⟩ := Option.isSome_iff_exists.mp hsome
        obtain ⟨d, hd, hcover⟩ := hinv₁.covers token payload.jti exp e hcarries hentry
        obtain ⟨t, ht, hpast⟩ := Store.gone_of_get_eq_none hentry hget
        obtain rfl := Option.some.inj (hd.symm.trans ht)
        exact hcover.trans hpast

theorem meets_request (isPublic : Bool) (header : Option String) :
    (SessionCall.prog decode (.request isPublic header)).Meets (SessionContract decode) exec tid
      (.request isPublic header) os s := by
  show Prog.Meets _ _ _ _ (JwtAuthGuard.canActivate decode isPublic header) os s
  unfold JwtAuthGuard.canActivate
  cases isPublic with
  | true => exact fun _ _ _ _ => trivial
  | false =>
    cases hb : bearer header with
    | none =>
      intro os' s' _ _ token userId jti lifetime issuedAt hb'
      rw [hb] at hb'
      cases hb'
    | some token =>
      unfold call
      refine Prog.Meets.await_bind fun os₁ s₁ _ _ _ => ⟨trivial, fun c => ?_⟩
      dsimp only [exec, serve, World.after]
      cases hv : verifyJwt decode token (s₁.clock + c.elapsed) with
      | error e =>
        intro os₂ s₂ hos₂ _ token' userId jti lifetime issuedAt hb' hdec
        obtain rfl : token = token' := Option.some.inj (hb.symm.trans hb')
        rw [verifyJwt_issue hdec] at hv
        split at hv
        · refine .inl ⟨_, hos₂.subset (List.mem_append_right _ (List.mem_singleton_self _)), rfl, rfl, ?_⟩
          show 1000 * (issuedAt / 1000 + lifetime) ≤ s₁.clock + c.elapsed
          omega
        · cases hv
      | ok payload =>
        exact meets_isRevoked (o := ⟨tid, .request false header, ⟨s₁, .now, c⟩⟩) hb hv
          (List.mem_append_right os₁ (List.mem_singleton_self _)) rfl rfl

end Programs

/-! ### Runs -/

section Runs

variable {decode : String → Option JwtPayload} {calls : List SessionCall} {clock : ℤ}

theorem sessions_meets : (sessions decode calls clock).Meets (SessionContract decode) exec [] := by
  refine Pool.Meets.start ⟨fun _ _ _ _ _ he => by simp [Store.empty] at he,
    fun _ _ he => by simp [Store.empty] at he⟩ fun tid c _ => ?_
  cases c with
  | logout header => exact meets_logout header
  | request isPublic header => exact meets_request isPublic header

/-- After a logout the token is past its expiry, or on the blocklist. -/
theorem barred_of_logout {P : SessionPool} {os : List SessionNote} (h : P.Meets (SessionContract decode) exec os)
    (hd : DistinctJti decode) {i : ℕ} {header : Option String} {token jti : String} {exp : ℤ}
    (hb : bearer header = some token) (hcarries : Carries decode token jti exp)
    (hthread : P.threads[i]? = some (⟨.logout header, .ret none⟩ : SessionThread)) : Barred jti exp P.state :=
  (h.2 i _ hthread).of_ret (sound hd) token jti exp hb hcarries

/-- **Logout.** A later request with the same token gets through only if the token expires after it has
been verified and before the blocklist is read; and a token that has not expired is refused only if it
has been handed to a logout. -/
theorem logout_final (hd : DistinctJti decode) {P₁ P₂ : SessionPool} {os₁ os₂ : List SessionNote}
    (hr₁ : Run (Pool.step exec) anyStep (sessions decode calls clock) P₁ os₁)
    (hr₂ : Run (Pool.step exec) anyStep P₁ P₂ os₂) {token userId jti : String} {lifetime issuedAt : ℤ}
    (hissued : decode token = some (JwtIssuerService.issue lifetime userId jti issuedAt))
    (j : ℕ) (requestHeader : Option String) (hrequest : bearer requestHeader = some token) :
    (∀ (i : ℕ) logoutHeader user, bearer logoutHeader = some token →
      P₁.threads[i]? = some (⟨.logout logoutHeader, .ret none⟩ : SessionThread) → (∀ o ∈ os₁, o.tid ≠ j) →
      P₂.threads[j]? = some (⟨.request false requestHeader, .ret user⟩ : SessionThread) →
      ∃ o₁ ∈ os₂, ∃ o₂ ∈ os₂, o₁.tid = j ∧ o₁.event.call = .now ∧
        instant o₁ < 1000 * (issuedAt / 1000 + lifetime) ∧ o₂.tid = j ∧
        o₂.event.call = .get (BLOCKLIST_KEY_PREFIX ++ jti) ∧
        1000 * (issuedAt / 1000 + lifetime) ≤ instant o₂) ∧
    (∀ status message,
      P₂.threads[j]? = some (⟨.request false requestHeader, .throw (.http status message)⟩ : SessionThread) →
      (∃ o ∈ os₁ ++ os₂, o.tid = j ∧ o.event.call = .now ∧
        1000 * (issuedAt / 1000 + lifetime) ≤ instant o) ∨
      LoggedOut decode (os₁ ++ os₂) jti) := by
  have hcarries := carries_issue hissued
  obtain ⟨hmeets₁, -, -⟩ := Contract.run (sound hd) sessions_meets hr₁
  obtain ⟨hmeets₂, -, hlater⟩ := Contract.run (sound hd) hmeets₁ hr₂
  rw [List.nil_append] at hmeets₁ hmeets₂
  refine ⟨fun i logoutHeader user hlogout hi hnone hj => ?_, fun status message hj => ?_⟩
  · have hbarred := barred_of_logout hmeets₁ hd hlogout hcarries hi
    have hpost := (hmeets₂.2 j _ hj).of_ret (sound hd)
    obtain ⟨o₁, ho₁, o₂, ho₂, hid₁, hnow, hfresh, hid₂, hget, hgone⟩ := hpost token jti _ hrequest hcarries
    have hmine : ∀ o ∈ os₁ ++ os₂, o.tid = j → o ∈ os₂ := fun o ho hid =>
      (List.mem_append.mp ho).resolve_left fun ho' => hnone o ho' hid
    refine ⟨o₁, hmine o₁ ho₁ hid₁, o₂, hmine o₂ ho₂ hid₂, hid₁, hnow, hfresh, hid₂, hget, ?_⟩
    rcases hbarred.later (hlater o₂ (hmine o₂ ho₂ hid₂)) with hpast | hlisted
    · unfold instant
      omega
    · exact hgone hlisted
  · exact (hmeets₂.2 j _ hj) _ _ (List.prefix_refl _) ⟨le_rfl, fun _ => id⟩ token userId jti lifetime
      issuedAt hrequest hissued

end Runs

/-! ### With and without the time to read -/

/-- One token, issued at the instant 0 for an hour. -/
def oneToken (token : String) : Option JwtPayload :=
  if token = "token-1" then some (JwtIssuerService.issue 3600 "user-1" "jti-1" 0) else none

theorem distinctJti_oneToken : DistinctJti oneToken := by
  intro token token' p p' jti hp hp' _ _
  unfold oneToken at hp hp'
  split at hp
  · split at hp'
    · rw [← Option.some.inj hp, ← Option.some.inj hp']
    · cases hp'
  · cases hp

/-- A logout and a request with that token. -/
def logoutThenRequest : SessionPool :=
  sessions oneToken [.logout (some "Bearer token-1"), .request false (some "Bearer token-1")] 0

/-- The same once the logout has returned. -/
def loggedOut : SessionPool :=
  ⟨[⟨.logout (some "Bearer token-1"), .ret none⟩, ⟨.request false (some "Bearer token-1"),
      SessionCall.prog oneToken (.request false (some "Bearer token-1"))⟩],
    ⟨0, Store.empty.put (BLOCKLIST_KEY_PREFIX ++ "jti-1") "1" (some (0 + 3600 * 1000))⟩⟩

/-- The request comes a minute after the logout. -/
theorem logout_final_minuteLater : ∃ P₁ os₁ P₂ os₂,
    Run (Pool.step exec) anyStep logoutThenRequest P₁ os₁ ∧ Run (Pool.step exec) anyStep P₁ P₂ os₂ ∧
    P₁.threads[0]? = some (⟨.logout (some "Bearer token-1"), .ret none⟩ : SessionThread) ∧
    P₂.threads[1]? = some (⟨.request false (some "Bearer token-1"),
      .throw (.http 401 "Token has been revoked")⟩ : SessionThread) ∧
    ((∃ o ∈ os₁ ++ os₂, o.tid = 1 ∧ o.event.call = .now ∧ 1000 * (0 / 1000 + 3600) ≤ instant o) ∨
      LoggedOut oneToken (os₁ ++ os₂) "jti-1") := by
  have hr₁ := Run.of_runSteps .nil (show runSteps (Pool.step exec) anyStep
    [(0, {}), (0, {}), (0, {})] logoutThenRequest [] = some (loggedOut, _) from rfl)
  have hr₂ := Run.of_runSteps .nil (show runSteps (Pool.step exec) anyStep
    [(1, { elapsed := 60000 }), (1, {})] loggedOut [] = some (_, _) from rfl)
  exact ⟨_, _, _, _, hr₁, hr₂, rfl, rfl, (logout_final distinctJti_oneToken hr₁ hr₂ rfl 1
    (some "Bearer token-1") rfl).2 401 "Token has been revoked" rfl⟩

/-- The request verifies the token in its last millisecond, and reads the blocklist in the next. -/
theorem not_logoutFinal : ¬ ∀ (decode : String → Option JwtPayload) (calls : List SessionCall) (clock : ℤ)
    (P₁ P₂ : SessionPool) (os₁ os₂ : List SessionNote), DistinctJti decode →
    Run (Pool.step exec) anyStep (sessions decode calls clock) P₁ os₁ →
    Run (Pool.step exec) anyStep P₁ P₂ os₂ →
    ∀ (token userId jti : String) (lifetime issuedAt : ℤ),
      decode token = some (JwtIssuerService.issue lifetime userId jti issuedAt) →
      ∀ (i j : ℕ) (logoutHeader requestHeader user : Option String), bearer logoutHeader = some token →
        bearer requestHeader = some token →
        P₁.threads[i]? = some (⟨.logout logoutHeader, .ret none⟩ : SessionThread) →
        (∀ o ∈ os₁, o.tid ≠ j) →
        P₂.threads[j]? ≠ some (⟨.request false requestHeader, .ret user⟩ : SessionThread) := by
  intro h
  have hr₁ := Run.of_runSteps .nil (show runSteps (Pool.step exec) anyStep
    [(0, {}), (0, {}), (0, {})] logoutThenRequest [] = some (loggedOut, _) from rfl)
  have hr₂ := Run.of_runSteps .nil (show runSteps (Pool.step exec) anyStep
    [(1, { elapsed := 3599999 }), (1, { elapsed := 1 })] loggedOut [] = some (_, _) from rfl)
  exact h _ _ _ _ _ _ _ distinctJti_oneToken hr₁ hr₂ "token-1" "user-1" "jti-1" 3600 0 rfl 0 1 _ _
    (some "user-1") rfl rfl rfl (by decide) rfl

end Gusto.Auth
