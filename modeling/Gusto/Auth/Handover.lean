import Gusto.Auth.Kept
import Gusto.Lib.Told

/-!
# From a login to the token that is served

Runs of any requests to auth-service and any sweeps, their calls interleaved, each of which may fail.

* `challenge_redeemable`: a challenge that was handed out can be redeemed for ten minutes, or it has been;
* `verifier_bound`: the verifier that is posted to Swiggy was drawn by the request that opened the session,
  and no callback posts it that has looked the session up after it was removed;
* `served_token`: the token that is served is the one that Swiggy gave in the last login of the user;
* `valid_for_aMinute`: a token that a refresh has found valid is served for a minute.
-/

set_option autoImplicit false

namespace Gusto.Auth

open Effects

section Latest

variable {userId : String} {os : List AuthNote} {row : User}

/-- The call that stored the row of a user. -/
theorem latest_eq_some (h : latest userId os = some row) :
    ∃ pre o post, os = pre ++ o :: post ∧ storedRow userId o = some row ∧
      ∀ o' ∈ post, storedRow userId o' = none := by
  unfold latest at h
  rw [List.getLast?_filterMap, List.findSome?_eq_some_iff] at h
  obtain ⟨later, o, before, hos, ho, hlater⟩ := h
  refine ⟨before.reverse, o, later.reverse, ?_, ho, fun o' ho' => hlater o' (List.mem_reverse.mp ho')⟩
  rw [← List.reverse_reverse os, hos]
  simp

theorem storedRow_eq_some {o : AuthNote} (h : storedRow userId o = some row) :
    o.event.call = .login (.upsertUser userId row) := by
  unfold storedRow at h
  split at h
  · rename_i u data hcall
    split at h
    · rename_i hu
      rw [hcall, hu.1, Option.some.inj h]
    · cases h
  · cases h

end Latest

section Runs

variable {env : AuthEnv} {calls : List AuthCall} {clock : ℤ} {P : AuthPool} {os : List AuthNote}

/-- What a thread has promised at its end. -/
theorem post_of_mem (hr : Run (Pool.step reachAuth) anyStep (requests env calls clock) P os) {tag : AuthCall}
    {reply : AuthReply} (hth : (⟨tag, .ret reply⟩ : AuthThread) ∈ P.threads) :
    ∃ tid, P.threads[tid]? = some ⟨tag, .ret reply⟩ ∧
      (AuthContract env).post tid tag (.ok reply) os P.state := by
  obtain ⟨⟨-, hths⟩, -, -⟩ := Contract.run (authContract_sound env) (requests_meets env calls clock) hr
  obtain ⟨tid, hget⟩ := List.mem_iff_getElem?.mp hth
  exact ⟨tid, hget, (hths tid _ hget).of_ret (authContract_sound env)⟩

/-- What a call was asked for, and what was known of the tables when it was made. -/
theorem pre_of_split {pre post : List AuthNote} {o : AuthNote}
    (hr : Run (Pool.step reachAuth) anyStep (requests env calls clock) P (pre ++ o :: post)) :
    Kept pre o.event.pre ∧ (AuthContract env).pre o.tid o.tag o.event.call pre o.event.pre := by
  obtain ⟨hinv, hpre, -⟩ := Contract.run_at (authContract_sound env) (requests_meets env calls clock) hr
  exact ⟨hinv, hpre⟩

/-- **Challenges.** Where no two sessions have the same state: a request that was handed a challenge has
opened its session, with a verifier that it had drawn, of which the challenge holds the hash; and the session
is in the table until ten minutes are over, from when the request had read the clock, or a callback with its
state has stored the token of the user. -/
theorem challenge_redeemable (env : AuthEnv) (calls : List AuthCall) (clock : ℤ) (P : AuthPool)
    (os : List AuthNote) (hr : Run (Pool.step reachAuth) anyStep (requests env calls clock) P os)
    (hdistinct : DistinctStates os) (tid : ℕ) (userId : String) (challenge : AuthorizationChallenge)
    (hth : P.threads[tid]? = some ⟨.start userId, .ret (.challenge challenge)⟩ ∨
      P.threads[tid]? = some ⟨.refresh userId, .ret (.refreshed (.reauthenticationRequired challenge))⟩) :
    ∃ pre o post d n, os = pre ++ o :: post ∧ o.tid = tid ∧ opened o = some d ∧
      HasDrawn tid pre d.codeVerifier ∧ HasRead tid pre n ∧ d.expiresAt = n + PENDING_SESSION_TTL_MS ∧
      d.userId = userId ∧ d.state = challenge.state ∧
      challenge.authorizationUrl = env.buildAuthorizationUrl (env.sha256 d.codeVerifier) d.state ∧
      (P.state.sessions challenge.state = some d ∨ n + PENDING_SESSION_TTL_MS < P.state.clock ∨
        ∃ o' ∈ os, (storedRow userId o').isSome ∧ ∃ code, o'.tag = .callback code challenge.state) := by
  obtain ⟨⟨hkept, hths⟩, -, -⟩ := Contract.run (authContract_sound env) (requests_meets env calls clock) hr
  have hout : HandsOut env tid userId challenge os := by
    rcases hth with hth | hth
    · exact (hths tid _ hth).of_ret (authContract_sound env)
    · exact (hths tid _ hth).of_ret (authContract_sound env)
  obtain ⟨d, ⟨o, ho, htid, hopened⟩, rfl, hstate, hurl⟩ := hout
  have hthere := Kept.kept hkept hdistinct d ⟨o, ho, hopened⟩
  obtain ⟨pre, post, rfl⟩ := List.append_of_mem ho
  obtain ⟨-, hpre⟩ := pre_of_split hr
  rw [(opened_eq_some.mp hopened).1] at hpre
  obtain ⟨-, hdrawn, -, n, hread, hexp⟩ := hpre
  rw [hexp, ← hstate] at hthere
  rw [htid] at hdrawn hread
  exact ⟨pre, o, post, d, n, rfl, htid, hopened, hdrawn, hread, hexp, rfl, hstate.symm, hurl, hthere⟩

/-- **Verifiers.** Each request for a token is made by a callback, for a session that a start or a refresh
of its user has opened before, with the verifier drawn for it, and before it expired; the callback has
looked it up when no callback had removed it. -/
theorem verifier_bound (env : AuthEnv) (calls : List AuthCall) (clock : ℤ) (P : AuthPool)
    (pre post : List AuthNote) (o : AuthNote)
    (hr : Run (Pool.step reachAuth) anyStep (requests env calls clock) P (pre ++ o :: post))
    (hdistinct : DistinctStates pre) (code codeVerifier redirectUri : String)
    (hcall : o.event.call = .login (.requestToken code codeVerifier redirectUri)) :
    ∃ d, o.tag = .callback code d.state ∧ d.codeVerifier = codeVerifier ∧
      redirectUri = env.SWIGGY_OAUTH_REDIRECT_URI ∧ (∃ n, HasRead o.tid pre n ∧ n ≤ d.expiresAt) ∧
      (∃ before o₁ after, pre = before ++ o₁ :: after ∧ opened o₁ = some d ∧
        (o₁.tag = .start d.userId ∨ o₁.tag = .refresh d.userId) ∧ HasDrawn o₁.tid before codeVerifier) ∧
      ∃ before o₂ after, pre = before ++ o₂ :: after ∧ o₂.tid = o.tid ∧
        o₂.event.call = .login (.findSession d.state) ∧ ∀ o' ∈ before, closed o' ≠ some d.state := by
  obtain ⟨-, hpre⟩ := pre_of_split hr
  rw [hcall] at hpre
  obtain ⟨d, ⟨htag, ⟨o₁, ho₁, hopened⟩, ⟨o₂, ho₂, htid, hfind, hrow⟩, hlive⟩, hv, hu⟩ := hpre
  obtain ⟨before₁, after₁, hpre₁⟩ := List.append_of_mem ho₁
  obtain ⟨before₂, after₂, hpre₂⟩ := List.append_of_mem ho₂
  have hr₁ : Run (Pool.step reachAuth) anyStep (requests env calls clock) P
      (before₁ ++ o₁ :: (after₁ ++ o :: post)) := by
    rwa [hpre₁, List.append_assoc, List.cons_append] at hr
  have hr₂ : Run (Pool.step reachAuth) anyStep (requests env calls clock) P
      (before₂ ++ o₂ :: (after₂ ++ o :: post)) := by
    rwa [hpre₂, List.append_assoc, List.cons_append] at hr
  obtain ⟨-, hpre₁'⟩ := pre_of_split hr₁
  rw [(opened_eq_some.mp hopened).1] at hpre₁'
  obtain ⟨htag₁, hdrawn, huri, -⟩ := hpre₁'
  obtain ⟨hkept₂, -⟩ := pre_of_split hr₂
  refine ⟨d, htag, hv.symm, hu.trans huri, hlive, ⟨before₁, o₁, after₁, hpre₁, hopened, htag₁, hv ▸ hdrawn⟩,
    before₂, o₂, after₂, hpre₂, htid, hfind, fun o' ho' hclosed => ?_⟩
  have hdist₂ : DistinctStates before₂ := hdistinct.earlier ⟨_, hpre₂.symm⟩
  cases (hkept₂.gone hdist₂ o' ho' d.state hclosed).symm.trans hrow

/-- The call that stored the row that a thread has looked up. -/
theorem HasLookedUp.storedBy (hr : Run (Pool.step reachAuth) anyStep (requests env calls clock) P os) {tid : ℕ}
    {userId : String} {user : User} (h : HasLookedUp tid os userId (some user)) :
    ∃ before o₁ between o₂ after, os = before ++ o₁ :: (between ++ o₂ :: after) ∧ o₂.tid = tid ∧
      o₂.event.call = .findUser userId ∧ storedRow userId o₁ = some user ∧
      (∀ o ∈ between, storedRow userId o = none) ∧ Authorises env o₁.tid o₁.tag userId user before := by
  obtain ⟨pre, o₂, ⟨after, hos⟩, htid, hcall, hrow⟩ := h
  obtain ⟨before, o₁, between, rfl, hstored, hbetween⟩ := latest_eq_some hrow
  have hsplit : os = before ++ o₁ :: (between ++ o₂ :: after) := by simpa using hos.symm
  obtain ⟨-, hpre⟩ := pre_of_split (hsplit ▸ hr)
  rw [storedRow_eq_some hstored] at hpre
  exact ⟨before, o₁, between, o₂, after, hsplit, htid, hcall, hstored, hbetween, hpre⟩

/-- **Served tokens.** A token is served to who brings the secret; it is the one that Swiggy gave for the
code of the last callback that stored one for this user, and its time is not up. -/
theorem served_token (env : AuthEnv) (hgcm : Aes256Gcm env.crypto) (calls : List AuthCall) (clock : ℤ)
    (P : AuthPool) (os : List AuthNote)
    (hr : Run (Pool.step reachAuth) anyStep (requests env calls clock) P os) (provided : Option String)
    (userId token : String)
    (hth : (⟨.internalToken provided userId, .ret (.token token)⟩ : AuthThread) ∈ P.threads) :
    provided = some env.INTERNAL_SHARED_SECRET ∧ ∃ before o₁ between o₂ after code d response m n,
      os = before ++ o₁ :: (between ++ o₂ :: after) ∧
      P.threads[o₂.tid]? = some ⟨.internalToken provided userId, .ret (.token token)⟩ ∧
      o₂.event.call = .findUser userId ∧ (storedRow userId o₁).isSome ∧
      (∀ o ∈ between, storedRow userId o = none) ∧
      o₁.tag = .callback code d.state ∧ d.userId = userId ∧ HasGot o₁.tid before code d response ∧
      response.access_token = token ∧ HasRead o₁.tid before m ∧ HasRead o₂.tid os n ∧
      n ≤ m + response.expires_in * 1000 := by
  obtain ⟨tid, hget, hsecret, user, hlooked, hdec, n, hread, hlive⟩ := post_of_mem hr hth
  obtain ⟨before, o₁, between, o₂, after, hos, rfl, hcall, hstored, hbetween, code, d, response, iv, m, hclaims, hu,
    hgot, -, hm, rfl⟩ := hlooked.storedBy hr
  have htoken : response.access_token = token := by
    rw [env.decrypt_encrypt hgcm] at hdec
    exact Except.ok.inj hdec
  exact ⟨hsecret, before, o₁, between, o₂, after, code, d, response, m, n, hos, hget, hcall, by rw [hstored]; rfl,
    hbetween, hclaims.1, hu, hgot, htoken, hm, hread, hlive⟩

/-- **Sessions.** A callback is answered with the JWT of a user only if Swiggy gave it a token for its code,
with the verifier of the session of its state, which a start or a refresh of this user had opened; and the
token is stored for this user, encrypted with an initialisation vector that was drawn for it. -/
theorem login_authentic (env : AuthEnv) (calls : List AuthCall) (clock : ℤ) (P : AuthPool) (os : List AuthNote)
    (hr : Run (Pool.step reachAuth) anyStep (requests env calls clock) P os) (code state : String)
    (s : LoginSession) (hth : (⟨.callback code state, .ret (.session s)⟩ : AuthThread) ∈ P.threads) :
    s.token.sub = some s.userId ∧ ∃ before o after d response iv,
      os = before ++ o :: after ∧ o.tag = .callback code state ∧ d.state = state ∧ d.userId = s.userId ∧
      (∃ o₁ ∈ before, opened o₁ = some d ∧ (o₁.tag = .start s.userId ∨ o₁.tag = .refresh s.userId)) ∧
      HasGot o.tid before code d response ∧ HasDrawn o.tid before iv ∧
      (storedRow s.userId o).map (·.encryptedMcpToken) = some (env.encrypt iv response.access_token) := by
  obtain ⟨tid, -, hsub, before, o, ⟨after, hos⟩, rfl, hcallback, row, hrow, code', d, response, iv, n, hclaims, hu, hgot,
    hdrawn, -, rfl⟩ := post_of_mem hr hth
  obtain ⟨htag, ⟨o₁, ho₁, hopened⟩, -⟩ := hclaims
  obtain ⟨rfl, hstate⟩ := AuthCall.callback.inj htag
  have hos' : os = before ++ o :: after := by simpa using hos.symm
  obtain ⟨a, b, hsplit⟩ := List.append_of_mem ho₁
  have hr₁ : Run (Pool.step reachAuth) anyStep (requests env calls clock) P (a ++ o₁ :: (b ++ o :: after)) := by
    rwa [hos', hsplit, List.append_assoc, List.cons_append] at hr
  obtain ⟨-, hpre⟩ := pre_of_split hr₁
  rw [(opened_eq_some.mp hopened).1] at hpre
  obtain ⟨htag₁, -⟩ := hpre
  refine ⟨hsub, before, o, after, d, response, iv, hos', hcallback, hstate.symm, hu,
    ⟨o₁, ho₁, hopened, hu ▸ htag₁⟩, hgot, hdrawn, by rw [hrow]; rfl⟩

/-- The threads `i` and `j` have looked up the same row of a user. -/
def SameRow (i j : ℕ) (userId : String) (os : List AuthNote) : Prop :=
  ∀ row row', HasLookedUp i os userId row → HasLookedUp j os userId row' → row = row'

theorem latest_append {userId : String} {a b : List AuthNote} (hb : ∀ o ∈ b, storedRow userId o = none) :
    latest userId (a ++ b) = latest userId a := by
  have hnone : b.filterMap (storedRow userId) = [] := List.filterMap_eq_nil_iff.mpr hb
  rw [latest, List.filterMap_append, hnone, List.append_nil, latest]

/-- Where nothing is stored for the user after both have begun. -/
theorem sameRow_of_split {i j : ℕ} {userId : String} (k : ℕ) (hbegin : ∀ o ∈ os.take k, o.tid ≠ i ∧ o.tid ≠ j)
    (hquiet : ∀ o ∈ os.drop k, storedRow userId o = none) : SameRow i j userId os := by
  have hlook (tid : ℕ) (row : Option User) (htid : ∀ o ∈ os.take k, o.tid ≠ tid)
      (h : HasLookedUp tid os userId row) : latest userId (os.take k) = row := by
    obtain ⟨pre, o, hpre, ho, -, hrow⟩ := h
    have hbefore : os.take k <+: pre := by
      rcases List.prefix_or_prefix_of_prefix hpre (List.take_prefix k os) with hin | hout
      · exact absurd ho (htid o (hin.subset (by simp)))
      · rcases List.prefix_concat_iff.mp hout with heq | hout
        · exact absurd ho (htid o (heq ▸ by simp))
        · exact hout
    obtain ⟨mid, rfl⟩ := hbefore
    have hsplit : os.take k ++ (mid ++ [o]) <+: os.take k ++ os.drop k := by
      rwa [List.take_append_drop, ← List.append_assoc]
    have hmid := (List.prefix_append_right_inj _).mp hsplit
    rw [← hrow, latest_append fun o' ho' => hquiet o' (hmid.subset (List.mem_append_left _ ho'))]
  intro row row' hi hj
  exact (hlook i row (fun o ho => (hbegin o ho).1) hi).symm.trans (hlook j row' (fun o ho => (hbegin o ho).2) hj)

/-- **A valid token.** Where a refresh has found the token of a user valid, and a request with the secret
that looked up the same row is refused, although its read of the user did not fail, it has looked at the
clock more than a minute after the refresh. -/
theorem valid_for_aMinute (env : AuthEnv) (hgcm : Aes256Gcm env.crypto) (calls : List AuthCall) (clock : ℤ)
    (P : AuthPool) (os : List AuthNote)
    (hr : Run (Pool.step reachAuth) anyStep (requests env calls clock) P os) (i j : ℕ) (userId : String)
    (expiresAt : ℤ) (e : Err)
    (hi : P.threads[i]? = some ⟨.refresh userId, .ret (.refreshed (.valid expiresAt))⟩)
    (hj : P.threads[j]? = some ⟨.internalToken (some env.INTERNAL_SHARED_SECRET) userId, .throw e⟩)
    (hread : ∀ o ∈ os, o.tid = j → o.event.choice.error = none) (hsame : SameRow i j userId os) :
    ∃ n m, HasRead i os n ∧ HasRead j os m ∧ n + 60 * 1000 < expiresAt ∧ expiresAt < m := by
  obtain ⟨⟨-, hths⟩, -, -⟩ := Contract.run (authContract_sound env) (requests_meets env calls clock) hr
  obtain ⟨user, hlooked, hfull, rfl, n, hn, hlong⟩ := (hths i _ hi).of_ret (authContract_sound env)
  have hn' : n + 60 * 1000 < user.mcpTokenExpiresAt := by
    unfold REAUTH_THRESHOLD_MS at hlong
    omega
  rcases (hths j _ hj).of_result (authContract_sound env) rfl with hsecret | ⟨o, ho, htid, -, herr⟩ | ⟨row, hrow, hwhy⟩
  · exact absurd rfl hsecret
  · exact absurd (hread o ho htid) herr
  · rcases hwhy user (hsame _ _ hlooked hrow ▸ rfl) with hempty | ⟨m, hm, hold⟩ | hdec
    · exact absurd hempty hfull
    · exact ⟨n, m, hn, hm, hn', hold⟩
    -- what a callback has stored can be decrypted
    · obtain ⟨-, -, -, -, -, -, -, -, -, -, code, d, response, iv, k, -, -, -, -, -, rfl⟩ := hlooked.storedBy hr
      exact absurd (env.decrypt_encrypt hgcm iv response.access_token) (hdec _)

end Runs

/-! ### A vault of zeros -/

/-- A token in the vault of zeros. -/
def zeroParts (rawToken : String) : List UInt16 :=
  [TokenVaultService.dot].intercalate [Base64.encode (List.replicate 12 0), Base64.encode TokenVaultService.zeroTag,
    Base64.encode (Utf8.encode rawToken.toList)]

theorem encrypt_zero (rawToken : String) :
    TokenVaultService.encrypt TokenVaultService.zeroCrypto TokenVaultService.zeroEnv (List.replicate 12 0)
      (Utf16.encode rawToken.toList) = .ok (zeroParts rawToken) := by
  rw [TokenVaultService.encrypt, Utf16.decodeLossy_encode, TokenVaultService.zeroCrypto]
  dsimp only
  rw [if_pos ⟨TokenVaultService.zeroEnv.refine, rfl⟩]
  rfl

theorem plain_of_mem_encode {bs : List UInt8} {u : UInt16} (h : u ∈ Base64.encode bs) :
    ¬(Utf16.high u ∨ Utf16.low u) := by
  have hdigit : ∀ d, ¬(Utf16.high (Base64.digit d) ∨ Utf16.low (Base64.digit d)) := by decide +kernel
  rcases List.mem_append.mp h with h | h
  · obtain ⟨d, -, rfl⟩ := List.mem_map.mp h
    exact hdigit d
  · rw [List.eq_of_mem_replicate h]
    decide

theorem plain_of_mem_zeroParts {rawToken : String} {u : UInt16} (h : u ∈ zeroParts rawToken) :
    ¬(Utf16.high u ∨ Utf16.low u) := by
  have hdot : ¬(Utf16.high TokenVaultService.dot ∨ Utf16.low TokenVaultService.dot) := by decide
  simp only [zeroParts, List.intercalate, List.intersperse, List.flatten_cons, List.flatten_nil, List.mem_append,
    List.mem_singleton, List.append_nil] at h
  rcases h with h | rfl | h | rfl | h
  · exact plain_of_mem_encode h
  · exact hdot
  · exact plain_of_mem_encode h
  · exact hdot
  · exact plain_of_mem_encode h

def zeroEncrypt (rawToken : String) : String := String.ofList (Utf16.decodeLossy (zeroParts rawToken))

theorem zeroEncrypt_encrypts (rawToken : String) :
    TokenVaultService.encrypt TokenVaultService.zeroCrypto TokenVaultService.zeroEnv (List.replicate 12 0)
      (Utf16.encode rawToken.toList) = .ok (Utf16.encode (zeroEncrypt rawToken).toList) := by
  rw [zeroEncrypt, String.toList_ofList, Utf16.encode_decodeLossy fun u hu => plain_of_mem_zeroParts hu]
  exact encrypt_zero rawToken

/-! ### A login and what follows -/

def zeroAuthEnv : AuthEnv where
  toLoginEnv := { plainEnv with encrypt := fun _ => zeroEncrypt }
  INTERNAL_SHARED_SECRET := "a shared secret of the services"
  min := by decide
  crypto := TokenVaultService.zeroCrypto
  vault := TokenVaultService.zeroEnv
  randomBytes _ := List.replicate 12 0
  drawn _ := rfl
  encrypts _ := zeroEncrypt_encrypts

/-- A start and its callback; a refresh, and two requests for the token. -/
def handover : AuthPool :=
  requests zeroAuthEnv [.start "user", .callback "code" "state-1", .refresh "user",
    .internalToken (some "a shared secret of the services") "user",
    .internalToken (some "a shared secret of the services") "user"] 0

def loginChoices : List (ℕ × LoginChoice) := startChoices 0 "state-1" ++ callbackChoices 1

/-- The refresh and the first request are served at once, the second when the token has expired. -/
def handoverChoices : List (ℕ × LoginChoice) :=
  loginChoices ++ [(2, ({} : LoginChoice)), (2, {}), (3, {}), (3, {}), (4, {}), (4, { elapsed := 432000001 })]

theorem challenge_redeemable_started : ∃ P os, Run (Pool.step reachAuth) anyStep handover P os ∧
    DistinctStates os ∧ (⟨.start "user", .ret (.challenge ⟨"state-1", "state-1"⟩)⟩ : AuthThread) ∈ P.threads ∧
    ∃ d : PendingAuthSession, WasOpened os d ∧ d.userId = "user" ∧ d.state = "state-1" := by
  have hr := Run.of_runSteps .nil (show runSteps (Pool.step reachAuth) anyStep (startChoices 0 "state-1")
    handover [] = some (_, _) from rfl)
  obtain ⟨pre, o, post, d, -, hos, -, hopened, -, -, -, hu, hstate, -⟩ := challenge_redeemable zeroAuthEnv _ 0 _ _ hr
    (by decide) 0 "user" ⟨"state-1", "state-1"⟩ (.inl rfl)
  exact ⟨_, _, hr, by decide, .head _, d, ⟨o, by rw [hos]; simp, hopened⟩, hu, hstate⟩

/-- The callback posts the verifier of the start. -/
theorem verifier_bound_callback : ∃ P pre o,
    Run (Pool.step reachAuth) anyStep handover P (pre ++ [o]) ∧ DistinctStates pre ∧
    o.event.call = .login (.requestToken "code" "verifier" "https://gusto.example/callback") ∧
    ∃ d : PendingAuthSession, o.tag = .callback "code" d.state ∧ d.codeVerifier = "verifier" := by
  have hr := Run.of_runSteps .nil (show runSteps (Pool.step reachAuth) anyStep
    (startChoices 0 "state-1" ++ [1, 1, 1].map fun tid => (tid, ({} : LoginChoice)))
    handover [] = some (_, _) from rfl)
  obtain ⟨d, htag, hv, -⟩ := verifier_bound zeroAuthEnv _ 0 _ _ [] _ hr (by decide) "code" "verifier"
    "https://gusto.example/callback" rfl
  exact ⟨_, _, _, hr, by decide, rfl, d, htag, hv⟩

theorem login_authentic_callback : ∃ P os s, Run (Pool.step reachAuth) anyStep handover P os ∧
    (⟨.callback "code" "state-1", .ret (.session s)⟩ : AuthThread) ∈ P.threads ∧
    s.token.sub = some "user" := by
  have hr := Run.of_runSteps .nil (show runSteps (Pool.step reachAuth) anyStep loginChoices handover [] =
    some (_, _) from rfl)
  have h := login_authentic zeroAuthEnv _ 0 _ _ hr "code" "state-1"
    ⟨⟨some "user", some "jti", some 3600⟩, "user"⟩ (.tail _ (.head _))
  exact ⟨_, _, _, hr, .tail _ (.head _), h.1⟩

theorem served_token_login : ∃ P os, Run (Pool.step reachAuth) anyStep handover P os ∧
    (⟨.internalToken (some "a shared secret of the services") "user", .ret (.token "token")⟩ : AuthThread) ∈
      P.threads ∧
    ∃ tid before code d response, HasGot tid before code d response ∧ d.userId = "user" ∧
      response.access_token = "token" := by
  have hr := Run.of_runSteps .nil (show runSteps (Pool.step reachAuth) anyStep handoverChoices handover [] =
    some (_, _) from rfl)
  obtain ⟨-, before, o₁, -, -, -, code, d, response, -, -, -, -, -, -, -, -, hu, hgot, htoken, -⟩ :=
    served_token zeroAuthEnv TokenVaultService.zeroCrypto_gcm _ 0 _ _ hr _ "user" "token"
      (.tail _ (.tail _ (.tail _ (.head _))))
  exact ⟨_, _, hr, .tail _ (.tail _ (.tail _ (.head _))), o₁.tid, before, code, d, response, hgot, hu, htoken⟩

theorem valid_for_aMinute_expired : ∃ P os, Run (Pool.step reachAuth) anyStep handover P os ∧
    P.threads[2]? = some ⟨.refresh "user", .ret (.refreshed (.valid 432000000))⟩ ∧
    P.threads[4]? = some ⟨.internalToken (some "a shared secret of the services") "user",
      .throw (.http 401 "Swiggy MCP token has expired")⟩ ∧
    ∃ n m, HasRead 2 os n ∧ HasRead 4 os m ∧ n + 60000 < m := by
  have hr := Run.of_runSteps .nil (show runSteps (Pool.step reachAuth) anyStep handoverChoices handover [] =
    some (_, _) from rfl)
  obtain ⟨n, m, hn, hm, hlong, hold⟩ := valid_for_aMinute zeroAuthEnv TokenVaultService.zeroCrypto_gcm _ 0 _ _ hr 2 4
    "user" 432000000 (.http 401 "Swiggy MCP token has expired") rfl rfl (by decide)
    (sameRow_of_split 18 (by decide) (by decide))
  exact ⟨_, _, hr, rfl, rfl, n, m, hn, hm, by omega⟩

end Gusto.Auth
