import Gusto.Lib.Fault
import Gusto.Mcp.Isolation
import Gusto.Order.Cart
import Gusto.Order.Placement

/-!
# How often a call is posted

`FoodMcpClient.callTool` posts to the upstream server in a loop without a bound of its own.

* `loop`: the loop, and `loop_eq`: it ends within the attempts of the tool;
* `Repeated`: the failures that are tried again;
* `Reports`: what the outcomes of the posts of a program meet, and what its result does besides where
  the cache answers;
* `retries_bounded`: the posts of a call; a confirmation of an order posts it at most once.
-/

set_option autoImplicit false

namespace Gusto.Mcp

open Effects FoodMcpClient
open Gusto.Events (truthy)

variable {N σ χ : Type}

/-! ### Failures -/

/-- What an axios error holds of the response. -/
def McpErr.response : McpErr N → Option (ℕ × Option (Json N))
  | .axios response => response
  | _ => none

def McpErr.status (e : McpErr N) : Option ℕ := e.response.map Prod.fst

/-- The `error` of the body. -/
def McpErr.body (e : McpErr N) : Option (Json N) := (e.response.bind Prod.snd).bind (·.get "error")

def McpErr.code (e : McpErr N) : Option (Json N) := e.body.bind (·.get "code")

def McpErr.message (e : McpErr N) : Option (Json N) := e.body.bind (·.get "message")

/-- The message, if it is a string. -/
def McpErr.text (e : McpErr N) : String :=
  match e.message with
  | some (.str message) => message
  | _ => ""

/-- The message is a string, or there is none. -/
def Reported (e : McpErr N) : Prop := ∀ message, e.message = some message → ∃ text, message = .str text

/-- What is known of the failure of an attempt after which another is made. -/
structure Repeated (pf : Platform N) (e : McpErr N) (attempt : ℕ) : Prop where
  badRequest : e.status ≠ some 400
  unauthorized : e.status ≠ some 401
  code : isNumber pf e.code "-32001" = false
  invalid : ¬ "Invalid ".toList <+: e.text.toList
  missing : ¬ "Missing ".toList <+: e.text.toList
  serverError : e.status = some 500 → ¬ "timeout".toList <:+: e.text.toList → attempt = 1

section Retryable

variable [Zero N] [DecidableEq N] {pf : Platform N} {e : McpErr N} {attempt : ℕ}

theorem includes_iff {part text : List Char} :
    text.tails.any (part.isPrefixOf ·) = true ↔ part <:+: text := by
  rw [List.any_eq_true, List.infix_iff_prefix_suffix]
  simp only [List.mem_tails, List.isPrefixOf_iff_prefix]
  exact ⟨fun ⟨t, ht, hp⟩ => ⟨t, hp, ht⟩, fun ⟨t, hp, ht⟩ => ⟨t, ht, hp⟩⟩

/-- The tests of `isRetryable`, by the parts of the error. -/
theorem isRetryable_eq (h : Reported e) : isRetryable pf e attempt =
    if e.status = some 401 || isNumber pf e.code "-32001" then .ok false
    else if e.status = some 400 then .ok false
    else if "Invalid ".toList.isPrefixOf e.text.toList || "Missing ".toList.isPrefixOf e.text.toList then
      .ok false
    else if e.status = some 504 || e.text.toList.tails.any ("timeout".toList.isPrefixOf ·) then .ok true
    else if e.status = some 502 || e.status = some 503 then .ok true
    else if e.status = some 200 && isFalse ((e.response.bind Prod.snd).bind (·.get "success")) then .ok false
    else if e.status = some 500 || isNumber pf e.code "-32603" then .ok (attempt = 1)
    else .ok false := by
  have hmessage : (e.message.filter truthy).getD (.str "") = .str e.text := by
    unfold McpErr.text
    cases hm : e.message with
    | none => rfl
    | some message =>
      obtain ⟨text, rfl⟩ := h message hm
      by_cases hempty : text = ""
      · simp [hempty, truthy, Option.filter]
      · simp [hempty, truthy, Option.filter]
  unfold isRetryable
  refine ite_congr rfl (fun _ => rfl) fun _ => ite_congr rfl (fun _ => rfl) fun _ => ?_
  split
  · rename_i message hread
    obtain rfl : message = e.text := Json.str.inj (hread.symm.trans hmessage)
    rfl
  · rename_i hother
    exact absurd hmessage (hother e.text)

theorem isRetryable_ok (h : Reported e) : ∃ again, isRetryable pf e attempt = .ok again := by
  rw [isRetryable_eq h]
  repeat' split
  all_goals exact ⟨_, rfl⟩

/-- **What is tried again.** -/
theorem repeated_of_isRetryable (h : Reported e) (hagain : isRetryable pf e attempt = .ok true) :
    Repeated pf e attempt := by
  rw [isRetryable_eq h] at hagain
  split at hagain
  · cases hagain
  rename_i hauth
  split at hagain
  · cases hagain
  rename_i hbad
  split at hagain
  · cases hagain
  rename_i hmessage
  simp only [Bool.or_eq_true, decide_eq_true_eq, not_or, List.isPrefixOf_iff_prefix,
    Bool.not_eq_true] at hauth hmessage
  refine ⟨hbad, hauth.1, hauth.2, hmessage.1, hmessage.2, fun hserver htimeout => ?_⟩
  -- of the tests that are left, only the one for status 500 can have decided
  have hincludes : e.text.toList.tails.any ("timeout".toList.isPrefixOf ·) = false := by
    rw [Bool.eq_false_iff, ne_eq, includes_iff]
    exact htimeout
  rw [hincludes, hserver] at hagain
  simpa using hagain

end Retryable

/-! ### The loop -/

section Loop

variable [Zero N] [DecidableEq N] (pf : Platform N)

def maxAttempts (tool : String) : ℕ := if tool ∈ NON_IDEMPOTENT_TOOLS then 1 else 5

/-- `while (true)`, for `fuel` turns; `none` is the end of the fuel. -/
def loop (c : ToolCall N) (token : String) : (fuel attempt : ℕ) → Gateway N (Option (Json N))
  | 0, _ => return none
  | fuel + 1, attempt => do
    match ← (once pf c token).attempt with
    | .ok result => return some result
    | .error e =>
      if maxAttempts c.tool ≤ attempt + 1 then throw (handleFinalError e)
      else match isRetryable pf e (attempt + 1) with
        | .error e => throw e
        | .ok false => throw (handleFinalError e)
        | .ok true =>
          call (.sleep (500 * 2 ^ attempt))
          loop c token fuel (attempt + 1)

/-- `callTool` with the loop. -/
def callToolLoop (fuel : ℕ) (c : ToolCall N) : Gateway N (Option (Json N)) := do
  let cached ← FoodMcpClient.lookup pf c
  match cached.filter truthy with
  | some value => return some value
  | none =>
    let token ← TokenProviderService.getToken c.userId
    loop pf c token fuel 0

theorem maxAttempts_eq (tool : String) : maxAttempts tool = retries tool + 1 := by
  unfold maxAttempts retries
  split <;> rfl

variable {pf} {c : ToolCall N} {token : String}

/-- The loop makes the attempts that are left, by induction on these. -/
theorem loop_eq {left fuel attempt : ℕ} (hfuel : left < fuel)
    (hleft : maxAttempts c.tool = attempt + left + 1) :
    loop pf c token fuel attempt = (attempts pf c token left attempt >>= fun result => pure (some result)) := by
  induction left generalizing fuel attempt with
  | zero =>
    obtain ⟨fuel, rfl⟩ : ∃ n, fuel = n + 1 := ⟨fuel - 1, by omega⟩
    rw [loop, attempts, bind_assoc]
    congr 1
    funext r
    cases r with
    | ok result => rfl
    | error e =>
      dsimp only
      rw [if_pos (by omega)]
      rfl
  | succ left ih =>
    obtain ⟨fuel, rfl⟩ : ∃ n, fuel = n + 1 := ⟨fuel - 1, by omega⟩
    rw [loop, attempts, bind_assoc]
    congr 1
    funext r
    cases r with
    | ok result => rfl
    | error e =>
      dsimp only
      rw [if_neg (by omega)]
      cases isRetryable pf e (attempt + 1) with
      | error e => rfl
      | ok again =>
        cases again with
        | false => rfl
        | true =>
          simp only [bind_assoc]
          rw [ih (by omega) (by omega)]

/-- **The loop ends** within the attempts of the tool. -/
theorem callToolLoop_eq {fuel : ℕ} (hfuel : maxAttempts c.tool ≤ fuel) :
    callToolLoop pf fuel c = (callTool pf c >>= fun result => pure (some result)) := by
  rw [maxAttempts_eq] at hfuel
  rw [callTool_eq, bind_assoc]
  unfold callToolLoop
  congr 1
  funext cached
  cases cached.filter truthy with
  | some value => rfl
  | none =>
    dsimp only
    rw [fetch, bind_assoc]
    congr 1
    funext token
    exact loop_eq (by omega) (by rw [maxAttempts_eq]; omega)

end Loop

/-! ### What is posted -/

section Posts

variable (R : Remote N σ χ)

/-- What the upstream server has answered to a call, if it is a post. -/
def outcome (ev : Event (World σ) (McpOp N) (McpChoice χ)) : Option (Except (McpErr N) (Json N)) :=
  match ev.call with
  | .post token tool args => some (R.tools ev.choice.remote token tool args ev.pre.remote).1
  | _ => none

/-- The outcomes of the posts of a run, in order. -/
def posts (evs : List (Event (World σ) (McpOp N) (McpChoice χ))) : List (Except (McpErr N) (Json N)) :=
  evs.filterMap (outcome R)

/-- The cache has answered every call. -/
def Smooth (evs : List (Event (World σ) (McpOp N) (McpChoice χ))) : Prop :=
  ∀ ev ∈ evs, ev.choice.error = none

/-- auth-service gives a token for every user, and the messages of the upstream server are strings. -/
structure Answering : Prop where
  auth : ∀ ch u s, ∃ token, (R.auth ch u s).1 = .ok token
  errors : ∀ ch token tool args s e, (R.tools ch token tool args s).1 = .error e → Reported e

variable (pf : Platform N) {α β : Type}

/-- `A` holds of the outcomes of the posts, and `B` of these and of the result if the run is smooth. -/
def Reports (A : List (Except (McpErr N) (Json N)) → Prop)
    (B : List (Except (McpErr N) (Json N)) → Except (McpErr N) α → Prop) (p : Gateway N α) : Prop :=
  ∀ s, p.wlp (exec pf R) (fun evs r _ => A (posts R evs) ∧ (Smooth evs → B (posts R evs) r)) s

/-- Nothing is posted, and in a smooth run nothing is thrown. -/
abbrev Calm (p : Gateway N α) : Prop := Reports R pf (· = []) (fun _ r => ∃ a, r = .ok a) p

variable {R pf} {A A' : List (Except (McpErr N) (Json N)) → Prop}
  {B : List (Except (McpErr N) (Json N)) → Except (McpErr N) α → Prop}
  {B' : List (Except (McpErr N) (Json N)) → Except (McpErr N) β → Prop}

theorem posts_append {evs evs' : List (Event (World σ) (McpOp N) (McpChoice χ))} :
    posts R (evs ++ evs') = posts R evs ++ posts R evs' := List.filterMap_append

theorem smooth_append {evs evs' : List (Event (World σ) (McpOp N) (McpChoice χ))} :
    Smooth (evs ++ evs') ↔ Smooth evs ∧ Smooth evs' := List.forall_mem_append

theorem smooth_play {p : Gateway N α} {cs : ℕ → McpChoice χ} {s : World σ} (h : ∀ n, (cs n).error = none) :
    Smooth (p.play (exec pf R) cs s).events := by
  unfold Smooth
  exact Prog.forall_choice_play (P := fun ch : McpChoice χ => ch.error = none) h

theorem reports_ret {a : α} (hA : A []) (hB : B [] (.ok a)) : Reports R pf A B (.ret a) :=
  fun _ => ⟨hA, fun _ => hB⟩

theorem reports_throw {e : McpErr N} (hA : A []) (hB : B [] (.error e)) : Reports R pf A B (.throw e) :=
  fun _ => ⟨hA, fun _ => hB⟩

theorem Reports.mono {A' : List (Except (McpErr N) (Json N)) → Prop}
    {B' : List (Except (McpErr N) (Json N)) → Except (McpErr N) α → Prop} {p : Gateway N α}
    (h : Reports R pf A B p) (hA : ∀ os, A os → A' os) (hB : ∀ os r, A os → B os r → B' os r) :
    Reports R pf A' B' p := fun s =>
  Prog.wlp_mono (fun _ _ _ hk => ⟨hA _ hk.1, fun hs => hB _ _ hk.1 (hk.2 hs)⟩) (h s)

/-- One call. -/
theorem reports_call {op : McpOp N} {B : List (Except (McpErr N) (Json N)) → Except (McpErr N) op.Answer → Prop}
    (h : ∀ ch s, A (posts R [⟨s, op, ch⟩]) ∧
      (ch.error = none → B (posts R [⟨s, op, ch⟩]) (exec pf R ch op s).1)) :
    Reports R pf A B (call op) := by
  intro s ch
  obtain ⟨hA, hB⟩ := h ch s
  cases hres : (exec pf R ch op s).1 with
  | ok a => exact ⟨hA, fun hs => hres ▸ hB (hs _ List.mem_cons_self)⟩
  | error e => exact ⟨hA, fun hs => hres ▸ hB (hs _ List.mem_cons_self)⟩

/-- A part that posts nothing, and what goes on with its value. -/
theorem reports_bind {p : Gateway N β} {f : β → Gateway N α} (hp : Calm R pf p)
    (hf : ∀ a, Reports R pf A B (f a)) (hA : A []) : Reports R pf A B (p >>= f) := by
  intro s
  rw [Prog.wlp_bind]
  refine Prog.wlp_mono (fun evs r s' hk => ?_) (hp s)
  obtain ⟨hnil, hok⟩ := hk
  cases r with
  | ok a =>
    refine Prog.wlp_mono (fun evs' r' s'' hk' => ?_) (hf a s')
    rw [posts_append, hnil, smooth_append]
    exact ⟨hk'.1, fun hs => hk'.2 hs.2⟩
  | error e =>
    refine ⟨hnil ▸ hA, fun hs => ?_⟩
    obtain ⟨a, ha⟩ := hok hs
    cases ha

/-- A part that is tried. -/
theorem reports_attempt_bind {p : Gateway N β} {f : Except (McpErr N) β → Gateway N α}
    (hp : Reports R pf A' B' p) (hf : ∀ r os, A' os →
      Reports R pf (fun os' => A (os ++ os')) (fun os' r' => B' os r → B (os ++ os') r') (f r)) :
    Reports R pf A B (p.attempt >>= f) := by
  intro s
  rw [Prog.wlp_bind, Prog.wlp_attempt]
  refine Prog.wlp_mono (fun evs r s' hk => ?_) (hp s)
  refine Prog.wlp_mono (fun evs' r' s'' hk' => ?_) (hf r _ hk.1 s')
  rw [posts_append, smooth_append]
  exact ⟨hk'.1, fun hs => hk'.2 hs.2 (hk.2 hs.1)⟩

theorem calm_ret {a : α} : Calm R pf (.ret a) := reports_ret rfl ⟨a, rfl⟩

/-- A call that posts nothing, and is answered where the cache answers. -/
theorem calm_call {op : McpOp N} (hpost : ∀ ch s, posts R [⟨s, op, ch⟩] = [])
    (hok : ∀ ch s, ch.error = none → ∃ a, (exec pf R ch op s).1 = .ok a) :
    Calm R pf (call op : Gateway N op.Answer) :=
  reports_call fun ch s => ⟨hpost ch s, hok ch s⟩

theorem calm_redisGet {key : String} : Calm R pf (call (.redisGet key) : Gateway N (Option String)) :=
  calm_call (fun _ _ => rfl) fun ch s he => ⟨s.cache.get (s.clock + ch.elapsed) key, by simp [exec, serve, he]⟩

theorem calm_redisSetex {key value : String} {seconds : ℤ} :
    Calm R pf (call (.redisSetex key seconds value) : Gateway N Unit) :=
  calm_call (fun _ _ => rfl) fun ch s he => ⟨(), by simp [exec, serve, he]⟩

theorem calm_sleep {baseMs : ℕ} : Calm R pf (call (.sleep baseMs) : Gateway N Unit) :=
  calm_call (fun _ _ => rfl) fun _ _ _ => ⟨(), rfl⟩

theorem calm_invalidate {tool userId : String} {args : Args N} :
    Calm R pf (invalidateCartCache pf tool userId args) := by
  unfold invalidateCartCache
  split
  · exact calm_call (fun _ _ => rfl) fun ch s he => ⟨(), by simp [exec, serve, he]⟩
  · exact calm_call (fun _ _ => rfl) fun ch s he => ⟨(), by simp [exec, serve, he]⟩

theorem calm_getToken (hR : Answering R) (userId : String) :
    Calm R pf (TokenProviderService.getToken userId : Gateway N String) := by
  unfold TokenProviderService.getToken
  refine reports_bind calm_redisGet (fun cached => ?_) rfl
  split
  · exact calm_ret
  · have hfetch : Calm R pf (do
        let token : String ← call (.authToken userId)
        call (.redisSetex (tokenKey userId) CACHE_TTL_SECONDS token)
        return token : Gateway N String) := by
      refine reports_bind (calm_call (fun _ _ => rfl) fun ch s _ => ?_) (fun token => ?_) rfl
      · exact hR.auth ch.remote userId s.remote
      · exact reports_bind calm_redisSetex (fun _ => calm_ret) rfl
    refine reports_attempt_bind hfetch fun r os hos => ?_
    cases r with
    | ok token => exact reports_ret (by rw [hos]; rfl) fun _ => ⟨token, rfl⟩
    | error e =>
      refine reports_throw (by rw [hos]; rfl) ?_
      rintro ⟨a, ha⟩
      cases ha

variable {c : ToolCall N} {token : String}

theorem calm_lookup : Calm R pf (FoodMcpClient.lookup pf c) := by
  unfold FoodMcpClient.lookup CacheService.get
  split
  · refine reports_bind calm_redisGet (fun data => ?_) rfl
    cases data <;> exact calm_ret
  · exact calm_ret

variable [Zero N] [DecidableEq N]

theorem calm_keep {result : Json N} : Calm R pf (keep pf c result) := by
  have hbust : Calm R pf (if succeeded result = true ∧
      (c.tool = "update_food_cart" ∨ c.tool = "flush_food_cart") then
        invalidateCartCache pf c.tool c.userId c.args else pure ()) := by
    split
    · exact calm_invalidate
    · exact calm_ret
  unfold keep CacheService.set
  by_cases hset : c.tool ∈ cacheableTools ∧ succeeded result = true
  · rw [if_pos hset]
    refine reports_bind ?_ (fun _ => hbust) rfl
    split
    · exact calm_ret
    · exact calm_redisSetex
  · rw [if_neg hset]
    exact hbust

/-- **One attempt** posts once, and comes out as its post does. -/
theorem reports_once (hR : Answering R) : Reports R pf (fun os => os.length = 1)
    (fun os r => os = [r] ∧ ∀ e, r = .error e → Reported e) (once pf c token) := by
  rw [once_eq]
  intro s
  rw [call, Prog.wlp_await_bind]
  intro ch
  have hpost : exec pf R ch (.post token c.tool c.args) s =
      ((R.tools ch.remote token c.tool c.args s.remote).1, (exec pf R ch (.post token c.tool c.args) s).2) := rfl
  have hposts : ∀ evs, posts R (⟨s, .post token c.tool c.args, ch⟩ :: evs) =
      (R.tools ch.remote token c.tool c.args s.remote).1 :: posts R evs := fun _ => rfl
  rw [hpost]
  cases houtcome : (R.tools ch.remote token c.tool c.args s.remote).1 with
  | error e =>
    dsimp only
    rw [hposts, houtcome]
    exact ⟨rfl, fun _ => ⟨rfl, fun e' he => hR.errors _ _ _ _ _ _ ((Except.error.inj he) ▸ houtcome)⟩⟩
  | ok result =>
    have hrest : Reports R pf (· = []) (fun _ r => r = .ok result)
        (keep pf c result >>= fun _ => pure result) :=
      reports_bind calm_keep (fun _ => reports_ret rfl rfl) rfl
    refine Prog.wlp_mono (fun evs r s' hk => ?_) (hrest _)
    rw [hposts, houtcome, hk.1]
    refine ⟨rfl, fun hs => ?_⟩
    rw [hk.2 fun ev hev => hs ev (List.mem_cons_of_mem _ hev)]
    exact ⟨rfl, fun e he => by cases he⟩

/-- What the posts of the attempts come to, `attempt` having been made before: the result is that of the
last, and the others have failed as those do that are tried again. -/
structure Tried (pf : Platform N) (attempt : ℕ) (os : List (Except (McpErr N) (Json N)))
    (r : Except (McpErr N) (Json N)) : Prop where
  last : ∃ o, os.getLast? = some o ∧ r = o.mapError handleFinalError
  again : ∀ i o, os[i]? = some o → i + 1 < os.length →
    ∃ e, o = .error e ∧ Repeated pf e (attempt + i + 1)

theorem tried_single {attempt : ℕ} {o : Except (McpErr N) (Json N)} :
    Tried pf attempt [o] (o.mapError handleFinalError) := by
  refine ⟨⟨o, rfl, rfl⟩, fun i o' _ hlt => ?_⟩
  rw [List.length_singleton] at hlt
  omega

theorem Tried.cons {attempt : ℕ} {e : McpErr N} {os : List (Except (McpErr N) (Json N))}
    {r : Except (McpErr N) (Json N)} (h : Tried pf (attempt + 1) os r) (he : Repeated pf e (attempt + 1)) :
    Tried pf attempt (.error e :: os) r := by
  obtain ⟨⟨o, ho, hr⟩, hagain⟩ := h
  refine ⟨⟨o, ?_, hr⟩, fun i o' ho' hlt => ?_⟩
  · cases os with
    | nil => cases ho
    | cons o₁ os => exact ho
  · cases i with
    | zero => exact ⟨e, (Option.some.inj ho').symm, he⟩
    | succ i =>
      obtain ⟨e', heq, hrepeated⟩ := hagain i o' ho' (by simpa using hlt)
      exact ⟨e', heq, by rwa [show attempt + (i + 1) + 1 = attempt + 1 + i + 1 by omega]⟩

/-- The attempts, by induction on those left. -/
theorem reports_attempts (hR : Answering R) {left attempt : ℕ} :
    Reports R pf (fun os => os.length ≤ left + 1) (Tried pf attempt)
      (attempts pf c token left attempt) := by
  induction left generalizing attempt with
  | zero =>
    unfold attempts
    refine reports_attempt_bind (reports_once hR) fun r os hos => ?_
    have hone : (os ++ []).length ≤ 1 := by
      rw [List.append_nil, hos]
    cases r with
    | ok result =>
      refine reports_ret hone ?_
      rintro ⟨rfl, -⟩
      exact tried_single
    | error e =>
      refine reports_throw hone ?_
      rintro ⟨rfl, -⟩
      exact tried_single
  | succ left ih =>
    unfold attempts
    refine reports_attempt_bind (reports_once hR) fun r os hos => ?_
    have hone : (os ++ []).length ≤ left + 1 + 1 := by
      rw [List.append_nil, hos]
      omega
    cases r with
    | ok result =>
      refine reports_ret hone ?_
      rintro ⟨rfl, -⟩
      exact tried_single
    | error e =>
      dsimp only
      cases hretry : isRetryable pf e (attempt + 1) with
      | error e' =>
        refine reports_throw hone ?_
        rintro ⟨-, hreported⟩
        obtain ⟨again, hok⟩ := isRetryable_ok (hreported e rfl)
        rw [hretry] at hok
        cases hok
      | ok again =>
        cases again with
        | false =>
          refine reports_throw hone ?_
          rintro ⟨rfl, -⟩
          exact tried_single
        | true =>
          refine reports_bind calm_sleep (fun _ => ?_) hone
          refine ih.mono (fun os' hos' => ?_) fun os' r' _ htried => ?_
          · rw [List.length_append, hos]
            omega
          · rintro ⟨rfl, hreported⟩
            exact htried.cons (repeated_of_isRetryable (hreported e rfl) hretry)

theorem reports_fetch (hR : Answering R) :
    Reports R pf (fun os => os.length ≤ maxAttempts c.tool) (Tried pf 0) (fetch pf c) := by
  rw [maxAttempts_eq]
  exact reports_bind (calm_getToken hR c.userId) (fun token => reports_attempts hR) (Nat.zero_le _)

theorem reports_callTool (hR : Answering R) :
    Reports R pf (fun os => os.length ≤ maxAttempts c.tool) (fun _ _ => True) (callTool pf c) := by
  rw [callTool_eq]
  refine reports_bind calm_lookup (fun cached => ?_) (Nat.zero_le _)
  split
  · exact reports_ret (Nat.zero_le _) trivial
  · exact (reports_fetch hR).mono (fun _ h => h) fun _ _ _ _ => trivial

end Posts

/-! ### Calls, and confirmations of orders -/

section Serving

variable [Zero N] [DecidableEq N] (pf : Platform N) (R : Remote N σ χ)

/-- A call of a tool, and what it meets. -/
structure Serving (N σ χ : Type) where
  call : ToolCall N
  choices : ℕ → McpChoice χ
  world : World σ

/-- How it goes. -/
def Serving.done (v : Serving N σ χ) : Done (World σ) (McpOp N) (McpChoice χ) (McpErr N) (Json N) :=
  (callTool pf v.call).play (exec pf R) v.choices v.world

/-- The outcomes of its posts. -/
def Serving.posts (v : Serving N σ χ) : List (Except (McpErr N) (Json N)) :=
  Mcp.posts R (v.done pf R).events

/-- The cache answers, with nothing that the call can return. -/
structure Serving.Misses (v : Serving N σ χ) : Prop where
  answers : ∀ n, (v.choices n).error = none
  misses : ∀ cached,
    ((FoodMcpClient.lookup pf v.call).play (exec pf R) v.choices v.world).result = .ok cached →
      cached.filter truthy = none

/-- The calls of a run that place an order. -/
def placements (evs : List Order.OrderEvent) : List Order.OrderEvent := evs.filter (·.call.isPlace)

variable {pf R} {v : Serving N σ χ}

theorem posts_le (hR : Answering R) : (v.posts pf R).length ≤ maxAttempts v.call.tool :=
  (Prog.wlp_play (reports_callTool hR v.world) v.choices).1

/-- A call that misses the cache goes on to post. -/
theorem tried_of_misses (hR : Answering R) (h : v.Misses pf R) :
    Tried pf 0 (v.posts pf R) (v.done pf R).result := by
  have hcalm : Calm R pf (FoodMcpClient.lookup pf v.call) := calm_lookup
  obtain ⟨hnil, hok⟩ := Prog.wlp_play (hcalm v.world) v.choices
  obtain ⟨cached, hcached⟩ := hok (smooth_play h.answers)
  unfold Serving.posts Serving.done
  rw [callTool_eq, Prog.play_bind, hcached]
  dsimp only
  rw [h.misses cached hcached, posts_append, hnil, List.nil_append]
  exact (Prog.wlp_play (reports_fetch hR _) _).2 (smooth_play fun n => h.answers _)

/-- A confirmation places its order at most once. -/
theorem placements_le {id : ℕ} {w w' : Order.World} {evs : List Order.OrderEvent}
    (h : Order.Confirmed id w evs w') : (placements evs).length ≤ 1 := by
  rcases h.calls with ⟨c, rfl⟩ | ⟨c, c', order, rest, rfl, hrest⟩
  · exact Nat.zero_le 1
  · have hnone : placements rest = [] :=
      List.filter_eq_nil_iff.mpr fun ev hev => by simp [hrest ev hev]
    show (_ :: placements rest).length ≤ 1
    rw [hnone]
    exact le_rfl

end Serving

/-- **How often a call is posted.** A call that misses the cache ends within the attempts of its tool, with
what its last post came to, and no post follows an answer or a failure that is not tried again; a
confirmation of an order, whose placements are served so, posts at most one of them. -/
theorem retries_bounded [Zero N] [DecidableEq N] (pf : Platform N) (R : Remote N σ χ) (hR : Answering R) :
    (∀ v : Serving N σ χ, v.Misses pf R →
      (∀ fuel, maxAttempts v.call.tool ≤ fuel →
        callToolLoop pf fuel v.call = (callTool pf v.call >>= fun result => pure (some result))) ∧
      1 ≤ (v.posts pf R).length ∧ (v.posts pf R).length ≤ 5 ∧
      (v.call.tool = "place_food_order" → (v.posts pf R).length = 1) ∧
      Tried pf 0 (v.posts pf R) (v.done pf R).result) ∧
    ∀ (id : ℕ) (choices : ℕ → Order.Choice) (w : Order.World) (served : Order.OrderEvent → Serving N σ χ),
      (∀ ev, (served ev).call.tool = "place_food_order") →
      ((placements ((Order.OrderService.confirmAndPlace id).play Order.exec choices w).events).map fun ev =>
        ((served ev).posts pf R).length).sum ≤ 1 := by
  have hplace : maxAttempts "place_food_order" = 1 := by decide
  constructor
  · intro v hmiss
    have htried := tried_of_misses hR hmiss
    have hle : (v.posts pf R).length ≤ maxAttempts v.call.tool := posts_le hR
    have hpos : 1 ≤ (v.posts pf R).length := by
      obtain ⟨o, ho, -⟩ := htried.last
      exact List.length_pos_of_mem (List.mem_of_getLast? ho)
    refine ⟨fun fuel hfuel => callToolLoop_eq hfuel, hpos, ?_, fun htool => ?_, htried⟩
    · refine hle.trans ?_
      unfold maxAttempts
      split <;> omega
    · rw [htool, hplace] at hle
      exact le_antisymm hle hpos
  · intro id choices w served hserved
    have hone := placements_le (Prog.wlp_play (Order.wlp_confirmAndPlace id w) choices)
    refine (List.sum_le_card_nsmul _ 1 fun n hn => ?_).trans ?_
    · obtain ⟨ev, -, rfl⟩ := List.mem_map.mp hn
      have hle : ((served ev).posts pf R).length ≤ maxAttempts (served ev).call.tool := posts_le hR
      rwa [hserved, hplace] at hle
    · simpa using hone

/-! ### An upstream server that is busy at first -/

/-- Two requests time out, and then each is answered. -/
def busyRemote : Remote ℤ ℕ Unit where
  auth _ userId s := (.ok userId, s)
  tools _ _ _ _ s :=
    if s < 2 then
      (.error (.axios (some (504, some (.obj [("error", .obj [("message", .str "upstream timeout")])])))), s + 1)
    else (.ok (.obj [("success", .bool true)]), s)
  wf _ _ _ _ s result h := by
    split at h
    · cases h
    · cases h
      exact .obj (by simp) (by simp [Json.Wf.bool])

theorem answering_busyRemote : Answering busyRemote where
  auth _ u _ := ⟨u, rfl⟩
  errors _ _ _ _ s e h := by
    unfold busyRemote at h
    dsimp only at h
    split at h
    · cases h
      rintro message hmessage
      exact ⟨"upstream timeout", (Option.some.inj hmessage).symm⟩
    · cases h

def serving (tool : String) : Serving ℤ ℕ Unit :=
  ⟨⟨tool, noArgs, "user-1"⟩, fun _ => ⟨1, none, true, ()⟩, ⟨0, Expiring.Store.empty, 0⟩⟩

/-- The third post is answered; a placement is posted once. -/
theorem retries_bounded_busy :
    ((serving "get_food_orders").posts plainPlatform busyRemote).length = 3 ∧
    Tried plainPlatform 0 ((serving "get_food_orders").posts plainPlatform busyRemote)
      (.ok (.obj [("success", .bool true)])) ∧
    ((placements ((Order.OrderService.confirmAndPlace 0).play Order.exec (fun _ => {})
      Order.oneOrder).events).map fun _ =>
        ((serving "place_food_order").posts plainPlatform busyRemote).length).sum ≤ 1 := by
  obtain ⟨hposts, hplaced⟩ := retries_bounded plainPlatform busyRemote answering_busyRemote
  have hmiss : (serving "get_food_orders").Misses plainPlatform busyRemote :=
    ⟨fun _ => rfl, fun cached h => by cases h; rfl⟩
  obtain ⟨-, -, -, -, htried⟩ := hposts (serving "get_food_orders") hmiss
  exact ⟨rfl, htried, hplaced 0 (fun _ => {}) Order.oneOrder (fun _ => serving "place_food_order") fun _ => rfl⟩

end Gusto.Mcp
