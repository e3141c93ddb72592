import Gusto.Lib.Local
import Gusto.Lib.Told
import Gusto.Mcp.Isolation

/-!
# How old what is served may be

Any calls of tools by any users, interleaved, whose commands to Redis may fail, before or after they have been
served.

* `exec_command`: what a call does to the cache is what its command does;
* `within_callTool`: the keys, lifetimes and values that a call of a tool uses;
* `servedFresh`: what is read from the cache was put there less than its lifetime before, from auth-service or
  the upstream server, and not invalidated since.
-/

set_option autoImplicit false

namespace Gusto.Mcp

open Effects Expiring FoodMcpClient
open Gusto.Events (truthy)

variable {N σ χ : Type}

/-! ### Commands -/

section Commands

variable (pf : Platform N) (R : Remote N σ χ)

/-- The instant at which a call is served or fails. -/
def instant (o : McpNote N σ χ) : ℤ := o.event.pre.clock + o.event.choice.elapsed

/-- The command that Redis has served at an instant. -/
def redisCommand (now : ℤ) : McpOp N → Option (Command String String ℤ)
  | .redisSetex key seconds value => some (.put key ⟨value, some (now + seconds * 1000)⟩)
  | .redisDel key => some (.erase (· = key))
  | .redisDelMatching pattern => some (.erase (pf.glob pattern))
  | _ => none

/-- The command of a call, if it has been served. -/
def served (o : McpNote N σ χ) : Option (Command String String ℤ) :=
  if o.event.choice.error = none ∨ o.event.choice.served = true then redisCommand pf (instant o) o.event.call
  else none

variable {pf R}

/-- What a call does to the cache. -/
theorem exec_command (o : McpNote N σ χ) :
    (exec pf R o.event.choice o.event.call o.event.pre).2.cache =
      match served pf o with
      | some command => command.apply o.event.pre.cache
      | none => o.event.pre.cache := by
  obtain ⟨tid, tag, s, op, c⟩ := o
  cases op with
  | redisGet key => cases he : c.error <;> cases hs : c.served <;> simp [exec, serve, served, redisCommand, he, hs]
  | redisSetex key seconds value =>
    cases he : c.error <;> cases hs : c.served <;>
      simp [exec, serve, served, redisCommand, instant, Command.apply, he, hs]
  | redisDel key =>
    cases he : c.error <;> cases hs : c.served <;>
      simp [exec, serve, served, redisCommand, Command.apply, he, hs]
  | redisDelMatching pattern =>
    cases he : c.error <;> cases hs : c.served <;>
      simp [exec, serve, served, redisCommand, Command.apply, he, hs]
  | authToken userId => simp [exec, served, redisCommand]
  | post token tool args => simp [exec, served, redisCommand]
  | sleep ms => simp [exec, served, redisCommand]

variable (pf) in
/-- The cache is what the commands so far have made of it, and the clock has not gone back. -/
structure Logged (os : List (McpNote N σ χ)) (s : World σ) : Prop where
  written : Written (served pf) os s.cache
  clock : ∀ o ∈ os, instant o ≤ s.clock

theorem clock_exec (o : McpNote N σ χ) : (exec pf R o.event.choice o.event.call o.event.pre).2.clock = instant o := by
  obtain ⟨tid, tag, s, op, c⟩ := o
  cases op with
  | authToken userId => rfl
  | post token tool args => rfl
  | sleep ms => rfl
  | _ => cases he : c.error <;> cases hs : c.served <;> simp [exec, serve, instant, he, hs]

/-- **Runs.** -/
theorem logged_of_run {P P' : McpPool N σ} {os : List (McpNote N σ χ)}
    {ok : List (McpNote N σ χ) → McpPool N σ → ℕ × McpChoice χ → Prop} (h : P.state.cache = Store.empty)
    (hr : Run (Pool.step (exec pf R)) ok P P' os) : Logged pf os P'.state := by
  induction hr with
  | nil => exact ⟨h ▸ written_empty, by simp⟩
  | @snoc Q Q' os o l _ _ hs ih =>
    obtain ⟨tag, op, k, rest, -, -, -, -, hstate, ho⟩ := Pool.step_cases hs
    have hpre : o.event.pre = Q.state := by rw [ho]
    have hpost : Q'.state = (exec pf R o.event.choice o.event.call o.event.pre).2 := by rw [hstate, ho]
    have hlater : Q.state.clock ≤ instant o := by
      rw [instant, hpre]
      omega
    refine ⟨?_, fun o' ho' => ?_⟩
    · rw [hpost, exec_command, hpre]
      cases hcommand : served pf o with
      | some command => exact ih.written.snoc hcommand
      | none => exact ih.written.snoc_none hcommand
    · rw [hpost, clock_exec]
      rcases List.mem_append.mp ho' with hmem | hmem
      · exact (ih.clock o' hmem).trans hlater
      · rw [List.mem_singleton.mp hmem]

end Commands

/-! ### What a call of a tool uses -/

section CallUses

variable [Zero N] [DecidableEq N] (pf : Platform N)

/-- The keys that a call reads and writes, for how long, and what it writes there. -/
def CallUses (c : ToolCall N) : McpOp N → Prop
  | .redisGet key =>
    key = tokenKey c.userId ∨ c.tool ∈ cacheableTools ∧ key = buildCacheKey pf c.tool c.userId c.args
  | .redisSetex key seconds value => key = tokenKey c.userId ∧ seconds = 30 ∨
    c.tool ∈ cacheableTools ∧ key = buildCacheKey pf c.tool c.userId c.args ∧ seconds = 300 ∧
      ∃ result, value = Json.stringify pf.fmt result ∧ result.Wf ∧ succeeded result = true
  | _ => True

/-- Answers are what `JSON.parse` reads. -/
def WellFormed : (op : McpOp N) → Except (McpErr N) op.Answer → Prop
  | .post .., .ok (result : Json N) => result.Wf
  | _, _ => True

variable {pf} {c : ToolCall N}

theorem within_getToken : (TokenProviderService.getToken c.userId : Gateway N String).Asks WellFormed (CallUses pf c) := by
  unfold TokenProviderService.getToken
  refine Prog.Asks.await_bind (.inl rfl) fun cached _ => ?_
  cases cached.filter (· ≠ "") with
  | some token => trivial
  | none =>
    refine Prog.Asks.attempt_bind ?_ fun fetched => ?_
    · refine Prog.Asks.await_bind trivial fun token _ => ?_
      exact Prog.Asks.await_bind (.inl ⟨rfl, rfl⟩) fun _ _ => trivial
    · cases fetched <;> trivial

theorem within_lookup : (FoodMcpClient.lookup pf c).Asks WellFormed (CallUses pf c) := by
  unfold FoodMcpClient.lookup
  split
  · refine Prog.Asks.await_bind (.inr ⟨‹_›, rfl⟩) fun data _ => ?_
    cases data <;> trivial
  · trivial

theorem within_keep {result : Json N} (hwf : result.Wf) : (keep pf c result).Asks WellFormed (CallUses pf c) := by
  have hbust : (if succeeded result = true ∧ (c.tool = "update_food_cart" ∨ c.tool = "flush_food_cart") then
      invalidateCartCache pf c.tool c.userId c.args else pure () : Gateway N Unit).Asks WellFormed (CallUses pf c) := by
    split
    · unfold invalidateCartCache
      split
      · exact Prog.Asks.await trivial
      · exact Prog.Asks.await trivial
    · trivial
  unfold keep
  by_cases hset : c.tool ∈ cacheableTools ∧ succeeded result = true
  · rw [if_pos hset]
    refine Prog.Asks.await_bind (i := .redisSetex _ _ _) ?_ fun _ _ => hbust
    exact .inr ⟨hset.1, rfl, rfl, result, rfl, hwf, hset.2⟩
  · rw [if_neg hset]
    exact hbust

theorem within_once {token : String} : (once pf c token).Asks WellFormed (CallUses pf c) := by
  rw [once_eq]
  exact Prog.Asks.await_bind trivial fun _ hwf => (within_keep hwf).bind fun _ => trivial

theorem within_attempts {token : String} {left attempt : ℕ} : (attempts pf c token left attempt).Asks WellFormed (CallUses pf c) := by
  induction left generalizing attempt with
  | zero =>
    refine within_once.attempt_bind fun r => ?_
    cases r <;> trivial
  | succ left ih =>
    refine within_once.attempt_bind fun r => ?_
    cases r with
    | ok result => trivial
    | error e =>
      simp only
      rcases isRetryable pf e (attempt + 1) with e' | again
      · trivial
      · cases again with
        | false => trivial
        | true => exact Prog.Asks.await_bind trivial fun _ _ => ih

/-- **The calls of a tool** use these keys only. -/
theorem within_callTool : (callTool pf c).Asks WellFormed (CallUses pf c) := by
  rw [callTool_eq]
  refine within_lookup.bind fun cached => ?_
  cases cached.filter truthy with
  | some value => trivial
  | none => exact within_getToken.bind fun _ => within_attempts

end CallUses

/-! ### What is read -/

section Reads

variable [Zero N] [DecidableEq N] {pf : Platform N} {R : Remote N σ χ} {calls : List (ToolCall N)}
  {clock : ℤ} {remote : σ}

/-- Where what the call `c` reads under `key` came from, when it was put there after the calls `os`. -/
def Origin (pf : Platform N) (R : Remote N σ χ) (c : ToolCall N) (os : List (McpNote N σ χ)) (key data : String)
    (seconds : ℤ) : Prop :=
  key = tokenKey c.userId ∧ seconds = 30 ∧ Issued R os c.userId data ∨
    c.tool ∈ cacheableTools ∧ key = buildCacheKey pf c.tool c.userId c.args ∧ seconds = 300 ∧
      ∃ result, data = Json.stringify pf.fmt result ∧ succeeded result = true ∧ Fetched pf R os c result

/-- What one call puts under a key that another reads. -/
theorem origin_of_uses (hd : Digest pf {text | ∃ c ∈ calls, argsText pf c.args = text}) {c w : ToolCall N}
    (hc : c ∈ calls) (hw : w ∈ calls) {os : List (McpNote N σ χ)} {key data : String} {seconds : ℤ}
    (hread : CallUses pf c (.redisGet key)) (hwrite : CallUses pf w (.redisSetex key seconds data))
    (hstores : Stores pf R w key data os) : Origin pf R c os key data seconds := by
  rcases hread with hkey | ⟨htool, hkey⟩
  · refine .inl ⟨hkey, ?_⟩
    rcases hwrite with ⟨-, hseconds⟩ | ⟨-, hother, -⟩
    · rcases hstores with ⟨hown, hissued⟩ | ⟨-, hother, -⟩
      · rw [tokenKey_inj (hkey.symm.trans hown)]
        exact ⟨hseconds, hissued⟩
      · exact absurd (hkey.symm.trans hother) tokenKey_ne
    · exact absurd (hkey.symm.trans hother) tokenKey_ne
  · refine .inr ⟨htool, hkey, ?_⟩
    rcases hwrite with ⟨hother, -⟩ | ⟨htool', hkey', hseconds, result, hvalue, hwf, hsucceeded⟩
    · exact absurd (hother.symm.trans hkey) tokenKey_ne
    · rcases hstores with ⟨hother, -⟩ | ⟨-, -, result', hvalue', hfetched⟩
      · exact absurd (hother.symm.trans hkey) tokenKey_ne
      · obtain ⟨h₁, h₂, h₃⟩ := buildCacheKey_inj hd htool' htool ⟨w, hw, rfl⟩ ⟨c, hc, rfl⟩
          (hkey'.symm.trans hkey)
        have hsame := hfetched.same h₁ h₂ h₃
        have hresult : result = result' := by
          have hparse := congrArg (Json.parse pf.fmt) (hvalue.symm.trans hvalue')
          rwa [Json.parse_stringify hwf, Json.parse_stringify hfetched.wf, Option.some.injEq] at hparse
        exact ⟨hseconds, result', hvalue', hresult ▸ hsucceeded, hsame⟩

omit [DecidableEq N] [Zero N] in
/-- What can be read at an instant has not expired. -/
theorem lt_of_get {o : McpNote N σ χ} {key data : String}
    (h : (exec pf R o.event.choice (.redisGet key) o.event.pre).1 = .ok (some data)) :
    ∃ e, o.event.pre.cache key = some e ∧ e.value = data ∧ ∀ t, e.deadline = some t → instant o < t := by
  cases he : o.event.choice.error with
  | some message => simp [exec, serve, he] at h
  | none =>
    have hget : o.event.pre.cache.get (instant o) key = some data := by
      simpa [exec, serve, instant, he] using h
    obtain ⟨e, hentry, halive, hvalue⟩ := Store.get_eq_some.mp hget
    refine ⟨e, hentry, hvalue, fun t ht => ?_⟩
    simpa [Entry.alive, ht] using halive

omit [DecidableEq N] [Zero N] in
/-- The command that wrote an entry. -/
theorem setex_of_served {w : McpNote N σ χ} {key : String} {e : Entry String ℤ}
    (h : served pf w = some (.put key e)) : ∃ seconds, w.event.call = .redisSetex key seconds e.value ∧
      e.deadline = some (instant w + seconds * 1000) := by
  obtain ⟨tid, tag, s, op, c⟩ := w
  unfold served at h
  split at h
  · cases op with
    | redisSetex key' seconds value =>
      simp only [redisCommand, Option.some.injEq, Command.put.injEq] at h
      obtain ⟨rfl, rfl⟩ := h
      exact ⟨seconds, rfl, rfl⟩
    | _ => simp [redisCommand] at h
  · cases h

omit [DecidableEq N] [Zero N] in
theorem answers_wellFormed (c : McpChoice χ) (op : McpOp N) (s : World σ) : WellFormed op (exec pf R c op s).1 := by
  cases op with
  | post token tool args =>
    cases h : (R.tools c.remote token tool args s.remote).1 with
    | ok result =>
      simp only [exec, h]
      exact R.wf _ _ _ _ _ _ h
    | error e =>
      simp only [exec, h]
      trivial
  | _ => trivial

/-- **How old what is served may be.** A call that reads something from the cache reads what was put there
less than 30 seconds before (a token, which auth-service gave out for the user) or less than 300 seconds before
(a response, which the upstream server gave with success to a call of the same tool, user and arguments), and
which no command served since has replaced or invalidated. -/
theorem servedFresh (hd : Digest pf {text | ∃ c ∈ calls, argsText pf c.args = text}) (P : McpPool N σ)
    (os : List (McpNote N σ χ)) (hr : Run (Pool.step (exec pf R)) anyStep (gateway pf calls clock remote) P os)
    (os₁ : List (McpNote N σ χ)) (o : McpNote N σ χ) (os₂ : List (McpNote N σ χ)) (hos : os = os₁ ++ o :: os₂)
    (key data : String) (hread : o.event.call = .redisGet key)
    (hdata : (exec pf R o.event.choice (.redisGet key) o.event.pre).1 = .ok (some data)) :
    ∃ before w after seconds, os₁ = before ++ w :: after ∧ w.event.call = .redisSetex key seconds data ∧
      instant w ≤ instant o ∧ instant o < instant w + seconds * 1000 ∧
      (∀ o' ∈ after, ∀ command, served pf o' = some command → ¬ command.Clears key) ∧
      Origin pf R o.tag before key data seconds := by
  have hsound := cacheContract_sound (R := R) hd
  have hmeets : (gateway pf calls clock remote).Meets (CacheContract pf R calls) (exec pf R) [] := gateway_meets
  have hused : ∀ o ∈ os, CallUses pf o.tag o.event.call :=
    Pool.Asks.run answers_wellFormed (Pool.Asks.start fun c _ => within_callTool) hr
  obtain ⟨P₁, l, P₂, hr₁, -, hstep, -⟩ := hr.split hos
  have hpre : o.event.pre = P₁.state := (((Contract.run hsound hmeets hr₁).1).step hsound hstep).2.2
  obtain ⟨e, hentry, rfl, halive⟩ := lt_of_get hdata
  rw [hpre] at hentry
  have hlogged : Logged pf os₁ P₁.state := logged_of_run rfl hr₁
  obtain ⟨before, w, after, rfl, hput, hafter⟩ := hlogged.written key e hentry
  obtain ⟨seconds, hcall, hdeadline⟩ := setex_of_served hput
  have hread' := hused o (by simp [hos])
  have hwrite := hused w (by simp [hos])
  rw [hread] at hread'
  rw [hcall] at hwrite
  obtain ⟨-, ⟨ho, -⟩, -⟩ := Contract.run_at hsound hmeets (hos ▸ hr)
  rw [hos, List.append_assoc, List.cons_append] at hr
  obtain ⟨-, ⟨hw, hstores⟩, -⟩ := Contract.run_at hsound hmeets hr
  rw [hcall, List.nil_append] at hstores
  have horder : instant w ≤ instant o := by
    have hclock := hlogged.clock w (by simp)
    rw [← hpre] at hclock
    unfold instant at hclock ⊢
    omega
  exact ⟨before, w, after, seconds, rfl, hcall, horder, halive _ hdeadline, hafter,
    origin_of_uses hd ho hw hread' hwrite hstores⟩

end Reads

/-- The token that the second call of `a` posts is the one that the first has put there. -/
theorem servedFresh_threeCalls : ∃ P os₁ o, Run (Pool.step (exec plainPlatform plainRemote)) anyStep
    (gateway plainPlatform threeCalls 0 ()) P (os₁ ++ [o]) ∧ o.tid = 1 ∧
    ∃ before w after seconds, os₁ = before ++ w :: after ∧
      w.event.call = .redisSetex "mcp:token:a" seconds "token of a" ∧
      instant o < instant w + seconds * 1000 := by
  have hr := Run.of_runSteps .nil (show runSteps (Pool.step (exec plainPlatform plainRemote)) anyStep
    [(0, ⟨1, none, true, ()⟩), (0, ⟨1, none, true, ()⟩), (0, ⟨1, none, true, ()⟩), (0, ⟨1, none, true, ()⟩),
      (1, ⟨1, none, true, ()⟩), (1, ⟨29000, none, true, ()⟩)]
    (gateway plainPlatform threeCalls 0 ()) [] = some (_, _ ++ [_]) from rfl)
  obtain ⟨before, w, after, seconds, hsplit, hcall, -, hfresh, -, -⟩ :=
    servedFresh digest_threeCalls _ _ hr _ _ [] rfl "mcp:token:a" "token of a" rfl rfl
  exact ⟨_, _, _, hr, rfl, before, w, after, seconds, hsplit, hcall, hfresh⟩

end Gusto.Mcp
