import Gusto.Lib.Local
import Gusto.Lib.Told
import Gusto.Mcp.Isolation

/-!
# What is asked for a user

Any calls of tools by any users, interleaved, over one cache and any remote services; nothing is asked of the hash.

* `Own`: what a call of a tool may ask for: its own keys, its own token, its own tool and arguments;
* `TokenContract`: what lies under the token key of a user is a token of that user;
* `ownRequests`: whatever fails, every call of the gateway is one of these, and a request to the upstream server
  is made with a token that auth-service has given out for its user.
-/

set_option autoImplicit false

namespace Gusto.Mcp

open Effects Expiring FoodMcpClient
open Gusto.Events (truthy)

variable {N σ χ : Type}

/-! ### What is asked -/

section

variable (pf : Platform N) (R : Remote N σ χ)

/-- What may be asked for the call `c` of a tool, after the calls `os`. -/
def Own (c : ToolCall N) (os : List (McpNote N σ χ)) : McpOp N → Prop
  | .redisGet key => key = tokenKey c.userId ∨ key = buildCacheKey pf c.tool c.userId c.args
  | .redisSetex key _ value => key = tokenKey c.userId ∧ Issued R os c.userId value ∨
    key = buildCacheKey pf c.tool c.userId c.args
  | .redisDel key => ∃ addressId, key = buildCacheKey pf "get_food_cart" c.userId (addressArgs addressId)
  | .redisDelMatching pattern => pattern = cartPrefix c.userId ++ "*"
  | .authToken userId => userId = c.userId
  | .post token tool args => tool = c.tool ∧ args = c.args ∧ Issued R os c.userId token
  | .sleep _ => True

/-- What lies under the token key of a user was given out for that user. -/
def OwnTokens (os : List (McpNote N σ χ)) (s : World σ) : Prop :=
  ∀ u e, s.cache (tokenKey u) = some e → Issued R os u e.value

def TokenContract : Contract (ToolCall N) (McpOp N) (McpErr N) (Json N) (World σ) (McpChoice χ) where
  inv := OwnTokens R
  rely _ _ := True
  pre _ c op os _ := Own pf R c os op
  post _ _ _ _ _ := True

/-- What a call of a tool knows of an answer. -/
def TokenKnown (c : ToolCall N) (os : List (McpNote N σ χ)) : (op : McpOp N) → Except (McpErr N) op.Answer → Prop
  | .redisGet key, .ok (some data) => key = tokenKey c.userId → Issued R os c.userId data
  | .authToken userId, .ok token => Issued R os userId token
  | _, _ => True

end

section Sound

variable {pf : Platform N} {R : Remote N σ χ} {c : ToolCall N} {os os' : List (McpNote N σ χ)} {s : World σ}

/-- **A call** puts nothing but a token of its user under a token key. -/
theorem tokenContract_sound : (TokenContract pf R).Sound (exec pf R) where
  refl _ := trivial
  trans _ _ _ _ _ := trivial
  step os s tid c op ch hinv hpre := by
    refine ⟨fun u e he => ?_, trivial⟩
    have hlater := List.prefix_append os [(⟨tid, c, ⟨s, op, ch⟩⟩ : McpNote N σ χ)]
    rcases exec_cache pf R ch op s with hsame | ⟨p, herase⟩ | ⟨key, seconds, value, rfl, hput⟩
    · rw [hsame] at he
      exact (hinv u e he).mono hlater
    · rw [herase, Store.erase] at he
      split at he
      · cases he
      · exact (hinv u e he).mono hlater
    · rw [hput] at he
      by_cases hkey : tokenKey u = key
      · rw [hkey, Store.put_self, Option.some.injEq] at he
        subst he
        rcases hpre with ⟨hmine, hissued⟩ | hother
        · rw [tokenKey_inj (hkey.trans hmine)]
          exact hissued.mono hlater
        · exact absurd (hkey.trans hother) tokenKey_ne
      · rw [Store.put_of_ne hkey] at he
        exact (hinv u e he).mono hlater

theorem TokenKnown.mono (hos : os <+: os') (op : McpOp N) (r : Except (McpErr N) op.Answer)
    (h : TokenKnown R c os op r) : TokenKnown R c os' op r := by
  cases r with
  | error e => cases op <;> trivial
  | ok a => cases op with
    | redisGet key => cases a with
      | none => trivial
      | some data => exact fun hkey => (h hkey).mono hos
    | authToken userId => exact Issued.mono h hos
    | _ => trivial

/-- **What is answered** is known. -/
theorem tokenKnown_exec {tid : ℕ} (op : McpOp N) (ch : McpChoice χ) (hinv : OwnTokens R os s) :
    TokenKnown R c (os ++ [⟨tid, c, ⟨s, op, ch⟩⟩]) op (exec pf R ch op s).1 := by
  cases hres : (exec pf R ch op s).1 with
  | error e => cases op <;> trivial
  | ok a => cases op with
    | redisGet key => cases a with
      | none => trivial
      | some data =>
        rintro rfl
        obtain ⟨e, hentry, rfl⟩ := get_of_exec hres
        exact (hinv _ e hentry).mono (List.prefix_append _ _)
    | authToken userId => exact ⟨_, List.mem_append_right _ (List.mem_singleton_self _), rfl, hres⟩
    | _ => trivial

end Sound

/-! ### The programs -/

section Programs

variable [Zero N] [DecidableEq N] {pf : Platform N} {R : Remote N σ χ} {c : ToolCall N}
  {os : List (McpNote N σ χ)}

omit [Zero N] [DecidableEq N] in
/-- A token is one of the caller's own. -/
theorem own_getToken {α : Type} {f : String → Gateway N α}
    (hf : ∀ token, Issued R os c.userId token → (f token).Asks (TokenKnown R c os) (Own pf R c os)) :
    (TokenProviderService.getToken c.userId >>= f).Asks (TokenKnown R c os) (Own pf R c os) := by
  unfold TokenProviderService.getToken
  rw [bind_assoc]
  refine Prog.Asks.await_bind (.inl rfl) fun cached hcached => ?_
  cases hmatch : cached.filter (· ≠ "") with
  | some token =>
    have hsome : cached = some token := (Option.filter_eq_some_iff.mp hmatch).1
    subst hsome
    dsimp only
    exact hf token (hcached rfl)
  | none =>
    dsimp only
    refine ⟨rfl, fun r hr => ?_⟩
    cases r with
    | error e => trivial
    | ok token =>
      refine ⟨.inl ⟨rfl, hr⟩, fun r _ => ?_⟩
      cases r with
      | error e => trivial
      | ok _ => exact hf token hr

omit [Zero N] [DecidableEq N] in
theorem own_set {result : Json N} {seconds : ℤ} :
    (CacheService.set pf (buildCacheKey pf c.tool c.userId c.args) result seconds).Asks
      (TokenKnown R c os) (Own pf R c os) := by
  unfold CacheService.set
  split
  · trivial
  · exact Prog.Asks.await (.inr rfl)

omit [Zero N] [DecidableEq N] in
theorem own_invalidate :
    (invalidateCartCache pf c.tool c.userId c.args).Asks (TokenKnown R c os) (Own pf R c os) := by
  unfold invalidateCartCache
  cases (if c.tool = "update_food_cart" then addressOf c.args else none) with
  | some addressId => exact Prog.Asks.await (i := McpOp.redisDel _) ⟨addressId, rfl⟩
  | none => exact Prog.Asks.await (i := McpOp.redisDelMatching _) rfl

theorem own_keep {result : Json N} : (keep pf c result).Asks (TokenKnown R c os) (Own pf R c os) := by
  have hbust : (if succeeded result = true ∧ (c.tool = "update_food_cart" ∨ c.tool = "flush_food_cart") then
      invalidateCartCache pf c.tool c.userId c.args else pure () : Gateway N Unit).Asks
      (TokenKnown R c os) (Own pf R c os) := by
    split
    · exact own_invalidate
    · trivial
  unfold keep
  by_cases hset : c.tool ∈ cacheableTools ∧ succeeded result = true
  · rw [if_pos hset]
    exact own_set.bind fun _ => hbust
  · rw [if_neg hset]
    exact hbust

/-- **One attempt** is made with a token of the caller. -/
theorem own_once {token : String} (h : Issued R os c.userId token) :
    (once pf c token).Asks (TokenKnown R c os) (Own pf R c os) := by
  rw [once_eq]
  exact Prog.Asks.await_bind ⟨rfl, rfl, h⟩ fun _ _ => own_keep.bind fun _ => trivial

theorem own_attempts {token : String} (h : Issued R os c.userId token) {left attempt : ℕ} :
    (attempts pf c token left attempt).Asks (TokenKnown R c os) (Own pf R c os) := by
  induction left generalizing attempt with
  | zero =>
    refine (own_once h).attempt_bind fun r => ?_
    cases r <;> trivial
  | succ left ih =>
    refine (own_once h).attempt_bind fun r => ?_
    cases r with
    | ok result => trivial
    | error e =>
      simp only
      rcases isRetryable pf e (attempt + 1) with e' | again
      · trivial
      · cases again with
        | false => trivial
        | true => exact Prog.Asks.await_bind trivial fun _ _ => ih

/-- **A call of a tool.** -/
theorem own_callTool (os : List (McpNote N σ χ)) : (callTool pf c).Asks (TokenKnown R c os) (Own pf R c os) := by
  have hlookup : (FoodMcpClient.lookup pf c).Asks (TokenKnown R c os) (Own pf R c os) := by
    unfold FoodMcpClient.lookup
    split
    · refine Prog.Asks.await_bind (.inr rfl) fun data _ => ?_
      cases data <;> trivial
    · trivial
  rw [callTool_eq]
  refine hlookup.bind fun cached => ?_
  cases cached.filter truthy with
  | some value => trivial
  | none => exact own_getToken fun token h => own_attempts h

end Programs

/-! ### Runs -/

section Runs

variable [Zero N] [DecidableEq N] {pf : Platform N} {R : Remote N σ χ} {calls : List (ToolCall N)}
  {clock : ℤ} {remote : σ}

/-- A call of a tool meets the contract, whatever happens before each of its calls. -/
theorem meets_callTool {tid : ℕ} {c : ToolCall N} {os : List (McpNote N σ χ)} {s : World σ} :
    (callTool pf c).Meets (TokenContract pf R) (exec pf R) tid c os s := by
  refine Prog.Meets.of_asks (K := TokenKnown R c) (A := Own pf R c) (fun os os' op r hos hr => hr.mono hos op r)
    (fun os s op ch hinv _ => tokenKnown_exec op ch hinv) (fun os s op _ hop => hop) (fun _ _ _ => trivial)
    fun os _ => ?_
  exact own_callTool os

theorem gateway_meetsTokens : (gateway pf calls clock remote).Meets (TokenContract pf R) (exec pf R) [] :=
  Pool.Meets.start (fun u e he => (by cases he)) fun _ _ _ => meets_callTool

/-- **Nothing is asked in another's name.** Whatever calls of tools are interleaved, and whatever fails: for a call
of a tool, only the keys of its user are read, written and removed, and only tokens of its user are asked for and
stored; and each request to the upstream server, a placement too, is the call's own tool with its own arguments,
under a token that auth-service had given out for its user. -/
theorem ownRequests (calls : List (ToolCall N)) (clock : ℤ) (remote : σ) (P : McpPool N σ)
    (pre post : List (McpNote N σ χ)) (o : McpNote N σ χ)
    (hr : Run (Pool.step (exec pf R)) anyStep (gateway pf calls clock remote) P (pre ++ o :: post)) :
    Own pf R o.tag pre o.event.call :=
  (Contract.run_at tokenContract_sound gateway_meetsTokens hr).2.1

end Runs

/-- The second call of `a` finds the token that was fetched for the first. -/
theorem ownRequests_threeCalls : ∃ P pre o, Run (Pool.step (exec plainPlatform plainRemote)) anyStep
    (gateway plainPlatform threeCalls 0 ()) P (pre ++ [o]) ∧ o.tid = 1 ∧
    o.event.call = .post "token of a" "get_food_cart" noArgs ∧ Issued plainRemote pre "a" "token of a" := by
  have hr := Run.of_runSteps .nil (show runSteps (Pool.step (exec plainPlatform plainRemote)) anyStep
    [(0, ⟨1, none, true, ()⟩), (0, ⟨1, none, true, ()⟩), (0, ⟨1, none, true, ()⟩), (0, ⟨1, none, true, ()⟩),
      (1, ⟨1, none, true, ()⟩), (1, ⟨1, none, true, ()⟩), (1, ⟨1, none, true, ()⟩)]
    (gateway plainPlatform threeCalls 0 ()) [] = some (_, _ ++ [_]) from rfl)
  exact ⟨_, _, _, hr, rfl, rfl, (ownRequests threeCalls 0 () _ _ [] _ hr).2.2⟩

end Gusto.Mcp
