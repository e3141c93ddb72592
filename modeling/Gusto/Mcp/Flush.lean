import Gusto.Lib.Fault
import Gusto.Lib.Glob
import Gusto.Lib.Triple
import Gusto.Mcp.Coherence

/-!
# What is removed of the cache

`update_food_cart` removes the cart that is cached for its address, and `flush_food_cart` cached carts by a
pattern in which the user's name stands as it is.

* `Redis`: patterns match as they do in Redis, and hashes are hexadecimal;
* `stored_of_run`: what the cache may hold, after any calls of any users, interleaved;
* `busts`: the keys that a call removes; `removal_spec`: it leaves the others as they are;
* `flushedExactly_iff`: a flush removes the carts of its user and nothing else where the pattern matches
  these carts and no other.
-/

set_option autoImplicit false

namespace Gusto.Mcp

open Effects Expiring FoodMcpClient

variable {N σ χ : Type}

/-- What is relied on of Redis and of the hash. -/
structure Redis (pf : Platform N) : Prop where
  glob : pf.glob = Glob.stringmatch
  hex : ∀ text, ':' ∉ (pf.sha256 text).toList

/-! ### Keys and patterns -/

section Keys

variable {pf : Platform N} {u v tool key : String} {args : Args N}

/-- What the keys of carts begin with. -/
def cartStart : String := "mcp:food:get_food_cart:"

theorem plain_cartStart : Glob.Plain cartStart := by decide

theorem flushPattern_eq : cartPrefix u ++ "*" = cartStart ++ (u ++ ":*") := by
  unfold cartPrefix cartStart
  simp only [String.append_assoc]
  rfl

theorem cartKey_eq : cartKey pf u args = cartStart ++ (u ++ ":" ++ pf.sha256 (argsText pf args)) := by
  unfold cartKey buildCacheKey cartStart
  simp only [String.append_assoc]
  rfl

/-- Whether a flush removes a cart. -/
theorem glob_cartKey (hpf : Redis pf) : pf.glob (cartPrefix u ++ "*") (cartKey pf v args) =
    Glob.stringmatch (u ++ ":*") (v ++ ":" ++ pf.sha256 (argsText pf args)) := by
  rw [hpf.glob, flushPattern_eq, cartKey_eq, Glob.stringmatch_append plain_cartStart]

/-- The carts of a user. -/
theorem owner_of_cartKey (hpf : Redis pf) {args' : Args N} (h : cartKey pf u args = cartKey pf v args') :
    u = v := by
  rw [cartKey_eq, cartKey_eq] at h
  have hlist : u.toList ++ ':' :: (pf.sha256 (argsText pf args)).toList =
      v.toList ++ ':' :: (pf.sha256 (argsText pf args')).toList := by
    simpa using congrArg String.toList ((String.append_right_inj _).mp h)
  exact String.toList_inj.mp (Search.append_cons_inj_right (hpf.hex _) (hpf.hex _) hlist).1

/-- A key that is put by some call. -/
def Put (pf : Platform N) (key : String) : Prop :=
  (∃ u, key = tokenKey u) ∨ ∃ tool ∈ cacheableTools, ∃ u args, key = buildCacheKey pf tool u args

theorem not_prefix_tokenKey : ¬ cartStart.toList <+: (tokenKey u).toList := by
  rintro ⟨rest, hrest⟩
  have hfifth := congrArg (fun cs => cs[4]?) hrest
  simp [cartStart, tokenKey] at hfifth

/-- The keys of other tools begin with other names. -/
theorem tool_of_start (htool : tool ∈ cacheableTools)
    (h : cartStart.toList <+: (buildCacheKey pf tool u args).toList) : tool = "get_food_cart" := by
  obtain ⟨rest, hrest⟩ := h
  have hlist : "get_food_cart".toList ++ ':' :: rest =
      tool.toList ++ ':' :: (u ++ ":" ++ pf.sha256 (argsText pf args)).toList := by
    simpa [cartStart, buildCacheKey] using hrest
  exact (String.toList_inj.mp
    (Search.append_cons_inj (no_colon _ (by decide)) (no_colon _ htool) hlist).1).symm

/-- A flush removes nothing but carts. -/
theorem cart_of_glob (hpf : Redis pf) (hkey : Put pf key)
    (hglob : pf.glob (cartPrefix u ++ "*") key = true) : ∃ v args, key = cartKey pf v args := by
  rw [hpf.glob, flushPattern_eq] at hglob
  have hprefix := Glob.isPrefix_of_stringmatch plain_cartStart hglob
  rcases hkey with ⟨v, rfl⟩ | ⟨tool, htool, v, args, rfl⟩
  · exact absurd hprefix not_prefix_tokenKey
  · rw [tool_of_start htool hprefix]
    exact ⟨v, args, rfl⟩

theorem glob_tokenKey (hpf : Redis pf) : pf.glob (cartPrefix u ++ "*") (tokenKey v) = false := by
  rw [hpf.glob, flushPattern_eq, Bool.eq_false_iff]
  exact fun h => not_prefix_tokenKey (Glob.isPrefix_of_stringmatch plain_cartStart h)

/-- The pattern by which the carts of a user are removed. -/
abbrev flushPattern (u : String) : String := cartPrefix u ++ "*"

/-- The keys that are removed by a call that has changed the cart. -/
def busts (pf : Platform N) (c : ToolCall N) (key : String) : Bool :=
  match if c.tool = "update_food_cart" then addressOf c.args else none with
  | some addressId => key = cartKey pf c.userId (addressArgs addressId)
  | none => pf.glob (flushPattern c.userId) key

theorem busts_of_address {c : ToolCall N} {addressId : String} (htool : c.tool = "update_food_cart")
    (haddress : addressOf c.args = some addressId) :
    busts pf c key = decide (key = cartKey pf c.userId (addressArgs addressId)) := by
  unfold busts
  rw [if_pos htool, haddress]

theorem busts_of_none {c : ToolCall N} (haddress : c.tool = "update_food_cart" → addressOf c.args = none) :
    busts pf c key = pf.glob (flushPattern c.userId) key := by
  unfold busts
  split
  · rename_i addressId h
    split at h
    · rename_i hupdate
      rw [haddress hupdate] at h
      cases h
    · cases h
  · rfl

theorem busts_of_flush {c : ToolCall N} (htool : c.tool = "flush_food_cart") :
    busts pf c key = pf.glob (flushPattern c.userId) key :=
  busts_of_none fun hupdate => absurd (htool.symm.trans hupdate) (by decide)

/-- No token is removed. -/
theorem busts_tokenKey (hpf : Redis pf) {c : ToolCall N} : busts pf c (tokenKey v) = false := by
  unfold busts
  split
  · exact decide_eq_false tokenKey_ne
  · exact glob_tokenKey hpf

/-- A name that the name of another user begins with, and a colon. -/
theorem stringmatch_plain (hpf : Redis pf) (hu : Glob.Plain u) :
    Glob.stringmatch (u ++ ":*") (v ++ ":" ++ pf.sha256 (argsText pf args)) = true ↔
      v = u ∨ (u ++ ":").toList <+: v.toList := by
  have hcolon : Glob.Plain ":" := by decide
  rw [show u ++ ":*" = u ++ ":" ++ "*" by rw [String.append_assoc]; rfl,
    Glob.stringmatch_prefix (hu.append hcolon)]
  have hname : (u ++ ":").toList = u.toList ++ [':'] := String.toList_append
  have hkey : (v ++ ":" ++ pf.sha256 (argsText pf args)).toList =
      v.toList ++ ':' :: (pf.sha256 (argsText pf args)).toList := by simp
  rw [hname, hkey, ← String.toList_inj]
  constructor
  · exact Search.prefix_append_cons (hpf.hex _)
  · rintro (hsame | hprefix)
    · rw [hsame]
      exact ⟨_, by rw [List.append_assoc]; rfl⟩
    · exact hprefix.trans (List.prefix_append _ _)

end Keys

/-! ### The calls of a tool -/

section Calls

/-- A call of the interface that writes nothing to the cache. -/
def McpOp.quiet : McpOp N → Prop
  | .redisSetex .. | .redisDel _ | .redisDelMatching _ => False
  | _ => True

/-- What the calls that are made for `c` all meet. -/
structure Permits (pf : Platform N) (c : ToolCall N) (P : McpOp N → Prop) : Prop where
  quiet : ∀ op, op.quiet → P op
  token : ∀ seconds value, P (.redisSetex (tokenKey c.userId) seconds value)
  result : c.tool ∈ cacheableTools → ∀ seconds value,
    P (.redisSetex (buildCacheKey pf c.tool c.userId c.args) seconds value)
  del : c.tool = "update_food_cart" → ∀ addressId, addressOf c.args = some addressId →
    P (.redisDel (cartKey pf c.userId (addressArgs addressId)))
  delByPrefix : c.tool = "update_food_cart" ∨ c.tool = "flush_food_cart" →
    (c.tool = "update_food_cart" → addressOf c.args = none) → P (.redisDelMatching (flushPattern c.userId))

variable {pf : Platform N} {c : ToolCall N} {P : McpOp N → Prop} {α β : Type}

theorem calls_call {op : McpOp N} (h : P op) : (call op : Gateway N op.Answer).Calls fun op _ => P op :=
  ⟨h, fun r => by cases r <;> trivial⟩

theorem calls_bind {p : Gateway N α} {f : α → Gateway N β} (hp : p.Calls fun op _ => P op)
    (hf : ∀ a, (f a).Calls fun op _ => P op) : (p >>= f).Calls fun op _ => P op :=
  Prog.Calls.bind hp (fun _ _ h => h) hf

theorem calls_attempt {p : Gateway N α} (hp : p.Calls fun op _ => P op) :
    p.attempt.Calls fun op _ => P op :=
  Prog.Calls.attempt hp fun _ _ h => h

theorem calls_getToken {userId : String} (hget : P (.redisGet (tokenKey userId))) (hauth : P (.authToken userId))
    (hset : ∀ seconds value, P (.redisSetex (tokenKey userId) seconds value)) :
    (TokenProviderService.getToken userId : Gateway N String).Calls fun op _ => P op := by
  unfold TokenProviderService.getToken
  refine calls_bind (calls_call hget) fun cached => ?_
  split
  · trivial
  · refine calls_bind (calls_attempt ?_) fun fetched => ?_
    · exact calls_bind (calls_call hauth) fun token => calls_bind (calls_call (hset _ token)) fun _ => trivial
    · cases fetched <;> trivial

theorem calls_lookup (hget : ∀ key, P (.redisGet key)) : (lookup pf c).Calls fun op _ => P op := by
  unfold lookup CacheService.get
  split
  · refine calls_bind (calls_call (hget _)) fun data => ?_
    cases data <;> trivial
  · trivial

theorem calls_invalidate
    (hdel : c.tool = "update_food_cart" → ∀ addressId, addressOf c.args = some addressId →
      P (.redisDel (cartKey pf c.userId (addressArgs addressId))))
    (hmatching : (c.tool = "update_food_cart" → addressOf c.args = none) →
      P (.redisDelMatching (flushPattern c.userId))) :
    (invalidateCartCache pf c.tool c.userId c.args).Calls fun op _ => P op := by
  unfold invalidateCartCache
  by_cases hupdate : c.tool = "update_food_cart"
  · rw [if_pos hupdate]
    cases haddress : addressOf c.args with
    | some addressId => exact calls_call (hdel hupdate addressId haddress)
    | none => exact calls_call (hmatching fun _ => haddress)
  · rw [if_neg hupdate]
    exact calls_call (hmatching fun h => absurd h hupdate)

variable [Zero N] [DecidableEq N]

theorem calls_keep {result : Json N}
    (hset : c.tool ∈ cacheableTools → ∀ seconds value,
      P (.redisSetex (buildCacheKey pf c.tool c.userId c.args) seconds value))
    (hdel : c.tool = "update_food_cart" → ∀ addressId, addressOf c.args = some addressId →
      P (.redisDel (cartKey pf c.userId (addressArgs addressId))))
    (hmatching : c.tool = "update_food_cart" ∨ c.tool = "flush_food_cart" →
      (c.tool = "update_food_cart" → addressOf c.args = none) → P (.redisDelMatching (flushPattern c.userId))) :
    (keep pf c result).Calls fun op _ => P op := by
  have hbust : (if succeeded result = true ∧
      (c.tool = "update_food_cart" ∨ c.tool = "flush_food_cart") then
        invalidateCartCache pf c.tool c.userId c.args else pure () : Gateway N Unit).Calls
      fun op _ => P op := by
    split
    · rename_i hsucceeded
      exact calls_invalidate hdel (hmatching hsucceeded.2)
    · trivial
  unfold keep CacheService.set
  by_cases hcached : c.tool ∈ cacheableTools ∧ succeeded result = true
  · rw [if_pos hcached]
    refine calls_bind ?_ fun _ => hbust
    split
    · trivial
    · exact calls_call (hset hcached.1 _ _)
  · rw [if_neg hcached]
    exact hbust

variable (h : Permits pf c P)
include h

theorem calls_once {token : String} : (once pf c token).Calls fun op _ => P op := by
  rw [once_eq]
  exact calls_bind (calls_call (h.quiet _ trivial)) fun result =>
    calls_bind (calls_keep h.result h.del h.delByPrefix) fun _ => trivial

/-- The attempts, by induction on those left. -/
theorem calls_attempts {token : String} {left attempt : ℕ} :
    (attempts pf c token left attempt).Calls fun op _ => P op := by
  induction left generalizing attempt with
  | zero =>
    unfold attempts
    refine calls_bind (calls_attempt (calls_once h)) fun r => ?_
    cases r <;> trivial
  | succ left ih =>
    unfold attempts
    refine calls_bind (calls_attempt (calls_once h)) fun r => ?_
    cases r with
    | ok result => trivial
    | error e =>
      dsimp only
      split
      · trivial
      · trivial
      · exact calls_bind (calls_call (h.quiet _ trivial)) fun _ => ih

/-- **The calls of a tool** are of five kinds. -/
theorem calls_callTool : (callTool pf c).Calls fun op _ => P op := by
  rw [callTool_eq]
  refine calls_bind (calls_lookup fun key => h.quiet _ trivial) fun cached => ?_
  split
  · trivial
  · refine calls_bind (calls_getToken (h.quiet _ trivial) (h.quiet _ trivial) h.token) fun token => ?_
    exact calls_attempts h

end Calls

/-! ### What the cache may hold -/

section Stored

variable {pf : Platform N} {R : Remote N σ χ}

/-- A call of the interface puts nothing under other keys. -/
def PutsKnown (pf : Platform N) : McpOp N → Prop
  | .redisSetex key _ _ => Put pf key
  | _ => True

theorem permits_putsKnown (c : ToolCall N) : Permits pf c (PutsKnown pf) where
  quiet op hop := by cases op <;> trivial
  token _ _ := .inl ⟨c.userId, rfl⟩
  result htool _ _ := .inr ⟨c.tool, htool, c.userId, c.args, rfl⟩
  del _ _ _ := trivial
  delByPrefix _ _ := trivial

/-- Every key of the cache has been put by some call. -/
def Stored (pf : Platform N) (s : World σ) : Prop := ∀ key, s.cache key ≠ none → Put pf key

theorem Stored.step {s : World σ} {op : McpOp N} {ch : McpChoice χ} (h : Stored pf s)
    (hop : PutsKnown pf op) : Stored pf (exec pf R ch op s).2 := by
  intro key hkey
  rcases exec_cache pf R ch op s with hsame | ⟨p, herase⟩ | ⟨key', seconds, value, rfl, hput⟩
  · rw [hsame] at hkey
    exact h key hkey
  · rw [herase, Store.erase] at hkey
    split at hkey
    · exact absurd rfl hkey
    · exact h key hkey
  · by_cases hsame : key = key'
    · rw [hsame]
      exact hop
    · rw [hput, Store.put_of_ne hsame] at hkey
      exact h key hkey

/-- **What the cache may hold**, after any calls of any users, interleaved. -/
theorem stored_of_run [Zero N] [DecidableEq N] {calls : List (ToolCall N)} {clock : ℤ} {remote : σ}
    {P : McpPool N σ} {os : List (McpNote N σ χ)}
    (hr : Run (Pool.step (exec pf R)) anyStep (gateway pf calls clock remote) P os) : Stored pf P.state := by
  have hkept : Stored pf P.state ∧ ∀ th ∈ P.threads, th.prog.Calls fun op _ => PutsKnown pf op := by
    refine hr.invariant (fun _ P => Stored pf P.state ∧ ∀ th ∈ P.threads, th.prog.Calls fun op _ => PutsKnown pf op)
      ⟨fun key hkey => absurd rfl hkey, fun th hth => ?_⟩ fun os P l P' o hP _ hstep => ?_
    · rw [(Pool.start_threads hth).2]
      exact calls_callTool (permits_putsKnown th.tag)
    · obtain ⟨hstored, hthreads⟩ := hP
      obtain ⟨tag, op, k, rest, -, hperm, -, hperm', hstate, -⟩ := Pool.step_cases hstep
      have hrun := hthreads _ (hperm.mem_iff.mpr List.mem_cons_self)
      rw [hstate]
      exact ⟨hstored.step hrun.1, Pool.forall_of_perm hperm hperm' hthreads (hrun.2 _)⟩
  exact hkept.1

end Stored

/-! ### A removal -/

section Removal

variable {pf : Platform N} {R : Remote N σ χ} {c : ToolCall N} {s₀ s : World σ}

/-- The tools after which carts are removed from the cache. -/
def Busting (c : ToolCall N) : Prop := c.tool = "update_food_cart" ∨ c.tool = "flush_food_cart"

instance (c : ToolCall N) : Decidable (Busting c) := inferInstanceAs (Decidable (_ ∨ _))

/-- The calls that are made for a call that removes carts. -/
def Removes (pf : Platform N) (c : ToolCall N) : McpOp N → Prop
  | .redisSetex key _ _ => key = tokenKey c.userId
  | .redisDel key => ∀ k, decide (k = key) = busts pf c k
  | .redisDelMatching pattern => ∀ k, pf.glob pattern k = busts pf c k
  | _ => True

theorem permits_removes (hbust : Busting c) : Permits pf c (Removes pf c) where
  quiet op hop := by cases op <;> trivial
  token _ _ := rfl
  result hmem := absurd hmem (not_mem_cacheableTools hbust)
  del htool _ haddress _ := (busts_of_address htool haddress).symm
  delByPrefix _ haddress _ := (busts_of_none haddress).symm

/-- What a call that removes carts may have done since `s₀`. -/
structure Removing (pf : Platform N) (c : ToolCall N) (s₀ s : World σ) : Prop where
  others : ∀ key, key ≠ tokenKey c.userId →
    s.cache key = s₀.cache key ∨ busts pf c key = true ∧ s.cache key = none
  token : s₀.cache (tokenKey c.userId) ≠ none → s.cache (tokenKey c.userId) ≠ none

variable (pf R s) in
/-- Such a call keeps the cache, removes its keys, or puts a token. -/
theorem exec_removes {op : McpOp N} (ch : McpChoice χ) (hop : Removes pf c op) :
    (exec pf R ch op s).2.cache = s.cache ∨
    (exec pf R ch op s).2.cache = s.cache.erase (busts pf c) ∨
    ∃ value d, (exec pf R ch op s).2.cache = s.cache.put (tokenKey c.userId) value d := by
  cases op with
  | redisSetex key seconds value =>
    obtain rfl : key = tokenKey c.userId := hop
    cases he : ch.error <;> cases hs : ch.served <;> simp [exec, serve, he, hs]
  | redisDelMatching pattern =>
    obtain hkeys : pf.glob pattern = busts pf c := funext hop
    cases he : ch.error <;> cases hs : ch.served <;> simp [exec, serve, he, hs, hkeys]
  | redisDel key =>
    obtain hkeys : (fun k => decide (k = key)) = busts pf c := funext hop
    cases he : ch.error <;> cases hs : ch.served <;> simp [exec, serve, he, hs, hkeys]
  | redisGet key => cases he : ch.error <;> cases hs : ch.served <;> simp [exec, serve, he, hs]
  | _ => exact .inl rfl

theorem Removing.step (hpf : Redis pf) {op : McpOp N} {ch : McpChoice χ} (h : Removing pf c s₀ s)
    (hop : Removes pf c op) : Removing pf c s₀ (exec pf R ch op s).2 := by
  rcases exec_removes pf R s ch hop with hsame | herase | ⟨value, d, hput⟩
  · refine ⟨fun key hkey => ?_, fun hold => ?_⟩
    · rw [hsame]
      exact h.others key hkey
    · rw [hsame]
      exact h.token hold
  · refine ⟨fun key hkey => ?_, fun hold => ?_⟩
    · rw [herase, Store.erase]
      split
      · rename_i hbusts
        exact .inr ⟨hbusts, rfl⟩
      · exact h.others key hkey
    · rw [herase, Store.erase, busts_tokenKey hpf]
      exact h.token hold
  · refine ⟨fun key hkey => ?_, fun _ => ?_⟩
    · rw [hput, Store.put_of_ne hkey]
      exact h.others key hkey
    · rw [hput, Store.put_self]
      exact Option.some_ne_none _

/-- A key is gone when its removal has been answered. -/
theorem exec_redisDel {key : String} {ch : McpChoice χ} {a : Unit}
    (h : (exec pf R ch (.redisDel key) s).1 = .ok a) : (exec pf R ch (.redisDel key) s).2.cache key = none := by
  cases he : ch.error with
  | some message => simp [exec, serve, he] at h
  | none => simp [exec, serve, he, Store.erase]

theorem exec_redisDelMatching {pattern key : String} {ch : McpChoice χ} {a : Unit}
    (h : (exec pf R ch (.redisDelMatching pattern) s).1 = .ok a) (hkey : pf.glob pattern key = true) :
    (exec pf R ch (.redisDelMatching pattern) s).2.cache key = none := by
  cases he : ch.error with
  | some message => simp [exec, serve, he] at h
  | none => simp [exec, serve, he, Store.erase, hkey]

/-- Where the removal is answered, nothing of it is left. -/
theorem gone_invalidate : (invalidateCartCache pf c.tool c.userId c.args).wlp (exec pf R)
    (fun _ r s => r = .ok () → ∀ key, busts pf c key = true → s.cache key = none) s := by
  unfold invalidateCartCache busts
  cases (if c.tool = "update_food_cart" then addressOf c.args else none) with
  | some addressId =>
    intro ch
    cases hdel : (exec pf R ch (.redisDel (buildCacheKey pf "get_food_cart" c.userId (addressArgs addressId))) s).1 with
    | error e =>
      intro h
      cases h
    | ok a =>
      intro _ key hkey
      rw [decide_eq_true_iff.mp hkey]
      exact exec_redisDel hdel
  | none =>
    intro ch
    cases hdel : (exec pf R ch (.redisDelMatching (flushPattern c.userId)) s).1 with
    | error e =>
      intro h
      cases h
    | ok a => exact fun _ key hkey => exec_redisDelMatching hdel hkey

/-- Nothing that is removed is left, if the result is a success. -/
def Gone (pf : Platform N) [Zero N] [DecidableEq N] (c : ToolCall N) (r : Except (McpErr N) (Json N))
    (s : World σ) : Prop :=
  ∀ result, r = .ok result → succeeded result = true → ∀ key, busts pf c key = true → s.cache key = none

variable [Zero N] [DecidableEq N]

theorem gone_error {e : McpErr N} : Gone pf c (.error e) s := by
  intro result h
  cases h

/-- The removal is the last call of an attempt. -/
theorem gone_keep (hbust : Busting c) {result : Json N} :
    (keep pf c result).wlp (exec pf R) (fun _ r s => r = .ok () → succeeded result = true →
      ∀ key, busts pf c key = true → s.cache key = none) s := by
  have hset : ¬ (c.tool ∈ cacheableTools ∧ succeeded result = true) := fun h =>
    not_mem_cacheableTools hbust h.1
  unfold keep
  rw [if_neg hset]
  split
  · exact Prog.wlp_mono (fun _ r s' h hok _ => h hok) gone_invalidate
  · rename_i hskip
    exact fun _ hsucceeded => absurd ⟨hsucceeded, hbust⟩ hskip

theorem gone_once (hbust : Busting c) {token : String} :
    (once pf c token).wlp (exec pf R) (fun _ r s => Gone pf c r s) s := by
  rw [once_eq, call, Prog.wlp_await_bind]
  intro ch
  rcases exec pf R ch (.post token c.tool c.args) s with ⟨_ | result, s₁⟩
  · exact gone_error
  · dsimp only
    rw [Prog.wlp_bind]
    refine Prog.wlp_mono (fun _ r s₂ hgone => ?_) (gone_keep hbust)
    cases r with
    | error e => exact gone_error
    | ok a =>
      rintro result' hresult
      obtain rfl := Except.ok.inj hresult
      exact hgone rfl

/-- The attempts, by induction on those left. -/
theorem gone_attempts (hbust : Busting c) {token : String} {left attempt : ℕ} :
    (attempts pf c token left attempt).wlp (exec pf R) (fun _ r s => Gone pf c r s) s := by
  induction left generalizing attempt s with
  | zero =>
    unfold attempts
    rw [Prog.wlp_bind, Prog.wlp_attempt]
    refine Prog.wlp_mono (fun _ r s₁ hgone => ?_) (gone_once hbust)
    cases r with
    | ok result => exact hgone
    | error e => exact gone_error
  | succ left ih =>
    unfold attempts
    rw [Prog.wlp_bind, Prog.wlp_attempt]
    refine Prog.wlp_mono (fun _ r s₁ hgone => ?_) (gone_once hbust)
    cases r with
    | ok result => exact hgone
    | error e =>
      dsimp only
      split
      · exact gone_error
      · exact gone_error
      · rw [call, Prog.wlp_await_bind]
        intro ch
        exact ih

/-- Nothing of what is removed is left, if the call succeeds. -/
theorem gone_callTool (hbust : Busting c) :
    (callTool pf c).wlp (exec pf R) (fun _ r s => Gone pf c r s) s := by
  rw [callTool_eq, FoodMcpClient.lookup, if_neg (not_mem_cacheableTools hbust)]
  show (fetch pf c).wlp _ _ s
  unfold fetch
  rw [Prog.wlp_bind]
  refine Prog.wlp_mono (fun _ r s₁ _ => ?_)
    (Prog.wlp_invariant (I := fun _ => True) (fun _ _ _ _ => trivial) trivial)
  cases r with
  | error e => exact gone_error
  | ok token => exact gone_attempts hbust

/-- **What a removal leaves**: of all keys but the token of its user, those that it is not for. -/
theorem removal_spec (hpf : Redis pf) (hbust : Busting c) {cs : List (McpChoice χ)}
    {d : Done (World σ) (McpOp N) (McpChoice χ) (McpErr N) (Json N)} {result : Json N}
    (hrun : (callTool pf c).run (exec pf R) cs s = some d) (hresult : d.result = .ok result)
    (hsucceeded : succeeded result = true) :
    (∀ key, key ≠ tokenKey c.userId → d.state.cache key =
      if busts pf c key = true then none else s.cache key) ∧
    (s.cache (tokenKey c.userId) ≠ none → d.state.cache (tokenKey c.userId) ≠ none) := by
  have hwlp : (callTool pf c).wlp (exec pf R) (fun _ _ s' => Removing pf c s s') s :=
    Prog.Calls.wlp (fun _ _ _ hop h => h.step hpf hop) (calls_callTool (permits_removes hbust))
      ⟨fun _ _ => .inl rfl, id⟩
  have hremoving := Prog.wlp_iff_run.mp hwlp cs d hrun
  have hgone : Gone pf c d.result d.state := Prog.wlp_iff_run.mp (gone_callTool hbust) cs d hrun
  refine ⟨fun key hkey => ?_, hremoving.token⟩
  split
  · rename_i hbusts
    exact hgone result hresult hsucceeded key hbusts
  · rename_i hbusts
    exact (hremoving.others key hkey).resolve_right fun h => hbusts h.1

/-- A flush removes what matches its pattern. -/
theorem flush_spec (hpf : Redis pf) (htool : c.tool = "flush_food_cart") {cs : List (McpChoice χ)}
    {d : Done (World σ) (McpOp N) (McpChoice χ) (McpErr N) (Json N)} {result : Json N}
    (hrun : (callTool pf c).run (exec pf R) cs s = some d) (hresult : d.result = .ok result)
    (hsucceeded : succeeded result = true) :
    (∀ key, key ≠ tokenKey c.userId → d.state.cache key =
      if pf.glob (flushPattern c.userId) key = true then none else s.cache key) ∧
    (s.cache (tokenKey c.userId) ≠ none → d.state.cache (tokenKey c.userId) ≠ none) := by
  obtain ⟨hspec, htoken⟩ := removal_spec hpf (.inr htool) hrun hresult hsucceeded
  refine ⟨fun key hkey => ?_, htoken⟩
  rw [hspec key hkey, busts_of_flush htool]

end Removal

/-! ### The carts of one user -/

section Carts

/-- Between `s` and `s'` all carts of a user are removed, and nothing else, as it is read at the instant of
`s'`; the token of the user may be another. -/
structure FlushedExactly (pf : Platform N) (u : String) (s s' : World σ) : Prop where
  gone : ∀ args : Args N, s'.cache.get s'.clock (cartKey pf u args) = none
  kept : ∀ key, key ≠ tokenKey u → (∀ args : Args N, key ≠ cartKey pf u args) →
    s'.cache.get s'.clock key = s.cache.get s'.clock key
  token : s.cache (tokenKey u) ≠ none → s'.cache (tokenKey u) ≠ none

/-- A cart of the user is cached, and can still be read at an instant. -/
def HasCart (pf : Platform N) (s : World σ) (now : ℤ) (u : String) (args : Args N) : Prop :=
  s.cache.get now (cartKey pf u args) ≠ none

variable {pf : Platform N} {u v : String} {s s' : World σ}

/-- **Where the pattern is right**: it matches the cached carts of the user, and no other. -/
theorem flushedExactly_of_spec (hpf : Redis pf) (hstored : Stored pf s)
    (hspec : ∀ key, key ≠ tokenKey u →
      s'.cache key = if pf.glob (flushPattern u) key = true then none else s.cache key)
    (htoken : s.cache (tokenKey u) ≠ none → s'.cache (tokenKey u) ≠ none) :
    FlushedExactly pf u s s' ↔ ∀ v args, HasCart pf s s'.clock v args →
      (pf.glob (flushPattern u) (cartKey pf v args) = true ↔ v = u) := by
  have hread : ∀ key, key ≠ tokenKey u → s'.cache.get s'.clock key =
      if pf.glob (flushPattern u) key = true then none else s.cache.get s'.clock key := by
    intro key hkey
    unfold Store.get
    rw [hspec key hkey]
    split <;> rfl
  have hcart : ∀ v args, s'.cache.get s'.clock (cartKey pf v args) =
      if pf.glob (flushPattern u) (cartKey pf v args) = true then none
      else s.cache.get s'.clock (cartKey pf v args) := fun v args => hread _ tokenKey_ne.symm
  constructor
  · intro h v args hcached
    constructor
    · intro hglob
      by_contra hne
      have hkept := h.kept (cartKey pf v args) tokenKey_ne.symm fun args' hkey =>
        hne (owner_of_cartKey hpf hkey)
      rw [hcart, if_pos hglob] at hkept
      exact hcached hkept.symm
    · rintro rfl
      by_contra hglob
      have hgone := h.gone args
      rw [hcart, if_neg hglob] at hgone
      exact hcached hgone
  · intro h
    refine ⟨fun args => ?_, fun key hkey hother => ?_, htoken⟩
    · rw [hcart]
      by_cases hcached : HasCart pf s s'.clock u args
      · exact if_pos ((h u args hcached).mpr rfl)
      · rw [not_not.mp hcached, ite_self]
    · rw [hread key hkey]
      split
      · rename_i hglob
        by_contra hne
        obtain ⟨v, args, rfl⟩ := cart_of_glob hpf (hstored key fun hnone => hne (by simp [Store.get, hnone])) hglob
        have howner := (h v args (Ne.symm hne)).mp hglob
        exact hother args (by rw [howner])
      · rfl

/-- A name does not begin with itself and a colon. -/
theorem matches_iff (hpf : Redis pf) (hu : Glob.Plain u) {args : Args N} :
    (Glob.stringmatch (u ++ ":*") (v ++ ":" ++ pf.sha256 (argsText pf args)) = true ↔ v = u) ↔
      ¬ (u ++ ":").toList <+: v.toList := by
  rw [stringmatch_plain hpf hu, or_iff_left_iff_imp]
  constructor
  · intro h hprefix
    have hlen := hprefix.length_le
    rw [h hprefix] at hlen
    simp at hlen
  · exact fun h hprefix => absurd hprefix h

end Carts

/-- **What a flush removes.** After any calls of any users, interleaved, a flush that succeeds removes
the carts of its user and nothing else exactly if, of the carts that were cached and can still be read, the
pattern matches these; for a user whose name has no special characters, if no other with such a cart has a
name that begins with it and a colon. -/
theorem flushedExactly_iff [Zero N] [DecidableEq N] (pf : Platform N) (R : Remote N σ χ) (hpf : Redis pf)
    (calls : List (ToolCall N)) (clock : ℤ) (remote : σ) (P : McpPool N σ) (os : List (McpNote N σ χ))
    (hr : Run (Pool.step (exec pf R)) anyStep (gateway pf calls clock remote) P os)
    (c : ToolCall N) (htool : c.tool = "flush_food_cart") (cs : List (McpChoice χ))
    (d : Done (World σ) (McpOp N) (McpChoice χ) (McpErr N) (Json N)) (result : Json N)
    (hrun : (callTool pf c).run (exec pf R) cs P.state = some d) (hresult : d.result = .ok result)
    (hsucceeded : succeeded result = true) :
    (FlushedExactly pf c.userId P.state d.state ↔ ∀ v args, HasCart pf P.state d.state.clock v args →
      (Glob.stringmatch (c.userId ++ ":*") (v ++ ":" ++ pf.sha256 (argsText pf args)) = true ↔
        v = c.userId)) ∧
    (Glob.Plain c.userId → (FlushedExactly pf c.userId P.state d.state ↔ ∀ v args,
      HasCart pf P.state d.state.clock v args → ¬ (c.userId ++ ":").toList <+: v.toList)) := by
  obtain ⟨hspec, htoken⟩ := flush_spec hpf htool hrun hresult hsucceeded
  have hexact : FlushedExactly pf c.userId P.state d.state ↔ ∀ v args, HasCart pf P.state d.state.clock v args →
      (Glob.stringmatch (c.userId ++ ":*") (v ++ ":" ++ pf.sha256 (argsText pf args)) = true ↔
        v = c.userId) := by
    rw [flushedExactly_of_spec hpf (stored_of_run hr) hspec htoken]
    simp only [glob_cartKey hpf]
  refine ⟨hexact, fun hplain => ?_⟩
  rw [hexact]
  simp only [matches_iff hpf hplain]

/-! ### A user whose name begins with that of another -/

/-- The platform with the patterns of Redis. -/
def redisPlatform : Platform ℤ := { plainPlatform with glob := Glob.stringmatch }

theorem redis_redisPlatform : Redis redisPlatform where
  glob := rfl
  hex := digest_threeCalls.hex

/-- The cache after the user `a:b` has read a cart. -/
def oneCart : World Unit :=
  ⟨6, (Store.empty.put (tokenKey "a:b") "token of a:b" (some 30004)).put
    (cartKey redisPlatform "a:b" noArgs) "\x7b\"success\":true,\"for\":\"token of a:b\"\x7d" (some 300006), ()⟩

def readOne : List (ToolCall ℤ) := [⟨"get_food_cart", noArgs, "a:b"⟩]

theorem run_oneCart : ∃ P os, Run (Pool.step (exec redisPlatform plainRemote)) anyStep
    (gateway redisPlatform readOne 0 ()) P os ∧ P.state = oneCart :=
  ⟨_, _, Run.of_runSteps .nil (show runSteps (Pool.step (exec redisPlatform plainRemote)) anyStep
    [(0, ⟨1, none, true, ()⟩), (0, ⟨1, none, true, ()⟩), (0, ⟨1, none, true, ()⟩), (0, ⟨1, none, true, ()⟩),
      (0, ⟨1, none, true, ()⟩), (0, ⟨1, none, true, ()⟩)]
    (gateway redisPlatform readOne 0 ()) [] = some (_, _) from rfl), rfl⟩

/-- Calls that each take a millisecond. -/
def quick (calls : ℕ) : List (McpChoice Unit) := List.replicate calls ⟨1, none, true, ()⟩

def flushOf (u : String) : ToolCall ℤ := ⟨"flush_food_cart", noArgs, u⟩

theorem flushOf_runs {u : String} (hu : u = "a" ∨ u = "b") : ∃ d result,
    (callTool redisPlatform (flushOf u)).run (exec redisPlatform plainRemote) (quick 5) oneCart = some d ∧
    d.result = .ok result ∧ succeeded result = true ∧ d.state.clock = 11 := by
  rcases hu with rfl | rfl
  · exact ⟨_, _, rfl, rfl, rfl, rfl⟩
  · exact ⟨_, _, rfl, rfl, rfl, rfl⟩

theorem owner_oneCart {now : ℤ} {v : String} {args : Args ℤ} (h : HasCart redisPlatform oneCart now v args) :
    v = "a:b" := by
  by_contra hne
  refine h ?_
  have hkey : cartKey redisPlatform v args ≠ cartKey redisPlatform "a:b" noArgs := fun hkey =>
    hne (owner_of_cartKey redis_redisPlatform hkey)
  unfold oneCart
  dsimp only
  rw [Store.get_put_of_ne hkey, Store.get_put_of_ne tokenKey_ne.symm]
  rfl

/-- A flush of `b` removes nothing of `a:b`. -/
theorem flushedExactly_iff_apart : ∃ d result, (callTool redisPlatform (flushOf "b")).run
    (exec redisPlatform plainRemote) (quick 5) oneCart = some d ∧ d.result = .ok result ∧
    succeeded result = true ∧ FlushedExactly redisPlatform "b" oneCart d.state := by
  obtain ⟨P, os, hr, hstate⟩ := run_oneCart
  obtain ⟨d, result, hrun, hresult, hsucceeded, -⟩ := flushOf_runs (.inr rfl)
  rw [← hstate] at hrun
  obtain ⟨-, hplain⟩ := flushedExactly_iff redisPlatform plainRemote redis_redisPlatform readOne 0 () P os hr
    (flushOf "b") rfl (quick 5) d result hrun hresult hsucceeded
  rw [hstate] at hrun hplain
  refine ⟨d, result, hrun, hresult, hsucceeded, (hplain (by decide)).mpr fun v args hcart => ?_⟩
  rw [owner_oneCart hcart]
  decide

/-- A flush of `a` removes the cart of `a:b`. -/
theorem not_flushedExactly : ¬ ∀ (pf : Platform ℤ) (R : Remote ℤ Unit Unit) (calls : List (ToolCall ℤ))
    (P : McpPool ℤ Unit) (os : List (McpNote ℤ Unit Unit)) (c : ToolCall ℤ) (cs : List (McpChoice Unit))
    (d : Done (World Unit) (McpOp ℤ) (McpChoice Unit) (McpErr ℤ) (Json ℤ)) (result : Json ℤ), Redis pf →
    Run (Pool.step (exec pf R)) anyStep (gateway pf calls 0 ()) P os → c.tool = "flush_food_cart" →
    (callTool pf c).run (exec pf R) cs P.state = some d → d.result = .ok result → succeeded result = true →
    FlushedExactly pf c.userId P.state d.state := by
  intro h
  obtain ⟨P, os, hr, hstate⟩ := run_oneCart
  obtain ⟨d, result, hrun, hresult, hsucceeded, hclock⟩ := flushOf_runs (.inl rfl)
  have hflushed := h redisPlatform plainRemote readOne P os (flushOf "a") (quick 5) d result
    redis_redisPlatform hr rfl (hstate ▸ hrun) hresult hsucceeded
  have hcarts := (flushedExactly_of_spec redis_redisPlatform (stored_of_run hr)
    (flush_spec redis_redisPlatform rfl (hstate ▸ hrun) hresult hsucceeded).1 hflushed.token).mp hflushed
  have hcached : HasCart redisPlatform P.state d.state.clock "a:b" noArgs := by
    rw [hstate, hclock]
    unfold HasCart oneCart
    rw [Store.get_put_self]
    decide
  exact absurd ((hcarts "a:b" noArgs hcached).mp (by decide +kernel)) (by decide)

end Gusto.Mcp
