import Gusto.Lib.Rely
import Gusto.Lib.Search
import Gusto.Mcp.Client
import Mathlib.Data.Set.Function

/-!
# Whose responses are served

Any calls of tools by any users, interleaved, over one cache and any remote services.

* `buildCacheKey_inj`: tool, user and hash can be told from a key, whatever the user is called;
* `CacheContract`: what lies under the key of a call was fetched for the same tool, user and arguments;
* `noCrossUserReads`: and so is every response that is returned, from the cache or not.
-/

set_option autoImplicit false

namespace Gusto.Mcp

open Effects Expiring FoodMcpClient
open Gusto.Events (truthy)

variable {N σ χ : Type}

/-! ### Keys -/

section Keys

variable {pf : Platform N}

/-- What is relied on of the hash: its digits are hexadecimal, and no two of the texts have one hash. -/
structure Digest (pf : Platform N) (texts : Set String) : Prop where
  hex : ∀ text, ':' ∉ (pf.sha256 text).toList
  injective : Set.InjOn pf.sha256 texts

theorem no_colon : ∀ tool ∈ cacheableTools, ':' ∉ tool.toList := by decide

/-- **Keys.** A user may have colons anywhere: the tool ends at the first colon, the hash begins at the
last. -/
theorem buildCacheKey_inj {texts : Set String} (hd : Digest pf texts) {tool tool' u u' : String}
    {args args' : Args N} (ht : tool ∈ cacheableTools) (ht' : tool' ∈ cacheableTools)
    (ha : argsText pf args ∈ texts) (ha' : argsText pf args' ∈ texts)
    (h : buildCacheKey pf tool u args = buildCacheKey pf tool' u' args') :
    tool = tool' ∧ u = u' ∧ argsText pf args = argsText pf args' := by
  unfold buildCacheKey at h
  simp only [String.append_assoc] at h
  have hlist : tool.toList ++ ':' :: (u.toList ++ ':' :: (pf.sha256 (argsText pf args)).toList) =
      tool'.toList ++ ':' :: (u'.toList ++ ':' :: (pf.sha256 (argsText pf args')).toList) := by
    simpa using congrArg String.toList ((String.append_right_inj _).mp h)
  obtain ⟨htool, hrest⟩ := Search.append_cons_inj (no_colon _ ht) (no_colon _ ht') hlist
  obtain ⟨hu, hhash⟩ := Search.append_cons_inj_right (hd.hex _) (hd.hex _) hrest
  exact ⟨String.toList_inj.mp htool, String.toList_inj.mp hu,
    hd.injective ha ha' (String.toList_inj.mp hhash)⟩

theorem tokenKey_inj {u u' : String} (h : tokenKey u = tokenKey u') : u = u' :=
  (String.append_right_inj _).mp h

theorem tokenKey_ne {u tool u' : String} {args : Args N} : tokenKey u ≠ buildCacheKey pf tool u' args := by
  intro h
  unfold tokenKey buildCacheKey at h
  simp only [String.append_assoc] at h
  have hlist := congrArg (fun s => s.toList[4]?) h
  simp at hlist

end Keys

/-! ### What is asked -/

abbrev McpNote (N σ χ : Type) : Type := Note (ToolCall N) (World σ) (McpOp N) (McpChoice χ)
abbrev McpPool (N σ : Type) : Type := Pool (ToolCall N) (McpOp N) McpOp.Answer (McpErr N) (Json N) (World σ)

section

variable [Zero N] [DecidableEq N] (pf : Platform N) (R : Remote N σ χ) (calls : List (ToolCall N))

/-- A thread for each of `calls`, over an empty cache. -/
def gateway (calls : List (ToolCall N)) (clock : ℤ) (remote : σ) : McpPool N σ :=
  Pool.start (callTool pf) calls ⟨clock, Store.empty, remote⟩

omit [Zero N] [DecidableEq N]

/-- Auth-service has given this token for this user. -/
def Issued (os : List (McpNote N σ χ)) (userId token : String) : Prop :=
  ∃ o ∈ os, o.event.call = .authToken userId ∧
    (R.auth o.event.choice.remote userId o.event.pre.remote).1 = .ok token

/-- The upstream server has answered so to a call of the same tool, user and serialised arguments, made
with a token of this user. -/
def Fetched (os : List (McpNote N σ χ)) (c : ToolCall N) (result : Json N) : Prop :=
  ∃ o ∈ os, ∃ token, o.tag.tool = c.tool ∧ o.tag.userId = c.userId ∧
    argsText pf o.tag.args = argsText pf c.args ∧ Issued R os c.userId token ∧
    o.event.call = .post token c.tool o.tag.args ∧
    (R.tools o.event.choice.remote token c.tool o.tag.args o.event.pre.remote).1 = .ok result

/-! ### The contract -/

/-- What the keys of the cache hold. -/
structure Cached (os : List (McpNote N σ χ)) (s : World σ) : Prop where
  tokens : ∀ u e, s.cache (tokenKey u) = some e → Issued R os u e.value
  tools : ∀ c ∈ calls, c.tool ∈ cacheableTools → ∀ e,
    s.cache (buildCacheKey pf c.tool c.userId c.args) = some e →
    ∃ result, e.value = Json.stringify pf.fmt result ∧ Fetched pf R os c result

/-- Before a `SETEX`: a token of the caller, or what has been fetched for it. -/
def Stores (c : ToolCall N) (key value : String) (os : List (McpNote N σ χ)) : Prop :=
  key = tokenKey c.userId ∧ Issued R os c.userId value ∨
    c.tool ∈ cacheableTools ∧ key = buildCacheKey pf c.tool c.userId c.args ∧
      ∃ result, value = Json.stringify pf.fmt result ∧ Fetched pf R os c result

def CacheContract : Contract (ToolCall N) (McpOp N) (McpErr N) (Json N) (World σ) (McpChoice χ) where
  inv := Cached pf R calls
  rely _ _ := True
  pre _ c op os _ := c ∈ calls ∧
    match op with
    | .redisSetex key _ value => Stores pf R c key value os
    | _ => True
  post _ c r os _ :=
    match r with
    | .ok result => Fetched pf R os c result
    | .error _ => True

variable {pf R calls}

theorem Issued.mono {os os' : List (McpNote N σ χ)} {u token : String} (h : Issued R os u token)
    (hos : os <+: os') : Issued R os' u token := by
  obtain ⟨o, ho, hrest⟩ := h
  exact ⟨o, hos.subset ho, hrest⟩

theorem Fetched.mono {os os' : List (McpNote N σ χ)} {c : ToolCall N} {result : Json N}
    (h : Fetched pf R os c result) (hos : os <+: os') : Fetched pf R os' c result := by
  obtain ⟨o, ho, token, htool, hu, hargs, hissued, hrest⟩ := h
  exact ⟨o, hos.subset ho, token, htool, hu, hargs, hissued.mono hos, hrest⟩

/-- What was fetched for a call was fetched for every call that it looks the same as. -/
theorem Fetched.same {os : List (McpNote N σ χ)} {c c' : ToolCall N} {result : Json N}
    (h : Fetched pf R os c result) (htool : c.tool = c'.tool) (hu : c.userId = c'.userId)
    (hargs : argsText pf c.args = argsText pf c'.args) : Fetched pf R os c' result := by
  obtain ⟨o, ho, token, h₁, h₂, h₃, h₄, h₅, h₆⟩ := h
  exact ⟨o, ho, token, h₁.trans htool, h₂.trans hu, h₃.trans hargs, hu ▸ h₄, htool ▸ h₅, htool ▸ h₆⟩

theorem Fetched.wf {os : List (McpNote N σ χ)} {c : ToolCall N} {result : Json N}
    (h : Fetched pf R os c result) : result.Wf := by
  obtain ⟨o, -, token, -, -, -, -, -, hok⟩ := h
  exact R.wf _ _ _ _ _ _ hok

end

/-! ### What a call does to the cache -/

section Exec

variable {pf : Platform N} {R : Remote N σ χ} {c : McpChoice χ} {op : McpOp N} {s : World σ}

variable (pf R c op s) in
/-- A call leaves the cache as it is, removes keys, or puts one value there. -/
theorem exec_cache : (exec pf R c op s).2.cache = s.cache ∨
    (∃ p, (exec pf R c op s).2.cache = s.cache.erase p) ∨
    ∃ key seconds value, op = .redisSetex key seconds value ∧ (exec pf R c op s).2.cache =
      s.cache.put key value (some (s.clock + c.elapsed + seconds * 1000)) := by
  cases op with
  | redisGet key =>
    refine .inl ?_
    cases he : c.error <;> cases hs : c.served <;> simp [exec, serve, he, hs]
  | redisSetex key seconds value =>
    cases he : c.error with
    | none => exact .inr (.inr ⟨key, seconds, value, rfl, by simp [exec, serve, he]⟩)
    | some message =>
      cases hs : c.served with
      | false => exact .inl (by simp [exec, serve, he, hs])
      | true => exact .inr (.inr ⟨key, seconds, value, rfl, by simp [exec, serve, he, hs]⟩)
  | redisDel key =>
    cases he : c.error with
    | none => exact .inr (.inl ⟨_, by simp only [exec, serve, he]; rfl⟩)
    | some message =>
      cases hs : c.served with
      | false => exact .inl (by simp [exec, serve, he, hs])
      | true => exact .inr (.inl ⟨_, by simp only [exec, serve, he, hs, if_true]; rfl⟩)
  | redisDelMatching pattern =>
    cases he : c.error with
    | none => exact .inr (.inl ⟨_, by simp only [exec, serve, he]; rfl⟩)
    | some message =>
      cases hs : c.served with
      | false => exact .inl (by simp [exec, serve, he, hs])
      | true => exact .inr (.inl ⟨_, by simp only [exec, serve, he, hs, if_true]; rfl⟩)
  | authToken userId => exact .inl rfl
  | post token tool args => exact .inl rfl
  | sleep ms => exact .inl rfl

end Exec

section Sound

variable {pf : Platform N} {R : Remote N σ χ} {calls : List (ToolCall N)} {texts : Set String}

/-- What is put under a key of its own is not found under the key of another. -/
theorem Cached.put (hd : Digest pf {text | ∃ c ∈ calls, argsText pf c.args = text})
    {os os' : List (McpNote N σ χ)} {s s' : World σ} {c : ToolCall N} {key value : String} {d : Option ℤ}
    (h : Cached pf R calls os s) (hos : os <+: os') (hc : c ∈ calls) (hs : Stores pf R c key value os)
    (hput : s'.cache = s.cache.put key value d) : Cached pf R calls os' s' := by
  refine ⟨fun u e he => ?_, fun c' hc' htool' e he => ?_⟩
  · rw [hput] at he
    by_cases hkey : tokenKey u = key
    · rw [hkey, Store.put_self, Option.some.injEq] at he
      subst he
      rcases hs with ⟨hmine, hissued⟩ | ⟨-, hmine, -⟩
      · rw [tokenKey_inj (hkey.trans hmine)]
        exact hissued.mono hos
      · exact absurd (hkey.trans hmine) tokenKey_ne
    · rw [Store.put_of_ne hkey] at he
      exact (h.tokens u e he).mono hos
  · rw [hput] at he
    by_cases hkey : buildCacheKey pf c'.tool c'.userId c'.args = key
    · rw [hkey, Store.put_self, Option.some.injEq] at he
      subst he
      rcases hs with ⟨hmine, -⟩ | ⟨htool, hmine, result, hvalue, hfetched⟩
      · exact absurd (hkey.trans hmine).symm tokenKey_ne
      · obtain ⟨h₁, h₂, h₃⟩ := buildCacheKey_inj hd htool htool' ⟨c, hc, rfl⟩ ⟨c', hc', rfl⟩
          (hkey.trans hmine).symm
        exact ⟨result, hvalue, (hfetched.same h₁ h₂ h₃).mono hos⟩
    · rw [Store.put_of_ne hkey] at he
      obtain ⟨result, hvalue, hfetched⟩ := h.tools c' hc' htool' e he
      exact ⟨result, hvalue, hfetched.mono hos⟩

/-- Keys that go take nothing away from what is known of the others. -/
theorem Cached.of_sub {os os' : List (McpNote N σ χ)} {s s' : World σ} (h : Cached pf R calls os s)
    (hos : os <+: os') (hsub : ∀ key e, s'.cache key = some e → s.cache key = some e) :
    Cached pf R calls os' s' := by
  refine ⟨fun u e he => (h.tokens u e (hsub _ _ he)).mono hos, fun c hc htool e he => ?_⟩
  obtain ⟨result, hvalue, hfetched⟩ := h.tools c hc htool e (hsub _ _ he)
  exact ⟨result, hvalue, hfetched.mono hos⟩

theorem cacheContract_sound (hd : Digest pf {text | ∃ c ∈ calls, argsText pf c.args = text}) :
    (CacheContract pf R calls).Sound (exec pf R) where
  refl _ := trivial
  trans _ _ _ _ _ := trivial
  step os s tid c op ch hinv hpre := by
    refine ⟨?_, trivial⟩
    obtain ⟨hc, hstores⟩ := hpre
    rcases exec_cache pf R ch op s with
      hsame | ⟨p, herase⟩ | ⟨key, seconds, value, rfl, hput⟩
    · exact hinv.of_sub (List.prefix_append os _) fun key e he => by rwa [hsame] at he
    · refine hinv.of_sub (List.prefix_append os _) fun key e he => ?_
      rw [herase, Store.erase] at he
      split at he
      · cases he
      · exact he
    · exact hinv.put hd (List.prefix_append os _) hc hstores hput

end Sound

/-! ### The programs -/

section Programs

variable {pf : Platform N} {R : Remote N σ χ} {calls : List (ToolCall N)}
  {tid : ℕ} {c : ToolCall N} {os : List (McpNote N σ χ)} {s : World σ} {α β : Type}

/-- The contract of a part of a call: nothing is promised where it throws. -/
abbrev PartContract (pf : Platform N) (R : Remote N σ χ) (calls : List (ToolCall N))
    (Q : α → List (McpNote N σ χ) → Prop) :
    Contract (ToolCall N) (McpOp N) (McpErr N) α (World σ) (McpChoice χ) :=
  (CacheContract pf R calls).withPost fun _ _ r os _ =>
    match r with
    | .ok a => Q a os
    | .error _ => True

variable {Q : α → List (McpNote N σ χ) → Prop} {W : β → List (McpNote N σ χ) → Prop}

theorem part_throw (e : McpErr N) :
    (Prog.throw e : Gateway N α).Meets (PartContract pf R calls Q) (exec pf R) tid c os s :=
  fun _ _ _ _ => trivial

theorem part_ret {a : α} (h : ∀ os', os <+: os' → Q a os') :
    (Prog.ret a : Gateway N α).Meets (PartContract pf R calls Q) (exec pf R) tid c os s :=
  fun os' _ hos _ => h os' hos

/-- A part, and what goes on with its value. -/
theorem part_bind {p : Gateway N β} {f : β → Gateway N α}
    (hp : p.Meets (PartContract pf R calls W) (exec pf R) tid c os s)
    (hf : ∀ a os' s', os <+: os' → W a os' →
      (f a).Meets (PartContract pf R calls Q) (exec pf R) tid c os' s') :
    (p >>= f).Meets (PartContract pf R calls Q) (exec pf R) tid c os s :=
  Prog.Meets.bind (fun _ => trivial) hp hf fun e _ _ _ => part_throw e

/-- A part that is tried. -/
theorem part_attempt_bind {p : Gateway N β} {f : Except (McpErr N) β → Gateway N α}
    (hp : p.Meets (PartContract pf R calls W) (exec pf R) tid c os s)
    (hok : ∀ a os' s', os <+: os' → W a os' →
      (f (.ok a)).Meets (PartContract pf R calls Q) (exec pf R) tid c os' s')
    (herr : ∀ e os' s', os <+: os' →
      (f (.error e)).Meets (PartContract pf R calls Q) (exec pf R) tid c os' s') :
    (p.attempt >>= f).Meets (PartContract pf R calls Q) (exec pf R) tid c os s := by
  refine Prog.Meets.attempt_bind (fun _ => trivial) hp fun r os' s' hos hr => ?_
  cases r with
  | ok a => exact hok a os' s' hos hr
  | error e => exact herr e os' s' hos

/-- One call. -/
theorem part_call {op : McpOp N} {Q : op.Answer → List (McpNote N σ χ) → Prop}
    (h : ∀ os' s', os <+: os' → Cached pf R calls os' s' → (CacheContract pf R calls).pre tid c op os' s' ∧
      ∀ ch a os'', (exec pf R ch op s').1 = .ok a → os' ++ [⟨tid, c, ⟨s', op, ch⟩⟩] <+: os'' → Q a os'') :
    (call op).Meets (PartContract pf R calls Q) (exec pf R) tid c os s := by
  intro os' s' hos _ hinv
  obtain ⟨hpre, hnext⟩ := h os' s' hos hinv
  refine ⟨hpre, fun ch => ?_⟩
  cases hres : (exec pf R ch op s').1 with
  | ok a => exact part_ret fun os'' hos'' => hnext ch a os'' hres hos''
  | error e => exact part_throw e

/-- What is read from the cache is there. -/
theorem get_of_exec {ch : McpChoice χ} {key data : String}
    (h : (exec pf R ch (.redisGet key) s).1 = .ok (some data)) : ∃ e, s.cache key = some e ∧ e.value = data := by
  cases he : ch.error with
  | some message => simp [exec, serve, he] at h
  | none =>
    have hget : s.cache.get (s.clock + ch.elapsed) key = some data := by simpa [exec, serve, he] using h
    obtain ⟨e, hentry, -, hvalue⟩ := Store.get_eq_some.mp hget
    exact ⟨e, hentry, hvalue⟩

/-- A token is one of the caller's own. -/
theorem part_getToken (hc : c ∈ calls) : (TokenProviderService.getToken c.userId : Gateway N String).Meets
    (PartContract pf R calls fun token os => Issued R os c.userId token) (exec pf R) tid c os s := by
  unfold TokenProviderService.getToken
  refine part_bind (W := fun cached os => ∀ token, cached = some token → Issued R os c.userId token)
    (part_call fun os₁ s₁ _ hinv => ⟨⟨hc, trivial⟩, ?_⟩) fun cached os₂ s₂ _ hcached => ?_
  · rintro ch _ os₂ hget hos₂ token rfl
    obtain ⟨e, hentry, rfl⟩ := get_of_exec hget
    exact (hinv.tokens _ e hentry).mono ((List.prefix_append _ _).trans hos₂)
  · cases hmatch : cached.filter (· ≠ "") with
    | some token =>
      have hsome : cached = some token := (Option.filter_eq_some_iff.mp hmatch).1
      exact part_ret fun os₃ hos₃ => (hcached token hsome).mono hos₃
    | none =>
      refine part_attempt_bind (W := fun token os => Issued R os c.userId token) ?_
        (fun token os₃ _ _ hissued => part_ret fun _ hos₃ => hissued.mono hos₃)
        fun e _ _ _ => part_throw _
      refine part_bind (W := fun token os => Issued R os c.userId token)
        (part_call fun os₃ s₃ _ _ => ⟨⟨hc, trivial⟩, fun ch token os₄ hauth hos₄ =>
          ⟨_, hos₄.subset (List.mem_append_right _ (List.mem_singleton.mpr rfl)), rfl, hauth⟩⟩)
        fun token os₃ s₃ _ hissued => ?_
      refine part_bind (W := fun _ _ => True) (part_call fun os₄ s₄ hos₄ _ =>
        ⟨⟨hc, .inl ⟨rfl, hissued.mono hos₄⟩⟩, fun _ _ _ _ _ => trivial⟩) fun _ os₄ _ hos₄ _ => ?_
      exact part_ret fun _ hos₅ => hissued.mono (hos₄.trans hos₅)

theorem part_set (hc : c ∈ calls) (htool : c.tool ∈ cacheableTools) {result : Json N}
    (h : Fetched pf R os c result) {seconds : ℤ} :
    (CacheService.set pf (buildCacheKey pf c.tool c.userId c.args) result seconds).Meets
      (PartContract pf R calls fun _ _ => True) (exec pf R) tid c os s := by
  unfold CacheService.set
  split
  · exact part_ret fun _ _ => trivial
  · refine part_call fun os' s' hos _ => ⟨⟨hc, .inr ⟨htool, rfl, result, rfl, h.mono hos⟩⟩, ?_⟩
    exact fun _ _ _ _ _ => trivial

theorem part_invalidate (hc : c ∈ calls) : (invalidateCartCache pf c.tool c.userId c.args).Meets
    (PartContract pf R calls fun _ _ => True) (exec pf R) tid c os s := by
  unfold invalidateCartCache
  split
  · exact part_call fun os' s' hos _ => ⟨⟨hc, trivial⟩, fun _ _ _ _ _ => trivial⟩
  · exact part_call fun os' s' hos _ => ⟨⟨hc, trivial⟩, fun _ _ _ _ _ => trivial⟩

theorem part_keep [Zero N] [DecidableEq N] (hc : c ∈ calls) {result : Json N}
    (h : Fetched pf R os c result) : (keep pf c result).Meets
      (PartContract pf R calls fun _ _ => True) (exec pf R) tid c os s := by
  have hbust : ∀ os' s', (if succeeded result = true ∧
      (c.tool = "update_food_cart" ∨ c.tool = "flush_food_cart") then
        invalidateCartCache pf c.tool c.userId c.args else pure () : Gateway N Unit).Meets
      (PartContract pf R calls fun _ _ => True) (exec pf R) tid c os' s' := by
    intro os' s'
    split
    · exact part_invalidate hc
    · exact part_ret fun _ _ => trivial
  unfold keep
  by_cases hset : c.tool ∈ cacheableTools ∧ succeeded result = true
  · rw [if_pos hset]
    exact part_bind (part_set hc hset.1 h) fun _ os' s' _ _ => hbust os' s'
  · rw [if_neg hset]
    exact hbust os s

/-- **One attempt.** What is returned has been fetched by it. -/
theorem part_once [Zero N] [DecidableEq N] (hc : c ∈ calls) {token : String}
    (htoken : Issued R os c.userId token) : (once pf c token).Meets
      (PartContract pf R calls fun result os => Fetched pf R os c result) (exec pf R) tid c os s := by
  rw [once_eq]
  refine part_bind (W := fun result os => Fetched pf R os c result)
    (part_call fun os₁ s₁ hos₁ _ => ⟨⟨hc, trivial⟩, fun ch result os₂ hpost hos₂ =>
      ⟨_, hos₂.subset (List.mem_append_right _ (List.mem_singleton.mpr rfl)), token, rfl, rfl, rfl,
        htoken.mono (hos₁.trans ((List.prefix_append _ _).trans hos₂)), rfl, hpost⟩⟩)
    fun result os₂ s₂ _ hfetched => ?_
  exact part_bind (part_keep hc hfetched) fun _ os₃ _ hos₃ _ =>
    part_ret fun _ hos₄ => hfetched.mono (hos₃.trans hos₄)

/-- The attempts, by induction on those left. -/
theorem part_attempts [Zero N] [DecidableEq N] (hc : c ∈ calls) {token : String} {left attempt : ℕ}
    (htoken : Issued R os c.userId token) : (attempts pf c token left attempt).Meets
      (PartContract pf R calls fun result os => Fetched pf R os c result) (exec pf R) tid c os s := by
  induction left generalizing attempt os s with
  | zero =>
    unfold attempts
    refine part_attempt_bind (part_once hc htoken)
      (fun result _ _ _ hfetched => part_ret fun _ hos => hfetched.mono hos) fun e _ _ _ => part_throw _
  | succ left ih =>
    unfold attempts
    refine part_attempt_bind (part_once hc htoken)
      (fun result _ _ _ hfetched => part_ret fun _ hos => hfetched.mono hos) fun e os₁ s₁ hos₁ => ?_
    cases hretry : isRetryable pf e (attempt + 1) with
    | error e =>
      simp only [hretry]
      exact part_throw e
    | ok again =>
      cases again with
      | false =>
        simp only [hretry]
        exact part_throw _
      | true =>
        simp only [hretry]
        refine part_bind (W := fun _ _ => True) (part_call fun _ _ _ _ => ?_)
          fun _ os₂ _ hos₂ _ => ih (htoken.mono (hos₁.trans hos₂))
        exact ⟨⟨hc, trivial⟩, fun _ _ _ _ _ => trivial⟩

theorem part_fetch [Zero N] [DecidableEq N] (hc : c ∈ calls) : (fetch pf c).Meets
    (PartContract pf R calls fun result os => Fetched pf R os c result) (exec pf R) tid c os s :=
  part_bind (part_getToken hc) fun _ _ _ _ htoken => part_attempts hc htoken

/-- What is read under the key of the call has been fetched for it. -/
theorem part_get (hc : c ∈ calls) (htool : c.tool ∈ cacheableTools) :
    (CacheService.get pf (buildCacheKey pf c.tool c.userId c.args)).Meets
      (PartContract pf R calls fun cached os => ∀ result, cached = some result → Fetched pf R os c result)
      (exec pf R) tid c os s := by
  unfold CacheService.get
  refine part_bind (W := fun data os => ∀ text, data = some text →
      ∃ result, text = Json.stringify pf.fmt result ∧ Fetched pf R os c result)
    (part_call fun os₁ s₁ _ hinv => ⟨⟨hc, trivial⟩, ?_⟩) fun data os₂ s₂ _ hdata => ?_
  · rintro ch _ os₂ hget hos₂ text rfl
    obtain ⟨e, hentry, rfl⟩ := get_of_exec hget
    obtain ⟨result, hvalue, hfetched⟩ := hinv.tools c hc htool e hentry
    exact ⟨result, hvalue, hfetched.mono ((List.prefix_append _ _).trans hos₂)⟩
  · cases data with
    | none => exact part_ret nofun
    | some text =>
      obtain ⟨result, rfl, hfetched⟩ := hdata text rfl
      refine part_ret fun os₃ hos₃ result' hresult => ?_
      split at hresult
      · cases hresult
      · rw [Json.parse_stringify hfetched.wf, Option.some.injEq] at hresult
        exact hresult ▸ hfetched.mono hos₃

/-- **A call.** -/
theorem part_callTool [Zero N] [DecidableEq N] (hc : c ∈ calls) : (callTool pf c).Meets
    (PartContract pf R calls fun result os => Fetched pf R os c result) (exec pf R) tid c os s := by
  rw [callTool_eq]
  refine part_bind (W := fun cached os => ∀ result, cached = some result → Fetched pf R os c result) ?_
    fun cached os₁ s₁ _ hcached => ?_
  · unfold FoodMcpClient.lookup
    split
    · exact part_get hc ‹_›
    · exact part_ret nofun
  · cases hmatch : cached.filter truthy with
    | some result =>
      exact part_ret fun os₂ hos₂ => (hcached result (Option.filter_eq_some_iff.mp hmatch).1).mono hos₂
    | none => exact part_fetch hc

end Programs

/-! ### Runs -/

section Runs

variable [Zero N] [DecidableEq N] {pf : Platform N} {R : Remote N σ χ} {calls : List (ToolCall N)}
  {clock : ℤ} {remote : σ}

theorem gateway_meets : (gateway pf calls clock remote).Meets (CacheContract pf R calls) (exec pf R) [] := by
  refine Pool.Meets.start ⟨fun _ _ he => (nomatch he), fun _ _ _ _ he => (nomatch he)⟩ fun tid c hc => ?_
  refine (part_callTool hc).of_post fun r _ _ h => ?_
  cases r with
  | ok result => exact h
  | error e => trivial

/-- **No response of another user.** What a call finds under its key was fetched before, for the same
tool, user and serialised arguments, with a token of that user; and what a call returns was. -/
theorem noCrossUserReads (hd : Digest pf {text | ∃ c ∈ calls, argsText pf c.args = text})
    {P : McpPool N σ} {os : List (McpNote N σ χ)}
    (hr : Run (Pool.step (exec pf R)) anyStep (gateway pf calls clock remote) P os) :
    (∀ os₁ o os₂, os = os₁ ++ o :: os₂ → ∀ c ∈ calls, c.tool ∈ cacheableTools →
      o.event.call = .redisGet (buildCacheKey pf c.tool c.userId c.args) → ∀ data,
        (exec pf R o.event.choice (.redisGet (buildCacheKey pf c.tool c.userId c.args)) o.event.pre).1 =
          .ok (some data) →
        ∃ result, data = Json.stringify pf.fmt result ∧ Fetched pf R os₁ c result) ∧
    ∀ (tid : ℕ) (c : ToolCall N) (result : Json N), P.threads[tid]? = some ⟨c, .ret result⟩ →
      Fetched pf R os c result := by
  have hsound := cacheContract_sound (R := R) hd
  constructor
  · rintro os₁ o os₂ hos c hc htool - data hget
    obtain ⟨P₁, l, P₂, hr₁, -, hstep, -⟩ := hr.split hos
    obtain ⟨hmeets, -, -⟩ := Contract.run hsound gateway_meets hr₁
    obtain ⟨e, hentry, rfl⟩ := get_of_exec hget
    rw [(hmeets.step hsound hstep).2.2] at hentry
    exact hmeets.1.tools c hc htool e hentry
  · intro tid c result hth
    obtain ⟨hmeets, -, -⟩ := Contract.run hsound gateway_meets hr
    exact (hmeets.2 tid _ hth).of_ret hsound

end Runs

/-! ### Two users whose names run together -/

/-- Hashes of the one text that is used. -/
def plainPlatform : Platform ℤ where
  fmt := Json.integers
  sha256 text := if text = "\x7b\x7d" then "44136fa355b3678a1146ad16f7e8649e94fb4fc21fe77e8310c060f61caaff8a"
    else "e3b0c44298fc1c149afbf4c8996fb92427ae41e4649b934ca495991b7852b855"
  glob pattern key := pattern.toList.dropLast.isPrefixOf key.toList

def noArgs : Args ℤ := ⟨[], .obj (by simp) (by simp)⟩

/-- A token for each user, and an answer that names the token. -/
def plainRemote : Remote ℤ Unit Unit where
  auth _ userId s := (.ok ("token of " ++ userId), s)
  tools _ token _ _ s := (.ok (.obj [("success", .bool true), ("for", .str token)]), s)
  wf _ token _ _ _ result h := by
    cases h
    exact .obj (by simp) (by simp [Json.Wf.bool, Json.Wf.str])

/-- The user `a` twice, and the user `a:b`. -/
def threeCalls : List (ToolCall ℤ) :=
  [⟨"get_food_cart", noArgs, "a"⟩, ⟨"get_food_cart", noArgs, "a"⟩, ⟨"get_food_cart", noArgs, "a:b"⟩]

theorem digest_threeCalls :
    Digest plainPlatform {text | ∃ c ∈ threeCalls, argsText plainPlatform c.args = text} where
  hex text := by
    unfold plainPlatform
    dsimp only
    split <;> simp
  injective := by
    rintro _ ⟨c, hc, rfl⟩ _ ⟨c', hc', rfl⟩ -
    have h : ∀ c ∈ threeCalls, c.args = noArgs := by simp [threeCalls]
    rw [h c hc, h c' hc']

/-- The second call of `a` is served from the cache. -/
theorem noCrossUserReads_threeCalls : ∃ P os₁ o, Run (Pool.step (exec plainPlatform plainRemote)) anyStep
    (gateway plainPlatform threeCalls 0 ()) P (os₁ ++ [o]) ∧
    P.threads[0]? = some ⟨⟨"get_food_cart", noArgs, "a"⟩,
      .ret (.obj [("success", .bool true), ("for", .str "token of a")])⟩ ∧
    Fetched plainPlatform plainRemote (os₁ ++ [o]) ⟨"get_food_cart", noArgs, "a"⟩
      (.obj [("success", .bool true), ("for", .str "token of a")]) ∧
    o.tid = 1 ∧ ∃ result, "\x7b\"success\":true,\"for\":\"token of a\"\x7d" =
      Json.stringify Json.integers result ∧
        Fetched plainPlatform plainRemote os₁ ⟨"get_food_cart", noArgs, "a"⟩ result := by
  have hr := Run.of_runSteps .nil (show runSteps (Pool.step (exec plainPlatform plainRemote)) anyStep
    [(0, ⟨1, none, true, ()⟩), (0, ⟨1, none, true, ()⟩), (0, ⟨1, none, true, ()⟩), (0, ⟨1, none, true, ()⟩),
      (0, ⟨1, none, true, ()⟩), (0, ⟨1, none, true, ()⟩), (1, ⟨1, none, true, ()⟩)]
    (gateway plainPlatform threeCalls 0 ()) [] = some (_, _ ++ [_]) from rfl)
  refine ⟨_, _, _, hr, rfl, (noCrossUserReads digest_threeCalls hr).2 0 _ _ rfl, rfl, ?_⟩
  exact (noCrossUserReads digest_threeCalls hr).1 _ _ [] rfl ⟨"get_food_cart", noArgs, "a"⟩
    (by simp [threeCalls]) (by decide) rfl _ rfl

end Gusto.Mcp
