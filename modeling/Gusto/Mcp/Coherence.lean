import Gusto.Mcp.Isolation

/-!
# Cart reads and the upstream server

One call of a tool after another, over a cache and an upstream server that answers every call.

* `Upstream`: reading a cart changes none, and nothing else changes one but the calls of tools;
* `Untouched`: a cart that the requests of a call do not change;
* `Within`: what a call may have done so far to the cache and to the carts, and `callTool_wlp` to its end;
* `coherent_iff_fresh`: cart reads are what the server would answer just where no cached cart is stale.
-/

set_option autoImplicit false

namespace Gusto.Mcp

open Effects Expiring FoodMcpClient
open Gusto.Events (truthy)

variable {N σ χ : Type} [Zero N] [DecidableEq N]

/-! ### The upstream server -/

/-- An upstream server that answers every call with success: the cart that it answers with for a user,
which reading does not change. -/
structure Upstream (R : Remote N σ χ) where
  owner : String → String
  cart : String → Args N → σ → Json N
  wf : ∀ u args s, (cart u args s).Wf
  auth : ∀ c u s, ∃ token, (R.auth c u s).1 = .ok token ∧ owner token = u
  auth_keeps : ∀ c u s u' args, cart u' args (R.auth c u s).2 = cart u' args s
  answers : ∀ c token tool args s, ∃ result, (R.tools c token tool args s).1 = .ok result ∧
    succeeded result = true
  reads : ∀ c token args s, (R.tools c token "get_food_cart" args s).1 = .ok (cart (owner token) args s)
  reads_keep : ∀ c token args s u args',
    cart u args' (R.tools c token "get_food_cart" args s).2 = cart u args' s

variable (pf : Platform N) {R : Remote N σ χ} (up : Upstream R) (texts : Set String)

omit [Zero N] [DecidableEq N] in
/-- The key of a cart. -/
abbrev cartKey (u : String) (args : Args N) : String := buildCacheKey pf "get_food_cart" u args

/-! ### The cache against the server -/

/-- What is known of the entries, fresh or not. -/
structure Known (s : World σ) : Prop where
  tokens : ∀ u e, s.cache (tokenKey u) = some e → up.owner e.value = u
  carts : ∀ u args, argsText pf args ∈ texts → ∀ e, s.cache (cartKey pf u args) = some e →
    ∃ result, e.value = Json.stringify pf.fmt result ∧ result.Wf ∧ succeeded result = true

/-- Every cached cart that can still be read is what the server would answer. -/
def Fresh (s : World σ) : Prop :=
  ∀ u args, argsText pf args ∈ texts → ∀ data, s.cache.get s.clock (cartKey pf u args) = some data →
    data = Json.stringify pf.fmt (up.cart u args s.remote)

/-- **What is claimed.** Every `get_food_cart` that returns now returns what the server would answer. -/
def Coherent (s : World σ) : Prop :=
  ∀ c, c.tool = "get_food_cart" → argsText pf c.args ∈ texts → ∀ cs d result,
    (callTool pf c).run (exec pf R) cs s = some d → d.result = .ok result →
    result = up.cart c.userId c.args s.remote

/-- The requests that are made for `c` do not change the cart. -/
def Untouched (c : ToolCall N) (u : String) (args : Args N) : Prop :=
  ∀ ch token s, up.owner token = c.userId →
    up.cart u args (R.tools ch token c.tool c.args s).2 = up.cart u args s

/-- What the call `c` may have done since `s₀`. -/
structure Within (c : ToolCall N) (s₀ s : World σ) : Prop where
  clock : s₀.clock ≤ s.clock
  known : Known pf up texts s
  carts : ∀ u args, Untouched up c u args → up.cart u args s.remote = up.cart u args s₀.remote
  entries : ∀ u args, argsText pf args ∈ texts → ∀ e, s.cache (cartKey pf u args) = some e →
    s₀.cache (cartKey pf u args) = some e ∨
      c.tool = "get_food_cart" ∧ e.value = Json.stringify pf.fmt (up.cart u args s.remote)

/-- What holds before an operation of the call `c`. -/
def Allowed (c : ToolCall N) (s : World σ) : McpOp N → Prop
  | .redisSetex key _ value => key = tokenKey c.userId ∧ up.owner value = c.userId ∨
    c.tool ∈ cacheableTools ∧ key = buildCacheKey pf c.tool c.userId c.args ∧
      ∃ result, value = Json.stringify pf.fmt result ∧ result.Wf ∧ succeeded result = true ∧
        (c.tool = "get_food_cart" → result = up.cart c.userId c.args s.remote)
  | .post token tool args => tool = c.tool ∧ args = c.args ∧ up.owner token = c.userId
  | _ => True

/-! ### One operation -/

section Step

omit [Zero N] [DecidableEq N]

variable {pf} {op : McpOp N} {ch : McpChoice χ} {s : World σ}

theorem argsText_inj {args args' : Args N} (h : argsText pf args = argsText pf args') : args = args' := by
  have hparse := congrArg (Json.parse pf.fmt) h
  unfold argsText at hparse
  rw [Json.parse_stringify args.wf, Json.parse_stringify args'.wf] at hparse
  cases args
  cases args'
  cases hparse
  rfl

theorem exec_clock : s.clock ≤ (exec pf R ch op s).2.clock := by
  have hle : s.clock ≤ s.clock + ch.elapsed := by omega
  cases op with
  | authToken u => exact hle
  | post token tool args => exact hle
  | sleep ms => exact hle
  | _ => cases he : ch.error <;> cases hs : ch.served <;> simp [exec, serve, he, hs]

theorem exec_remote (hauth : ∀ u, op ≠ .authToken u) (hpost : ∀ token tool args, op ≠ .post token tool args) :
    (exec pf R ch op s).2.remote = s.remote := by
  cases op with
  | authToken u => exact absurd rfl (hauth u)
  | post token tool args => exact absurd rfl (hpost token tool args)
  | sleep ms => rfl
  | _ => cases he : ch.error <;> cases hs : ch.served <;> simp [exec, serve, he, hs]

end Step

section Calls

variable {pf up texts} {c : ToolCall N} {s₀ s : World σ}

omit [Zero N] [DecidableEq N] in
/-- Users, and texts of arguments, can be told from the key of a cart. -/
theorem cartKey_inj (hd : Digest pf texts) {c : ToolCall N} (hc : argsText pf c.args ∈ texts)
    (htool : c.tool ∈ cacheableTools) {u : String} {args : Args N} (ha : argsText pf args ∈ texts)
    (h : cartKey pf u args = buildCacheKey pf c.tool c.userId c.args) :
    c.tool = "get_food_cart" ∧ u = c.userId ∧ args = c.args := by
  obtain ⟨h₁, h₂, h₃⟩ := buildCacheKey_inj hd (by decide) htool ha hc h
  exact ⟨h₁.symm, h₂, argsText_inj h₃⟩

/-- A cart that is read is not changed. -/
theorem untouched_of_read (htool : c.tool = "get_food_cart") (u : String) (args : Args N) :
    Untouched up c u args := by
  intro ch token s _
  rw [htool]
  exact up.reads_keep _ _ _ _ _ _

/-- The carts of the server after an operation. -/
theorem exec_cart {op : McpOp N} {ch : McpChoice χ} (hallowed : Allowed pf up c s op) {u : String}
    {args : Args N} (huntouched : Untouched up c u args) :
    up.cart u args (exec pf R ch op s).2.remote = up.cart u args s.remote := by
  cases op with
  | authToken u' => exact up.auth_keeps _ _ _ _ _
  | post token tool args' =>
    obtain ⟨rfl, rfl, howner⟩ := hallowed
    exact huntouched _ _ _ howner
  | _ => rw [exec_remote (by simp) (by simp)]

/-- Keys that go, time that passes and carts that change without being read keep what is known. -/
theorem Within.of_sub {op : McpOp N} {ch : McpChoice χ} (h : Within pf up texts c s₀ s)
    (hallowed : Allowed pf up c s op)
    (hsub : ∀ key e, (exec pf R ch op s).2.cache key = some e → s.cache key = some e) :
    Within pf up texts c s₀ (exec pf R ch op s).2 where
  clock := h.clock.trans exec_clock
  known := ⟨fun u e he => h.known.tokens u e (hsub _ _ he),
    fun u args ha e he => h.known.carts u args ha e (hsub _ _ he)⟩
  carts u args huntouched := (exec_cart hallowed huntouched).trans (h.carts u args huntouched)
  entries u args ha e he := by
    rcases h.entries u args ha e (hsub _ _ he) with hold | ⟨htool, hvalue⟩
    · exact .inl hold
    · exact .inr ⟨htool, by rw [exec_cart hallowed (untouched_of_read htool u args)]; exact hvalue⟩

/-- **One operation** keeps what is known of a call. -/
theorem Within.step (hd : Digest pf texts) (hc : argsText pf c.args ∈ texts) {op : McpOp N}
    {ch : McpChoice χ} (h : Within pf up texts c s₀ s) (hallowed : Allowed pf up c s op) :
    Within pf up texts c s₀ (exec pf R ch op s).2 := by
  rcases exec_cache pf R ch op s with
    hsame | ⟨p, herase⟩ | ⟨key, seconds, value, rfl, hput⟩
  · exact h.of_sub hallowed fun key e he => by rwa [hsame] at he
  · refine h.of_sub hallowed fun key e he => ?_
    rw [herase, Store.erase] at he
    split at he
    · cases he
    · exact he
  · have hremote : (exec pf R ch (.redisSetex key seconds value) s).2.remote = s.remote :=
      exec_remote (by simp) (by simp)
    refine ⟨h.clock.trans exec_clock, ⟨fun u e he => ?_, fun u args ha e he => ?_⟩,
      fun u args huntouched => ?_, fun u args ha e he => ?_⟩
    · rw [hput] at he
      by_cases hkey : tokenKey u = key
      · rw [hkey, Store.put_self, Option.some.injEq] at he
        subst he
        rcases hallowed with ⟨hmine, howner⟩ | ⟨-, hmine, -⟩
        · rw [tokenKey_inj (hkey.trans hmine)]
          exact howner
        · exact absurd (hkey.trans hmine) tokenKey_ne
      · rw [Store.put_of_ne hkey] at he
        exact h.known.tokens u e he
    · rw [hput] at he
      by_cases hkey : cartKey pf u args = key
      · rw [hkey, Store.put_self, Option.some.injEq] at he
        subst he
        rcases hallowed with ⟨hmine, -⟩ | ⟨-, -, result, hvalue, hwf, hsucceeded, -⟩
        · exact absurd (hkey.trans hmine).symm tokenKey_ne
        · exact ⟨result, hvalue, hwf, hsucceeded⟩
      · rw [Store.put_of_ne hkey] at he
        exact h.known.carts u args ha e he
    · rw [hremote]
      exact h.carts u args huntouched
    · rw [hput] at he
      rw [hremote]
      by_cases hkey : cartKey pf u args = key
      · rw [hkey, Store.put_self, Option.some.injEq] at he
        subst he
        rcases hallowed with ⟨hmine, -⟩ | ⟨htool, hmine, result, hvalue, -, -, hread⟩
        · exact absurd (hkey.trans hmine).symm tokenKey_ne
        · obtain ⟨hcart, rfl, rfl⟩ := cartKey_inj hd hc htool ha (hkey.trans hmine)
          exact .inr ⟨hcart, by rw [← hread hcart]; exact hvalue⟩
      · rw [Store.put_of_ne hkey] at he
        exact h.entries u args ha e he

end Calls

/-! ### A call of a tool -/

section Programs

variable {pf up texts} {c : ToolCall N} {s₀ s : World σ} {α β : Type}

/-- What holds after a part of the call `c`, and what of its value if it returns. -/
def After (pf : Platform N) (up : Upstream R) (texts : Set String) (c : ToolCall N) (s₀ : World σ)
    (Q : α → World σ → Prop) :
    List (Event (World σ) (McpOp N) (McpChoice χ)) → Except (McpErr N) α → World σ → Prop :=
  fun _ r s => Within pf up texts c s₀ s ∧ ∀ a, r = .ok a → Q a s

variable {Q : α → World σ → Prop} {W : β → World σ → Prop}

theorem after_ret (hw : Within pf up texts c s₀ s) {a : α} (h : Q a s) :
    (Prog.ret a : Gateway N α).wlp (exec pf R) (After pf up texts c s₀ Q) s :=
  ⟨hw, fun _ ha => Except.ok.inj ha ▸ h⟩

theorem after_throw (hw : Within pf up texts c s₀ s) (e : McpErr N) :
    (Prog.throw e : Gateway N α).wlp (exec pf R) (After pf up texts c s₀ Q) s :=
  ⟨hw, nofun⟩

theorem after_bind {p : Gateway N β} {f : β → Gateway N α}
    (hp : p.wlp (exec pf R) (After pf up texts c s₀ W) s)
    (hf : ∀ a s', Within pf up texts c s₀ s' → W a s' →
      (f a).wlp (exec pf R) (After pf up texts c s₀ Q) s') :
    (p >>= f).wlp (exec pf R) (After pf up texts c s₀ Q) s := by
  rw [Prog.wlp_bind]
  refine Prog.wlp_mono (fun _ r s' h => ?_) hp
  cases r with
  | ok a => exact hf a s' h.1 (h.2 a rfl)
  | error e => exact ⟨h.1, nofun⟩

theorem after_attempt_bind {p : Gateway N β} {f : Except (McpErr N) β → Gateway N α}
    (hp : p.wlp (exec pf R) (After pf up texts c s₀ W) s)
    (hok : ∀ a s', Within pf up texts c s₀ s' → W a s' →
      (f (.ok a)).wlp (exec pf R) (After pf up texts c s₀ Q) s')
    (herr : ∀ e s', Within pf up texts c s₀ s' →
      (f (.error e)).wlp (exec pf R) (After pf up texts c s₀ Q) s') :
    (p.attempt >>= f).wlp (exec pf R) (After pf up texts c s₀ Q) s := by
  rw [Prog.wlp_bind, Prog.wlp_attempt]
  refine Prog.wlp_mono (fun _ r s' h => ?_) hp
  cases r with
  | ok a => exact hok a s' h.1 (h.2 a rfl)
  | error e => exact herr e s' h.1

theorem after_call (hd : Digest pf texts) (hc : argsText pf c.args ∈ texts)
    (hw : Within pf up texts c s₀ s) {op : McpOp N} {Q : op.Answer → World σ → Prop}
    (hallowed : Allowed pf up c s op)
    (h : ∀ ch a, (exec pf R ch op s).1 = .ok a → Q a (exec pf R ch op s).2) :
    (call op).wlp (exec pf R) (After pf up texts c s₀ Q) s := by
  intro ch
  have hw' : Within pf up texts c s₀ (exec pf R ch op s).2 := hw.step hd hc hallowed
  cases hres : (exec pf R ch op s).1 with
  | error e => exact after_throw hw' e
  | ok a => exact after_ret hw' (h ch a hres)

/-- A token is one of the user's. -/
theorem getToken_wlp (hd : Digest pf texts) (hc : argsText pf c.args ∈ texts)
    (hw : Within pf up texts c s₀ s) : (TokenProviderService.getToken c.userId : Gateway N String).wlp
      (exec pf R) (After pf up texts c s₀ fun token _ => up.owner token = c.userId) s := by
  unfold TokenProviderService.getToken
  refine after_bind (W := fun cached _ => ∀ token, cached = some token → up.owner token = c.userId)
    (after_call hd hc hw trivial ?_) fun cached s₁ hw₁ hcached => ?_
  · rintro ch _ hget token rfl
    obtain ⟨e, hentry, rfl⟩ := get_of_exec hget
    exact hw.known.tokens _ e hentry
  · cases hmatch : cached.filter (· ≠ "") with
    | some token => exact after_ret hw₁ (hcached token (Option.filter_eq_some_iff.mp hmatch).1)
    | none =>
      refine after_attempt_bind (W := fun token _ => up.owner token = c.userId) ?_
        (fun token s₂ hw₂ howner => after_ret hw₂ howner) fun e s₂ hw₂ => after_throw hw₂ _
      refine after_bind (W := fun token _ => up.owner token = c.userId)
        (after_call hd hc hw₁ trivial fun ch token hauth => ?_) fun token s₂ hw₂ howner => ?_
      · obtain ⟨token', htoken', howner⟩ := up.auth ch.remote c.userId s₁.remote
        have hsame : token' = token := Except.ok.inj (htoken'.symm.trans hauth)
        exact hsame ▸ howner
      · exact after_bind (W := fun _ _ => True) (after_call hd hc hw₂ (.inl ⟨rfl, howner⟩) fun _ _ _ => trivial)
          fun _ s₃ hw₃ _ => after_ret hw₃ howner

/-- What is known of the result of a call that the cache has not answered. -/
def Served (up : Upstream R) (c : ToolCall N) (result : Json N) (s : World σ) : Prop :=
  succeeded result = true ∧ (c.tool = "get_food_cart" → result = up.cart c.userId c.args s.remote)

theorem set_wlp (hd : Digest pf texts) (hc : argsText pf c.args ∈ texts) (hw : Within pf up texts c s₀ s)
    {result : Json N} (htool : c.tool ∈ cacheableTools) (hwf : result.Wf) (hsucceeded : succeeded result = true)
    (hread : c.tool = "get_food_cart" → result = up.cart c.userId c.args s.remote) {seconds : ℤ} :
    (CacheService.set pf (buildCacheKey pf c.tool c.userId c.args) result seconds).wlp (exec pf R)
      (After pf up texts c s₀ fun _ s' =>
        c.tool = "get_food_cart" → result = up.cart c.userId c.args s'.remote) s := by
  unfold CacheService.set
  split
  · exact after_ret hw hread
  · refine after_call hd hc hw (.inr ⟨htool, rfl, result, rfl, hwf, hsucceeded, hread⟩) fun ch _ _ htool => ?_
    rw [exec_remote (by simp) (by simp)]
    exact hread htool

theorem invalidate_wlp (hd : Digest pf texts) (hc : argsText pf c.args ∈ texts)
    (hw : Within pf up texts c s₀ s) : (invalidateCartCache pf c.tool c.userId c.args).wlp (exec pf R)
      (After pf up texts c s₀ fun _ _ => True) s := by
  unfold invalidateCartCache
  split
  · exact after_call hd hc hw trivial fun _ _ _ => trivial
  · exact after_call hd hc hw trivial fun _ _ _ => trivial

/-- No response is cached of a tool that removes responses. -/
theorem not_mem_cacheableTools {tool : String} (h : tool = "update_food_cart" ∨ tool = "flush_food_cart") :
    tool ∉ cacheableTools := by
  rcases h with rfl | rfl
  · decide
  · decide

/-- What follows an answer of the server. -/
theorem keep_wlp (hd : Digest pf texts) (hc : argsText pf c.args ∈ texts) (hw : Within pf up texts c s₀ s)
    {result : Json N} (hwf : result.Wf) (hserved : Served up c result s) :
    (keep pf c result).wlp (exec pf R) (After pf up texts c s₀ fun _ => Served up c result) s := by
  obtain ⟨hsucceeded, hread⟩ := hserved
  unfold keep
  by_cases hbust : c.tool = "update_food_cart" ∨ c.tool = "flush_food_cart"
  · have hset : ¬ (c.tool ∈ cacheableTools ∧ succeeded result = true) := fun h =>
      not_mem_cacheableTools hbust h.1
    have hcart : c.tool ≠ "get_food_cart" := fun h =>
      not_mem_cacheableTools hbust (h ▸ show "get_food_cart" ∈ cacheableTools by decide)
    rw [if_neg hset, if_pos ⟨hsucceeded, hbust⟩]
    exact Prog.wlp_mono (fun _ r s' h => ⟨h.1, fun _ _ => ⟨hsucceeded, fun hget => absurd hget hcart⟩⟩)
      (invalidate_wlp hd hc hw)
  · have hskip : ¬ (succeeded result = true ∧ (c.tool = "update_food_cart" ∨ c.tool = "flush_food_cart")) :=
      fun h => hbust h.2
    by_cases hset : c.tool ∈ cacheableTools ∧ succeeded result = true
    · rw [if_pos hset, if_neg hskip]
      exact after_bind (set_wlp hd hc hw hset.1 hwf hsucceeded hread) fun _ s₁ hw₁ hread₁ =>
        after_ret hw₁ ⟨hsucceeded, hread₁⟩
    · rw [if_neg hset, if_neg hskip]
      exact after_ret hw ⟨hsucceeded, hread⟩

theorem once_wlp (hd : Digest pf texts) (hc : argsText pf c.args ∈ texts) (hw : Within pf up texts c s₀ s)
    {token : String} (howner : up.owner token = c.userId) :
    (once pf c token).wlp (exec pf R) (After pf up texts c s₀ (Served up c)) s := by
  have hpost : Allowed pf up c s (.post token c.tool c.args) := ⟨rfl, rfl, howner⟩
  rw [once_eq]
  refine after_bind (W := fun result s' => result.Wf ∧ Served up c result s')
    (after_call hd hc hw hpost fun ch result hanswered => ?_) fun result s₁ hw₁ hresult => ?_
  · obtain ⟨result', hanswer, hsucceeded⟩ := up.answers ch.remote token c.tool c.args s.remote
    have hsame : result' = result := Except.ok.inj (hanswer.symm.trans hanswered)
    subst hsame
    refine ⟨R.wf _ _ _ _ _ _ hanswer, hsucceeded, fun htool => ?_⟩
    rw [exec_cart hpost (untouched_of_read htool _ _)]
    rw [htool, up.reads, howner] at hanswer
    exact (Except.ok.inj hanswer).symm
  · obtain ⟨hwf, hserved⟩ := hresult
    exact after_bind (keep_wlp hd hc hw₁ hwf hserved) fun _ s₂ hw₂ hserved => after_ret hw₂ hserved

/-- The attempts, by induction on those left. -/
theorem attempts_wlp (hd : Digest pf texts) (hc : argsText pf c.args ∈ texts) (hw : Within pf up texts c s₀ s)
    {token : String} (howner : up.owner token = c.userId) {left attempt : ℕ} :
    (attempts pf c token left attempt).wlp (exec pf R) (After pf up texts c s₀ (Served up c)) s := by
  induction left generalizing attempt s with
  | zero =>
    unfold attempts
    exact after_attempt_bind (once_wlp hd hc hw howner) (fun result s₁ hw₁ hserved => after_ret hw₁ hserved)
      fun e s₁ hw₁ => after_throw hw₁ _
  | succ left ih =>
    unfold attempts
    refine after_attempt_bind (once_wlp hd hc hw howner)
      (fun result s₁ hw₁ hserved => after_ret hw₁ hserved) fun e s₁ hw₁ => ?_
    cases hretry : isRetryable pf e (attempt + 1) with
    | error e =>
      simp only [hretry]
      exact after_throw hw₁ e
    | ok again =>
      cases again with
      | false =>
        simp only [hretry]
        exact after_throw hw₁ _
      | true =>
        simp only [hretry]
        exact after_bind (W := fun _ _ => True) (after_call hd hc hw₁ trivial fun _ _ _ => trivial)
          fun _ s₂ hw₂ _ => ih hw₂

/-- What is read under the key of the call, at its beginning. -/
theorem lookup_wlp (hd : Digest pf texts) (hc : argsText pf c.args ∈ texts) (hw : Within pf up texts c s₀ s₀) :
    (FoodMcpClient.lookup pf c).wlp (exec pf R) (After pf up texts c s₀ fun cached _ =>
      ∀ result, cached = some result → c.tool ∈ cacheableTools ∧
        (c.tool = "get_food_cart" → Fresh pf up texts s₀ → result = up.cart c.userId c.args s₀.remote)) s₀ := by
  unfold FoodMcpClient.lookup
  split
  · rename_i htool
    unfold CacheService.get
    refine after_bind (W := fun data _ => ∀ text, data = some text → c.tool = "get_food_cart" →
      Fresh pf up texts s₀ → text = Json.stringify pf.fmt (up.cart c.userId c.args s₀.remote))
      (after_call hd hc hw trivial ?_) fun data s₁ hw₁ hdata => ?_
    · rintro ch _ hget text rfl hcart hfresh
      cases he : ch.error with
      | some message => simp [exec, serve, he] at hget
      | none =>
        have hread : s₀.cache.get (s₀.clock + ch.elapsed) (buildCacheKey pf c.tool c.userId c.args) =
            some text := by simpa [exec, serve, he] using hget
        rw [hcart] at hread
        exact hfresh _ _ hc _ (Store.get_of_le (by omega) hread)
    · cases data with
      | none => exact after_ret hw₁ fun _ h => absurd h (by simp)
      | some text =>
        refine after_ret hw₁ fun result hresult => ⟨htool, fun hcart hfresh => ?_⟩
        split at hresult
        · cases hresult
        · rw [hdata text rfl hcart hfresh, Json.parse_stringify (up.wf _ _ _), Option.some.injEq] at hresult
          exact hresult.symm
  · exact after_ret hw fun _ h => absurd h (by simp)

/-- **A call of a tool.** -/
theorem callTool_wlp (hd : Digest pf texts) (hc : argsText pf c.args ∈ texts)
    (hknown : Known pf up texts s₀) : (callTool pf c).wlp (exec pf R)
      (After pf up texts c s₀ fun result _ =>
        (c.tool = "get_food_cart" → Fresh pf up texts s₀ → result = up.cart c.userId c.args s₀.remote) ∧
          (c.tool ∉ cacheableTools → succeeded result = true)) s₀ := by
  have hw : Within pf up texts c s₀ s₀ := ⟨le_rfl, hknown, fun _ _ _ => rfl, fun _ _ _ _ he => .inl he⟩
  rw [callTool_eq]
  refine after_bind (lookup_wlp hd hc hw) fun cached s₁ hw₁ hcached => ?_
  cases hmatch : cached.filter truthy with
  | some result =>
    obtain ⟨htool, hread⟩ := hcached result (Option.filter_eq_some_iff.mp hmatch).1
    exact after_ret hw₁ ⟨hread, fun hnot => absurd htool hnot⟩
  | none =>
    refine after_bind (getToken_wlp hd hc hw₁) fun token s₂ hw₂ howner => ?_
    refine Prog.wlp_mono (fun _ r s' h => ⟨h.1, fun result hr => ⟨fun hcart _ => ?_, fun _ => (h.2 result hr).1⟩⟩)
      (attempts_wlp hd hc hw₂ howner)
    rw [← h.1.carts _ _ (untouched_of_read hcart _ _)]
    exact (h.2 result hr).2 hcart

end Programs

/-! ### Reads and the state of the cache -/

section Reads

variable {pf up texts} {s : World σ}

theorem truthy_of_succeeded {result : Json N} (h : succeeded result = true) : truthy result = true := by
  unfold succeeded at h
  rw [Bool.and_eq_true] at h
  exact h.1

variable (pf R s) in
/-- A call that finds a response that can be read. -/
theorem callTool_hit (c : ToolCall N) (htool : c.tool ∈ cacheableTools) (ch : McpChoice χ)
    (herror : ch.error = none) {result : Json N} (hwf : result.Wf) (htruthy : truthy result = true)
    (hget : s.cache.get (s.clock + ch.elapsed) (buildCacheKey pf c.tool c.userId c.args) =
      some (Json.stringify pf.fmt result)) :
    (callTool pf c).run (exec pf R) [ch] s = some ⟨.ok result, { s with clock := s.clock + ch.elapsed },
      [⟨s, .redisGet (buildCacheKey pf c.tool c.userId c.args), ch⟩]⟩ := by
  have htext : Json.stringify pf.fmt result ≠ "" := by
    intro hempty
    have hparse : Json.parse pf.fmt (Json.stringify pf.fmt result) = some result := Json.parse_stringify hwf
    rw [hempty] at hparse
    cases hparse
  have hanswer : exec pf R ch (.redisGet (buildCacheKey pf c.tool c.userId c.args)) s =
      (.ok (some (Json.stringify pf.fmt result)), { s with clock := s.clock + ch.elapsed }) := by
    simp [exec, serve, herror, hget]
  rw [callTool_eq, FoodMcpClient.lookup, if_pos htool]
  unfold CacheService.get call Prog.await
  simp only [Prog.call_bind, Prog.run, hanswer]
  simp [Prog.run, htext, Json.parse_stringify hwf, Option.filter, htruthy]

/-- **Cart reads** are what the server would answer where no cached cart is stale, and only there. -/
theorem coherent_iff_fresh (hd : Digest pf texts) (hknown : Known pf up texts s) [Nonempty χ] :
    Coherent pf up texts s ↔ Fresh pf up texts s := by
  constructor
  · intro h u args hargs data hget
    obtain ⟨e, hentry, -, rfl⟩ := Store.get_eq_some.mp hget
    obtain ⟨result, hvalue, hwf, hsucceeded⟩ := hknown.carts u args hargs e hentry
    rw [hvalue] at hget ⊢
    have hrun := callTool_hit pf R s ⟨"get_food_cart", args, u⟩ (show "get_food_cart" ∈ cacheableTools by decide)
      ⟨0, none, true, Classical.arbitrary χ⟩ rfl hwf (truthy_of_succeeded hsucceeded) (by simpa using hget)
    rw [h ⟨"get_food_cart", args, u⟩ rfl hargs _ _ result hrun rfl]
  · intro h c htool hargs cs d result hrun hresult
    obtain ⟨-, hread⟩ := Prog.wlp_iff_run.mp (callTool_wlp hd hargs hknown) cs d hrun
    exact (hread result hresult).1 htool h

end Reads

end Gusto.Mcp
