import Gusto.Mcp.Flush

/-!
# Cart reads

One call of a tool after another, over a cache and an upstream server that answers every call.

* `PerAddress`: what the tools change of the carts of the server;
* `Targeted`: no cart can be read from the cache that a call may change and does not remove;
* `fresh_step`: such a call leaves no stale cart in the cache;
* `freshReads`: in a run of such calls every cart that is read is what the server would answer, and what is
  removed is the cached cart of an address, or the cached carts of a user.
-/

set_option autoImplicit false

namespace Gusto.Mcp

open Effects Expiring FoodMcpClient

variable {N σ χ : Type} [Zero N] [DecidableEq N]

/-! ### Carts and addresses -/

/-- The tools that may change a cart. -/
def cartTools : List String := ["update_food_cart", "flush_food_cart", "apply_food_coupon", "place_food_order"]

/-- A cart is of a user and an address: a call changes none of another user, `update_food_cart` none of another
address than its own, and the tools that are not about carts none at all. -/
structure Upstream.PerAddress {R : Remote N σ χ} (up : Upstream R) : Prop where
  users : ∀ ch token tool args s u args', u ≠ up.owner token →
    up.cart u args' (R.tools ch token tool args s).2 = up.cart u args' s
  addresses : ∀ ch token args s u args' addressId other, addressOf args = some addressId →
    addressOf args' = some other → other ≠ addressId →
    up.cart u args' (R.tools ch token "update_food_cart" args s).2 = up.cart u args' s
  tools : ∀ ch token tool args s u args', tool ∉ cartTools →
    up.cart u args' (R.tools ch token tool args s).2 = up.cart u args' s

/-! ### Calls -/

/-- A call of a tool: the state before it, and how it went. -/
structure CallNote (N σ χ : Type) where
  before : World σ
  call : ToolCall N
  done : Done (World σ) (McpOp N) (McpChoice χ) (McpErr N) (Json N)

/-- One whole call of a tool. -/
def callNext (pf : Platform N) (R : Remote N σ χ) (s : World σ) (l : ToolCall N × List (McpChoice χ)) :
    Option (World σ × CallNote N σ χ) :=
  ((callTool pf l.1).run (exec pf R) l.2 s).map fun d => (d.state, ⟨s, l.1, d⟩)

/-- Calls with these texts of arguments. -/
abbrev Uses (pf : Platform N) (texts : Set String) :
    List (CallNote N σ χ) → World σ → ToolCall N × List (McpChoice χ) → Prop :=
  fun _ _ l => argsText pf l.1.args ∈ texts

omit [Zero N] [DecidableEq N] in
/-- When a call begins, no cart can be read from the cache that it may change and does not remove: of its user,
none of the address of an update under other arguments than the address, and none at all where a coupon is
applied or an order placed.  Where carts are removed by a pattern, the name of the user stands for itself; and a
removal is answered. -/
structure Targeted (pf : Platform N) (texts : Set String) (o : CallNote N σ χ) : Prop where
  update : o.call.tool = "update_food_cart" → ∀ addressId, addressOf o.call.args = some addressId →
    ∀ args, argsText pf args ∈ texts → HasCart pf o.before o.before.clock o.call.userId args →
      args = addressArgs addressId ∨ ∃ other, addressOf args = some other ∧ other ≠ addressId
  kept : o.call.tool ∈ ["apply_food_coupon", "place_food_order"] →
    ∀ args, argsText pf args ∈ texts → ¬ HasCart pf o.before o.before.clock o.call.userId args
  name : Busting o.call → (o.call.tool = "update_food_cart" → addressOf o.call.args = none) →
    Glob.Plain o.call.userId
  answered : Busting o.call → ∃ result, o.done.result = .ok result

section Step

variable {pf : Platform N} {R : Remote N σ χ} {up : Upstream R} {texts : Set String} {s : World σ}
  {l : ToolCall N × List (McpChoice χ)} {s' : World σ} {o : CallNote N σ χ}

/-- What a call that removes carts leaves of the cache. -/
theorem removed_of_next (hd : Digest pf texts) (hpf : Redis pf) (hargs : argsText pf l.1.args ∈ texts)
    (hknown : Known pf up texts s) (hs : callNext pf R s l = some (s', o)) (hbust : Busting l.1)
    {result : Json N} (hresult : o.done.result = .ok result) :
    ∀ key, key ≠ tokenKey l.1.userId → s'.cache key = if busts pf l.1 key = true then none else s.cache key := by
  obtain ⟨d, hrun, heq⟩ := Option.map_eq_some_iff.mp hs
  cases heq
  obtain ⟨-, hread⟩ := Prog.wlp_iff_run.mp (callTool_wlp hd hargs hknown) _ _ hrun
  have hsucceeded := (hread result hresult).2 (not_mem_cacheableTools hbust)
  exact (removal_spec hpf hbust hrun hresult hsucceeded).1

omit [Zero N] [DecidableEq N] in
/-- The carts of a user whose name stands for itself match the pattern. -/
theorem busts_cartKey (hpf : Redis pf) {c : ToolCall N} (hname : Glob.Plain c.userId)
    (haddress : c.tool = "update_food_cart" → addressOf c.args = none) (args : Args N) :
    busts pf c (cartKey pf c.userId args) = true := by
  rw [busts_of_none haddress, glob_cartKey hpf, stringmatch_plain hpf hname]
  exact .inl rfl

/-- **A cart that a call does not remove** is one that it does not change. -/
theorem untouched_of_spared (hpf : Redis pf) (hup : up.PerAddress) (htargeted : Targeted pf texts o) {u : String}
    {args : Args N} (hu : argsText pf args ∈ texts) (hbefore : HasCart pf o.before o.before.clock u args)
    (hspared : Busting o.call → busts pf o.call (cartKey pf u args) = false) : Untouched up o.call u args := by
  intro ch token s₁ howner
  by_cases hmine : u = o.call.userId
  · subst hmine
    by_cases hupdate : o.call.tool = "update_food_cart"
    · cases haddress : addressOf o.call.args with
      | some addressId =>
        have hne : args ≠ addressArgs addressId := by
          rintro rfl
          have hkept := hspared (.inl hupdate)
          rw [busts_of_address hupdate haddress] at hkept
          exact absurd rfl (decide_eq_false_iff_not.mp hkept)
        obtain ⟨other, hother, hdiffer⟩ :=
          (htargeted.update hupdate addressId haddress args hu hbefore).resolve_left hne
        rw [hupdate]
        exact hup.addresses _ _ _ _ _ _ _ _ haddress hother hdiffer
      | none =>
        have hnone : o.call.tool = "update_food_cart" → addressOf o.call.args = none := fun _ => haddress
        have hkept := hspared (.inl hupdate)
        rw [busts_cartKey hpf (htargeted.name (.inl hupdate) hnone) hnone] at hkept
        cases hkept
    · by_cases hflush : o.call.tool = "flush_food_cart"
      · have hnone : o.call.tool = "update_food_cart" → addressOf o.call.args = none := fun h => absurd h hupdate
        have hkept := hspared (.inr hflush)
        rw [busts_cartKey hpf (htargeted.name (.inr hflush) hnone) hnone] at hkept
        cases hkept
      · by_cases hother : o.call.tool ∈ ["apply_food_coupon", "place_food_order"]
        · exact absurd hbefore (htargeted.kept hother args hu)
        · exact hup.tools _ _ _ _ _ _ _ fun hcart => by
            simp only [cartTools, List.mem_cons, List.not_mem_nil, or_false] at hcart hother
            tauto
  · exact hup.users _ _ _ _ _ _ _ fun h => hmine (h.trans howner)

/-- **One call** that is targeted leaves no stale cart in the cache. -/
theorem fresh_step (hd : Digest pf texts) (hpf : Redis pf) (hup : up.PerAddress)
    (hargs : argsText pf l.1.args ∈ texts) (hknown : Known pf up texts s) (hfresh : Fresh pf up texts s)
    (hs : callNext pf R s l = some (s', o)) (htargeted : Targeted pf texts o) : Fresh pf up texts s' := by
  have hremoved : Busting l.1 → ∀ result, o.done.result = .ok result → ∀ key, key ≠ tokenKey l.1.userId →
      s'.cache key = if busts pf l.1 key = true then none else s.cache key :=
    fun hbust _ hresult => removed_of_next hd hpf hargs hknown hs hbust hresult
  obtain ⟨d, hrun, heq⟩ := Option.map_eq_some_iff.mp hs
  cases heq
  obtain ⟨hw, -⟩ := Prog.wlp_iff_run.mp (callTool_wlp hd hargs hknown) _ _ hrun
  intro u args hu data hget
  obtain ⟨e, hentry, halive, rfl⟩ := Store.get_eq_some.mp hget
  rcases hw.entries u args hu e hentry with hbefore | ⟨-, hvalue⟩
  · have hread : s.cache.get s.clock (cartKey pf u args) = some e.value :=
      Store.get_of_le hw.clock (Store.get_eq_some.mpr ⟨e, hbefore, halive, rfl⟩)
    rw [hfresh u args hu e.value hread]
    have hcart : HasCart pf s s.clock u args := fun hnone => by
      rw [hnone] at hread
      cases hread
    have huntouched : Untouched up l.1 u args := by
      refine untouched_of_spared (o := ⟨s, l.1, d⟩) hpf hup htargeted hu hcart fun hbust => ?_
      obtain ⟨result, hresult⟩ := htargeted.answered hbust
      have hkey := hremoved hbust result hresult (cartKey pf u args) tokenKey_ne.symm
      rw [hentry] at hkey
      by_contra hbusts
      rw [if_pos (eq_true_of_ne_false hbusts)] at hkey
      cases hkey
    rw [hw.carts u args huntouched]
  · exact hvalue

end Step

/-! ### Runs -/

section Runs

variable {pf : Platform N} {R : Remote N σ χ} {up : Upstream R} {texts : Set String} {s : World σ}

/-- What a call has read is what the server would have answered when it began. -/
def ReadsCart (up : Upstream R) (o : CallNote N σ χ) : Prop :=
  o.call.tool = "get_food_cart" → ∀ result, o.done.result = .ok result →
    result = up.cart o.call.userId o.call.args o.before.remote

/-- A call that removes carts and returns has removed its keys, and nothing else but that its user may have
another token. -/
def RemovesOnly (pf : Platform N) (o : CallNote N σ χ) : Prop :=
  Busting o.call → ∀ result, o.done.result = .ok result → ∀ key, key ≠ tokenKey o.call.userId →
    o.done.state.cache key = if busts pf o.call key = true then none else o.before.cache key

/-- What a run keeps. -/
structure Kept (pf : Platform N) (up : Upstream R) (texts : Set String) (os : List (CallNote N σ χ))
    (s : World σ) : Prop where
  known : Known pf up texts s
  fresh : (∀ o ∈ os, Targeted pf texts o) → Fresh pf up texts s ∧
    ∀ o ∈ os, ReadsCart up o ∧ Coherent pf up texts o.done.state
  removed : ∀ o ∈ os, RemovesOnly pf o

theorem Kept.step [Nonempty χ] (hd : Digest pf texts) (hpf : Redis pf) (hup : up.PerAddress)
    {os : List (CallNote N σ χ)} {l : ToolCall N × List (McpChoice χ)} {s' : World σ} {o : CallNote N σ χ}
    (h : Kept pf up texts os s) (hargs : argsText pf l.1.args ∈ texts) (hs : callNext pf R s l = some (s', o)) :
    Kept pf up texts (os ++ [o]) s' := by
  have hfresh := fun hbefore => fresh_step hd hpf hup hargs h.known hbefore hs
  have hremoved : RemovesOnly pf o := by
    have hnext : Busting l.1 → ∀ result, o.done.result = .ok result → ∀ key, key ≠ tokenKey l.1.userId →
        s'.cache key = if busts pf l.1 key = true then none else s.cache key :=
      fun hbust _ hresult => removed_of_next hd hpf hargs h.known hs hbust hresult
    obtain ⟨d, -, heq⟩ := Option.map_eq_some_iff.mp hs
    cases heq
    exact hnext
  obtain ⟨d, hrun, heq⟩ := Option.map_eq_some_iff.mp hs
  cases heq
  obtain ⟨hw, hread⟩ := Prog.wlp_iff_run.mp (callTool_wlp hd hargs h.known) _ _ hrun
  refine ⟨hw.known, fun hall => ?_, ?_⟩
  · rw [List.forall_mem_append, List.forall_mem_singleton] at hall
    obtain ⟨hbefore, hpast⟩ := h.fresh hall.1
    have hafter := hfresh hbefore hall.2
    refine ⟨hafter, ?_⟩
    rw [List.forall_mem_append, List.forall_mem_singleton]
    exact ⟨hpast, fun htool result hresult => (hread result hresult).1 htool hbefore,
      (coherent_iff_fresh hd hw.known).mpr hafter⟩
  · rw [List.forall_mem_append, List.forall_mem_singleton]
    exact ⟨h.removed, hremoved⟩

end Runs

/-! ### A cart that is cached with the name of its restaurant -/

/-- `{ addressId: "home" }`. -/
def homeArgs : Args ℤ := addressArgs "home"

/-- `{ addressId: "home", restaurantName: "cafe" }`. -/
def cafeArgs : Args ℤ :=
  ⟨[("addressId", .str "home"), ("restaurantName", .str "cafe")], .obj (by simp) (by simp [Json.Wf.str])⟩

/-- Hashes of the two texts. -/
def cartPlatform : Platform ℤ where
  fmt := Json.integers
  sha256 text :=
    if text = "\x7b\"addressId\":\"home\",\"restaurantName\":\"cafe\"\x7d" then
      "c28f86501190441abb68f4086e6828f7abfd6960a30352742cb8fa0ea8f4ddde"
    else if text = "\x7b\"addressId\":\"home\"\x7d" then
      "e47bb97200ec6d73747ceaf261661e5ea5124892bd822778b032cb3bae14a85d"
    else "44136fa355b3678a1146ad16f7e8649e94fb4fc21fe77e8310c060f61caaff8a"
  glob := Glob.stringmatch

def cartTexts : Set String := {argsText cartPlatform homeArgs, argsText cartPlatform cafeArgs}

/-- The cart of an address of a user: that of the user at home counts its updates. -/
def cartAnswer (u : String) (args : Args ℤ) (updates : ℤ) : Json ℤ :=
  .obj [("success", .bool true), ("data", .num (if u = "user" ∧ addressOf args = some "home" then updates else 0))]

theorem wf_cartAnswer {u : String} {args : Args ℤ} {updates : ℤ} : (cartAnswer u args updates).Wf :=
  .obj (by simp) (by simp [Json.Wf.bool, Json.Wf.num])

def cartRemote : Remote ℤ ℤ Unit where
  auth _ userId s := (.ok userId, s)
  tools _ token tool args s :=
    (.ok (cartAnswer token args s),
      if tool = "update_food_cart" ∧ token = "user" ∧ addressOf args = some "home" then s + 1 else s)
  wf _ _ _ _ _ result h := by
    cases h
    exact wf_cartAnswer

def cartUpstream : Upstream cartRemote where
  owner token := token
  cart := cartAnswer
  wf _ _ _ := wf_cartAnswer
  auth _ u _ := ⟨u, rfl, rfl⟩
  auth_keeps _ _ _ _ _ := rfl
  answers _ token _ args s := ⟨cartAnswer token args s, rfl, rfl⟩
  reads _ _ _ _ := rfl
  reads_keep _ _ _ _ _ _ := rfl

theorem perAddress_cartUpstream : cartUpstream.PerAddress := by
  have hkept : ∀ (u token tool : String) (args args' : Args ℤ) (updates : ℤ),
      (tool = "update_food_cart" → token = "user" → addressOf args = some "home" →
        ¬ (u = "user" ∧ addressOf args' = some "home")) →
      cartAnswer u args' (if tool = "update_food_cart" ∧ token = "user" ∧ addressOf args = some "home" then
        updates + 1 else updates) = cartAnswer u args' updates := by
    intro u token tool args args' updates h
    by_cases hchanged : tool = "update_food_cart" ∧ token = "user" ∧ addressOf args = some "home"
    · have hnot := h hchanged.1 hchanged.2.1 hchanged.2.2
      unfold cartAnswer
      rw [if_neg hnot, if_neg hnot]
    · rw [if_neg hchanged]
  refine ⟨fun _ token tool args updates u args' hne => ?_,
    fun _ token args updates u args' addressId other haddress hother hne => ?_,
    fun _ token tool args updates u args' htool => ?_⟩
  · exact hkept u token tool args args' updates fun _ htoken _ huser => hne (huser.1.trans htoken.symm)
  · refine hkept u token _ args args' updates fun _ _ hhome huser => hne ?_
    rw [hhome] at haddress
    rw [huser.2] at hother
    exact (Option.some.inj hother).symm.trans (Option.some.inj haddress)
  · exact hkept u token tool args args' updates fun hupdate _ _ _ => htool (by rw [hupdate]; decide)

theorem digest_cartTexts : Digest cartPlatform cartTexts where
  hex text := by
    unfold cartPlatform
    dsimp only
    split
    · decide
    · split <;> decide
  injective := by
    have hne : cartPlatform.sha256 (argsText cartPlatform homeArgs) ≠
        cartPlatform.sha256 (argsText cartPlatform cafeArgs) := by decide
    rintro _ (rfl | rfl) _ (rfl | rfl) h
    · rfl
    · exact absurd h hne
    · exact absurd h.symm hne
    · rfl

theorem redis_cartPlatform : Redis cartPlatform := ⟨rfl, digest_cartTexts.hex⟩

def readCart (args : Args ℤ) : ToolCall ℤ := ⟨"get_food_cart", args, "user"⟩

def updateCart : ToolCall ℤ := ⟨"update_food_cart", homeArgs, "user"⟩

/-- The cache after the first read of a cart. -/
def cartCached (args : Args ℤ) : World ℤ :=
  ⟨6, (Store.empty.put (tokenKey "user") "user" (some 30004)).put (cartKey cartPlatform "user" args)
    (Json.stringify Json.integers (cartAnswer "user" args 0)) (some 300006), 0⟩

/-- And after an update that follows it. -/
def cartUpdated (args : Args ℤ) : World ℤ :=
  ⟨9, (cartCached args).cache.erase (· = cartKey cartPlatform "user" homeArgs), 1⟩

theorem readCart_first (args : Args ℤ) : ∃ o, callNext cartPlatform cartRemote ⟨0, Store.empty, 0⟩
    (readCart args, quick 6) = some (cartCached args, o) ∧ o.before = ⟨0, Store.empty, 0⟩ ∧
      o.call = readCart args ∧ o.done.state = cartCached args :=
  ⟨_, rfl, rfl, rfl, rfl⟩

theorem updateCart_next (args : Args ℤ) : ∃ o, callNext cartPlatform cartRemote (cartCached args)
    (updateCart, quick 3) = some (cartUpdated args, o) ∧ o.before = cartCached args ∧
      o.call = updateCart ∧ o.done.state = cartUpdated args ∧
      o.done.result = .ok (cartAnswer "user" homeArgs 0) :=
  ⟨_, rfl, rfl, rfl, rfl, rfl⟩

theorem readCart_again : ∃ o s, callNext cartPlatform cartRemote (cartUpdated cafeArgs)
    (readCart cafeArgs, quick 1) = some (s, o) ∧ o.before = cartUpdated cafeArgs ∧
      o.call = readCart cafeArgs ∧ o.done.result = .ok (cartAnswer "user" cafeArgs 0) := by
  have hhit := callTool_hit cartPlatform cartRemote (cartUpdated cafeArgs) (readCart cafeArgs)
    (show "get_food_cart" ∈ cacheableTools by decide) ⟨1, none, true, ()⟩ rfl
    (cartUpstream.wf "user" cafeArgs 0) rfl rfl
  exact ⟨_, _, congrArg (Option.map _) hhit, rfl, rfl, rfl⟩

end Gusto.Mcp
