import Gusto.Lib.Percent
import Gusto.Mcp.RateLimiter

/-!
# The limiter and the router

`FoodMcpController.call` stands at `mcp/food/:tool`, and the limiter at `mcp/food`, where it reads the
tool from the path once more.

* `route`: the tool that the router hands to the controller; `mounted`: the path that the limiter sees;
* `CountedIn`: the class of tools that a request is counted in;
* `counted_iff`: writes are counted as such where the path spells the tool as it is.
-/

set_option autoImplicit false

namespace Gusto.RateLimiter

open Expiring

/-- A text without the slash at its end, if it has one. -/
def withoutSlash (cs : List Char) : List Char := if cs.getLast? = some '/' then cs.dropLast else cs

/-- What stands for `:tool` in a path that matches `/mcp/food/:tool`, in upper or lower case and with a
slash at the end or without. -/
def segment (path : String) : Option (List Char) :=
  if (path.toList.take 10).map Char.toLower = "/mcp/food/".toList then
    let tool := withoutSlash (path.toList.drop 10)
    if tool ≠ [] ∧ '/' ∉ tool then some tool else none
  else none

/-- The parameter `tool` of a path that is routed to `FoodMcpController.call`; one that cannot be decoded
is answered with an error. -/
def route (path : String) : Option String :=
  (segment path).bind fun tool => (Percent.decodeURIComponent tool).map String.ofList

/-- `req.path` below `mcp/food`. -/
def mounted (path : String) : String := String.ofList (path.toList.drop 9)

/-- A request is counted in the bucket of a class of tools, whatever the buckets hold. -/
def CountedIn (env : Env) (req : Request) (isWriteTool : Bool) : Prop :=
  ∃ userId, req.user = some userId ∧ ∀ db, (req.member, req.now) ∈
    ((use env req db).2.zset req.now (rateLimitKey isWriteTool userId)).entries

section

variable {env : Env} {req : Request} {path t u : String} {seg : List Char}

/-- A request is counted in the class of the tool that the limiter reads, and in no other. -/
theorem countedIn_iff (hu : req.user = some u) {w : Bool} : CountedIn env req w ↔ req.isWriteTool = w := by
  constructor
  · rintro ⟨u', hu', hall⟩
    obtain rfl : u = u' := Option.some.inj (hu.symm.trans hu')
    by_contra hne
    have hmem := hall Store.empty
    obtain ⟨-, -, -, -, hother⟩ := pipeline_spec (rateLimitKey req.isWriteTool u) req Store.empty
    rw [(use_of_some hu).1, hother _ fun hkey => hne (rateLimitKey_inj hkey).1.symm] at hmem
    cases hmem
  · rintro rfl
    refine ⟨u, hu, fun db => ?_⟩
    obtain ⟨z, -, hz, hkeep, -⟩ := pipeline_spec (rateLimitKey req.isWriteTool u) req db
    rw [(use_of_some hu).1, hkeep req.now (by omega), hz]
    exact .inr rfl

/-! ### Paths -/

theorem withoutSlash_or (cs : List Char) : cs = withoutSlash cs ∨ cs = withoutSlash cs ++ ['/'] := by
  unfold withoutSlash
  split
  · rename_i hlast
    exact .inr (List.dropLast_append_getLast? _ hlast).symm
  · exact .inl rfl

theorem eq_slash_of_toLower {c : Char} (h : c.toLower = '/') : c = '/' := by
  unfold Char.toLower at h
  split at h
  · rename_i hupper
    have hlo : 65 ≤ c.toNat := UInt32.le_iff_toNat_le.mp hupper.1
    have hhi : c.toNat ≤ 90 := UInt32.le_iff_toNat_le.mp hupper.2
    have hsum : (c.toNat + 32) % 4294967296 = 47 := by simpa using congrArg Char.toNat h
    omega
  · exact h

/-- A path that is routed: the tool, and maybe a slash, after a slash. -/
theorem segment_spec (h : segment path = some seg) : '/' ∉ seg ∧
    path.toList.drop 9 = '/' :: path.toList.drop 10 ∧
      (path.toList.drop 10 = seg ∨ path.toList.drop 10 = seg ++ ['/']) := by
  unfold segment at h
  split at h
  · rename_i hprefix
    dsimp only at h
    split at h
    · rename_i htool
      obtain rfl := Option.some.inj h
      refine ⟨htool.2, ?_, withoutSlash_or _⟩
      have htenth : ((path.toList.drop 9).take 1).map Char.toLower = ['/'] := by
        have hdrop := congrArg (List.drop 9) hprefix
        rwa [← List.map_drop, List.drop_take] at hdrop
      rw [show (10 : ℕ) = 9 + 1 from rfl, ← List.drop_drop]
      cases hdrop : path.toList.drop 9 with
      | nil =>
        rw [hdrop] at htenth
        cases htenth
      | cons c cs =>
        rw [hdrop] at htenth
        rw [eq_slash_of_toLower (List.singleton_inj.mp htenth)]
        rfl
    · cases h
  · cases h

/-- The last part of a path. -/
theorem tool_of_not_mem (before : List Char) {rest : List Char} (h : '/' ∉ rest) :
    tool (String.ofList (before ++ '/' :: rest)) = String.ofList rest := by
  rw [tool, String.toList_ofList, List.splitOn_append_cons_self, List.splitOn_eq_singleton h,
    List.getLastD_concat]

/-- The limiter reads the tool before it is decoded, and nothing where a slash follows it. -/
theorem tool_mounted (h : segment path = some seg) :
    tool (mounted path) = if path.toList.drop 10 = seg then String.ofList seg else "" := by
  obtain ⟨hslash, hdrop, hrest | hrest⟩ := segment_spec h
  · rw [if_pos hrest, mounted, hdrop, hrest]
    exact tool_of_not_mem [] hslash
  · have hne : path.toList.drop 10 ≠ seg := by
      rw [hrest]
      simp
    rw [if_neg hne, mounted, hdrop, hrest]
    exact tool_of_not_mem ('/' :: seg) List.not_mem_nil

theorem plain_of_mem (h : t ∈ writeTools) : t ≠ "" ∧ '%' ∉ t.toList ∧ '/' ∉ t.toList := by
  revert t
  decide +kernel

end

/-- **Where writes are counted as such**: a request for the tool `t` is counted in the bucket of writes
exactly if `t` is one, unless it is and the path spells it otherwise. -/
theorem counted_iff (env : Env) (req : Request) (path t u : String) (hu : req.user = some u)
    (hpath : req.path = mounted path) (hroute : route path = some t) :
    (CountedIn env req true ↔ t ∈ writeTools) ↔
      (t ∈ writeTools → String.ofList (path.toList.drop 10) = t) := by
  obtain ⟨seg, hseg, hdecode⟩ := Option.bind_eq_some_iff.mp hroute
  obtain ⟨cs, hcs, rfl⟩ := Option.map_eq_some_iff.mp hdecode
  have hcounted : CountedIn env req true ↔
      path.toList.drop 10 = seg ∧ String.ofList seg ∈ writeTools := by
    rw [countedIn_iff hu, Request.isWriteTool, hpath, tool_mounted hseg, List.contains_iff_mem]
    split
    · rename_i hrest
      exact (and_iff_right hrest).symm
    · rename_i hrest
      exact iff_of_false (fun hmem => (plain_of_mem hmem).1 rfl) fun h => hrest h.1
  -- a write tool that stands in the path is the one that is decoded
  have hplain : String.ofList seg ∈ writeTools → cs = seg := by
    intro hmem
    have hpercent := (plain_of_mem hmem).2.1
    rw [String.toList_ofList] at hpercent
    rw [Percent.decodeURIComponent_of_not_mem hpercent] at hcs
    exact (Option.some.inj hcs).symm
  rw [hcounted]
  constructor
  · intro h hmem
    obtain ⟨hrest, hwrite⟩ := h.mpr hmem
    rw [hrest, hplain hwrite]
  · intro h
    constructor
    · rintro ⟨-, hwrite⟩
      rwa [hplain hwrite]
    · intro hmem
      have hrest : path.toList.drop 10 = cs := String.ofList_injective (h hmem)
      have hslash := (plain_of_mem hmem).2.2
      rw [String.toList_ofList] at hslash
      obtain ⟨-, -, hseg' | hseg'⟩ := segment_spec hseg
      · have hsame : seg = cs := hseg'.symm.trans hrest
        rw [hsame]
        exact ⟨hrest, hmem⟩
      · rw [← hrest, hseg'] at hslash
        simp at hslash

/-- A request for `place_food_order`, at a path. -/
def placement (path : String) : Request := ⟨some "user-1", mounted path, 0, "uuid-1"⟩

theorem counted_iff_placement :
    CountedIn ⟨120, 30⟩ (placement "/MCP/food/place_food_order") true ↔ "place_food_order" ∈ writeTools :=
  (counted_iff ⟨120, 30⟩ _ "/MCP/food/place_food_order" "place_food_order" "user-1" rfl rfl
    (by decide +kernel)).mpr fun _ => by decide +kernel

/-- With a slash at the end, a placement is counted as a read. -/
theorem not_counted : ¬ ∀ (env : Env) (req : Request) (path t u : String), req.user = some u →
    req.path = mounted path → route path = some t → (CountedIn env req true ↔ t ∈ writeTools) := by
  intro h
  have hcounted := h ⟨120, 30⟩ (placement "/mcp/food/place_food_order/") "/mcp/food/place_food_order/"
    "place_food_order" "user-1" rfl rfl (by decide +kernel)
  have hread : (placement "/mcp/food/place_food_order/").isWriteTool = false := by decide +kernel
  have hwrite := (countedIn_iff rfl).mp (hcounted.mpr (by decide))
  rw [hread] at hwrite
  cases hwrite

end Gusto.RateLimiter
