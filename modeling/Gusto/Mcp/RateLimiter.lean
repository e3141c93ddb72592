import Gusto.Http
import Gusto.Lib.Expiring
import Gusto.Lib.Json
import Gusto.Lib.Search
import Mathlib.Algebra.Order.Floor.Semiring
import Mathlib.Data.List.Nodup
import Mathlib.Data.Rat.Floor

/-!
# The rate limiter of the gateway to the MCP servers

`RateLimiterMiddleware.use` keeps a sorted set for each user and class of tools, scored by the
instants of the requests in milliseconds, and lets a request through if the set has not outgrown the
limit.

* `SortedSet` and the commands of the pipeline, over keys that expire;
* `use`, and `passing`: the requests of a sequence that get through;
* `rateLimited`: the limit holds over every trailing minute.
-/

set_option autoImplicit false

namespace Gusto.RateLimiter

open Expiring

/-! ### Sorted sets -/

/-- A sorted set: its members with their scores, none of them twice. -/
structure SortedSet where
  entries : List (String × ℤ)
  nodup : (entries.map Prod.fst).Nodup

namespace SortedSet

def empty : SortedSet := ⟨[], List.nodup_nil⟩

/-- The members whose scores lie outside of `lo` to `hi`. -/
def removeRange (z : SortedSet) (lo hi : ℤ) : SortedSet where
  entries := z.entries.filter fun m => !decide (lo ≤ m.2 ∧ m.2 ≤ hi)
  nodup := z.nodup.sublist (List.filter_sublist.map Prod.fst)

/-- `member` with its score; a member that is there has its score replaced. -/
def add (z : SortedSet) (score : ℤ) (member : String) : SortedSet where
  entries := z.entries.filter (fun m => m.1 ≠ member) ++ [(member, score)]
  nodup := by
    rw [List.map_append, List.nodup_append]
    refine ⟨z.nodup.sublist (List.filter_sublist.map Prod.fst), by simp, ?_⟩
    intro m hm n hn
    obtain ⟨e, he, rfl⟩ := List.mem_map.mp hm
    have hne := of_decide_eq_true (List.mem_filter.mp he).2
    rw [List.map_singleton, List.mem_singleton] at hn
    rw [hn]
    exact hne

@[simp] theorem mem_removeRange {z : SortedSet} {lo hi : ℤ} {m : String × ℤ} :
    m ∈ (z.removeRange lo hi).entries ↔ m ∈ z.entries ∧ ¬ (lo ≤ m.2 ∧ m.2 ≤ hi) := by
  simp only [removeRange, List.mem_filter, Bool.not_eq_true', decide_eq_false_iff_not]

@[simp] theorem mem_add {z : SortedSet} {score : ℤ} {member : String} {m : String × ℤ} :
    m ∈ (z.add score member).entries ↔ m ∈ z.entries ∧ m.1 ≠ member ∨ m = (member, score) := by
  simp [add, List.mem_filter]

end SortedSet

/-- The sorted sets that Redis holds. -/
abbrev SortedSets : Type := Store String SortedSet ℤ

namespace SortedSets

/-- The sorted set under a key; a key that is not there has the empty one. -/
def zset (db : SortedSets) (now : ℤ) (key : String) : SortedSet := (db.get now key).getD .empty

/-- `ZREMRANGEBYSCORE`; a set that is left empty is removed with its key. -/
def zremrangebyscore (db : SortedSets) (now : ℤ) (key : String) (lo hi : ℤ) : SortedSets :=
  if ((db.zset now key).removeRange lo hi).entries = [] then db.erase (· = key)
  else db.replace now key ((db.zset now key).removeRange lo hi)

/-- `ZADD` of one member. -/
def zadd (db : SortedSets) (now : ℤ) (key : String) (score : ℤ) (member : String) : SortedSets :=
  db.replace now key ((db.zset now key).add score member)

/-- `ZCARD`. -/
def zcard (db : SortedSets) (now : ℤ) (key : String) : ℕ := (db.zset now key).entries.length

/-- `EXPIRE`. -/
def expire (db : SortedSets) (now : ℤ) (key : String) (seconds : ℤ) : SortedSets :=
  db.touch now key (now + seconds * 1000)

section

variable {db : SortedSets} {now later : ℤ} {key key' : String}

theorem mem_zset_zremrangebyscore {lo hi : ℤ} {m : String × ℤ} :
    m ∈ ((db.zremrangebyscore now key lo hi).zset now key).entries ↔
      m ∈ ((db.zset now key).removeRange lo hi).entries := by
  unfold zremrangebyscore
  split
  · rename_i hnil
    rw [hnil]
    simp [zset, SortedSet.empty]
  · simp [zset, Store.get_replace_self]

theorem get_zremrangebyscore_of_ne {lo hi : ℤ} (h : key' ≠ key) :
    (db.zremrangebyscore now key lo hi).get later key' = db.get later key' := by
  unfold zremrangebyscore
  split
  · simp [h]
  · exact Store.get_replace_of_ne h

theorem get_zadd_self {score : ℤ} {member : String} :
    (db.zadd now key score member).get now key = some ((db.zset now key).add score member) :=
  Store.get_replace_self

end

end SortedSets

/-! ### The middleware -/

/-- The limits of the environment, numbers of any kind. -/
structure Env where
  RATE_LIMIT_READ : ℚ
  RATE_LIMIT_WRITE : ℚ

def writeTools : List String :=
  ["update_food_cart", "flush_food_cart", "apply_food_coupon", "place_food_order", "report_error"]

def WINDOW_SECONDS : ℤ := 60

/-- A request: its `x-user-id` header and path, the instant of `Date.now()`, and the `randomUUID()`
that is drawn for it. -/
structure Request where
  userId : Option String
  path : String
  now : ℤ
  uuid : String
  deriving DecidableEq, Repr

/-- The last segment of a path. -/
def tool (path : String) : String := String.ofList ((path.toList.splitOn '/').getLastD [])

def Request.isWriteTool (req : Request) : Bool := writeTools.contains (tool req.path)

/-- The user a request names; an empty header names none. -/
def Request.user (req : Request) : Option String := req.userId.filter (· ≠ "")

/-- The limit of a class of tools. -/
def limit (env : Env) (isWriteTool : Bool) : ℚ :=
  if isWriteTool then env.RATE_LIMIT_WRITE else env.RATE_LIMIT_READ

def rateLimitKey (isWriteTool : Bool) (userId : String) : String :=
  "rate-limit:mcp:food:" ++ (if isWriteTool then "write" else "read") ++ ":" ++ userId

/-- The member of a request. -/
def Request.member (req : Request) : String :=
  String.ofList (Json.printInt req.now) ++ ":" ++ req.uuid

/-- What the middleware answers: the headers it has set, and `next()` or what it throws. -/
structure Response where
  headers : List (String × ℚ)
  result : Except Err Unit
  deriving Repr

/-- The pipeline of a request: the number of members, and the sorted sets it leaves. -/
def pipeline (key : String) (req : Request) (db : SortedSets) : ℕ × SortedSets :=
  let windowStart := req.now - WINDOW_SECONDS * 1000
  let db := db.zremrangebyscore req.now key 0 windowStart
  let db := db.zadd req.now key req.now req.member
  let count := db.zcard req.now key
  (count, db.expire req.now key WINDOW_SECONDS)

/-- `RateLimiterMiddleware.use`. -/
def use (env : Env) (req : Request) (db : SortedSets) : Response × SortedSets :=
  match req.user with
  | none => (⟨[], .error (.http 400 "x-user-id header is required")⟩, db)
  | some userId =>
    let limit := limit env req.isWriteTool
    let (count, db) := pipeline (rateLimitKey req.isWriteTool userId) req db
    if limit < count then
      (⟨[("X-RateLimit-Limit", limit), ("X-RateLimit-Remaining", 0), ("Retry-After", WINDOW_SECONDS)],
        .error (.http 429 "Too Many Requests")⟩, db)
    else
      (⟨[("X-RateLimit-Limit", limit), ("X-RateLimit-Remaining", max 0 (limit - count))], .ok ()⟩, db)

/-- The sorted sets after a sequence of requests. -/
def serve (env : Env) (reqs : List Request) (db : SortedSets) : SortedSets :=
  reqs.foldl (fun db req => (use env req db).2) db

/-- The requests of a sequence that are let through. -/
def letThrough (env : Env) : List Request → SortedSets → List Request
  | [], _ => []
  | req :: reqs, db =>
    let passed := letThrough env reqs (use env req db).2
    match (use env req db).1.result with
    | .ok _ => req :: passed
    | .error _ => passed

/-- The requests of a user for a class of tools that are let through. -/
def passing (env : Env) (reqs : List Request) (db : SortedSets) (userId : String)
    (isWriteTool : Bool) : List Request :=
  (letThrough env reqs db).filter fun req =>
    decide (req.user = some userId ∧ req.isWriteTool = isWriteTool)

/-! ### What the sorted sets hold -/

section

variable {env : Env} {req : Request} {reqs : List Request} {db : SortedSets}

theorem uuid_of_member {req req' : Request} (h : req.member = req'.member) : req.uuid = req'.uuid := by
  have hcolon : ∀ n : ℤ, ':' ∉ Json.printInt n := fun n hc =>
    absurd (Json.integers.isNumChar_of_mem n _ hc) (by decide)
  have hlist : Json.printInt req.now ++ ':' :: req.uuid.toList =
      Json.printInt req'.now ++ ':' :: req'.uuid.toList := by
    simpa [Request.member] using congrArg String.toList h
  exact String.toList_inj.mp (Search.append_cons_inj (hcolon _) (hcolon _) hlist).2

theorem rateLimitKey_inj {w w' : Bool} {u u' : String} (h : rateLimitKey w u = rateLimitKey w' u') :
    w = w' ∧ u = u' := by
  have hrest : ((if w then "write" else "read") ++ (":" ++ u)).toList =
      ((if w' then "write" else "read") ++ (":" ++ u')).toList := by
    unfold rateLimitKey at h
    simp only [String.append_assoc] at h
    exact congrArg String.toList ((String.append_right_inj _).mp h)
  clear h
  cases w <;> cases w' <;> simp at hrest
  · exact ⟨rfl, String.toList_inj.mp hrest⟩
  · exact ⟨rfl, String.toList_inj.mp hrest⟩

/-- **What a pipeline does**: it counts the set `z` that it leaves for the next minute. -/
theorem pipeline_spec (key : String) (req : Request) (db : SortedSets) : ∃ z : SortedSet,
    (pipeline key req db).1 = z.entries.length ∧
    (∀ m, m ∈ z.entries ↔ m ∈ (db.zset req.now key).entries ∧
      ¬ (0 ≤ m.2 ∧ m.2 ≤ req.now - 60000) ∧ m.1 ≠ req.member ∨ m = (req.member, req.now)) ∧
    (∀ later < req.now + 60000, (pipeline key req db).2.zset later key = z) ∧
    ∀ key' ≠ key, ∀ later, (pipeline key req db).2.zset later key' = db.zset later key' := by
  let db₁ := db.zremrangebyscore req.now key 0 (req.now - WINDOW_SECONDS * 1000)
  have hadd : (db₁.zadd req.now key req.now req.member).get req.now key =
      some ((db₁.zset req.now key).add req.now req.member) := SortedSets.get_zadd_self
  refine ⟨(db₁.zset req.now key).add req.now req.member, ?_, ?_, ?_, ?_⟩
  · show ((db₁.zadd req.now key req.now req.member).zset req.now key).entries.length = _
    rw [SortedSets.zset, hadd]
    rfl
  · intro m
    rw [SortedSet.mem_add, SortedSets.mem_zset_zremrangebyscore, SortedSet.mem_removeRange, and_assoc]
    exact Iff.rfl
  · intro later hlater
    show ((db₁.zadd req.now key req.now req.member).expire req.now key WINDOW_SECONDS).zset later key = _
    rw [SortedSets.zset, SortedSets.expire, Store.get_touch_self hadd,
      if_pos (show later < req.now + WINDOW_SECONDS * 1000 from hlater)]
    rfl
  · intro key' hne later
    show ((db₁.zadd req.now key req.now req.member).expire req.now key WINDOW_SECONDS).zset later key' = _
    rw [SortedSets.zset, SortedSets.expire, Store.get_touch_of_ne hne, SortedSets.zadd,
      Store.get_replace_of_ne hne, SortedSets.get_zremrangebyscore_of_ne hne]
    rfl

theorem use_of_none (h : req.user = none) :
    use env req db = (⟨[], .error (.http 400 "x-user-id header is required")⟩, db) := by
  rw [use, h]

/-- What is left of a request that names a user, and when it is let through. -/
theorem use_of_some {u : String} (h : req.user = some u) :
    (use env req db).2 = (pipeline (rateLimitKey req.isWriteTool u) req db).2 ∧
    ((use env req db).1.result = .ok () ↔
      ((pipeline (rateLimitKey req.isWriteTool u) req db).1 : ℚ) ≤ limit env req.isWriteTool) := by
  rw [use, h]
  dsimp only
  split
  · rename_i hlt
    exact ⟨rfl, by simpa using hlt⟩
  · rename_i hle
    exact ⟨rfl, by simpa using hle⟩

/-- Each request that is less than a minute old is a member of the set of its user and class. -/
def Logged (reqs : List Request) (db : SortedSets) : Prop :=
  ∀ req ∈ reqs, ∀ u, req.user = some u → ∀ now, (∀ r ∈ reqs, r.now ≤ now) → now < req.now + 60000 →
    (req.member, req.now) ∈ (db.zset now (rateLimitKey req.isWriteTool u)).entries

/-- The requests come in the order of their instants, each with a draw of its own. -/
def InOrder (reqs : List Request) : Prop :=
  reqs.Pairwise (fun req req' => req.now ≤ req'.now) ∧ (reqs.map Request.uuid).Nodup

theorem InOrder.of_concat (h : InOrder (reqs ++ [req])) : InOrder reqs ∧
    (∀ r ∈ reqs, r.now ≤ req.now) ∧ ∀ r ∈ reqs, r.member ≠ req.member := by
  obtain ⟨hnow, huuid⟩ := h
  rw [List.pairwise_append] at hnow
  rw [List.map_append, List.nodup_append] at huuid
  refine ⟨⟨hnow.1, huuid.1⟩, fun r hr => hnow.2.2 r hr req (by simp), fun r hr hmem => ?_⟩
  exact huuid.2.2 r.uuid (List.mem_map_of_mem hr) req.uuid (by simp) (uuid_of_member hmem)

/-- A request is logged, and pushes out none that is less than a minute old. -/
theorem Logged.use (h : Logged reqs db) (hord : InOrder (reqs ++ [req])) :
    Logged (reqs ++ [req]) (use env req db).2 := by
  obtain ⟨-, hbefore, hfresh⟩ := hord.of_concat
  intro r hr u hu now hnow hlt
  have hlast : req.now ≤ now := hnow req (by simp)
  -- what was logged before the request is there when it comes, and `now` if its set stays as it was
  have hold : r ∈ reqs → ∀ t, req.now ≤ t → t ≤ now →
      (r.member, r.now) ∈ (db.zset t (rateLimitKey r.isWriteTool u)).entries := fun hmem t ht htn =>
    h r hmem u hu t (fun r' hr' => (hbefore r' hr').trans ht) (by omega)
  cases hreq : req.user with
  | none =>
    rw [use_of_none hreq]
    rcases List.mem_append.mp hr with hmem | hmem
    · exact hold hmem now hlast le_rfl
    · rw [List.mem_singleton.mp hmem, hreq] at hu
      cases hu
  | some u' =>
    rw [(use_of_some hreq).1]
    obtain ⟨z, -, hz, hkeep, hother⟩ := pipeline_spec (rateLimitKey req.isWriteTool u') req db
    by_cases hkey : rateLimitKey r.isWriteTool u = rateLimitKey req.isWriteTool u'
    · rcases List.mem_append.mp hr with hmem | hmem
      · have hmine := hold hmem req.now le_rfl hlast
        have hrle := hbefore r hmem
        rw [hkey] at hmine ⊢
        rw [hkeep now (by omega), hz]
        exact .inl ⟨hmine, fun hgone => by dsimp only at hgone; omega, hfresh r hmem⟩
      · rw [List.mem_singleton.mp hmem] at hlt hkey ⊢
        rw [hkey, hkeep now hlt, hz]
        exact .inr rfl
    · rw [hother _ hkey]
      rcases List.mem_append.mp hr with hmem | hmem
      · exact hold hmem now hlast le_rfl
      · rw [List.mem_singleton.mp hmem] at hu hkey
        rw [hreq] at hu
        cases hu
        exact absurd rfl hkey

theorem serve_concat : serve env (reqs ++ [req]) db = (use env req (serve env reqs db)).2 := by
  simp [serve]

theorem logged_serve (h : InOrder reqs) : Logged reqs (serve env reqs db) := by
  induction reqs using List.reverseRecOn with
  | nil => exact nofun
  | append_singleton reqs req ih =>
    rw [serve_concat]
    exact (ih h.of_concat.1).use h

/-! ### The limit -/

theorem letThrough_concat : letThrough env (reqs ++ [req]) db =
    letThrough env reqs db ++ letThrough env [req] (serve env reqs db) := by
  induction reqs generalizing db with
  | nil => rfl
  | cons r reqs ih =>
    have htail : letThrough env (reqs ++ [req]) (use env r db).2 = _ := ih
    simp only [List.cons_append, letThrough, serve, List.foldl_cons] at htail ⊢
    rw [htail]
    cases (use env r db).1.result <;> rfl

theorem letThrough_sublist : (letThrough env reqs db).Sublist reqs := by
  induction reqs generalizing db with
  | nil => exact List.Sublist.refl []
  | cons req reqs ih =>
    rw [letThrough]
    split
    · exact ih.cons_cons req
    · exact ih.cons req

/-- **The count of a request** is no less than the requests of its user and class that came less than
a minute before it, itself included. -/
theorem length_le_count {u : String} (h : InOrder (reqs ++ [req])) (hu : req.user = some u) {l : List Request}
    (hl : l.Sublist (reqs ++ [req])) (hmine : ∀ r ∈ l, r.user = some u ∧ r.isWriteTool = req.isWriteTool)
    (hnow : ∀ r ∈ l, req.now - 60000 < r.now) :
    l.length ≤ (pipeline (rateLimitKey req.isWriteTool u) req (serve env reqs db)).1 := by
  have hlogged : Logged (reqs ++ [req]) (use env req (serve env reqs db)).2 :=
    (logged_serve h.of_concat.1).use h
  obtain ⟨z, hcount, -, hkeep, -⟩ :=
    pipeline_spec (rateLimitKey req.isWriteTool u) req (serve env reqs db)
  have hbefore : ∀ r ∈ reqs ++ [req], r.now ≤ req.now := by
    intro r hr
    rcases List.mem_append.mp hr with hr | hr
    · exact h.of_concat.2.1 r hr
    · rw [List.mem_singleton.mp hr]
  have hmem : l.map Request.member ⊆ z.entries.map Prod.fst := by
    intro m hm
    obtain ⟨r, hr, rfl⟩ := List.mem_map.mp hm
    have hin := hlogged r (hl.subset hr) u (hmine r hr).1 req.now hbefore (by have := hnow r hr; omega)
    rw [(use_of_some hu).1, (hmine r hr).2, hkeep req.now (by omega)] at hin
    exact List.mem_map.mpr ⟨_, hin, rfl⟩
  have hnodup : (l.map Request.member).Nodup := by
    have huuid : (l.map Request.uuid).Nodup := h.2.sublist (hl.map Request.uuid)
    refine List.Nodup.map_on (fun r hr r' hr' hmm => ?_) huuid.of_map
    exact List.inj_on_of_nodup_map huuid hr hr' (uuid_of_member hmm)
  rw [hcount, ← List.length_map Request.member,
    show z.entries.length = (z.entries.map Prod.fst).length from (List.length_map _).symm]
  exact (List.subperm_of_subset hnodup hmem).length_le

theorem mem_passing {u : String} {w : Bool} {r : Request} :
    r ∈ passing env reqs db u w ↔
      r ∈ letThrough env reqs db ∧ r.user = some u ∧ r.isWriteTool = w := by
  simp [passing, List.mem_filter]

theorem passing_concat {u : String} {w : Bool} : passing env (reqs ++ [req]) db u w =
    passing env reqs db u w ++ passing env [req] (serve env reqs db) u w := by
  rw [passing, letThrough_concat, List.filter_append]
  rfl

variable (env req db) in
/-- Of one request, none passes, or it does, its count being within the limit. -/
theorem passing_one (u : String) (w : Bool) : passing env [req] db u w = [] ∨
    passing env [req] db u w = [req] ∧ req.user = some u ∧ req.isWriteTool = w ∧
      ((pipeline (rateLimitKey w u) req db).1 : ℚ) ≤ limit env w := by
  by_cases hmine : req.user = some u ∧ req.isWriteTool = w
  · cases hres : (use env req db).1.result with
    | error e => exact .inl (by simp [passing, letThrough, hres])
    | ok x =>
      refine .inr ⟨by simp [passing, letThrough, hres, hmine], hmine.1, hmine.2, ?_⟩
      have hle := (use_of_some hmine.1).2.mp hres
      rwa [hmine.2] at hle
  · refine .inl (List.filter_eq_nil_iff.mpr fun r hr => ?_)
    rw [List.mem_singleton.mp (letThrough_sublist.subset hr)]
    simpa using hmine

variable (env db) in
/-- Each request that is let through has counted those before it. -/
theorem counted_passing (h : InOrder reqs) (u : String) (w : Bool) :
    Counted 60000 ⌊limit env w⌋₊ ((passing env reqs db u w).map Request.now) := by
  induction reqs using List.reverseRecOn with
  | nil => exact counted_nil
  | append_singleton reqs req ih =>
    have hbefore := ih h.of_concat.1
    have hsub : (passing env (reqs ++ [req]) db u w).Sublist (reqs ++ [req]) :=
      List.filter_sublist.trans letThrough_sublist
    rw [passing_concat] at hsub ⊢
    rcases passing_one env req (serve env reqs db) u w with hnil | hone
    · rw [hnil, List.append_nil]
      exact hbefore
    · obtain ⟨hone, hu, hw, hle⟩ := hone
      rw [hone] at hsub ⊢
      rw [List.map_append, List.map_singleton]
      refine hbefore.concat ?_
      rw [← List.map_singleton (f := Request.now), ← List.map_append, List.filter_map, List.length_map]
      refine Nat.le_floor (le_trans (Nat.cast_le.mpr ?_) hle)
      subst hw
      refine length_le_count h hu (List.filter_sublist.trans hsub) ?_ ?_
      · intro r hr
        rcases List.mem_append.mp (List.mem_filter.mp hr).1 with hr | hr
        · exact (mem_passing.mp hr).2
        · rw [List.mem_singleton.mp hr]
          exact ⟨hu, rfl⟩
      · intro r hr
        simpa using (List.mem_filter.mp hr).2

/-- **The limit holds over every trailing minute**: of the requests of a user for a class of tools, no
more than the limit are let through in `(a, a + 60000]`, whatever the sets hold at first. -/
theorem rateLimited (env : Env) (db : SortedSets) (reqs : List Request) (h : InOrder reqs)
    (userId : String) (isWriteTool : Bool) (a : ℤ) :
    ((within a (a + 60000) ((passing env reqs db userId isWriteTool).map Request.now)).length : ℚ) ≤
      max (limit env isWriteTool) 0 := by
  have hle := window_le (counted_passing env db h userId isWriteTool) a
  refine (Nat.cast_le.mpr hle).trans ?_
  rcases le_total 0 (limit env isWriteTool) with hpos | hneg
  · exact (Nat.floor_le hpos).trans (le_max_left _ _)
  · rw [Nat.floor_of_nonpos hneg]
    exact le_max_right _ _

/-- A write and a read at one instant, and a write a minute later. -/
def minuteApart : List Request :=
  [⟨some "user-1", "/mcp/food/place_food_order", 1000, "uuid-1"⟩,
    ⟨some "user-1", "/mcp/food/get_food_cart", 1000, "uuid-2"⟩,
    ⟨some "user-1", "/mcp/food/flush_food_cart", 61000, "uuid-3"⟩]

theorem rateLimited_minuteApart : InOrder minuteApart ∧
    ((within 1000 61000 ((passing ⟨1, 1⟩ minuteApart Store.empty "user-1" true).map
      Request.now)).length : ℚ) ≤ 1 := by
  have hord : InOrder minuteApart := ⟨by decide, by decide⟩
  have hle := rateLimited ⟨1, 1⟩ Store.empty minuteApart hord "user-1" true 1000
  have hlimit : max (limit ⟨1, 1⟩ true) 0 = 1 := max_eq_left zero_le_one
  have hend : (1000 : ℤ) + 60000 = 61000 := by norm_num
  rw [hlimit, hend] at hle
  exact ⟨hord, hle⟩

end

end Gusto.RateLimiter
