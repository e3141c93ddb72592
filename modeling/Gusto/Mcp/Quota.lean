import Gusto.Mcp.RateLimiter
import Mathlib.Tactic.NormNum

/-!
# What a rejected request costs

The middleware adds a request to its set before it looks at the count, so the requests that it rejects
are counted with the rest.

* `recent`: the requests that the count of a request is about;
* `count_eq`: the count is their number;
* `quota`: when a request is rejected, and that those which pass would pass without the rest;
* `not_sparesQuota`: a request is rejected in a minute in which none was let through.
-/

set_option autoImplicit false

namespace Gusto.RateLimiter

open Expiring

/-- Requests in the order of their instants, which `Date.now()` gives. -/
structure Timely (reqs : List Request) : Prop where
  inOrder : InOrder reqs
  nonneg : ∀ req ∈ reqs, 0 ≤ req.now

/-- The requests of a user for a class of tools in the minute that ends at `t`. -/
def recent (reqs : List Request) (userId : String) (isWriteTool : Bool) (t : ℤ) : List Request :=
  reqs.filter fun req => decide
    (req.user = some userId ∧ req.isWriteTool = isWriteTool ∧ t - 60000 < req.now ∧ req.now ≤ t)

/-- A request is rejected, after others. -/
def Rejected (env : Env) (before : List Request) (req : Request) : Prop :=
  (use env req (serve env before Store.empty)).1.result = .error (.http 429 "Too Many Requests")

/-- Each request that is rejected has as many that were let through in the minute that ends with it
as the limit allows. -/
def SparesQuota (env : Env) (reqs : List Request) : Prop :=
  ∀ before req after u, reqs = before ++ req :: after → req.user = some u → Rejected env before req →
    limit env req.isWriteTool ≤ ((within (req.now - 60000) req.now
      ((passing env reqs Store.empty u req.isWriteTool).map Request.now)).length : ℚ)

section

variable {env : Env} {req : Request} {reqs reqs' : List Request} {db : SortedSets} {u : String}

theorem Timely.sublist (h : Timely reqs) (hsub : reqs'.Sublist reqs) : Timely reqs' where
  inOrder := ⟨h.inOrder.1.sublist hsub, h.inOrder.2.sublist (hsub.map Request.uuid)⟩
  nonneg r hr := h.nonneg r (hsub.subset hr)

theorem mem_recent {w : Bool} {t : ℤ} {r : Request} : r ∈ recent reqs u w t ↔
    r ∈ reqs ∧ r.user = some u ∧ r.isWriteTool = w ∧ t - 60000 < r.now ∧ r.now ≤ t := by
  simp [recent, List.mem_filter]

/-! ### The count -/

/-- What a set holds later it held before. -/
theorem mem_zset_of_le {now later : ℤ} {key : String} {m : String × ℤ} (hle : now ≤ later)
    (hm : m ∈ (db.zset later key).entries) : m ∈ (db.zset now key).entries := by
  unfold SortedSets.zset at hm ⊢
  cases hget : db.get later key with
  | none =>
    rw [hget] at hm
    cases hm
  | some z =>
    rw [hget] at hm
    rw [Store.get_of_le hle hget]
    exact hm

/-- The members of each set are requests of its user and class. -/
def Sourced (reqs : List Request) (db : SortedSets) : Prop :=
  ∀ u w now m, (∀ r ∈ reqs, r.now ≤ now) → m ∈ (db.zset now (rateLimitKey w u)).entries →
    ∃ r ∈ reqs, r.user = some u ∧ r.isWriteTool = w ∧ m = (r.member, r.now)

/-- A request adds itself to the set of its user and class, and nothing else to any. -/
theorem Sourced.use (h : Sourced reqs db) (hord : InOrder (reqs ++ [req])) :
    Sourced (reqs ++ [req]) (use env req db).2 := by
  obtain ⟨-, hbefore, -⟩ := hord.of_concat
  intro u w now m hnow hm
  have hlast : req.now ≤ now := hnow req (by simp)
  have hreqs : ∀ r ∈ reqs, r.now ≤ now := fun r hr => (hbefore r hr).trans hlast
  -- what was there before the request comes from one of those before it
  have hold : ∀ t, (∀ r ∈ reqs, r.now ≤ t) → m ∈ (db.zset t (rateLimitKey w u)).entries →
      ∃ r ∈ reqs ++ [req], r.user = some u ∧ r.isWriteTool = w ∧ m = (r.member, r.now) := by
    intro t ht hmem
    obtain ⟨r, hr, hmine⟩ := h u w t m ht hmem
    exact ⟨r, List.mem_append_left _ hr, hmine⟩
  cases hreq : req.user with
  | none =>
    rw [use_of_none hreq] at hm
    exact hold now hreqs hm
  | some u' =>
    rw [(use_of_some hreq).1] at hm
    obtain ⟨z, -, hz, hkeep, hother⟩ := pipeline_spec (rateLimitKey req.isWriteTool u') req db
    by_cases hkey : rateLimitKey w u = rateLimitKey req.isWriteTool u'
    · have hmz : m ∈ z.entries := by
        have hfirst := mem_zset_of_le hlast hm
        rwa [hkey, hkeep req.now (by omega)] at hfirst
      rcases (hz m).mp hmz with ⟨hmem, -, -⟩ | hmem
      · rw [← hkey] at hmem
        exact hold req.now hbefore hmem
      · obtain ⟨rfl, rfl⟩ := rateLimitKey_inj hkey
        exact ⟨req, by simp, hreq, rfl, hmem⟩
    · rw [hother _ hkey] at hm
      exact hold now hreqs hm

theorem sourced_serve (h : InOrder reqs) : Sourced reqs (serve env reqs Store.empty) := by
  induction reqs using List.reverseRecOn with
  | nil =>
    intro u w now m _ hm
    cases hm
  | append_singleton reqs req ih =>
    rw [serve_concat]
    exact (ih h.of_concat.1).use h

/-- **The count of a request** is the number of those of its user and class in the minute that ends
with it, the rejected ones and itself included. -/
theorem count_eq (h : Timely (reqs ++ [req])) (hu : req.user = some u) :
    (pipeline (rateLimitKey req.isWriteTool u) req (serve env reqs Store.empty)).1 =
      (recent (reqs ++ [req]) u req.isWriteTool req.now).length := by
  apply le_antisymm
  · obtain ⟨z, hcount, hz, -, -⟩ :=
      pipeline_spec (rateLimitKey req.isWriteTool u) req (serve env reqs Store.empty)
    obtain ⟨hbefore, hle, -⟩ := h.inOrder.of_concat
    have hsub : z.entries ⊆ (recent (reqs ++ [req]) u req.isWriteTool req.now).map
        fun r => (r.member, r.now) := by
      intro m hm
      rw [List.mem_map]
      rcases (hz m).mp hm with ⟨hmem, hrange, -⟩ | rfl
      · obtain ⟨r, hr, hruser, hrtool, rfl⟩ := sourced_serve hbefore u _ req.now m hle hmem
        have hnonneg : 0 ≤ r.now := h.nonneg r (by simp [hr])
        have hnew : req.now - 60000 < r.now := by
          by_contra hold
          exact hrange ⟨hnonneg, not_lt.mp hold⟩
        exact ⟨r, mem_recent.mpr ⟨by simp [hr], hruser, hrtool, hnew, hle r hr⟩, rfl⟩
      · exact ⟨req, mem_recent.mpr ⟨by simp, hu, rfl, by omega, le_rfl⟩, rfl⟩
    have hle := (List.subperm_of_subset z.nodup.of_map hsub).length_le
    rwa [List.length_map, ← hcount] at hle
  · refine length_le_count h.inOrder hu List.filter_sublist ?_ ?_
    · intro r hr
      obtain ⟨-, hruser, hrtool, -⟩ := mem_recent.mp hr
      exact ⟨hruser, hrtool⟩
    · intro r hr
      obtain ⟨-, -, -, hnew, -⟩ := mem_recent.mp hr
      exact hnew

/-! ### What is let through -/

theorem result_eq_ok_iff (h : Timely (reqs ++ [req])) (hu : req.user = some u) :
    (use env req (serve env reqs Store.empty)).1.result = .ok () ↔
      ((recent (reqs ++ [req]) u req.isWriteTool req.now).length : ℚ) ≤ limit env req.isWriteTool := by
  rw [(use_of_some hu).2, count_eq h hu]

theorem rejected_iff (h : Timely (reqs ++ [req])) (hu : req.user = some u) :
    Rejected env reqs req ↔
      limit env req.isWriteTool < ((recent (reqs ++ [req]) u req.isWriteTool req.now).length : ℚ) := by
  rw [← not_le, ← result_eq_ok_iff h hu, Rejected, use, hu]
  dsimp only
  split <;> simp

variable (env req db) in
/-- Of one request, none is let through or it is. -/
theorem letThrough_one : letThrough env [req] db = [] ∨
    letThrough env [req] db = [req] ∧ (use env req db).1.result = .ok () := by
  cases hres : (use env req db).1.result with
  | error e => exact .inl (by simp [letThrough, hres])
  | ok x => exact .inr ⟨by simp [letThrough, hres], rfl⟩

theorem user_of_ok (h : (use env req db).1.result = .ok ()) : ∃ u, req.user = some u := by
  cases hreq : req.user with
  | none =>
    rw [use_of_none hreq] at h
    cases h
  | some u => exact ⟨u, rfl⟩

/-- Without some of the requests before it, a request that is let through still is. -/
theorem result_ok_of_sublist (h : Timely (reqs ++ [req])) (hsub : reqs'.Sublist reqs)
    (hok : (use env req (serve env reqs Store.empty)).1.result = .ok ()) :
    (use env req (serve env reqs' Store.empty)).1.result = .ok () := by
  obtain ⟨u, hu⟩ := user_of_ok hok
  have hsub' : (reqs' ++ [req]).Sublist (reqs ++ [req]) := hsub.append (List.Sublist.refl _)
  rw [result_eq_ok_iff h hu] at hok
  rw [result_eq_ok_iff (h.sublist hsub') hu]
  have hfewer : (recent (reqs' ++ [req]) u req.isWriteTool req.now).length ≤
      (recent (reqs ++ [req]) u req.isWriteTool req.now).length := (hsub'.filter _).length_le
  exact (Nat.cast_le.mpr hfewer).trans hok

/-- Without the requests that are rejected, the rest are let through. -/
theorem letThrough_letThrough (h : Timely reqs) :
    letThrough env (letThrough env reqs Store.empty) Store.empty = letThrough env reqs Store.empty := by
  induction reqs using List.reverseRecOn with
  | nil => rfl
  | append_singleton reqs req ih =>
    have hih := ih (h.sublist (List.sublist_append_left _ _))
    rw [letThrough_concat]
    rcases letThrough_one env req (serve env reqs Store.empty) with hnil | ⟨hone, hok⟩
    · rw [hnil, List.append_nil, hih]
    · have hsub : (letThrough env reqs Store.empty).Sublist reqs := letThrough_sublist
      have hok' := result_ok_of_sublist h hsub hok
      rw [hone, letThrough_concat, hih]
      simp [letThrough, hok']

end

/-- **When a request is rejected**: exactly if, with itself and those rejected before it, more of its
user and class came in the minute that ends with it than the limit. Those let through would be let
through without the rest. -/
theorem quota (env : Env) (reqs : List Request) (h : Timely reqs) :
    (∀ before req after u, reqs = before ++ req :: after → req.user = some u →
      (Rejected env before req ↔ limit env req.isWriteTool <
        ((recent (before ++ [req]) u req.isWriteTool req.now).length : ℚ))) ∧
    letThrough env (letThrough env reqs Store.empty) Store.empty = letThrough env reqs Store.empty := by
  refine ⟨fun before req after u hreqs hu => ?_, letThrough_letThrough h⟩
  have hsub : (before ++ [req]).Sublist reqs := by
    rw [hreqs]
    exact (List.Sublist.refl before).append (List.singleton_sublist.mpr List.mem_cons_self)
  exact rejected_iff (h.sublist hsub) hu

/-- A read of one user. -/
def attempt (now : ℤ) (uuid : String) : Request :=
  ⟨some "user-1", "/mcp/food/get_food_cart", now, uuid⟩

/-- A client that tries again half a minute after it was let through, and again half a minute later. -/
def retrying : List Request :=
  [attempt 0 "uuid-1", attempt 30000 "uuid-2"] ++ [attempt 61000 "uuid-3"]

theorem timely_retrying : Timely retrying := ⟨⟨by decide, by decide⟩, by decide⟩

theorem quota_retrying : Timely retrying ∧
    (Rejected ⟨1, 1⟩ [attempt 0 "uuid-1", attempt 30000 "uuid-2"] (attempt 61000 "uuid-3") ↔
      limit ⟨1, 1⟩ (attempt 61000 "uuid-3").isWriteTool <
        ((recent retrying "user-1" (attempt 61000 "uuid-3").isWriteTool 61000).length : ℚ)) :=
  ⟨timely_retrying, (quota ⟨1, 1⟩ retrying timely_retrying).1 _ _ [] "user-1" rfl rfl⟩

/-- With a limit of one the third request is rejected, though none was let through in the minute that
ends with it. -/
theorem not_sparesQuota : Timely retrying ∧ ¬ SparesQuota ⟨1, 1⟩ retrying := by
  refine ⟨timely_retrying, fun h => ?_⟩
  have hrejected : Rejected ⟨1, 1⟩ [attempt 0 "uuid-1", attempt 30000 "uuid-2"]
      (attempt 61000 "uuid-3") := by
    rw [rejected_iff timely_retrying (u := "user-1") rfl]
    decide +kernel
  have hle := h _ _ [] "user-1" rfl rfl hrejected
  revert hle
  decide +kernel

end Gusto.RateLimiter
