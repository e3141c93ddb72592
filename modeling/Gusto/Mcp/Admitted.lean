import Gusto.Lib.Credit
import Gusto.Lib.Part
import Gusto.Mcp.Flush
import Gusto.Mcp.Own
import Gusto.Mcp.Service

/-!
# The limit, whichever gateway a request comes in at

Any requests at any number of gateways, their calls interleaved over one Redis; clocks may be apart, and pipelines late.

* `Held`: a request that was counted stays in its sorted set for its minute;
* `Passed`: the limiter has let the request of a thread through; `admittedOnly`: nothing is asked for it before;
* `postsLimited`: what reaches the upstream server of a user, for the requests that are stamped in a window that is
  shorter than a minute by what the clocks are apart.
-/

set_option autoImplicit false

namespace Gusto.McpGateway

open Effects Expiring Mcp RateLimiter

variable {N σ χ : Type}

/-! ### What the sorted sets hold -/

section Facts

/-- The instant at which a call is served. -/
def servedAt (o : FoodNote N σ χ) : ℤ := o.event.pre.client.clock + o.event.choice.client.elapsed

/-- A pipeline that has been run. -/
def Ran (o : FoodNote N σ χ) (key : String) (now : ℤ) (uuid : String) : Prop :=
  o.event.call = .pipeline key now uuid ∧ o.event.choice.runs = true

/-- What was drawn for a pipeline. -/
def drawn (o : FoodNote N σ χ) : Option String :=
  match o.event.call with
  | .pipeline _ _ uuid => some uuid
  | _ => none

def DistinctDraws (os : List (FoodNote N σ χ)) : Prop := (os.filterMap drawn).Nodup

/-- The instant that a pipeline is stamped with. -/
def stamp (o : FoodNote N σ χ) : Option ℤ :=
  match o.event.call with
  | .pipeline _ now _ => some now
  | _ => none

/-- A pipeline is served at most `lag` after, and `lead` before, the instant that it is stamped with. -/
def Timely (lag lead : ℤ) (os : List (FoodNote N σ χ)) : Prop :=
  ∀ o ∈ os, ∀ now ∈ stamp o, servedAt o - lag ≤ now ∧ now ≤ servedAt o + lead

instance (os : List (FoodNote N σ χ)) : Decidable (DistinctDraws os) := inferInstanceAs (Decidable (List.Nodup _))

instance (lag lead : ℤ) (os : List (FoodNote N σ χ)) : Decidable (Timely lag lead os) :=
  inferInstanceAs (Decidable (∀ o ∈ os, ∀ now ∈ stamp o, servedAt o - lag ≤ now ∧ now ≤ servedAt o + lead))

/-- What has been counted is there for a minute, unless it is a minute older than what was counted since. -/
structure Held (os : List (FoodNote N σ χ)) (s : FoodState σ) : Prop where
  past : ∀ o ∈ os, servedAt o ≤ s.client.clock
  held : ∀ o ∈ os, ∀ key now uuid, Ran o key now uuid → ∀ t, s.client.clock ≤ t → t < servedAt o + 60000 →
    (∀ o' ∈ os, ∀ now' uuid', Ran o' key now' uuid' → now' < now + 60000) →
    (member now uuid, now) ∈ (s.limits.zset t key).entries

end Facts

section Held

variable {pf : Platform N} {R : Remote N σ χ} {c : FoodChoice χ} {op : FoodOp N} {s : FoodState σ} {tid : ℕ}
  {tag : FoodRequest N} {os : List (FoodNote N σ χ)}

theorem exec_clock : (exec pf R c op s).2.client.clock = s.client.clock + c.client.elapsed := by
  cases op with
  | pipeline key now uuid =>
    unfold exec
    dsimp only
    split <;> rfl
  | client op => cases op with
    | authToken userId => rfl
    | post token tool args => rfl
    | sleep ms => rfl
    | _ => cases he : c.client.error <;> cases hs : c.client.served <;> simp [exec, Mcp.exec, Mcp.serve, he, hs]
  | _ => rfl

variable (pf R) in
/-- The sets are left by a pipeline that is run, and by nothing else. -/
theorem exec_limits_of_ran {key uuid : String} {now : ℤ} (h : Ran ⟨tid, tag, ⟨s, op, c⟩⟩ key now uuid) :
    (exec pf R c op s).2.limits = (pipelineAt (s.client.clock + c.client.elapsed) key now uuid s.limits).2 := by
  obtain ⟨rfl, hruns⟩ := h
  unfold exec
  dsimp only at hruns ⊢
  rw [if_pos hruns]

theorem exec_limits_of_not_ran (h : ∀ key now uuid, ¬ Ran ⟨tid, tag, ⟨s, op, c⟩⟩ key now uuid) :
    (exec pf R c op s).2.limits = s.limits := by
  cases op with
  | pipeline key now uuid =>
    have hruns : ¬ c.runs = true := fun hruns => h key now uuid ⟨rfl, hruns⟩
    unfold exec
    dsimp only
    rw [if_neg hruns]
  | _ => rfl

theorem drawn_of_ran {o : FoodNote N σ χ} {key uuid : String} {now : ℤ} (h : Ran o key now uuid) :
    drawn o = some uuid := by
  unfold drawn
  rw [h.1]

theorem stamp_of_ran {o : FoodNote N σ χ} {key uuid : String} {now : ℤ} (h : Ran o key now uuid) : now ∈ stamp o := by
  unfold stamp
  rw [h.1]
  rfl

theorem DistinctDraws.of_concat {o : FoodNote N σ χ} (h : DistinctDraws (os ++ [o])) : DistinctDraws os ∧
    ∀ o' ∈ os, ∀ uuid, drawn o = some uuid → drawn o' ≠ some uuid := by
  unfold DistinctDraws at h ⊢
  rw [List.filterMap_append, List.nodup_append] at h
  refine ⟨h.1, fun o' ho' uuid ho hsame => ?_⟩
  refine h.2.2 uuid (List.mem_filterMap.mpr ⟨o', ho', hsame⟩) uuid ?_ rfl
  exact List.mem_filterMap.mpr ⟨o, List.mem_singleton_self _, ho⟩

variable (pf R) in
/-- **One call** leaves what was counted in its minute. -/
theorem Held.step (h : Held os s) (hd : DistinctDraws (os ++ [⟨tid, tag, ⟨s, op, c⟩⟩])) :
    Held (os ++ [⟨tid, tag, ⟨s, op, c⟩⟩]) (exec pf R c op s).2 := by
  refine ⟨fun o ho => ?_, fun o ho key now uuid hran t ht hlt hlatest => ?_⟩
  · rw [exec_clock]
    rcases List.mem_append.mp ho with ho | ho
    · exact (h.past o ho).trans (Int.le_add_of_nonneg_right (Int.natCast_nonneg _))
    · rw [List.mem_singleton.mp ho]
      exact le_rfl
  rw [exec_clock] at ht
  -- what was counted before is there from now on, if its set stays as it was
  have hold : o ∈ os → ∀ t', s.client.clock + c.client.elapsed ≤ t' → t' ≤ t →
      (member now uuid, now) ∈ (s.limits.zset t' key).entries := fun hmem t' hle hle' =>
    h.held o hmem key now uuid hran t' (by omega) (by omega) fun o' ho' => hlatest o' (List.mem_append_left _ ho')
  by_cases hlast : ∃ key' now' uuid', Ran ⟨tid, tag, ⟨s, op, c⟩⟩ key' now' uuid'
  · obtain ⟨key', now', uuid', hran'⟩ := hlast
    rw [exec_limits_of_ran pf R hran']
    rcases List.mem_append.mp ho with hmem | hmem
    · refine mem_pipelineAt ht (hold hmem) fun hkey => ⟨?_, ?_, fun hsame => ?_⟩
      · have hearlier := h.past o hmem
        omega
      · exact hlatest _ (List.mem_append_right _ (List.mem_singleton_self _)) now' uuid' (hkey ▸ hran')
      · refine hd.of_concat.2 o hmem uuid' (drawn_of_ran hran') ?_
        rw [drawn_of_ran hran, uuid_of_member hsame]
    · rw [List.mem_singleton.mp hmem] at hran hlt
      obtain ⟨hcall, -⟩ := hran
      obtain ⟨hcall', -⟩ := hran'
      dsimp only at hcall hcall'
      rw [hcall'] at hcall
      cases hcall
      exact mem_pipelineAt_self hlt
  · rw [exec_limits_of_not_ran fun key' now' uuid' hran' => hlast ⟨key', now', uuid', hran'⟩]
    rcases List.mem_append.mp ho with hmem | hmem
    · exact hold hmem t ht le_rfl
    · rw [List.mem_singleton.mp hmem] at hran
      exact absurd ⟨key, now, uuid, hran⟩ hlast

/-- **Runs.** -/
theorem held_of_run {P P' : FoodPool N σ} {ok : List (FoodNote N σ χ) → FoodPool N σ → ℕ × FoodChoice χ → Prop}
    (hr : Run (Pool.step (exec pf R)) ok P P' os) (hd : DistinctDraws os) : Held os P'.state := by
  induction hr with
  | nil => exact ⟨by simp, by simp⟩
  | snoc l hr' _ hs ih =>
    have hheld := ih hd.of_concat.1
    obtain ⟨tag, i, k, rest, -, -, -, -, hstate, rfl⟩ := Pool.step_cases hs
    rw [hstate]
    exact hheld.step pf R hd

end Held

/-! ### What the limiter lets through -/

section Counts

variable {env : Env} {pf : Platform N} {R : Remote N σ χ} {os : List (FoodNote N σ χ)}

variable (env pf R) in
/-- A request of the user for a class of tools, stamped with `now`, whose count is within the limit. -/
def Admits (o : FoodNote N σ χ) (u : String) (w : Bool) (now : ℤ) : Prop :=
  ∃ (uuid : String) (count : ℕ), o.event.call = .pipeline (rateLimitKey w u) now uuid ∧
    (exec pf R o.event.choice (.pipeline (rateLimitKey w u) now uuid) o.event.pre).1 = .ok (some count) ∧
    (count : ℚ) ≤ limit env w

/-- A count is that of a pipeline that has been run. -/
theorem ran_of_counted {s : FoodState σ} {c : FoodChoice χ} {key uuid : String} {now : ℤ} {count : ℕ}
    (h : (exec pf R c (.pipeline key now uuid) s).1 = .ok (some count)) :
    c.runs = true ∧ count = (pipelineAt (s.client.clock + c.client.elapsed) key now uuid s.limits).1 := by
  unfold exec at h
  dsimp only at h
  cases herror : c.client.error with
  | some message =>
    rw [herror] at h
    cases h
  | none =>
    rw [herror] at h
    cases hrefused : c.refused with
    | true =>
      rw [hrefused, if_pos rfl] at h
      cases h
    | false =>
      rw [hrefused, if_neg Bool.false_ne_true] at h
      refine ⟨by simp [FoodChoice.runs, herror, hrefused], ?_⟩
      exact (Option.some.inj (Except.ok.inj h)).symm

/-- The member of a pipeline. -/
def memberOf (o : FoodNote N σ χ) : String :=
  match o.event.call with
  | .pipeline _ now uuid => member now uuid
  | _ => ""

theorem nodup_members {l : List (FoodNote N σ χ)} (hd : DistinctDraws l)
    (h : ∀ o ∈ l, ∃ key now uuid, o.event.call = .pipeline key now uuid) : (l.map memberOf).Nodup := by
  induction l with
  | nil => exact List.nodup_nil
  | cons o l ih =>
    obtain ⟨key, now, uuid, hcall⟩ := h o List.mem_cons_self
    have hdrawn : drawn o = some uuid := by
      unfold drawn
      rw [hcall]
    unfold DistinctDraws at hd
    rw [List.filterMap_cons_some hdrawn, List.nodup_cons] at hd
    rw [List.map_cons, List.nodup_cons]
    refine ⟨fun hmem => hd.1 ?_, ih hd.2 fun o' ho' => h o' (List.mem_cons_of_mem _ ho')⟩
    obtain ⟨o', ho', hsame⟩ := List.mem_map.mp hmem
    obtain ⟨key', now', uuid', hcall'⟩ := h o' (List.mem_cons_of_mem _ ho')
    unfold memberOf at hsame
    rw [hcall, hcall'] at hsame
    refine List.mem_filterMap.mpr ⟨o', ho', ?_⟩
    unfold drawn
    rw [hcall', uuid_of_member hsame]

/-- **The count of a request** is no less than the requests of its user and class that were counted, stamped in a
window that it is in itself. -/
theorem length_le_count {s : FoodState σ} {c : FoodChoice χ} {tid : ℕ} {tag : FoodRequest N} {key uuid : String}
    {now a lag lead : ℤ}
    (hheld : Held (os ++ [⟨tid, tag, ⟨s, .pipeline key now uuid, c⟩⟩]) (exec pf R c (.pipeline key now uuid) s).2)
    (hd : DistinctDraws (os ++ [⟨tid, tag, ⟨s, .pipeline key now uuid, c⟩⟩]))
    (ht : Timely lag lead (os ++ [⟨tid, tag, ⟨s, .pipeline key now uuid, c⟩⟩])) (hruns : c.runs = true)
    (hnow : now ≤ a + (60000 - lag - lead)) {l : List (FoodNote N σ χ)}
    (hl : l.Sublist (os ++ [⟨tid, tag, ⟨s, .pipeline key now uuid, c⟩⟩]))
    (hmine : ∀ o ∈ l, ∃ now' uuid', Ran o key now' uuid' ∧ a < now') :
    l.length ≤ (pipelineAt (s.client.clock + c.client.elapsed) key now uuid s.limits).1 := by
  obtain ⟨z, hcount, -, hkeep, -⟩ := pipelineAt_spec (s.client.clock + c.client.elapsed) key now uuid s.limits
  have hlast := ht _ (List.mem_append_right _ (List.mem_singleton_self _)) now rfl
  dsimp only [servedAt] at hlast
  have hran : Ran (⟨tid, tag, ⟨s, .pipeline key now uuid, c⟩⟩ : FoodNote N σ χ) key now uuid := ⟨rfl, hruns⟩
  have hlimits := exec_limits_of_ran pf R hran
  have hmem : l.map memberOf ⊆ z.entries.map Prod.fst := by
    intro m hm
    obtain ⟨o, ho, rfl⟩ := List.mem_map.mp hm
    obtain ⟨now', uuid', hran, hlt⟩ := hmine o ho
    have hserved := ht o (hl.subset ho) now' (stamp_of_ran hran)
    have hthere := hheld.held o (hl.subset ho) key now' uuid' hran (s.client.clock + c.client.elapsed)
      (by rw [exec_clock]) (by omega) fun o' ho' now'' uuid'' hran' => by
        have hpast := hheld.past o' ho'
        have hserved' := ht o' ho' now'' (stamp_of_ran hran')
        rw [exec_clock] at hpast
        omega
    rw [hlimits, hkeep _ (by omega)] at hthere
    unfold memberOf
    rw [hran.1]
    exact List.mem_map.mpr ⟨_, hthere, rfl⟩
  have hnodup : (l.map memberOf).Nodup := by
    refine nodup_members ?_ fun o ho => ?_
    · exact List.Nodup.sublist (hl.filterMap drawn) hd
    · obtain ⟨now', uuid', hran, -⟩ := hmine o ho
      exact ⟨key, now', uuid', hran.1⟩
  rw [hcount, ← List.length_map memberOf,
    show z.entries.length = (z.entries.map Prod.fst).length from (List.length_map _).symm]
  exact (List.subperm_of_subset hnodup hmem).length_le

/-- **Runs.** Of the requests of a user for a class of tools that are stamped in such a window, the limiter lets no more
than the limit through by their counts. -/
theorem admitted_le {P P' : FoodPool N σ} {ok : List (FoodNote N σ χ) → FoodPool N σ → ℕ × FoodChoice χ → Prop}
    (hr : Run (Pool.step (exec pf R)) ok P P' os) (hd : DistinctDraws os) {lag lead : ℤ} (ht : Timely lag lead os)
    (u : String) (w : Bool) (a : ℤ) {l : List (FoodNote N σ χ)} (hl : l.Sublist os)
    (hmine : ∀ o ∈ l, ∃ now, Admits env pf R o u w now ∧ a < now ∧ now ≤ a + (60000 - lag - lead)) :
    l.length ≤ ⌊limit env w⌋₊ := by
  induction hr generalizing l with
  | nil =>
    rw [List.sublist_nil.mp hl]
    exact Nat.zero_le _
  | @snoc P₁ P₂ os o label hr' _ hs ih =>
    have hheld := held_of_run hr' hd.of_concat.1
    obtain ⟨tag, op, k, rest, -, -, -, -, -, rfl⟩ := Pool.step_cases hs
    have hafter := hheld.step pf R hd
    obtain ⟨l₁, l₂, rfl, hl₁, hl₂⟩ := List.sublist_append_iff.mp hl
    rcases List.sublist_singleton.mp hl₂ with rfl | rfl
    · rw [List.append_nil] at hmine ⊢
      exact ih hd.of_concat.1 (fun o ho => ht o (List.mem_append_left _ ho)) hl₁ hmine
    · obtain ⟨now, ⟨uuid, count, hcall, hanswer, hle⟩, -, hnow⟩ :=
        hmine _ (List.mem_append_right _ (List.mem_singleton_self _))
      dsimp only at hcall hanswer
      subst hcall
      obtain ⟨hruns, rfl⟩ := ran_of_counted hanswer
      refine Nat.le_floor (le_trans (Nat.cast_le.mpr ?_) hle)
      refine length_le_count hafter hd ht hruns hnow hl fun o ho => ?_
      obtain ⟨now', ⟨uuid', count', hcall', hanswer', -⟩, hlt, -⟩ := hmine o ho
      exact ⟨now', uuid', ⟨hcall', (ran_of_counted hanswer').1⟩, hlt⟩

end Counts

/-! ### What is asked for a request -/

section Contracts

variable (env : Env) (pf : Platform N) (R : Remote N σ χ)

/-- By answers as `K` knows of, the limiter lets a request through: its count is within the limit, or Redis has refused
to tell it. -/
def Within (req : FoodRequest N) (K : (op : FoodOp N) → Except (McpErr N) op.Answer → Prop) : Prop :=
  ∃ (u : String) (now : ℤ) (uuid : String) (results : Option ℕ), req.user = some u ∧
    K (.pipeline (rateLimitKey req.isWriteTool u) now uuid) (.ok results) ∧
    ((results.getD 0 : ℕ) : ℚ) ≤ limit env req.isWriteTool

/-- The limiter has let the request of the thread through. -/
def Passed (os : List (FoodNote N σ χ)) (tid : ℕ) (req : FoodRequest N) : Prop :=
  Within env req (Answered (exec pf R) os tid req)

/-- The client is asked for nothing before. -/
def AfterLimiter (os : List (FoodNote N σ χ)) (tid : ℕ) (req : FoodRequest N) (op : FoodOp N) : Prop :=
  ∀ i, op = .client i → Passed env pf R os tid req

def LimiterContract : Contract (FoodRequest N) (FoodOp N) (McpErr N) (Json N) (FoodState σ) (FoodChoice χ) where
  inv _ _ := True
  rely _ _ := True
  pre tid req op os _ := AfterLimiter env pf R os tid req op
  post _ _ _ _ _ := True

/-- The client of the Food MCP server, as it is a part of the gateway. -/
def clientPart : Part (ToolCall N) (FoodRequest N) FoodOp.client (Mcp.exec pf R) (exec pf R) where
  which
    | .client op => some op
    | _ => none
  role := FoodRequest.toolCall
  view := FoodState.client
  choose c := c.client
  which_eq_some i' i := by cases i' <;> simp
  answers c i s := rfl
  leaves c i s := rfl

def OwnContract : Contract (FoodRequest N) (FoodOp N) (McpErr N) (Json N) (FoodState σ) (FoodChoice χ) :=
  (clientPart pf R).lift (TokenContract pf R) (fun _ _ _ _ _ => True) fun _ _ _ _ _ => True

variable {env pf R}

theorem limiterContract_sound : (LimiterContract env pf R).Sound (exec pf R) :=
  ⟨fun _ => trivial, fun _ _ _ _ _ => trivial, fun _ _ _ _ _ _ _ _ => ⟨trivial, trivial⟩⟩

/-- The limiter touches no key of the cache. -/
theorem clientPart_harmless : (clientPart pf R).Harmless (TokenContract pf R) := by
  intro os c op s hother hinv
  refine ⟨fun u e he => hinv u e ?_, trivial⟩
  cases op with
  | client i => cases hother
  | pipeline key now uuid =>
    unfold exec at he
    dsimp only at he
    split at he <;> exact he
  | _ => exact he

theorem ownContract_sound : (OwnContract pf R).Sound (exec pf R) :=
  Part.lift_sound tokenContract_sound clientPart_harmless

end Contracts

section Programs

variable {env : Env} {pf : Platform N} {R : Remote N σ χ} {os : List (FoodNote N σ χ)} {s : FoodState σ} {tid : ℕ}
  {req : FoodRequest N} {K : (op : FoodOp N) → Except (McpErr N) op.Answer → Prop}

/-- A call of the limiter that is awaited. -/
theorem yields_ask_bind {α : Type} (op : FoodOp N) {f : op.Answer → FoodProg N α} {Q : Except (McpErr N) α → Prop}
    (hop : ∀ i, op ≠ .client i) (herr : ∀ e, Q (.error e))
    (hf : ∀ a, K op (.ok a) → (f a).Yields K (fun op => ∀ i, op ≠ .client i) Q) :
    (ask op >>= f).Yields K (fun op => ∀ i, op ≠ .client i) Q :=
  Prog.Yields.bind (Prog.Yields.await hop) hf fun e _ => herr e

/-- **The limiter** asks nothing of the client, and lets a request through by its count. -/
theorem yields_use : (RateLimiterMiddleware.use env req).Yields K (fun op => ∀ i, op ≠ .client i)
    fun r => r = .ok () → Within env req K := by
  have hthrown (e : McpErr N) : (.error e : Except (McpErr N) Unit) = .ok () → Within env req K := fun h => by cases h
  unfold RateLimiterMiddleware.use
  cases huser : req.user with
  | none => exact hthrown _
  | some u =>
    refine yields_ask_bind .dateNow (by simp) hthrown fun now _ => ?_
    refine yields_ask_bind .randomUUID (by simp) hthrown fun uuid _ => ?_
    refine yields_ask_bind (.pipeline _ now uuid) (by simp) hthrown fun (results : Option ℕ) hresults => ?_
    dsimp only
    cases lt_or_ge (limit env req.isWriteTool) ((results.getD 0 : ℕ) : ℚ) with
    | inl hover =>
      rw [if_pos hover]
      refine yields_ask_bind (.setHeader _ _) (by simp) hthrown fun _ _ => ?_
      refine yields_ask_bind (.setHeader _ _) (by simp) hthrown fun _ _ => ?_
      exact yields_ask_bind (.setHeader _ _) (by simp) hthrown fun _ _ => hthrown _
    | inr hwithin =>
      rw [if_neg (not_lt.mpr hwithin)]
      refine yields_ask_bind (.setHeader _ _) (by simp) hthrown fun _ _ => ?_
      refine (Prog.Yields.await (i := FoodOp.setHeader _ _) fun i hi => by cases hi).mono fun r _ _ => ?_
      exact ⟨u, now, uuid, results, huser, hresults, hwithin⟩

theorem calls_use : (RateLimiterMiddleware.use env req).Calls fun op _ => ∀ i, op ≠ .client i :=
  (yields_use (K := fun _ _ => True)).calls

variable [Zero N] [DecidableEq N]

/-- **A request** asks the client for nothing before the limiter has let it through. -/
theorem yields_handle : (req.handle env pf).Yields (Answered (exec pf R) os tid req) (AfterLimiter env pf R os tid req)
    fun _ => True := by
  refine Prog.Yields.bind (yields_use.weaken fun op hop i hi => absurd hi (hop i)) (fun _ hpassed => ?_) fun _ _ => trivial
  rcases routed_cases pf req with ⟨c, -, hrouted⟩ | ⟨e, hrouted⟩
  · rw [hrouted]
    refine (Prog.Asks.renamed (P := AfterLimiter env pf R os tid req) (Prog.asks_of_forall fun i => ?_)).yields
    exact fun _ _ => hpassed rfl
  · rw [hrouted]
    trivial

/-- **A request** is served with what is its own. -/
theorem own_handle : (req.handle env pf).Meets (OwnContract pf R) (exec pf R) tid req os s := by
  have hlimiter : (RateLimiterMiddleware.use env req).Meets ((OwnContract pf R).withPost fun _ _ _ _ _ => True)
      (exec pf R) tid req os s := by
    refine clientPart_harmless.meets tokenContract_sound (fun _ _ _ _ _ => trivial)
      (calls_use.mono fun op _ hop => ⟨?_, fun _ _ _ _ => trivial⟩)
    cases op with
    | client i => exact absurd rfl (hop i)
    | _ => rfl
  refine Prog.Meets.bind (fun _ => trivial) hlimiter (fun _ os' s' _ _ => ?_) fun e _ _ _ _ _ _ _ => trivial
  rcases routed_cases pf req with ⟨c, hcall, hrouted⟩ | ⟨e, hrouted⟩
  · rw [hrouted]
    have hrole : (clientPart pf R).role req = some c := hcall
    refine Prog.Meets.of_post (Q := fun _ _ _ _ _ => True) ?_ fun _ _ _ _ => trivial
    exact Prog.Meets.lift hrole (fun _ _ _ _ => trivial) meets_callTool
  · rw [hrouted]
    exact fun _ _ _ _ => trivial

end Programs

/-! ### What is posted for a request -/

section Posts

variable {pf : Platform N} {τ : String} {c : ToolCall N} {n : ℕ}

/-- A request to the upstream server for a tool. -/
def posts (τ : String) : FoodOp N → ℕ
  | .client (.post _ tool _) => if tool = τ then 1 else 0
  | _ => 0

/-- A call of the client that is no request to the upstream server. -/
def Silent (op : McpOp N) : Prop := ∀ token tool args, op ≠ .post token tool args

variable (τ) in
/-- `n` requests for the tool are enough. -/
abbrev Posts {α : Type} (p : Gateway N α) (n : ℕ) : Prop := p.Pays (fun op => posts τ (.client op)) (fun _ _ => 0) n

theorem posts_of_silent {α : Type} {p : Gateway N α} (h : p.Calls fun op _ => Silent op) : Posts τ p n := by
  have hfree : p.Calls fun op _ => posts τ (.client op) = 0 := by
    refine h.mono fun op _ hop => ?_
    cases op with
    | post token tool args => exact absurd rfl (hop token tool args)
    | _ => rfl
  exact Prog.pays_of_free hfree.asks

variable [Zero N] [DecidableEq N]

/-- **One attempt** posts once. -/
theorem posts_once {token : String} : Posts τ (FoodMcpClient.once pf c token) (if c.tool = τ then 1 else 0) := by
  rw [FoodMcpClient.once_eq]
  have hpost : Posts τ (call (.post token c.tool c.args) : Gateway N (Json N)) (if c.tool = τ then 1 else 0) := by
    refine ⟨le_rfl, fun r => ?_⟩
    cases r <;> trivial
  have hkeep (result : Json N) : Posts τ (FoodMcpClient.keep pf c result >>= fun _ => pure result) 0 := by
    have hsilent : (FoodMcpClient.keep pf c result).Calls fun op _ => Silent op :=
      calls_keep (by simp [Silent]) (by simp [Silent]) (by simp [Silent])
    exact (posts_of_silent hsilent).bind (n := 0) (m := 0) fun _ => trivial
  exact (hpost.bind hkeep).mono (by simp)

/-- The attempts, by induction on those left. -/
theorem posts_attempts {token : String} {left attempt : ℕ} :
    Posts τ (FoodMcpClient.attempts pf c token left attempt) (if c.tool = τ then left + 1 else 0) := by
  induction left generalizing attempt with
  | zero =>
    unfold FoodMcpClient.attempts
    refine ((posts_once.attempt).bind (m := 0) fun r => ?_).mono (by simp)
    cases r <;> trivial
  | succ left ih =>
    unfold FoodMcpClient.attempts
    refine ((posts_once.attempt).bind (m := if c.tool = τ then left + 1 else 0) fun r => ?_).mono ?_
    · cases r with
      | ok result => trivial
      | error e =>
        dsimp only
        split
        · trivial
        · trivial
        · exact ((posts_of_silent (n := 0) (calls_call (by simp [Silent]))).bind fun _ => ih).mono (by simp)
    · split <;> omega

theorem posts_callTool : Posts τ (FoodMcpClient.callTool pf c) (maxAttempts τ) := by
  have hlookup : (FoodMcpClient.lookup pf c).Calls fun op _ => Silent op := calls_lookup (by simp [Silent])
  have htoken : (TokenProviderService.getToken c.userId : Gateway N String).Calls fun op _ => Silent op :=
    calls_getToken (by simp [Silent]) (by simp [Silent]) (by simp [Silent])
  rw [FoodMcpClient.callTool_eq]
  refine ((posts_of_silent (n := 0) hlookup).bind (m := maxAttempts τ) fun cached => ?_).mono (by simp)
  split
  · trivial
  · unfold FoodMcpClient.fetch
    refine ((posts_of_silent (n := 0) htoken).bind (m := maxAttempts τ) fun token => ?_).mono (by simp)
    refine posts_attempts.mono ?_
    split
    · rename_i htool
      rw [htool, maxAttempts_eq]
    · exact Nat.zero_le _

/-- **A request** is posted as often as its tool is attempted at most. -/
theorem posts_handle {env : Env} {req : FoodRequest N} :
    (req.handle env pf).Pays (posts τ) (fun _ _ => 0) (maxAttempts τ) := by
  have hlimiter : (RateLimiterMiddleware.use env req).Pays (posts τ) (fun _ _ => 0) 0 := by
    have hfree : (RateLimiterMiddleware.use env req).Calls fun op _ => posts τ op = 0 := by
      refine calls_use.mono fun op _ hop => ?_
      cases op with
      | client i => exact absurd rfl (hop i)
      | _ => rfl
    exact Prog.pays_of_free hfree.asks
  refine (hlimiter.bind (m := maxAttempts τ) fun _ => ?_).mono (by simp)
  rcases routed_cases pf req with ⟨c, -, hrouted⟩ | ⟨e, hrouted⟩
  · rw [hrouted]
    exact posts_callTool.renamed
  · rw [hrouted]
    trivial

end Posts

/-! ### Runs -/

section Runs

variable [Zero N] [DecidableEq N] {env : Env} {pf : Platform N} {R : Remote N σ χ} {reqs : List (FoodRequest N)}
  {clock : ℤ} {remote : σ} {limits : SortedSets}

theorem serving_meetsLimiter :
    (serving env pf reqs clock remote limits).Meets (LimiterContract env pf R) (exec pf R) [] := by
  refine Pool.Meets.start trivial fun tid req _ => ?_
  refine Prog.Meets.of_yields (K := fun os => Answered (exec pf R) os tid req)
    (A := fun os => AfterLimiter env pf R os tid req) (Q := fun _ _ => True) ?_ ?_ (fun _ _ _ _ h => h)
    (fun _ _ _ _ => trivial) fun os _ => yields_handle
  · exact fun os os' op r hos h => h.later hos
  · exact fun os s op c _ _ => answered_self

theorem serving_meetsOwn : (serving env pf reqs clock remote limits).Meets (OwnContract pf R) (exec pf R) [] := by
  refine Pool.Meets.start (fun u e he => ?_) fun tid req _ => own_handle
  cases he

/-- **Nothing is asked for a request before it is let through, and then only what is its own.** Whatever requests come
in at whichever gateways, and whatever fails: the client is asked for something only for a request that names a user and
is routed to a tool, after the limiter has let it through; and then for keys and tokens of this user, or a request to
the upstream server for this tool with the body of the request, under a token that auth-service had given out for the
user. -/
theorem admittedOnly (env : Env) (reqs : List (FoodRequest N)) (clock : ℤ) (remote : σ) (limits : SortedSets)
    (P : FoodPool N σ) (pre post : List (FoodNote N σ χ)) (o : FoodNote N σ χ)
    (hr : Run (Pool.step (exec pf R)) anyStep (serving env pf reqs clock remote limits) P (pre ++ o :: post))
    (op : McpOp N) (hcall : o.event.call = .client op) :
    ∃ c, o.tag.toolCall = some c ∧ Own pf R c ((clientPart pf R).history pre) op ∧ Passed env pf R pre o.tid o.tag := by
  obtain ⟨-, hpassed, -⟩ := Contract.run_at limiterContract_sound serving_meetsLimiter hr
  obtain ⟨-, hown, -⟩ := Contract.run_at ownContract_sound serving_meetsOwn hr
  dsimp only [OwnContract, Part.lift] at hown
  rw [hcall] at hown
  obtain ⟨c, hc, hasked⟩ := hown
  exact ⟨c, hc, hasked, hpassed op hcall⟩

variable (env pf R) in
/-- The request of the thread is one of the user for a class of tools, stamped with `now`, and let through by its
count. -/
def LetThrough (os : List (FoodNote N σ χ)) (tid : ℕ) (u : String) (w : Bool) (now : ℤ) : Prop :=
  ∃ o ∈ os, o.tid = tid ∧ Admits env pf R o u w now

/-- **The limit, whichever gateway a request comes in at.** Where no pipeline is served more than `lag` ms after or
`lead` ms before the instant that it is stamped with: of the requests of a user for a class of tools that are stamped in
a window of a minute less `lag` and `lead`, and let through by their counts, no more than the limit reach the upstream
server for a tool, each as often as the tool may be attempted; and once if they are placements. -/
theorem postsLimited (env : Env) (reqs : List (FoodRequest N)) (clock : ℤ) (remote : σ) (limits : SortedSets)
    (P : FoodPool N σ) (os : List (FoodNote N σ χ))
    (hr : Run (Pool.step (exec pf R)) anyStep (serving env pf reqs clock remote limits) P os)
    (hdraws : DistinctDraws os) (lag lead : ℤ) (htimely : Timely lag lead os) (u : String) (w : Bool) (a : ℤ)
    (tool : String) (l : List (FoodNote N σ χ)) (hl : l.Sublist os)
    (hposts : ∀ o ∈ l, (∃ token args, o.event.call = .client (.post token tool args)) ∧
      ∃ now, LetThrough env pf R os o.tid u w now ∧ a < now ∧ now ≤ a + (60000 - lag - lead)) :
    (l.length : ℚ) ≤ max (limit env w) 0 * maxAttempts tool := by
  classical
  let admitted := os.filter fun o => ∃ now, Admits env pf R o u w now ∧ a < now ∧ now ≤ a + (60000 - lag - lead)
  have hadmitted : admitted.length ≤ ⌊limit env w⌋₊ := by
    refine admitted_le hr hdraws htimely u w a List.filter_sublist fun o ho => ?_
    exact of_decide_eq_true (List.mem_filter.mp ho).2
  have hthreads : (l.map Note.tid).dedup.length ≤ admitted.length := by
    rw [← List.length_map Note.tid]
    refine (List.subperm_of_subset (List.nodup_dedup _) fun tid htid => ?_).length_le
    obtain ⟨o, ho, rfl⟩ := List.mem_map.mp (List.mem_dedup.mp htid)
    obtain ⟨-, now, ⟨o', ho', hsame, hadmits⟩, hwindow⟩ := hposts o ho
    rw [← hsame]
    exact List.mem_map_of_mem (List.mem_filter.mpr ⟨ho', decide_eq_true ⟨now, hadmits, hwindow⟩⟩)
  have hspent : ∀ tid, spent (posts tool) os tid ≤ maxAttempts tool :=
    spent_le_of_run (fun req _ => posts_handle) hr
  have hlength : l.length ≤ ⌊limit env w⌋₊ * maxAttempts tool := by
    refine (length_le_of_spent hl (fun o ho => ?_) hspent).trans
      (Nat.mul_le_mul_right _ (hthreads.trans hadmitted))
    obtain ⟨⟨token, args, hcall⟩, -⟩ := hposts o ho
    rw [hcall, posts, if_pos rfl]
  have hfloor : ((⌊limit env w⌋₊ : ℕ) : ℚ) ≤ max (limit env w) 0 := by
    rcases le_total 0 (limit env w) with hpos | hneg
    · exact (Nat.floor_le hpos).trans (le_max_left _ _)
    · rw [Nat.floor_of_nonpos hneg]
      exact le_max_right _ _
  calc (l.length : ℚ) ≤ ((⌊limit env w⌋₊ * maxAttempts tool : ℕ) : ℚ) := Nat.cast_le.mpr hlength
    _ = (⌊limit env w⌋₊ : ℚ) * maxAttempts tool := Nat.cast_mul _ _
    _ ≤ max (limit env w) 0 * maxAttempts tool := mul_le_mul_of_nonneg_right hfloor (Nat.cast_nonneg _)

end Runs

/-! ### Two gateways -/

/-- Two placements of one user. -/
def twoOrders : List (FoodRequest ℤ) :=
  [McpGatewayClient.food "place_food_order" noArgs "user-1", McpGatewayClient.food "place_food_order" noArgs "user-1"]

/-- A call that takes a millisecond, at a gateway whose clock is ahead by `skew`. -/
def quickly (skew : ℤ) (uuid : String) : FoodChoice Unit := { client := ⟨1, none, true, ()⟩, skew, uuid }

/-- The second request comes in at a gateway whose clock is half a second ahead, and is refused; the first goes on to
its post. -/
def twoGateways : List (ℕ × FoodChoice Unit) :=
  List.replicate 3 (0, quickly 0 "uuid-1") ++ List.replicate 6 (1, quickly 500 "uuid-2") ++
    List.replicate 6 (0, quickly 0 "uuid-1")

theorem admittedOnly_twoGateways : ∃ P pre o, Run (Pool.step (exec plainPlatform plainRemote)) anyStep
    (serving ⟨120, 1⟩ plainPlatform twoOrders 0 () Store.empty) P (pre ++ [o]) ∧
    o.event.call = .client (.post "token of user-1" "place_food_order" noArgs) ∧
    Passed ⟨120, 1⟩ plainPlatform plainRemote pre 0 (McpGatewayClient.food "place_food_order" noArgs "user-1") := by
  have hr := Run.of_runSteps .nil (show runSteps (Pool.step (exec plainPlatform plainRemote)) anyStep twoGateways
    (serving ⟨120, 1⟩ plainPlatform twoOrders 0 () Store.empty) [] = some (_, _ ++ [_]) from rfl)
  obtain ⟨-, -, -, hpassed⟩ := admittedOnly ⟨120, 1⟩ twoOrders 0 () Store.empty _ _ [] _ hr _ rfl
  exact ⟨_, _, _, hr, rfl, hpassed⟩

/-- Of the two placements one is posted. -/
theorem postsLimited_twoGateways : ∃ P os o, Run (Pool.step (exec plainPlatform plainRemote)) anyStep
    (serving ⟨120, 1⟩ plainPlatform twoOrders 0 () Store.empty) P (os ++ [o]) ∧ DistinctDraws (os ++ [o]) ∧
    Timely 2 500 (os ++ [o]) ∧ o.event.call = .client (.post "token of user-1" "place_food_order" noArgs) ∧
    (([o] : List (FoodNote ℤ Unit Unit)).length : ℚ) ≤ max (limit ⟨120, 1⟩ true) 0 * maxAttempts "place_food_order" := by
  have hr := Run.of_runSteps .nil (show runSteps (Pool.step (exec plainPlatform plainRemote)) anyStep twoGateways
    (serving ⟨120, 1⟩ plainPlatform twoOrders 0 () Store.empty) [] = some (_, _ ++ [_]) from rfl)
  refine ⟨_, _, _, hr, by decide, by decide, rfl, ?_⟩
  refine postsLimited ⟨120, 1⟩ twoOrders 0 () Store.empty _ _ hr (by decide) 2 500 (by decide) "user-1" true 0
    "place_food_order" _ (List.singleton_sublist.mpr (List.mem_append_right _ (List.mem_singleton_self _))) fun o ho => ?_
  rw [List.mem_singleton.mp ho]
  refine ⟨⟨_, _, rfl⟩, 1, ⟨_, List.mem_of_getElem? (i := 2) rfl, rfl, "uuid-1", 1, rfl, rfl, ?_⟩, by decide, by decide⟩
  exact (Nat.cast_one (R := ℚ)).le

end Gusto.McpGateway
