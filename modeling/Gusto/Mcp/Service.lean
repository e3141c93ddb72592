import Gusto.Lib.Translate
import Gusto.Mcp.Retries
import Gusto.Mcp.Routes

/-!
# The gateway to the MCP servers

A request to `POST mcp/food/:tool` passes the limiter, is routed, and is served by the client of the Food MCP server.
Any number of gateways serve requests, each by its own clock, over one Redis.

* `FoodOp`, `FoodState`, `exec`: the calls of the limiter beside those of the client, and what they act on;
* `RateLimiterMiddleware.use`, `FoodMcpController.call`, `FoodRequest.handle`: a request on its way.
-/

set_option autoImplicit false

namespace Gusto.McpGateway

open Effects Expiring Mcp RateLimiter

variable {N σ χ : Type}

/-! ### Requests and calls -/

/-- A request below `mcp/food`: its path, its `x-user-id` header and its body. -/
structure FoodRequest (N : Type) where
  path : String
  userId : Option String
  input : Args N

/-- The user a request names; an empty header names none. -/
def FoodRequest.user (req : FoodRequest N) : Option String := req.userId.filter (· ≠ "")

/-- The class of tools that the limiter reads in the path. -/
def FoodRequest.isWriteTool (req : FoodRequest N) : Bool := writeTools.contains (tool (mounted req.path))

/-- The call of a tool that a request is routed to. -/
def FoodRequest.toolCall (req : FoodRequest N) : Option (ToolCall N) :=
  req.user.bind fun userId => (route req.path).map fun tool => ⟨tool, req.input, userId⟩

/-- `McpGatewayClient.food`. -/
def McpGatewayClient.food (tool : String) (input : Args N) (userId : String) : FoodRequest N :=
  ⟨"/mcp/food/" ++ tool, some userId, input⟩

/-- A call of the gateway; the pipeline of the limiter is one call, for a request that was stamped with `now` and has
drawn `uuid`. -/
inductive FoodOp (N : Type)
  | dateNow
  | randomUUID
  | pipeline (key : String) (now : ℤ) (uuid : String)
  | setHeader (name : String) (value : ℚ)
  | client (op : McpOp N)

/-- Of the replies to a pipeline only that of `ZCARD` is read; it may be an error. -/
abbrev FoodOp.Answer : FoodOp N → Type
  | .dateNow => ℤ
  | .randomUUID => String
  | .pipeline .. => Option ℕ
  | .setHeader .. => Unit
  | .client op => op.Answer

abbrev FoodProg (N α : Type) : Type := Prog (FoodOp N) FoodOp.Answer (McpErr N) α

def ask (op : FoodOp N) : FoodProg N op.Answer := .await op

def onClient {α : Type} (p : Gateway N α) : FoodProg N α := Prog.translate FoodOp.client (fun _ a => a) p

/-! ### The gateway -/

section Programs

variable [Zero N] [DecidableEq N] (env : Env) (pf : Platform N)

def missingUser : McpErr N := .http 400 (.str "x-user-id header is required")

omit [Zero N] [DecidableEq N] in
/-- `RateLimiterMiddleware.use`; it ends where it calls `next()`. -/
def RateLimiterMiddleware.use (req : FoodRequest N) : FoodProg N Unit := do
  match req.user with
  | none => throw missingUser
  | some userId =>
    let limit := limit env req.isWriteTool
    let key := rateLimitKey req.isWriteTool userId
    let now : ℤ ← ask .dateNow
    let uuid : String ← ask .randomUUID
    let results : Option ℕ ← ask (.pipeline key now uuid)
    let count := results.getD 0
    if limit < count then
      ask (.setHeader "X-RateLimit-Limit" limit)
      ask (.setHeader "X-RateLimit-Remaining" 0)
      ask (.setHeader "Retry-After" WINDOW_SECONDS)
      throw (.http 429 (.str "Too Many Requests"))
    else
      ask (.setHeader "X-RateLimit-Limit" limit)
      ask (.setHeader "X-RateLimit-Remaining" (max 0 (limit - count)))

def FoodMcpController.call (tool : String) (input : Args N) (userId : Option String) : FoodProg N (Json N) :=
  match userId.filter (· ≠ "") with
  | none => throw missingUser
  | some userId => onClient (FoodMcpClient.callTool pf ⟨tool, input, userId⟩)

/-- What the router makes of a request that has passed the limiter. -/
def FoodRequest.routed (req : FoodRequest N) : FoodProg N (Json N) :=
  match RateLimiter.segment req.path with
  | none => throw (.http 404 (.str ("Cannot POST " ++ req.path)))
  | some seg => match Percent.decodeURIComponent seg with
    | none => throw (.http 400 (.str ("Failed to decode param '" ++ String.ofList seg ++ "'")))
    | some tool => FoodMcpController.call pf (String.ofList tool) req.input req.userId

/-- `AppModule.configure`: the limiter stands before the routes. -/
def FoodRequest.handle (req : FoodRequest N) : FoodProg N (Json N) := do
  RateLimiterMiddleware.use env req
  req.routed pf

end Programs

/-! ### The world -/

/-- What the client acts on, and the sorted sets of the limiter. -/
structure FoodState (σ : Type) where
  client : World σ
  limits : SortedSets

/-- What the environment chooses for one call: beside what it chooses for a call of the client, how far the clock of
the gateway is ahead of that of Redis, what is drawn, and whether the replies to a pipeline are errors. -/
structure FoodChoice (χ : Type) where
  client : McpChoice χ
  skew : ℤ := 0
  uuid : String := ""
  refused : Bool := false

/-- Whether a pipeline is run; where its replies are errors, it may have been all the same. -/
def FoodChoice.runs (c : FoodChoice χ) : Bool :=
  if c.client.error.isSome || c.refused then c.client.served else true

/-- The member of a request that is stamped with `now`. -/
def member (now : ℤ) (uuid : String) : String := String.ofList (Json.printInt now) ++ ":" ++ uuid

/-- The pipeline of a request, run at the instant `t` of Redis. -/
def pipelineAt (t : ℤ) (key : String) (now : ℤ) (uuid : String) (db : SortedSets) : ℕ × SortedSets :=
  let windowStart := now - WINDOW_SECONDS * 1000
  let db := db.zremrangebyscore t key 0 windowStart
  let db := db.zadd t key now (member now uuid)
  let count := db.zcard t key
  (count, db.expire t key WINDOW_SECONDS)

/-- Time passes, and then the call is served or fails. -/
def exec (pf : Platform N) (R : Remote N σ χ) :
    Handler (FoodOp N) FoodOp.Answer (McpErr N) (FoodState σ) (FoodChoice χ) := fun c op s =>
  let later : FoodState σ := { s with client := { s.client with clock := s.client.clock + c.client.elapsed } }
  match op with
  | .dateNow => (.ok (later.client.clock + c.skew), later)
  | .randomUUID => (.ok c.uuid, later)
  | .pipeline key now uuid =>
    let served := pipelineAt later.client.clock key now uuid later.limits
    (match c.client.error with
      | none => .ok (if c.refused then none else some served.1)
      | some message => .error (.error message),
    if c.runs then { later with limits := served.2 } else later)
  | .setHeader _ _ => (.ok (), later)
  | .client op =>
    let r := Mcp.exec pf R c.client op s.client
    (r.1, { s with client := r.2 })

abbrev FoodPool (N σ : Type) : Type :=
  Pool (FoodRequest N) (FoodOp N) FoodOp.Answer (McpErr N) (Json N) (FoodState σ)
abbrev FoodNote (N σ χ : Type) : Type := Note (FoodRequest N) (FoodState σ) (FoodOp N) (FoodChoice χ)

/-- A thread for each request, at whichever gateway it comes in, over an empty cache; the limiter may have counted
others. -/
def serving [Zero N] [DecidableEq N] (env : Env) (pf : Platform N) (reqs : List (FoodRequest N)) (clock : ℤ)
    (remote : σ) (limits : SortedSets) : FoodPool N σ :=
  Pool.start (FoodRequest.handle env pf) reqs ⟨⟨clock, Store.empty, remote⟩, limits⟩

/-! ### The pipeline -/

/-- **What a pipeline does**: it counts the set `z` that it leaves for the next minute. -/
theorem pipelineAt_spec (t : ℤ) (key : String) (now : ℤ) (uuid : String) (db : SortedSets) : ∃ z : SortedSet,
    (pipelineAt t key now uuid db).1 = z.entries.length ∧
    (∀ m, m ∈ z.entries ↔ m ∈ (db.zset t key).entries ∧ ¬ (0 ≤ m.2 ∧ m.2 ≤ now - 60000) ∧
      m.1 ≠ member now uuid ∨ m = (member now uuid, now)) ∧
    (∀ later < t + 60000, (pipelineAt t key now uuid db).2.zset later key = z) ∧
    ∀ key' ≠ key, ∀ later, (pipelineAt t key now uuid db).2.zset later key' = db.zset later key' := by
  let db₁ := db.zremrangebyscore t key 0 (now - WINDOW_SECONDS * 1000)
  have hadd : (db₁.zadd t key now (member now uuid)).get t key =
      some ((db₁.zset t key).add now (member now uuid)) := SortedSets.get_zadd_self
  refine ⟨(db₁.zset t key).add now (member now uuid), ?_, ?_, ?_, ?_⟩
  · show ((db₁.zadd t key now (member now uuid)).zset t key).entries.length = _
    rw [SortedSets.zset, hadd]
    rfl
  · intro m
    rw [SortedSet.mem_add, SortedSets.mem_zset_zremrangebyscore, SortedSet.mem_removeRange, and_assoc]
    exact Iff.rfl
  · intro later hlater
    show ((db₁.zadd t key now (member now uuid)).expire t key WINDOW_SECONDS).zset later key = _
    rw [SortedSets.zset, SortedSets.expire, Store.get_touch_self hadd,
      if_pos (show later < t + WINDOW_SECONDS * 1000 from hlater)]
    rfl
  · intro key' hne later
    show ((db₁.zadd t key now (member now uuid)).expire t key WINDOW_SECONDS).zset later key' = _
    rw [SortedSets.zset, SortedSets.expire, Store.get_touch_of_ne hne, SortedSets.zadd,
      Store.get_replace_of_ne hne, SortedSets.get_zremrangebyscore_of_ne hne]
    rfl

/-- The request itself is there for the next minute. -/
theorem mem_pipelineAt_self {t later now : ℤ} {key uuid : String} {db : SortedSets} (hlt : later < t + 60000) :
    (member now uuid, now) ∈ ((pipelineAt t key now uuid db).2.zset later key).entries := by
  obtain ⟨z, -, hz, hkeep, -⟩ := pipelineAt_spec t key now uuid db
  rw [hkeep later hlt, hz]
  exact .inr rfl

/-- What was there stays, unless it is a minute older than the request, or has its member. -/
theorem mem_pipelineAt {t later now : ℤ} {key key' uuid : String} {db : SortedSets} {m : String × ℤ} (hle : t ≤ later)
    (h : ∀ t', t ≤ t' → t' ≤ later → m ∈ (db.zset t' key').entries)
    (hkept : key' = key → later < t + 60000 ∧ now < m.2 + 60000 ∧ m.1 ≠ member now uuid) :
    m ∈ ((pipelineAt t key now uuid db).2.zset later key').entries := by
  obtain ⟨z, -, hz, hkeep, hother⟩ := pipelineAt_spec t key now uuid db
  by_cases hkey : key' = key
  · subst hkey
    obtain ⟨hlt, hrecent, hne⟩ := hkept rfl
    rw [hkeep later hlt, hz]
    exact .inl ⟨h t le_rfl hle, fun hgone => by omega, hne⟩
  · rw [hother key' hkey]
    exact h later hle le_rfl

theorem uuid_of_member {now now' : ℤ} {uuid uuid' : String} (h : member now uuid = member now' uuid') :
    uuid = uuid' := by
  have hmember : (⟨none, "", now, uuid⟩ : Request).member = (⟨none, "", now', uuid'⟩ : Request).member := h
  exact RateLimiter.uuid_of_member hmember

/-! ### Routes -/

section Routes

variable [Zero N] [DecidableEq N] {pf : Platform N} {req : FoodRequest N}

/-- A request that is routed to a tool calls it; another is refused. -/
theorem routed_cases (pf : Platform N) (req : FoodRequest N) :
    (∃ c, req.toolCall = some c ∧ req.routed pf = onClient (FoodMcpClient.callTool pf c)) ∨
      ∃ e, req.routed pf = .throw e := by
  unfold FoodRequest.routed FoodRequest.toolCall route
  cases hseg : RateLimiter.segment req.path with
  | none => exact .inr ⟨_, rfl⟩
  | some seg =>
    dsimp only [Option.bind_some]
    cases hdecode : Percent.decodeURIComponent seg with
    | none => exact .inr ⟨_, rfl⟩
    | some tool =>
      dsimp only [Option.map_some]
      unfold FoodMcpController.call FoodRequest.user
      cases req.userId.filter (· ≠ "") with
      | none => exact .inr ⟨_, rfl⟩
      | some userId => exact .inl ⟨_, rfl, rfl⟩

end Routes

end Gusto.McpGateway
