import Gusto.Events.Subscriber
import Gusto.Lib.Expiring
import Mathlib.Algebra.Order.Ring.Int

/-!
# The client of the Food MCP server

`FoodMcpClient.callTool` with its cache (`CacheService`) and its tokens (`TokenProviderService`).

* the hash of the arguments, the glob patterns of Redis, auth-service and the upstream server are
  parameters, the last two with a state of their own;
* the loop of `CacheService.delByPrefix` is one call: a full iteration of `SCAN` returns every key that
  is there throughout it.
-/

set_option autoImplicit false

namespace Gusto.Mcp

open Effects Expiring
open Gusto.Events (truthy)

variable {N : Type}

/-! ### Calls and errors -/

/-- The arguments of a tool: an object, as `JSON.parse` reads it. -/
structure Args (N : Type) where
  fields : List (String × Json N)
  wf : (Json.obj fields).Wf

/-- A call of a tool for a user. -/
structure ToolCall (N : Type) where
  tool : String
  args : Args N
  userId : String

/-- What is thrown: an `HttpException` with its body, an axios error with its response if there was
one, or another `Error`. -/
inductive McpErr (N : Type)
  | http (status : ℕ) (body : Json N)
  | axios (response : Option (ℕ × Option (Json N)))
  | error (message : String)

inductive McpOp (N : Type)
  | redisGet (key : String)
  | redisSetex (key : String) (seconds : ℤ) (value : String)
  | redisDel (key : String)
  | redisDelMatching (pattern : String)
  | authToken (userId : String)
  | post (token tool : String) (args : Args N)
  | sleep (baseMs : ℕ)

/-- What a call is answered. -/
abbrev McpOp.Answer : McpOp N → Type
  | .redisGet _ => Option String
  | .authToken _ => String
  | .post .. => Json N
  | _ => Unit

abbrev Gateway (N α : Type) : Type := Prog (McpOp N) McpOp.Answer (McpErr N) α

def call (op : McpOp N) : Gateway N op.Answer := .await op

/-- The functions of the platform that keys are made with. -/
structure Platform (N : Type) where
  fmt : Json.NumberFormat N
  /-- The SHA-256 hash in hexadecimal. -/
  sha256 : String → String
  /-- Whether a key matches a pattern of `SCAN`. -/
  glob : String → String → Bool

/-! ### Cache and tokens -/

variable (pf : Platform N)

namespace CacheService

def get (key : String) : Gateway N (Option (Json N)) := do
  match ← call (.redisGet key) with
  | none => return none
  | some data => return if data = "" then none else Json.parse pf.fmt data

def set (key : String) (value : Json N) (ttlSeconds : ℤ) : Gateway N Unit := do
  if ttlSeconds ≤ 0 then return
  call (.redisSetex key ttlSeconds (Json.stringify pf.fmt value))

def del (key : String) : Gateway N Unit := call (.redisDel key)

def delByPrefix (start : String) : Gateway N Unit := call (.redisDelMatching (start ++ "*"))

end CacheService

def CACHE_TTL_SECONDS : ℤ := 30

def tokenKey (userId : String) : String := "mcp:token:" ++ userId

/-- What is fetched from auth-service is stored before it is used; whatever fails in between is a 500. -/
def TokenProviderService.getToken (userId : String) : Gateway N String := do
  let cached ← call (.redisGet (tokenKey userId))
  match cached.filter (· ≠ "") with
  | some token => return token
  | none =>
    let fetched ← Prog.attempt do
      let token : String ← call (.authToken userId)
      call (.redisSetex (tokenKey userId) CACHE_TTL_SECONDS token)
      return token
    match fetched with
    | .ok token => return token
    | .error _ => throw (.http 500 (.str "Failed to retrieve MCP token from Auth Service"))

/-! ### The client -/

namespace FoodMcpClient

def NON_IDEMPOTENT_TOOLS : List String := ["place_food_order"]

def cacheableTools : List String :=
  ["search_restaurants", "search_menu", "get_restaurant_menu", "get_food_cart"]

def argsText (args : Args N) : String := Json.stringify pf.fmt (.obj args.fields)

def buildCacheKey (tool userId : String) (args : Args N) : String :=
  "mcp:food:" ++ tool ++ ":" ++ userId ++ ":" ++ pf.sha256 (argsText pf args)

/-- The arguments `{ addressId }`. -/
def addressArgs (addressId : String) : Args N where
  fields := [("addressId", .str addressId)]
  wf := .obj (by simp) (by simpa using Json.Wf.str addressId)

/-- The address that arguments name as a string. -/
def addressOf (args : Args N) : Option String :=
  match args.fields.lookup "addressId" with
  | some (.str addressId) => some addressId
  | _ => none

def cartPrefix (userId : String) : String := "mcp:food:get_food_cart:" ++ userId ++ ":"

def invalidateCartCache (tool userId : String) (args : Args N) : Gateway N Unit :=
  match if tool = "update_food_cart" then addressOf args else none with
  | some addressId => CacheService.del (buildCacheKey pf "get_food_cart" userId (addressArgs addressId))
  | none => CacheService.delByPrefix (cartPrefix userId)

section

variable [Zero N] [DecidableEq N]

/-- `result && result.success`. -/
def succeeded (result : Json N) : Bool := truthy result && (result.get "success").any truthy

/-- `value === number`. -/
def isNumber (value : Option (Json N)) (number : String) : Bool :=
  match value with
  | some (.num n) => pf.fmt.print n = number.toList
  | _ => false

/-- `value === false`. -/
def isFalse (value : Option (Json N)) : Bool :=
  match value with
  | some (.bool b) => !b
  | _ => false

/-- Whether a failed attempt is made again; `message.startsWith` is no function unless the message is a
string. -/
def isRetryable (e : McpErr N) (attempt : ℕ) : Except (McpErr N) Bool :=
  let response := match e with
    | .axios response => response
    | _ => none
  let status := response.map Prod.fst
  let data := response.bind Prod.snd
  let error := data.bind (·.get "error")
  let code := error.bind (·.get "code")
  if status = some 401 || isNumber pf code "-32001" then .ok false
  else if status = some 400 then .ok false
  else match ((error.bind (·.get "message")).filter truthy).getD (.str "") with
    | .str message =>
      if "Invalid ".toList.isPrefixOf message.toList || "Missing ".toList.isPrefixOf message.toList then
        .ok false
      else if status = some 504 || message.toList.tails.any ("timeout".toList.isPrefixOf ·) then .ok true
      else if status = some 502 || status = some 503 then .ok true
      else if status = some 200 && isFalse (data.bind (·.get "success")) then .ok false
      else if status = some 500 || isNumber pf code "-32603" then .ok (attempt = 1)
      else .ok false
    | _ => .error (.error "message.startsWith is not a function")

def handleFinalError (e : McpErr N) : McpErr N :=
  match e with
  | .axios (some (status, data)) => .http status ((data.filter truthy).getD (.str "Upstream MCP error"))
  | _ => .http 503 (.str "Service Unavailable")

/-- One attempt: the request, and what is cached or invalidated after it. -/
def once (c : ToolCall N) (token : String) : Gateway N (Json N) := do
  let result : Json N ← call (.post token c.tool c.args)
  if c.tool ∈ cacheableTools ∧ succeeded result = true then
    CacheService.set pf (buildCacheKey pf c.tool c.userId c.args) result 300
  if succeeded result = true ∧ (c.tool = "update_food_cart" ∨ c.tool = "flush_food_cart") then
    invalidateCartCache pf c.tool c.userId c.args
  return result

/-- The attempts of a call: `left` more after this one, `attempt` before it. -/
def attempts (c : ToolCall N) (token : String) : (left attempt : ℕ) → Gateway N (Json N)
  | 0, _ => do
    match ← (once pf c token).attempt with
    | .ok result => return result
    | .error e => throw (handleFinalError e)
  | left + 1, attempt => do
    match ← (once pf c token).attempt with
    | .ok result => return result
    | .error e =>
      match isRetryable pf e (attempt + 1) with
      | .error e => throw e
      | .ok false => throw (handleFinalError e)
      | .ok true =>
        call (.sleep (500 * 2 ^ attempt))
        attempts c token left (attempt + 1)

/-- How often a call may be attempted again. -/
def retries (tool : String) : ℕ := if tool ∈ NON_IDEMPOTENT_TOOLS then 0 else 4

def fetch (c : ToolCall N) : Gateway N (Json N) := do
  let token ← TokenProviderService.getToken c.userId
  attempts pf c token (retries c.tool) 0

def callTool (c : ToolCall N) : Gateway N (Json N) := do
  let cached ← if c.tool ∈ cacheableTools then CacheService.get pf (buildCacheKey pf c.tool c.userId c.args)
    else pure none
  match cached.filter truthy with
  | some value => return value
  | none => fetch pf c

/-- What is done with a result: it may be cached, and it may have changed the cart. -/
def keep (c : ToolCall N) (result : Json N) : Gateway N Unit := do
  if c.tool ∈ cacheableTools ∧ succeeded result = true then
    CacheService.set pf (buildCacheKey pf c.tool c.userId c.args) result 300
  if succeeded result = true ∧ (c.tool = "update_food_cart" ∨ c.tool = "flush_food_cart") then
    invalidateCartCache pf c.tool c.userId c.args

theorem once_eq (c : ToolCall N) (token : String) : once pf c token =
    (call (.post token c.tool c.args) >>= fun result => keep pf c result >>= fun _ => pure result) := by
  unfold once keep
  congr 1
  funext result
  by_cases hset : c.tool ∈ cacheableTools ∧ succeeded result = true
  · by_cases hbust : succeeded result = true ∧ (c.tool = "update_food_cart" ∨ c.tool = "flush_food_cart")
    · simp only [if_pos hset, if_pos hbust, bind_assoc]
    · simp only [if_pos hset, if_neg hbust, bind_assoc, Prog.pure_def, Prog.ret_bind]
  · by_cases hbust : succeeded result = true ∧ (c.tool = "update_food_cart" ∨ c.tool = "flush_food_cart")
    · simp only [if_neg hset, if_pos hbust]
    · simp only [if_neg hset, if_neg hbust, Prog.pure_def, Prog.ret_bind]

/-- What is looked up before anything is asked. -/
def lookup (c : ToolCall N) : Gateway N (Option (Json N)) :=
  if c.tool ∈ cacheableTools then CacheService.get pf (buildCacheKey pf c.tool c.userId c.args)
  else pure none

theorem callTool_eq (c : ToolCall N) : callTool pf c = (lookup pf c >>= fun cached =>
    match cached.filter truthy with
    | some value => pure value
    | none => fetch pf c) := by
  unfold callTool lookup
  split <;> rfl

end

end FoodMcpClient

/-! ### The world -/

/-- Auth-service and the upstream server, over a state: what they answer, under each of their choices. -/
structure Remote (N σ χ : Type) where
  auth : χ → String → σ → Except (McpErr N) String × σ
  tools : χ → (token tool : String) → Args N → σ → Except (McpErr N) (Json N) × σ
  /-- An answer is what `JSON.parse` reads. -/
  wf : ∀ c token tool args s result, (tools c token tool args s).1 = .ok result → result.Wf

/-- The clock in milliseconds, the keys of the cache, and the state of the remote services. -/
structure World (σ : Type) where
  clock : ℤ
  cache : Store String String ℤ
  remote : σ

/-- How long a call takes, what the Redis client throws instead of an answer, whether the command has
been served all the same, and what the remote services choose. -/
structure McpChoice (χ : Type) where
  elapsed : ℕ
  error : Option String
  served : Bool
  remote : χ

section

variable {σ χ : Type} (R : Remote N σ χ)

/-- A command of the Redis client at the instant of `s`. -/
def serve (s : World σ) : (op : McpOp N) → Option (op.Answer × World σ)
  | .redisGet key => some (s.cache.get s.clock key, s)
  | .redisSetex key seconds value =>
    some ((), { s with cache := s.cache.put key value (some (s.clock + seconds * 1000)) })
  | .redisDel key => some ((), { s with cache := s.cache.erase (· = key) })
  | .redisDelMatching pattern => some ((), { s with cache := s.cache.erase (pf.glob pattern) })
  | _ => none

/-- Time passes, and then the call is served or fails. -/
def exec : Handler (McpOp N) McpOp.Answer (McpErr N) (World σ) (McpChoice χ)
  | c, op, s =>
    let s := { s with clock := s.clock + c.elapsed }
    match op with
    | .authToken userId =>
      ((R.auth c.remote userId s.remote).1, { s with remote := (R.auth c.remote userId s.remote).2 })
    | .post token tool args =>
      ((R.tools c.remote token tool args s.remote).1,
        { s with remote := (R.tools c.remote token tool args s.remote).2 })
    | .sleep _ => (.ok (), s)
    | op =>
      match c.error, serve pf s op with
      | none, some (a, s') => (.ok a, s')
      | some message, some (_, s') => (.error (.error message), if c.served then s' else s)
      | _, none => (.error (.error "Connection is closed."), s)

end

end Gusto.Mcp
