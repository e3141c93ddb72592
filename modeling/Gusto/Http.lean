import Gusto.Lib.Prog
import Mathlib.Data.Rat.Defs

/-!
# What services throw at each other

The errors of the services, the body a Nest exception is answered with, and the mapping of an
upstream error that order-execution-service and orchestrator-service share.
-/

set_option autoImplicit false

namespace Gusto

/-- The response of a failed request: its status, `data.message`, and the text of `data`. -/
structure AxiosResponse where
  status : ℕ
  message : Option String
  data : Option String
  deriving DecidableEq, Repr

/-- What a service throws: an `HttpException`, an axios error, or another `Error`. -/
inductive Err
  | http (status : ℕ) (message : String)
  | axios (response : Option AxiosResponse) (message : String)
  | error (message : String)
  deriving DecidableEq, Repr

theorem bind_eq_ok {α β : Type} {x : Except Err α} {f : α → Except Err β} {b : β} :
    x >>= f = .ok b ↔ ∃ a, x = .ok a ∧ f a = .ok b := by
  cases x with
  | error e => exact ⟨nofun, nofun⟩
  | ok a =>
    constructor
    · intro h
      exact ⟨a, rfl, h⟩
    · rintro ⟨a', ha, h⟩
      cases ha
      exact h

/-- A character inside a JSON string. -/
def jsonChar (c : Char) : String :=
  if c = '"' then "\\\""
  else if c = '\\' then "\\\\"
  else if c.toNat = 8 then "\\b"
  else if c.toNat = 9 then "\\t"
  else if c.toNat = 10 then "\\n"
  else if c.toNat = 12 then "\\f"
  else if c.toNat = 13 then "\\r"
  else if c.toNat < 16 then "\\u000" ++ String.ofList (Nat.toDigits 16 c.toNat)
  else if c.toNat < 32 then "\\u00" ++ String.ofList (Nat.toDigits 16 c.toNat)
  else c.toString

/-- `JSON.stringify` of a string. -/
def jsonString (s : String) : String :=
  "\"" ++ String.join (s.toList.map jsonChar) ++ "\""

/-- The error name Nest writes into the body of an exception. -/
def statusName : ℕ → String
  | 400 => "Bad Request"
  | 404 => "Not Found"
  | 409 => "Conflict"
  | 422 => "Unprocessable Entity"
  | 503 => "Service Unavailable"
  | _ => "Internal Server Error"

/-- What a caller over HTTP gets when the service it calls throws. -/
def Err.overHttp : Err → Err
  | .http status message =>
    .axios (some ⟨status, some message, some ("\x7b\"message\":" ++ jsonString message ++
      ",\"error\":" ++ jsonString (statusName status) ++
      ",\"statusCode\":" ++ toString status ++ "\x7d")⟩)
      ("Request failed with status code " ++ toString status)
  | _ =>
    .axios (some ⟨500, some "Internal server error",
      some "\x7b\"statusCode\":500,\"message\":\"Internal server error\"\x7d"⟩)
      "Request failed with status code 500"

/-- The upstream error response is rethrown with its status; an unreachable upstream is a 503. -/
def mapUpstreamError : Err → Err
  | .axios (some response) message => .http response.status (response.message.getD message)
  | .axios none message => .http 503 ("upstream unreachable: " ++ message)
  | .http _ message => .http 503 message
  | .error message => .http 503 message

/-- `describeError` of order-execution-service. -/
def describeError : Err → String
  | .axios (some response) message =>
    "HTTP " ++ toString response.status ++ ": " ++ response.data.getD (jsonString message)
  | .axios none message => "HTTP ?: " ++ jsonString message
  | .http _ message => message
  | .error message => message

/-- `z.number().int().positive()`: the amount a request body may carry. -/
def positiveInt (amount : ℚ) : Option ℤ :=
  if amount.den = 1 ∧ 0 < amount.num then some amount.num else none

theorem positiveInt_eq_some {amount : ℚ} {n : ℤ} :
    positiveInt amount = some n ↔ amount = n ∧ 0 < n := by
  unfold positiveInt
  constructor
  · intro h
    split at h
    · rename_i hc
      simp only [Option.some.injEq] at h
      subst h
      exact ⟨(Rat.den_eq_one_iff amount).mp hc.1 ▸ rfl, hc.2⟩
    · cases h
  · rintro ⟨rfl, hn⟩
    simp [hn]

end Gusto
