import DarkServices.Lib.RegExp
import Mathlib.Algebra.Ring.Nat
import Mathlib.Logic.Function.Basic

/-!
# The metrics route

`GET` of `dashboard/src/app/api/metrics/route.ts`: it reads the metrics of the gateway line by
line with three regular expressions. Numbers are doubles, so `parseInt` rounds.
-/

namespace DarkServices
namespace Dashboard

open Lib

/-- An element of `metrics.requests`. -/
structure RequestCount where
  handler : String
  status : String
  count : ℕ

/-- `metrics`. -/
structure Metrics where
  requests : List RequestCount
  securityOverhead : String → Option ℕ
  dbLatency : String → Option ℕ

/-- The two forms of the response. -/
inductive MetricsResponse
  | success (data : Metrics)
  | error (message : String)

/-- `metrics` before the first line. -/
def emptyMetrics : Metrics where
  requests := []
  securityOverhead := fun stage => if stage ∈ ["dpop", "token", "ziti"] then some 0 else none
  dbLatency := fun operation => if operation ∈ ["rls_context", "worm_exec"] then some 0 else none

/-- The double nearest to a number, the even one of two: what does not fit into 53 bits is
rounded. -/
def nearestDouble (n : ℕ) : ℕ :=
  let unit := 2 ^ (n.log2 + 1 - 53)
  let half := 2 * (n % unit)
  (if unit < half ∨ (half = unit ∧ n / unit % 2 = 1) then n / unit + 1 else n / unit) * unit

/-- `parseInt(digits, 10)`. -/
def parseInt (digits : List Char) : ℕ := nearestDouble (Nat.ofDigitChars 10 digits 0)

/-! ## The expressions -/

/-- `[^"]`. -/
def notQuote (c : Char) : Bool := c != '"'

/-- The expression for a counter. -/
def requestsExp : List RegExp.Item :=
  [.lit "gateway_requests_total\x7bhandler=\"".toList, .run notQuote,
    .lit "\",status=\"".toList, .run notQuote, .lit "\"\x7d ".toList, .run Char.isDigit]

/-- The expression for a security layer. -/
def securityExp : List RegExp.Item :=
  [.lit "gateway_security_overhead_microseconds\x7bstage=\"".toList, .run notQuote,
    .lit "\"\x7d ".toList, .run Char.isDigit]

/-- The expression for a database operation. -/
def dbExp : List RegExp.Item :=
  [.lit "gateway_db_latency_microseconds\x7boperation=\"".toList, .run notQuote,
    .lit "\"\x7d ".toList, .run Char.isDigit]

/-! ## The lines -/

/-- The body of the loop over the lines. -/
def parseLine (metrics : Metrics) (line : List Char) : Metrics :=
  if line = [] ∨ "#".toList.isPrefixOf line then metrics
  else if "gateway_requests_total".toList.isPrefixOf line then
    match RegExp.exec requestsExp line with
    | some [handler, status, count] =>
      { metrics with
        requests := metrics.requests ++
          [⟨String.ofList handler, String.ofList status, parseInt count⟩] }
    | _ => metrics
  else if "gateway_security_overhead_microseconds".toList.isPrefixOf line then
    match RegExp.exec securityExp line with
    | some [stage, us] =>
      { metrics with
        securityOverhead :=
          Function.update metrics.securityOverhead (String.ofList stage) (some (parseInt us)) }
    | _ => metrics
  else if "gateway_db_latency_microseconds".toList.isPrefixOf line then
    match RegExp.exec dbExp line with
    | some [operation, us] =>
      { metrics with
        dbLatency := Function.update metrics.dbLatency (String.ofList operation) (some (parseInt us)) }
    | _ => metrics
  else metrics

/-- The metrics in a text: `text.split("\n")` and the loop. -/
def parseMetrics (text : String) : Metrics :=
  (text.toList.splitOn '\n').foldl parseLine emptyMetrics

/-- The route, for the answer of the gateway: a status and a text, or the message of the error
when there is none. -/
def getMetrics (res : Except String (ℕ × String)) : MetricsResponse :=
  match res with
  | .error message => .error message
  | .ok (status, text) =>
    if 200 ≤ status ∧ status ≤ 299 then .success (parseMetrics text)
    else .error ("Gateway returned status " ++ toString status)

end Dashboard
end DarkServices
