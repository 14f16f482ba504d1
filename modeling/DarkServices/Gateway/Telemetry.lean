import DarkServices.Lib.IntText
import DarkServices.Lib.Strings
import Mathlib.Logic.Function.Basic

/-!
# The metrics of the gateway

`gateway/internal/telemetry`: counters by handler and status under one text key, the last
latencies of each layer, and the text format in which `ServeMetrics` writes them. The range over
the map of the counters goes through its keys in an arbitrary order, which is an argument here.
-/

namespace DarkServices
namespace Gateway

open Lib

/-- `MetricsStore`. -/
structure MetricsStore where
  requestsTotal : String → Option Int64
  dpopVerifyUs : Int64
  tokenVerifyUs : Int64
  zitiVerifyUs : Int64
  pdpVerifyUs : Int64
  dbRlsContextUs : Int64
  dbWormExecUs : Int64

/-- `globalStore` at the start of the program. -/
def globalStore : MetricsStore where
  requestsTotal := fun _ => none
  dpopVerifyUs := 0
  tokenVerifyUs := 0
  zitiVerifyUs := 0
  pdpVerifyUs := 0
  dbRlsContextUs := 0
  dbWormExecUs := 0

/-! ## Recording -/

/-- `fmt.Sprintf("%s:%d", handler, status)`. -/
def requestKey (handler : String) (status : Int64) : String :=
  handler ++ ":" ++ toString status.toInt

/-- The calls that change the store. -/
inductive MetricsCall
  | incrementRequestCounter (handler : String) (status : Int64)
  | recordSecurityOverhead (dpop token ziti : Int64)
  | recordDbLatency (rls worm : Int64)
  | recordPDPOverhead (pdp : Int64)
deriving DecidableEq

/-- `IncrementRequestCounter`. -/
def incrementRequestCounter (handler : String) (status : Int64) (s : MetricsStore) :
    MetricsStore :=
  let key := requestKey handler status
  { s with
    requestsTotal :=
      Function.update s.requestsTotal key (some ((s.requestsTotal key).getD 0 + 1)) }

/-- `RecordSecurityOverhead`. -/
def recordSecurityOverhead (dpop token ziti : Int64) (s : MetricsStore) : MetricsStore :=
  { s with dpopVerifyUs := dpop, tokenVerifyUs := token, zitiVerifyUs := ziti }

/-- `RecordDbLatency`. -/
def recordDbLatency (rls worm : Int64) (s : MetricsStore) : MetricsStore :=
  { s with dbRlsContextUs := rls, dbWormExecUs := worm }

/-- `RecordPDPOverhead`. -/
def recordPDPOverhead (pdp : Int64) (s : MetricsStore) : MetricsStore :=
  { s with pdpVerifyUs := pdp }

/-- What a call does to the store. -/
def MetricsCall.apply (s : MetricsStore) : MetricsCall → MetricsStore
  | .incrementRequestCounter handler status => Gateway.incrementRequestCounter handler status s
  | .recordSecurityOverhead dpop token ziti => Gateway.recordSecurityOverhead dpop token ziti s
  | .recordDbLatency rls worm => Gateway.recordDbLatency rls worm s
  | .recordPDPOverhead pdp => Gateway.recordPDPOverhead pdp s

/-- The store after calls in this order. -/
def recordAll (calls : List MetricsCall) : MetricsStore :=
  calls.foldl MetricsCall.apply globalStore

/-! ## Serving -/

/-- The key before and after its last colon (`strings.LastIndex`). -/
def cutLastColon (key : List Char) : Option (List Char × List Char) :=
  (Strings.cut ':' key.reverse).map fun p => (p.2.reverse, p.1.reverse)

/-- `handler` and `status` of a key. -/
def splitKey (key : String) : String × Int64 :=
  match cutLastColon key.toList with
  | some (handler, status) => (String.ofList handler, IntText.sscanInt status)
  | none => (key, 0)

/-- The line of a counter. -/
def requestLine (key : String) (count : Int64) : String :=
  let (handler, status) := splitKey key
  "gateway_requests_total\x7bhandler=\"" ++ handler ++ "\",status=\"" ++ toString status.toInt ++
    "\"\x7d " ++ toString count.toInt

/-- The line of the latency of a security layer. -/
def securityLine (stage : String) (us : Int64) : String :=
  "gateway_security_overhead_microseconds\x7bstage=\"" ++ stage ++ "\"\x7d " ++ toString us.toInt

/-- The line of the latency of a database operation. -/
def dbLine (operation : String) (us : Int64) : String :=
  "gateway_db_latency_microseconds\x7boperation=\"" ++ operation ++ "\"\x7d " ++ toString us.toInt

/-- The lines that `ServeMetrics` writes, for an order of the keys. -/
def metricsLines (s : MetricsStore) (order : List String) : List String :=
  ["# HELP gateway_requests_total Total number of HTTP requests processed by the API Gateway.",
    "# TYPE gateway_requests_total counter"] ++
  order.map (fun key => requestLine key ((s.requestsTotal key).getD 0)) ++
  ["",
    "# HELP gateway_security_overhead_microseconds Latency of security layer checks in microseconds.",
    "# TYPE gateway_security_overhead_microseconds gauge",
    securityLine "dpop" s.dpopVerifyUs,
    securityLine "token" s.tokenVerifyUs,
    securityLine "ziti" s.zitiVerifyUs,
    securityLine "pdp_grpc" s.pdpVerifyUs,
    "",
    "# HELP gateway_db_latency_microseconds Latency of database transaction and security operations in microseconds.",
    "# TYPE gateway_db_latency_microseconds gauge",
    dbLine "rls_context" s.dbRlsContextUs,
    dbLine "worm_exec" s.dbWormExecUs]

/-- The body that `ServeMetrics` writes. -/
def serveMetrics (s : MetricsStore) (order : List String) : String :=
  String.join ((metricsLines s order).map (· ++ "\n"))

end Gateway
end DarkServices
