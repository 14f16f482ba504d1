import DarkServices.Lib.RWMutex
import DarkServices.System.MetricsTheorems

/-!
# The metrics under concurrent requests

Every request of the gateway counts itself and records its latencies while others do the same
and a scrape reads the store. Here the functions of `gateway/internal/telemetry` are programs
of single reads and writes under the lock of the store, and any number of goroutines call them
in any order: no count is lost, and a scrape writes the store as it was at one moment.
-/

namespace DarkServices
namespace System

open Lib
open Gateway (MetricsCall MetricsStore globalStore recordAll requestKey requestLine securityLine
  dbLine serveMetrics)

/-! ## Reads and writes -/

/-- A read or a write of the store. -/
inductive MetricsOp
  | loadCount (key : String)
  | storeCount (key : String) (count : Int64)
  | loadGauge (g : Gauge)
  | storeGauge (g : Gauge) (us : Int64)

/-- What a read answers; a key that is not in the map reads as zero. -/
abbrev MetricsReply : MetricsOp → Type
  | .loadCount _ => Int64
  | .loadGauge _ => Int64
  | _ => Unit

/-- Set a gauge. -/
def Gauge.write (us : Int64) (s : MetricsStore) : Gauge → MetricsStore
  | .dpop => { s with dpopVerifyUs := us }
  | .token => { s with tokenVerifyUs := us }
  | .ziti => { s with zitiVerifyUs := us }
  | .pdp => { s with pdpVerifyUs := us }
  | .rls => { s with dbRlsContextUs := us }
  | .worm => { s with dbWormExecUs := us }

/-- The meaning of the reads and writes. -/
def metricsSem : (o : MetricsOp) → MetricsStore → MetricsReply o × MetricsStore
  | .loadCount key, s => ((s.requestsTotal key).getD 0, s)
  | .storeCount key count, s =>
    ((), { s with requestsTotal := Function.update s.requestsTotal key (some count) })
  | .loadGauge g, s => (g.read s, s)
  | .storeGauge g us, s => ((), g.write us s)

/-! ## The functions of the package -/

abbrev MetricsProg := Prog MetricsOp MetricsReply

/-- What the functions that change the store do under the lock. -/
def recordBody : MetricsCall → MetricsProg Unit
  | .incrementRequestCounter handler status =>
    .op (.loadCount (requestKey handler status)) fun count =>
    .op (.storeCount (requestKey handler status) (count + 1)) fun _ => .ret ()
  | .recordSecurityOverhead dpop token ziti =>
    .op (.storeGauge .dpop dpop) fun _ =>
    .op (.storeGauge .token token) fun _ =>
    .op (.storeGauge .ziti ziti) fun _ => .ret ()
  | .recordDbLatency rls worm =>
    .op (.storeGauge .rls rls) fun _ =>
    .op (.storeGauge .worm worm) fun _ => .ret ()
  | .recordPDPOverhead pdp => .op (.storeGauge .pdp pdp) fun _ => .ret ()

/-- The lines of the counters, after the lines written before. -/
def writeRequests {β : Type} : List String → List String → (List String → MetricsProg β) →
    MetricsProg β
  | [], lines, next => next lines
  | key :: order, lines, next =>
    .op (.loadCount key) fun count => writeRequests order (lines ++ [requestLine key count]) next

/-- What `ServeMetrics` does under the lock. -/
def serveBody (order : List String) : MetricsProg String :=
  writeRequests order
    ["# HELP gateway_requests_total Total number of HTTP requests processed by the API Gateway.",
      "# TYPE gateway_requests_total counter"] fun lines =>
  .op (.loadGauge .dpop) fun dpop =>
  .op (.loadGauge .token) fun token =>
  .op (.loadGauge .ziti) fun ziti =>
  .op (.loadGauge .pdp) fun pdp =>
  .op (.loadGauge .rls) fun rls =>
  .op (.loadGauge .worm) fun worm =>
  .ret <| String.join <| (lines ++ ["",
    "# HELP gateway_security_overhead_microseconds Latency of security layer checks in microseconds.",
    "# TYPE gateway_security_overhead_microseconds gauge",
    securityLine "dpop" dpop, securityLine "token" token, securityLine "ziti" ziti,
    securityLine "pdp_grpc" pdp, "",
    "# HELP gateway_db_latency_microseconds Latency of database transaction and security operations in microseconds.",
    "# TYPE gateway_db_latency_microseconds gauge",
    dbLine "rls_context" rls, dbLine "worm_exec" worm]).map (· ++ "\n")

/-- A call of the package: one that changes the store, or a scrape with the order in which it
goes through the counters. -/
inductive MetricsSection
  | record (c : MetricsCall)
  | serve (order : List String)

/-- A scrape returns its text. -/
abbrev SectionResult : MetricsSection → Type
  | .record _ => Unit
  | .serve _ => String

/-- `globalStore.mu` is taken for writing by all functions but `ServeMetrics`. -/
def metricsSections : Sections MetricsOp MetricsReply MetricsSection SectionResult where
  writes
    | .record _ => true
    | .serve _ => false
  body
    | .record c => recordBody c
    | .serve order => serveBody order

/-- Reads and writes depend on no outside choice. -/
def metricsAcc (o : MetricsOp) (_ : Unit) (s : MetricsStore) : MetricsReply o × MetricsStore :=
  metricsSem o s

/-- Goroutines that use the store, under every interleaving of their reads and writes. -/
def metricsSystem {ι α : Type} [DecidableEq ι] (p : ι → Prog MetricsSection SectionResult α) :
    LTS (Threads (Guarded ι MetricsStore) ι (LockOp MetricsOp) (LockReply MetricsReply) α)
      (ι × Unit) :=
  RWMutex.system metricsAcc metricsSections globalStore p

/-! ## A section alone -/

/-- It is the function of the sequential model. -/
theorem exec_recordBody (c : MetricsCall) (s : MetricsStore) :
    Prog.exec metricsSem (recordBody c) s = ((), c.apply s) := by
  cases c <;> rfl

theorem exec_writeRequests {β : Type} (order lines : List String)
    (next : List String → MetricsProg β) (s : MetricsStore) :
    Prog.exec metricsSem (writeRequests order lines next) s =
      Prog.exec metricsSem (next (lines ++
        order.map fun key => requestLine key ((s.requestsTotal key).getD 0))) s := by
  induction order generalizing lines with
  | nil => simp [writeRequests]
  | cons key order ih =>
    show Prog.exec metricsSem (writeRequests order (lines ++ [_]) next) s = _
    rw [ih, List.append_assoc]
    rfl

theorem exec_serveBody (order : List String) (s : MetricsStore) :
    Prog.exec metricsSem (serveBody order) s = (serveMetrics s order, s) := by
  rw [serveBody, exec_writeRequests]
  rfl

theorem readsOnly_writeRequests {β : Type} {order lines : List String}
    {next : List String → MetricsProg β}
    (h : ∀ lines, RWMutex.ReadsOnly metricsAcc (next lines)) :
    RWMutex.ReadsOnly metricsAcc (writeRequests order lines next) := by
  induction order generalizing lines with
  | nil => exact h lines
  | cons key order ih => exact ⟨fun _ _ => rfl, fun _ => ih⟩

/-- A scrape does not write. -/
theorem disciplined_metrics : RWMutex.Disciplined metricsAcc metricsSections := by
  intro sec hsec
  cases sec with
  | record c => cases hsec
  | serve order =>
    refine readsOnly_writeRequests fun lines => ?_
    -- the six gauges
    iterate 6 refine ⟨fun _ _ => rfl, fun _ => ?_⟩
    exact trivial

/-! ## Runs -/

variable {ι α : Type} [DecidableEq ι]

/-- A finished call of one of the goroutines. -/
abbrev MetricsEvent (ι : Type) := Threads.Entry ι (List Unit) MetricsSection SectionResult

/-- The calls of a log that change the store. -/
def recordedIn (log : List (MetricsEvent ι)) : List MetricsCall :=
  log.filterMap fun e =>
    match e.op with
    | .record c => some c
    | .serve _ => none

/-- A scrape after calls writes the store that these have left. -/
def ScrapeOf (before : List (MetricsEvent ι)) (e : MetricsEvent ι) : Prop :=
  ∀ i cs order text, e = ⟨i, cs, .serve order, text⟩ →
    text = serveMetrics (recordAll (recordedIn before)) order

omit [DecidableEq ι] in
/-- What an order of the calls says of the store. -/
theorem logged_metrics {log : List (MetricsEvent ι)} {store : MetricsStore}
    (h : Threads.Logged (RWMutex.sectionSem metricsAcc metricsSections) globalStore log store) :
    store = recordAll (recordedIn log) ∧ Explained ScrapeOf log := by
  induction h with
  | nil => exact ⟨rfl, Explained.nil⟩
  | @concat log s s' i sec cs r _ hsem ih =>
    obtain ⟨rfl, hexplained⟩ := ih
    have hexec : Prog.exec metricsSem (metricsSections.body sec) (recordAll (recordedIn log)) =
        (r, s') :=
      RWMutex.exec_of_advance (fun _ _ _ => rfl) (RWMutex.sectionSem_eq_some hsem)
    cases sec with
    | record c =>
      have hstore : s' = c.apply (recordAll (recordedIn log)) :=
        (congrArg Prod.snd ((exec_recordBody c _).symm.trans hexec)).symm
      refine ⟨?_, hexplained.concat fun _ _ order text heq => by cases heq⟩
      rw [hstore, ← recordAll_concat]
      simp [recordedIn]
    | serve order =>
      have hresult := (exec_serveBody order _).symm.trans hexec
      refine ⟨?_, hexplained.concat fun _ _ order' text heq => ?_⟩
      · have hkept : recordAll (recordedIn log) = s' := congrArg Prod.snd hresult
        rw [← hkept]
        simp [recordedIn]
      · cases heq
        exact (congrArg Prod.fst hresult).symm

end System
end DarkServices
