import DarkServices.Dashboard.Metrics
import DarkServices.Gateway.Telemetry
import Mathlib.Data.List.Dedup
import Mathlib.Data.List.Induction
import Mathlib.Data.List.Nodup

/-!
# Metrics survive the text format

`ServeMetrics` of the gateway against the metrics route of the dashboard. The key of a counter
is taken apart at its last colon, which gives back handler and status since a status has none
(`splitKey_requestKey`); a line is read back since a handler has no quotation mark
(`parseLine_requestLine`); the store is a summary of the calls, and the order of its keys decides
only the order of the entries.
-/

namespace DarkServices
namespace System

open Lib
open Gateway (MetricsCall MetricsStore recordAll requestKey splitKey requestLine serveMetrics)
open Dashboard (Metrics parseLine parseInt)

/-! ## Keys -/

/-- A key gives back its handler and its status, also when the handler has colons. -/
theorem splitKey_requestKey (handler : String) (status : Int64) :
    splitKey (requestKey handler status) = (handler, status) := by
  have hcut : Gateway.cutLastColon (requestKey handler status).toList =
      some (handler.toList, (toString status.toInt).toList) := by
    have htext : (requestKey handler status).toList.reverse =
        (toString status.toInt).toList.reverse ++ ':' :: handler.toList.reverse := by
      simp [requestKey]
    have hcolon : ':' ∉ (toString status.toInt).toList.reverse := by
      rw [List.mem_reverse]
      exact IntText.notMem_toString (by decide) (by decide) _
    rw [Gateway.cutLastColon, htext, Strings.cut_append hcolon, Option.map_some,
      List.reverse_reverse, List.reverse_reverse]
  rw [splitKey, hcut]
  simp only [IntText.sscanInt_toString, String.ofList_toList]

theorem requestKey_inj {handler handler' : String} {status status' : Int64}
    (h : requestKey handler status = requestKey handler' status') :
    handler = handler' ∧ status = status' := by
  have hsplit := congrArg splitKey h
  rw [splitKey_requestKey, splitKey_requestKey] at hsplit
  exact Prod.mk.inj hsplit

/-! ## The store after calls -/

/-- The key that a call counts. -/
def keyOf : MetricsCall → Option String
  | .incrementRequestCounter handler status => some (requestKey handler status)
  | _ => none

/-- The six gauges. -/
inductive Gauge
  | dpop
  | token
  | ziti
  | pdp
  | rls
  | worm

/-- The value of a gauge in the store. -/
def Gauge.read (s : MetricsStore) : Gauge → Int64
  | .dpop => s.dpopVerifyUs
  | .token => s.tokenVerifyUs
  | .ziti => s.zitiVerifyUs
  | .pdp => s.pdpVerifyUs
  | .rls => s.dbRlsContextUs
  | .worm => s.dbWormExecUs

/-- The value that a call records for a gauge. -/
def Gauge.recorded : Gauge → MetricsCall → Option Int64
  | .dpop, .recordSecurityOverhead us _ _ => some us
  | .token, .recordSecurityOverhead _ us _ => some us
  | .ziti, .recordSecurityOverhead _ _ us => some us
  | .pdp, .recordPDPOverhead us => some us
  | .rls, .recordDbLatency us _ => some us
  | .worm, .recordDbLatency _ us => some us
  | _, _ => none

/-- The last value that the calls record for a gauge, zero without any. -/
def lastValue (g : Gauge) (calls : List MetricsCall) : Int64 :=
  ((calls.filterMap g.recorded).getLast?).getD 0

theorem lastValue_concat (g : Gauge) (calls : List MetricsCall) (c : MetricsCall) :
    lastValue g (calls ++ [c]) = (g.recorded c).getD (lastValue g calls) := by
  unfold lastValue
  rw [List.filterMap_append]
  cases hc : g.recorded c with
  | none => simp [hc]
  | some v => simp [hc]

/-- The number of calls that count a key. -/
def countOf (key : String) (calls : List MetricsCall) : ℕ :=
  calls.countP fun c => keyOf c = some key

theorem recordAll_concat (calls : List MetricsCall) (c : MetricsCall) :
    recordAll (calls ++ [c]) = c.apply (recordAll calls) := by
  rw [recordAll, List.foldl_append]
  rfl

/-- A call counts its key and leaves the others. -/
theorem requestsTotal_apply (s : MetricsStore) (c : MetricsCall) (key : String) :
    (c.apply s).requestsTotal key =
      if keyOf c = some key then some ((s.requestsTotal key).getD 0 + 1)
      else s.requestsTotal key := by
  cases c with
  | incrementRequestCounter handler status =>
    show Function.update s.requestsTotal (requestKey handler status) _ key = _
    by_cases hkey : requestKey handler status = key
    · subst hkey
      rw [Function.update_self, keyOf, if_pos rfl]
    · have hne : ¬ keyOf (.incrementRequestCounter handler status) = some key := by
        rw [keyOf, Option.some.injEq]
        exact hkey
      rw [Function.update_of_ne (Ne.symm hkey), if_neg hne]
  | recordSecurityOverhead dpop token ziti => rfl
  | recordDbLatency rls worm => rfl
  | recordPDPOverhead pdp => rfl

/-- A counter is the number of its calls; a key without calls is not in the map. -/
theorem requestsTotal_recordAll (calls : List MetricsCall) (key : String) :
    (recordAll calls).requestsTotal key =
      if countOf key calls = 0 then none else some (Int64.ofNat (countOf key calls)) := by
  induction calls using List.reverseRecOn with
  | nil => rfl
  | append_singleton calls c ih =>
    have hcount : countOf key (calls ++ [c]) =
        countOf key calls + if keyOf c = some key then 1 else 0 := by
      rw [countOf, List.countP_append, List.countP_singleton]
      simp only [decide_eq_true_eq]
      rfl
    rw [recordAll_concat, requestsTotal_apply, ih, hcount]
    by_cases hkey : keyOf c = some key
    · rw [if_pos hkey, if_pos hkey, if_neg (Nat.succ_ne_zero _), Int64.ofNat_add]
      by_cases hzero : countOf key calls = 0
      · rw [if_pos hzero, hzero]
        rfl
      · rw [if_neg hzero]
        rfl
    · rw [if_neg hkey, if_neg hkey, Nat.add_zero]

/-- A call sets the gauges it records and leaves the others. -/
theorem Gauge.read_apply (g : Gauge) (s : MetricsStore) (c : MetricsCall) :
    g.read (c.apply s) = (g.recorded c).getD (g.read s) := by
  cases g <;> cases c <;> rfl

/-- A gauge holds the last value. -/
theorem Gauge.read_recordAll (g : Gauge) (calls : List MetricsCall) :
    g.read (recordAll calls) = lastValue g calls := by
  induction calls using List.reverseRecOn with
  | nil => cases g <;> rfl
  | append_singleton calls c ih => rw [recordAll_concat, g.read_apply, lastValue_concat, ih]

/-! ## Lines -/

/-- A name that a line can carry: it is not empty and has no quotation mark. -/
def Quotable (s : String) : Prop := s ≠ "" ∧ '"' ∉ s.toList

instance (s : String) : Decidable (Quotable s) := inferInstanceAs (Decidable (_ ∧ _))

theorem Quotable.toList_ne {s : String} (h : Quotable s) : s.toList ≠ [] := by
  intro hnil
  exact h.1 (String.toList_eq_nil_iff.mp hnil)

theorem Quotable.run {s : String} (h : Quotable s) :
    ∀ c ∈ s.toList, Dashboard.notQuote c = true := by
  intro c hc
  rw [Dashboard.notQuote, bne_iff_ne]
  rintro rfl
  exact h.2 hc

theorem quotable_toString (n : ℤ) : Quotable (toString n) := by
  refine ⟨fun hempty => ?_, IntText.notMem_toString (by decide) (by decide) n⟩
  apply IntText.toString_ne_empty n
  rw [hempty]
  rfl

/-- A number that a line can carry and a double can hold. -/
def Exact (v : Int64) : Prop := 0 ≤ v.toInt ∧ v.toInt < 2 ^ 53

/-- The digits of such a number, at the end of a line. -/
theorem matchHere_digits {v : Int64} (h : 0 ≤ v.toInt) :
    RegExp.matchHere [.run Char.isDigit] (toString v.toInt).toList =
      some [(toString v.toInt).toList] := by
  rw [IntText.toList_toString_of_nonneg h]
  have hrun := RegExp.matchHere_run (e := []) (s := []) Nat.toDigits_ne_nil
    (fun c => IntText.isDigit_of_mem (n := v.toInt.toNat)) (by simp) rfl
  rwa [List.append_nil] at hrun

/-- Numbers of at most 53 bits are doubles. -/
theorem nearestDouble_of_lt {n : ℕ} (h : n < 2 ^ 53) : Dashboard.nearestDouble n = n := by
  have hlog : n.log2 + 1 - 53 = 0 := by
    by_cases hzero : n = 0
    · rw [hzero]
      rfl
    · have := (Nat.log2_lt hzero).mpr h
      omega
  have hround : ¬ (1 < 2 * (n % 1) ∨ 2 * (n % 1) = 1 ∧ n % 2 = 1) := by omega
  simp only [Dashboard.nearestDouble, hlog, Nat.pow_zero, Nat.div_one, Nat.mul_one, if_neg hround]

theorem parseInt_toString {v : Int64} (h : Exact v) :
    parseInt (toString v.toInt).toList = v.toInt.toNat := by
  obtain ⟨hle, hlt⟩ := h
  rw [parseInt, IntText.toList_toString_of_nonneg hle, Nat.ofDigitChars_ten_toDigits,
    nearestDouble_of_lt (by omega)]

/-- Where a long text begins is not changed by what comes after it. -/
theorem isPrefixOf_append {t l s : List Char} (h : t.length ≤ l.length) :
    t.isPrefixOf (l ++ s) = t.isPrefixOf l := by
  rw [Bool.eq_iff_iff, List.isPrefixOf_iff_prefix, List.isPrefixOf_iff_prefix]
  exact ⟨fun hp => List.prefix_of_prefix_length_le hp (List.prefix_append _ _) h,
    fun hp => hp.trans (List.prefix_append _ _)⟩

/-- A run without quotation marks ends at a text that begins with one. -/
theorem notQuote_head {t s : List Char} (ht : t.head? = some '"') :
    ∀ c ∈ (t ++ s).head?, Dashboard.notQuote c = false := by
  intro c hc
  rw [List.head?_append, ht, Option.some_or, Option.mem_def, Option.some.injEq] at hc
  rw [← hc]
  rfl

theorem toList_requestLine (handler : String) (status count : Int64) :
    (requestLine (requestKey handler status) count).toList =
      "gateway_requests_total\x7bhandler=\"".toList ++ (handler.toList ++
        ("\",status=\"".toList ++ ((toString status.toInt).toList ++ ("\"\x7d ".toList ++
          (toString count.toInt).toList)))) := by
  unfold requestLine
  rw [splitKey_requestKey]
  simp only [String.toList_append, List.append_assoc]

/-- The expression of the counters reads a counter. -/
theorem exec_requestsExp {handler : String} {status count : Int64} (hhandler : Quotable handler)
    (hcount : 0 ≤ count.toInt) :
    RegExp.exec Dashboard.requestsExp (requestLine (requestKey handler status) count).toList =
      some [handler.toList, (toString status.toInt).toList, (toString count.toInt).toList] := by
  have hstatus := quotable_toString status.toInt
  apply RegExp.exec_of_matchHere
  rw [toList_requestLine]
  unfold Dashboard.requestsExp
  rw [RegExp.matchHere_lit]
  apply RegExp.matchHere_run hhandler.toList_ne hhandler.run (notQuote_head rfl)
  rw [RegExp.matchHere_lit]
  apply RegExp.matchHere_run hstatus.toList_ne hstatus.run (notQuote_head rfl)
  rw [RegExp.matchHere_lit]
  exact matchHere_digits hcount

/-- The expression of a gauge reads a gauge. -/
theorem exec_gauge {text : List Char} {name : String} {us : Int64} (hname : Quotable name)
    (hus : 0 ≤ us.toInt) :
    RegExp.exec [.lit text, .run Dashboard.notQuote, .lit "\"\x7d ".toList, .run Char.isDigit]
        (text ++ (name.toList ++ ("\"\x7d ".toList ++ (toString us.toInt).toList))) =
      some [name.toList, (toString us.toInt).toList] := by
  apply RegExp.exec_of_matchHere
  rw [RegExp.matchHere_lit]
  apply RegExp.matchHere_run hname.toList_ne hname.run (notQuote_head rfl)
  rw [RegExp.matchHere_lit]
  exact matchHere_digits hus

/-- A line of a metric is not passed over. -/
theorem not_comment {line : List Char} (h : line.head? = some 'g') :
    ¬ (line = [] ∨ "#".toList.isPrefixOf line = true) := by
  cases line with
  | nil => cases h
  | cons c line =>
    cases h
    rintro (hnil | hcomment)
    · cases hnil
    · rw [List.isPrefixOf_iff_prefix] at hcomment
      exact absurd (List.cons_prefix_cons.mp hcomment).1 (by decide)

/-- The line of a counter adds its entry. -/
theorem parseLine_requestLine (m : Metrics) {handler : String} {status count : Int64}
    (hhandler : Quotable handler) (hcount : Exact count) :
    parseLine m (requestLine (requestKey handler status) count).toList =
      { m with
        requests := m.requests ++ [⟨handler, toString status.toInt, count.toInt.toNat⟩] } := by
  have htext := toList_requestLine handler status count
  have hname : "gateway_requests_total".toList.isPrefixOf
      (requestLine (requestKey handler status) count).toList = true := by
    rw [htext, isPrefixOf_append (by decide)]
    rfl
  rw [parseLine, if_neg (not_comment (by rw [htext]; rfl)), if_pos hname,
    exec_requestsExp hhandler hcount.1]
  simp only [parseInt_toString hcount, String.ofList_toList]

/-- The line of a security layer sets its gauge. -/
theorem parseLine_securityLine (m : Metrics) {stage : String} {us : Int64}
    (hstage : Quotable stage) (hus : Exact us) :
    parseLine m (Gateway.securityLine stage us).toList =
      { m with
        securityOverhead := Function.update m.securityOverhead stage (some us.toInt.toNat) } := by
  have htext : (Gateway.securityLine stage us).toList =
      "gateway_security_overhead_microseconds\x7bstage=\"".toList ++ (stage.toList ++
        ("\"\x7d ".toList ++ (toString us.toInt).toList)) := by
    unfold Gateway.securityLine
    simp only [String.toList_append, List.append_assoc]
  have hother : ¬ "gateway_requests_total".toList.isPrefixOf
      (Gateway.securityLine stage us).toList = true := by
    rw [htext, isPrefixOf_append (by decide)]
    decide
  have hname : "gateway_security_overhead_microseconds".toList.isPrefixOf
      (Gateway.securityLine stage us).toList = true := by
    rw [htext, isPrefixOf_append (by decide)]
    rfl
  rw [parseLine, if_neg (not_comment (by rw [htext]; rfl)), if_neg hother, if_pos hname,
    Dashboard.securityExp, htext, exec_gauge hstage hus.1]
  simp only [parseInt_toString hus, String.ofList_toList]

/-- The line of a database operation sets its gauge. -/
theorem parseLine_dbLine (m : Metrics) {operation : String} {us : Int64}
    (hoperation : Quotable operation) (hus : Exact us) :
    parseLine m (Gateway.dbLine operation us).toList =
      { m with dbLatency := Function.update m.dbLatency operation (some us.toInt.toNat) } := by
  have htext : (Gateway.dbLine operation us).toList =
      "gateway_db_latency_microseconds\x7boperation=\"".toList ++ (operation.toList ++
        ("\"\x7d ".toList ++ (toString us.toInt).toList)) := by
    unfold Gateway.dbLine
    simp only [String.toList_append, List.append_assoc]
  have hrequests : ¬ "gateway_requests_total".toList.isPrefixOf
      (Gateway.dbLine operation us).toList = true := by
    rw [htext, isPrefixOf_append (by decide)]
    decide
  have hsecurity : ¬ "gateway_security_overhead_microseconds".toList.isPrefixOf
      (Gateway.dbLine operation us).toList = true := by
    rw [htext, isPrefixOf_append (by decide)]
    decide
  have hname : "gateway_db_latency_microseconds".toList.isPrefixOf
      (Gateway.dbLine operation us).toList = true := by
    rw [htext, isPrefixOf_append (by decide)]
    rfl
  rw [parseLine, if_neg (not_comment (by rw [htext]; rfl)), if_neg hrequests, if_neg hsecurity,
    if_pos hname, Dashboard.dbExp, htext, exec_gauge hoperation hus.1]
  simp only [parseInt_toString hus, String.ofList_toList]

/-! ## The text -/

/-- The lines of a text that has a line feed after each of them. -/
theorem splitOn_join {lines : List String} (h : ∀ line ∈ lines, '\n' ∉ line.toList) :
    (String.join (lines.map (· ++ "\n"))).toList.splitOn '\n' =
      lines.map String.toList ++ [[]] := by
  induction lines with
  | nil => rfl
  | cons line lines ih =>
    have htext : (String.join ((line :: lines).map (· ++ "\n"))).toList =
        line.toList ++ '\n' :: (String.join (lines.map (· ++ "\n"))).toList := by
      simp [String.toList_join]
    rw [htext, List.splitOn_append_cons_self_of_not_mem (h line List.mem_cons_self),
      ih fun l hl => h l (List.mem_cons_of_mem _ hl)]
    rfl

/-- A name that a metric can have: not empty, printable ASCII, no quotation mark. -/
structure PlainHandler (handler : String) : Prop where
  nonempty : handler ≠ ""
  printable : ∀ c ∈ handler.toList, 0x20 ≤ c.toNat ∧ c.toNat ≤ 0x7e
  unquoted : '"' ∉ handler.toList

theorem PlainHandler.quotable {handler : String} (h : PlainHandler handler) : Quotable handler :=
  ⟨h.nonempty, h.unquoted⟩

theorem PlainHandler.newline {handler : String} (h : PlainHandler handler) :
    '\n' ∉ handler.toList := by
  intro hmem
  exact absurd (h.printable _ hmem).1 (by decide)

theorem newline_notMem_toString (n : ℤ) : '\n' ∉ (toString n).toList :=
  IntText.notMem_toString (by decide) (by decide) n

theorem newline_requestLine {handler : String} (h : PlainHandler handler) (status count : Int64) :
    '\n' ∉ (requestLine (requestKey handler status) count).toList := by
  rw [toList_requestLine]
  simp only [List.mem_append, not_or]
  exact ⟨by decide, h.newline, by decide, newline_notMem_toString _, by decide,
    newline_notMem_toString _⟩

theorem newline_securityLine {stage : String} (h : '\n' ∉ stage.toList) (us : Int64) :
    '\n' ∉ (Gateway.securityLine stage us).toList := by
  unfold Gateway.securityLine
  simp only [String.toList_append, List.mem_append, not_or]
  exact ⟨⟨⟨by decide, h⟩, by decide⟩, newline_notMem_toString _⟩

theorem newline_dbLine {operation : String} (h : '\n' ∉ operation.toList) (us : Int64) :
    '\n' ∉ (Gateway.dbLine operation us).toList := by
  unfold Gateway.dbLine
  simp only [String.toList_append, List.mem_append, not_or]
  exact ⟨⟨⟨by decide, h⟩, by decide⟩, newline_notMem_toString _⟩

/-- Blank lines and comments are passed over. -/
theorem parseLine_blank (m : Metrics) : parseLine m "".toList = m := rfl

theorem parseLine_comment (m : Metrics) {line : String}
    (h : "#".toList.isPrefixOf line.toList = true) : parseLine m line.toList = m := by
  rw [parseLine, if_pos (Or.inr h)]

/-- The lines of the counters add their entries in order. -/
theorem foldl_requestLines (m : Metrics) {pairs : List (String × Int64)}
    {count : String × Int64 → Int64} (h : ∀ p ∈ pairs, Quotable p.1 ∧ Exact (count p)) :
    (pairs.map fun p => (requestLine (requestKey p.1 p.2) (count p)).toList).foldl parseLine m =
      { m with
        requests := m.requests ++
          pairs.map fun p => ⟨p.1, toString p.2.toInt, (count p).toInt.toNat⟩ } := by
  induction pairs generalizing m with
  | nil => simp
  | cons p pairs ih =>
    obtain ⟨hhandler, hcount⟩ := h p List.mem_cons_self
    rw [List.map_cons, List.foldl_cons, parseLine_requestLine m hhandler hcount,
      ih _ fun q hq => h q (List.mem_cons_of_mem _ hq)]
    simp

/-- The keys of the map are those of the calls. -/
theorem isSome_requestsTotal {calls : List MetricsCall} {key : String} :
    ((recordAll calls).requestsTotal key).isSome = true ↔ ∃ c ∈ calls, keyOf c = some key := by
  rw [requestsTotal_recordAll]
  by_cases hzero : countOf key calls = 0
  · rw [if_pos hzero]
    rw [countOf, List.countP_eq_zero] at hzero
    refine ⟨fun hsome => (by cases hsome), ?_⟩
    rintro ⟨c, hmem, hc⟩
    exact absurd (decide_eq_true hc) (hzero c hmem)
  · rw [if_neg hzero]
    obtain ⟨c, hmem, hc⟩ := List.countP_pos_iff.mp (Nat.pos_of_ne_zero hzero)
    exact ⟨fun _ => ⟨c, hmem, of_decide_eq_true hc⟩, fun _ => rfl⟩

/-- The order in which a range over a map visits its keys: each key once. -/
structure IterationOrder {α : Type} (map : String → Option α) (order : List String) : Prop where
  nodup : order.Nodup
  mem_iff : ∀ key, key ∈ order ↔ (map key).isSome = true

theorem keyOf_eq_some {c : MetricsCall} {key : String} :
    keyOf c = some key ↔ ∃ p : String × Int64,
      c = .incrementRequestCounter p.1 p.2 ∧ requestKey p.1 p.2 = key := by
  constructor
  · intro h
    cases c with
    | incrementRequestCounter handler status =>
      exact ⟨(handler, status), rfl, Option.some.inj h⟩
    | recordSecurityOverhead dpop token ziti => cases h
    | recordDbLatency rls worm => cases h
    | recordPDPOverhead pdp => cases h
  · rintro ⟨p, rfl, rfl⟩
    rfl

/-- A counter counts the calls with its handler and its status. -/
theorem countOf_requestKey (handler : String) (status : Int64) (calls : List MetricsCall) :
    countOf (requestKey handler status) calls =
      calls.count (.incrementRequestCounter handler status) := by
  rw [countOf, List.count]
  apply List.countP_congr
  intro c _
  rw [decide_eq_true_eq, beq_iff_eq, keyOf_eq_some]
  constructor
  · rintro ⟨p, rfl, hkey⟩
    obtain ⟨hhandler, hstatus⟩ := requestKey_inj hkey
    rw [hhandler, hstatus]
  · rintro rfl
    exact ⟨(handler, status), rfl, rfl⟩

/-- The keys of the counters stand for the distinct pairs of the calls. -/
theorem pairs_of_order {calls : List MetricsCall} {order : List String}
    (h : IterationOrder (recordAll calls).requestsTotal order) :
    ∃ pairs : List (String × Int64), pairs.Nodup ∧
      (∀ p, p ∈ pairs ↔ .incrementRequestCounter p.1 p.2 ∈ calls) ∧
      order = pairs.map fun p => requestKey p.1 p.2 := by
  have hkey : ∀ key, key ∈ order ↔
      ∃ p : String × Int64,
        .incrementRequestCounter p.1 p.2 ∈ calls ∧ requestKey p.1 p.2 = key := by
    intro key
    rw [h.mem_iff, isSome_requestsTotal]
    constructor
    · rintro ⟨c, hmem, hc⟩
      obtain ⟨p, rfl, hp⟩ := keyOf_eq_some.mp hc
      exact ⟨p, hmem, hp⟩
    · rintro ⟨p, hmem, hp⟩
      exact ⟨_, hmem, keyOf_eq_some.mpr ⟨p, rfl, hp⟩⟩
  have hback : ∀ key ∈ order, requestKey (splitKey key).1 (splitKey key).2 = key := by
    intro key hmem
    obtain ⟨p, -, rfl⟩ := (hkey key).mp hmem
    rw [splitKey_requestKey]
  refine ⟨order.map splitKey, ?_, fun p => ?_, ?_⟩
  · apply List.Nodup.map_on _ h.nodup
    intro key hmem key' hmem' heq
    rw [← hback key hmem, ← hback key' hmem', heq]
  · rw [List.mem_map]
    constructor
    · rintro ⟨key, hmem, rfl⟩
      obtain ⟨q, hq, rfl⟩ := (hkey key).mp hmem
      rw [splitKey_requestKey]
      exact hq
    · intro hp
      exact ⟨_, (hkey _).mpr ⟨p, hp, rfl⟩, splitKey_requestKey p.1 p.2⟩
  · rw [List.map_map]
    exact (List.map_id' order).symm.trans
      (List.map_congr_left fun key hmem => (hback key hmem).symm)

/-! ## The round trip -/

/-- Calls with handlers that a line can carry, and with latencies and counts that a double can
hold. -/
structure Recordable (calls : List MetricsCall) : Prop where
  handler : ∀ handler status, .incrementRequestCounter handler status ∈ calls →
    PlainHandler handler
  value : ∀ c ∈ calls, ∀ g : Gauge, ∀ v ∈ g.recorded c, Exact v
  count : ∀ handler status, calls.count (.incrementRequestCounter handler status) < 2 ^ 53

theorem exact_ofNat {n : ℕ} (h : n < 2 ^ 53) :
    (Int64.ofNat n).toInt = n ∧ Exact (Int64.ofNat n) := by
  have hint : (Int64.ofNat n).toInt = n := Int64.toInt_ofNat_of_lt (by omega)
  refine ⟨hint, ?_⟩
  rw [Exact, hint]
  omega

theorem Recordable.lastValue {calls : List MetricsCall} (h : Recordable calls) (g : Gauge) :
    Exact (lastValue g calls) := by
  rw [System.lastValue]
  cases hlast : (calls.filterMap g.recorded).getLast? with
  | none => exact ⟨by decide, by decide⟩
  | some v =>
    obtain ⟨c, hc, hv⟩ := List.mem_filterMap.mp (List.mem_of_getLast? hlast)
    exact h.value c hc g v hv

/-- The counter of a pair in the store. -/
theorem requestsTotal_of_mem {calls : List MetricsCall} {handler : String} {status : Int64}
    (hmem : .incrementRequestCounter handler status ∈ calls) :
    ((recordAll calls).requestsTotal (requestKey handler status)).getD 0 =
      Int64.ofNat (calls.count (.incrementRequestCounter handler status)) := by
  have hpos : calls.count (.incrementRequestCounter handler status) ≠ 0 := by
    rw [Ne, List.count_eq_zero]
    exact not_not.mpr hmem
  rw [requestsTotal_recordAll, countOf_requestKey, if_neg hpos, Option.getD_some]

/-- The lines of the counters of the store. -/
theorem foldl_counters {calls : List MetricsCall} (h : Recordable calls) (m : Metrics)
    {pairs : List (String × Int64)}
    (hpairs : ∀ p ∈ pairs, .incrementRequestCounter p.1 p.2 ∈ calls) :
    (((pairs.map fun p => requestKey p.1 p.2).map fun key =>
        requestLine key (((recordAll calls).requestsTotal key).getD 0)).map
          String.toList).foldl parseLine m =
      { m with
        requests := m.requests ++ pairs.map fun p =>
          ⟨p.1, toString p.2.toInt, calls.count (.incrementRequestCounter p.1 p.2)⟩ } := by
  have hexact : ∀ p : String × Int64,
      (Int64.ofNat (calls.count (.incrementRequestCounter p.1 p.2))).toInt =
          calls.count (.incrementRequestCounter p.1 p.2) ∧
        Exact (Int64.ofNat (calls.count (.incrementRequestCounter p.1 p.2))) :=
    fun p => exact_ofNat (h.count p.1 p.2)
  have hlines : ((pairs.map fun p => requestKey p.1 p.2).map fun key =>
      requestLine key (((recordAll calls).requestsTotal key).getD 0)).map String.toList =
      pairs.map fun p => (requestLine (requestKey p.1 p.2)
        (Int64.ofNat (calls.count (.incrementRequestCounter p.1 p.2)))).toList := by
    rw [List.map_map, List.map_map]
    apply List.map_congr_left
    intro p hp
    show (requestLine (requestKey p.1 p.2) _).toList = _
    rw [requestsTotal_of_mem (hpairs p hp)]
  rw [hlines, foldl_requestLines m fun p hp =>
    ⟨(h.handler _ _ (hpairs p hp)).quotable, (hexact p).2⟩]
  simp only [(hexact _).1, Int.toNat_natCast]

/-- What the dashboard should read: an entry for each pair, and the last values. -/
def summary (calls : List MetricsCall) (pairs : List (String × Int64)) : Metrics where
  requests := pairs.map fun p =>
    ⟨p.1, toString p.2.toInt, calls.count (.incrementRequestCounter p.1 p.2)⟩
  securityOverhead :=
    Function.update (Function.update (Function.update (Function.update
      Dashboard.emptyMetrics.securityOverhead
      "dpop" (some (lastValue .dpop calls).toInt.toNat))
      "token" (some (lastValue .token calls).toInt.toNat))
      "ziti" (some (lastValue .ziti calls).toInt.toNat))
      "pdp_grpc" (some (lastValue .pdp calls).toInt.toNat)
  dbLatency :=
    Function.update (Function.update Dashboard.emptyMetrics.dbLatency
      "rls_context" (some (lastValue .rls calls).toInt.toNat))
      "worm_exec" (some (lastValue .worm calls).toInt.toNat)

/-- The lines of the metrics, read one after the other. -/
theorem foldl_metricsLines {calls : List MetricsCall} (h : Recordable calls)
    {pairs : List (String × Int64)}
    (hpairs : ∀ p ∈ pairs, .incrementRequestCounter p.1 p.2 ∈ calls) :
    ((Gateway.metricsLines (recordAll calls)
        (pairs.map fun p => requestKey p.1 p.2)).map String.toList).foldl parseLine
          Dashboard.emptyMetrics = summary calls pairs := by
  have hdpop : (recordAll calls).dpopVerifyUs = lastValue .dpop calls :=
    Gauge.dpop.read_recordAll calls
  have htoken : (recordAll calls).tokenVerifyUs = lastValue .token calls :=
    Gauge.token.read_recordAll calls
  have hziti : (recordAll calls).zitiVerifyUs = lastValue .ziti calls :=
    Gauge.ziti.read_recordAll calls
  have hpdp : (recordAll calls).pdpVerifyUs = lastValue .pdp calls :=
    Gauge.pdp.read_recordAll calls
  have hrls : (recordAll calls).dbRlsContextUs = lastValue .rls calls :=
    Gauge.rls.read_recordAll calls
  have hworm : (recordAll calls).dbWormExecUs = lastValue .worm calls :=
    Gauge.worm.read_recordAll calls
  unfold Gateway.metricsLines
  rw [List.map_append, List.map_append, List.foldl_append, List.foldl_append]
  -- the two lines before the counters
  rw [List.map_cons, List.foldl_cons, parseLine_comment _ rfl, List.map_cons, List.foldl_cons,
    parseLine_comment _ rfl, List.map_nil, List.foldl_nil, foldl_counters h _ hpairs]
  -- the security layers
  rw [List.map_cons, List.foldl_cons, parseLine_blank, List.map_cons, List.foldl_cons,
    parseLine_comment _ rfl, List.map_cons, List.foldl_cons, parseLine_comment _ rfl,
    List.map_cons, List.foldl_cons, hdpop,
    parseLine_securityLine _ (by decide) (h.lastValue .dpop),
    List.map_cons, List.foldl_cons, htoken,
    parseLine_securityLine _ (by decide) (h.lastValue .token),
    List.map_cons, List.foldl_cons, hziti,
    parseLine_securityLine _ (by decide) (h.lastValue .ziti),
    List.map_cons, List.foldl_cons, hpdp,
    parseLine_securityLine _ (by decide) (h.lastValue .pdp)]
  -- the database operations
  rw [List.map_cons, List.foldl_cons, parseLine_blank, List.map_cons, List.foldl_cons,
    parseLine_comment _ rfl, List.map_cons, List.foldl_cons, parseLine_comment _ rfl,
    List.map_cons, List.foldl_cons, hrls, parseLine_dbLine _ (by decide) (h.lastValue .rls),
    List.map_cons, List.foldl_cons, hworm, parseLine_dbLine _ (by decide) (h.lastValue .worm)]
  rfl

/-- The lines of the metrics hold no line feed. -/
theorem newline_metricsLines (s : MetricsStore) {pairs : List (String × Int64)}
    (h : ∀ p ∈ pairs, PlainHandler p.1) :
    ∀ line ∈ Gateway.metricsLines s (pairs.map fun p => requestKey p.1 p.2),
      '\n' ∉ line.toList := by
  intro line hline
  unfold Gateway.metricsLines at hline
  rw [List.mem_append, List.mem_append, List.map_map] at hline
  rcases hline with (hline | hline) | hline
  · simp only [List.mem_cons, List.not_mem_nil, or_false] at hline
    rcases hline with rfl | rfl
    · decide
    · decide
  · obtain ⟨p, hp, rfl⟩ := List.mem_map.mp hline
    exact newline_requestLine (h p hp) _ _
  · simp only [List.mem_cons, List.not_mem_nil, or_false] at hline
    rcases hline with rfl | rfl | rfl | rfl | rfl | rfl | rfl | rfl | rfl | rfl | rfl | rfl
    · decide
    · decide
    · decide
    · exact newline_securityLine (by decide) _
    · exact newline_securityLine (by decide) _
    · exact newline_securityLine (by decide) _
    · exact newline_securityLine (by decide) _
    · decide
    · decide
    · decide
    · exact newline_dbLine (by decide) _
    · exact newline_dbLine (by decide) _

/-- **Metrics survive the text format.** Whatever the order of the keys, the dashboard reads one
entry for each pair of a handler and a status, with the number of its calls, and the last value
of each gauge. -/
theorem getMetrics_serveMetrics {calls : List MetricsCall} {order : List String}
    (h : Recordable calls) (horder : IterationOrder (recordAll calls).requestsTotal order) :
    ∃ data, Dashboard.getMetrics (.ok (200, serveMetrics (recordAll calls) order)) =
        .success data ∧
      (∃ pairs : List (String × Int64), pairs.Nodup ∧
        (∀ p, p ∈ pairs ↔ .incrementRequestCounter p.1 p.2 ∈ calls) ∧
        data.requests = pairs.map fun p =>
          ⟨p.1, toString p.2.toInt, calls.count (.incrementRequestCounter p.1 p.2)⟩) ∧
      data.securityOverhead "dpop" = some (lastValue .dpop calls).toInt.toNat ∧
      data.securityOverhead "token" = some (lastValue .token calls).toInt.toNat ∧
      data.securityOverhead "ziti" = some (lastValue .ziti calls).toInt.toNat ∧
      data.securityOverhead "pdp_grpc" = some (lastValue .pdp calls).toInt.toNat ∧
      data.dbLatency "rls_context" = some (lastValue .rls calls).toInt.toNat ∧
      data.dbLatency "worm_exec" = some (lastValue .worm calls).toInt.toNat := by
  obtain ⟨pairs, hnodup, hpairs, rfl⟩ := pairs_of_order horder
  have hlines := splitOn_join (newline_metricsLines (recordAll calls) fun p hp =>
    h.handler p.1 p.2 ((hpairs p).mp hp))
  have hparse : Dashboard.parseMetrics (serveMetrics (recordAll calls)
      (pairs.map fun p => requestKey p.1 p.2)) = summary calls pairs := by
    rw [Dashboard.parseMetrics, serveMetrics, hlines, List.foldl_append,
      foldl_metricsLines h fun p hp => (hpairs p).mp hp]
    exact parseLine_blank _
  refine ⟨summary calls pairs, ?_, ⟨pairs, hnodup, hpairs, rfl⟩, rfl, rfl, rfl, rfl, rfl, rfl⟩
  show Dashboard.MetricsResponse.success (Dashboard.parseMetrics _) = _
  rw [hparse]

/-- The keys of the calls, each once, are an order of the counters. -/
theorem iterationOrder_dedup (calls : List MetricsCall) :
    IterationOrder (recordAll calls).requestsTotal (calls.filterMap keyOf).dedup where
  nodup := List.nodup_dedup _
  mem_iff := by
    intro key
    rw [List.mem_dedup, List.mem_filterMap, isSome_requestsTotal]

/-- A few calls, two of them with a handler that has a colon, a brace and a blank. -/
def sampleCalls : List MetricsCall :=
  [.incrementRequestCounter "/api/balance" 200, .recordSecurityOverhead 538 120 33,
    .incrementRequestCounter "a:1\x7d b" (-2), .recordPDPOverhead 900,
    .incrementRequestCounter "/api/balance" 200, .recordDbLatency 41 1628]

theorem recordable_sampleCalls : Recordable sampleCalls where
  handler := by
    intro handler status hmem
    have hname : handler = "/api/balance" ∨ handler = "a:1\x7d b" := by
      simp only [sampleCalls, List.mem_cons, MetricsCall.incrementRequestCounter.injEq,
        reduceCtorEq, List.not_mem_nil, or_false, false_or] at hmem
      tauto
    have hprintable : ∀ s : String,
        (s.toList.all fun c => 0x20 ≤ c.toNat && c.toNat ≤ 0x7e) = true →
          ∀ c ∈ s.toList, 0x20 ≤ c.toNat ∧ c.toNat ≤ 0x7e := by
      intro s hs c hc
      simpa using List.all_eq_true.mp hs c hc
    rcases hname with rfl | rfl
    · exact ⟨by decide, hprintable _ (by decide), by decide⟩
    · exact ⟨by decide, hprintable _ (by decide), by decide⟩
  value := by
    intro c hc g v hv
    simp only [sampleCalls, List.mem_cons, List.not_mem_nil, or_false] at hc
    rcases hc with rfl | rfl | rfl | rfl | rfl | rfl <;> cases g <;> cases hv <;>
      exact ⟨by decide, by decide⟩
  count := by
    intro handler status
    calc sampleCalls.count (.incrementRequestCounter handler status) ≤ sampleCalls.length :=
          List.count_le_length
      _ < 2 ^ 53 := by decide

/-- The dashboard reads the two counters of these calls. -/
theorem getMetrics_serveMetrics_sampleCalls :
    ∃ data, Dashboard.getMetrics (.ok (200, serveMetrics (recordAll sampleCalls)
        (sampleCalls.filterMap keyOf).dedup)) = .success data ∧
      ⟨"/api/balance", "200", 2⟩ ∈ data.requests ∧ ⟨"a:1\x7d b", "-2", 1⟩ ∈ data.requests ∧
      data.securityOverhead "dpop" = some 538 ∧ data.securityOverhead "pdp_grpc" = some 900 ∧
      data.dbLatency "worm_exec" = some 1628 := by
  obtain ⟨data, hdata, ⟨pairs, -, hpairs, hrequests⟩, hdpop, -, -, hpdp, -, hworm⟩ :=
    getMetrics_serveMetrics recordable_sampleCalls (iterationOrder_dedup sampleCalls)
  refine ⟨data, hdata, ?_, ?_, hdpop, hpdp, hworm⟩
  · rw [hrequests]
    exact List.mem_map.mpr ⟨("/api/balance", 200), (hpairs _).mpr (by decide), rfl⟩
  · rw [hrequests]
    exact List.mem_map.mpr ⟨("a:1\x7d b", -2), (hpairs _).mpr (by decide), rfl⟩

end System
end DarkServices
