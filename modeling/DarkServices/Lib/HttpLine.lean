import DarkServices.Lib.UrlQuery

/-!
# The way of a query

From the address that a client is given to the query that a server reads: `http.NewRequest` parses
the address, the client writes the request line, the server takes it apart at its blanks. The
query goes through as it is, unless a control character stops the client or a blank the server
(`queryAtServer_eq`).
-/

namespace Lib
namespace HttpLine

open UrlQuery

/-- `stringContainsCTLByte`. -/
def hasControl (s : Bytes) : Bool := s.any fun c => c < ' '.toUInt8 || c == 0x7f

/-- `url.Parse` as `http.NewRequest` calls it: the path and the query of the request, unless there
is an error. `pathOf` is what it makes of the address in front of the query. -/
def newRequest (pathOf : Bytes → Option Bytes) (rawURL : Bytes) : Option (Bytes × Bytes) :=
  let (address, fragment) := cutAt '#' rawURL
  if hasControl address then none
  else
    (pathOf (cutAt '?' address).1).bind fun path =>
      (unescape false fragment).map fun _ => (path, (cutAt '?' address).2)

/-- `URL.RequestURI`. -/
def requestURI (path query : Bytes) : Bytes :=
  path ++ if query = [] then [] else '?'.toUInt8 :: query

/-- The request line that the client writes. -/
def requestLine (path query : Bytes) : Bytes :=
  utf8 "GET" ++ ' '.toUInt8 :: (requestURI path query ++ ' '.toUInt8 :: utf8 "HTTP/1.1")

/-- `ParseHTTPVersion` and the check of the server: HTTP/1 with a digit. -/
def isVersion (proto : Bytes) : Bool :=
  proto.take 7 == utf8 "HTTP/1." && proto.length == 8 &&
    (proto.drop 7).all fun c => '0'.toUInt8 ≤ c && c ≤ '9'.toUInt8

/-- `readRequest`: the path and the query in a request line, unless the server refuses it. -/
def readRequest (line : Bytes) : Option (Bytes × Bytes) :=
  let (uri, proto) := cutAt ' ' (cutAt ' ' line).2
  if isVersion proto then some (cutAt '?' uri) else none

/-- The path and the query that the server reads when a client is given an address. -/
def queryAtServer (pathOf : Bytes → Option Bytes) (rawURL : Bytes) : Option (Bytes × Bytes) :=
  (newRequest pathOf rawURL).bind fun r => readRequest (requestLine r.1 r.2)

variable {pathOf : Bytes → Option Bytes} {address path query : Bytes}

/-- A text is cut at a separator that comes before. -/
theorem cutAt_append_of_mem {sep : Char} {a : Bytes} (ha : sep.toUInt8 ∈ a) (b : Bytes) :
    cutAt sep (a ++ b) = ((cutAt sep a).1, (cutAt sep a).2 ++ b) := by
  obtain ⟨a₁, a₂, rfl, ha₁⟩ := List.eq_append_cons_of_mem ha
  rw [List.append_assoc, List.cons_append, cutAt_append ha₁, cutAt_append ha₁]

/-- A text is cut at a separator that comes after. -/
theorem cutAt_append_of_notMem {sep : Char} {a : Bytes} (ha : sep.toUInt8 ∉ a) (b : Bytes) :
    cutAt sep (a ++ b) = (a ++ (cutAt sep b).1, (cutAt sep b).2) := by
  have hall := List.takeWhile_eq_self_iff.mp (takeWhile_of_notMem ha)
  rw [cutAt, List.takeWhile_append_of_pos hall, List.dropWhile_append_of_pos hall]
  rfl

theorem cutAt_of_notMem {sep : Char} {a : Bytes} (ha : sep.toUInt8 ∉ a) :
    cutAt sep a = (a, []) := by
  have hall := List.takeWhile_eq_self_iff.mp (takeWhile_of_notMem ha)
  rw [cutAt, takeWhile_of_notMem ha, List.dropWhile_eq_nil_iff.mpr hall]
  rfl

/-! ## The server -/

theorem cutAt_requestURI (hpath : '?'.toUInt8 ∉ path) :
    cutAt '?' (requestURI path query) = (path, query) := by
  unfold requestURI
  by_cases hnil : query = []
  · rw [if_pos hnil, List.append_nil, cutAt_of_notMem hpath, hnil]
  · rw [if_neg hnil, cutAt_append hpath]

/-- The server reads the query, or refuses one with a blank since the version is then too long. -/
theorem readRequest_requestLine (hpath : '?'.toUInt8 ∉ path ∧ ' '.toUInt8 ∉ path) :
    readRequest (requestLine path query) =
      if ' '.toUInt8 ∈ query then none else some (path, query) := by
  have hmethod : ' '.toUInt8 ∉ utf8 "GET" := by decide
  have hline : (cutAt ' ' (requestLine path query)).2 =
      requestURI path query ++ ' '.toUInt8 :: utf8 "HTTP/1.1" := by
    rw [requestLine, cutAt_append hmethod]
  have hblank : ' '.toUInt8 ∈ requestURI path query ↔ ' '.toUInt8 ∈ query := by
    unfold requestURI
    by_cases hnil : query = []
    · rw [if_pos hnil, List.append_nil, hnil]
      exact iff_of_false hpath.2 List.not_mem_nil
    · rw [if_neg hnil, List.mem_append, List.mem_cons, or_iff_right hpath.2]
      exact or_iff_right (by decide)
  unfold readRequest
  rw [hline]
  by_cases hmem : ' '.toUInt8 ∈ query
  · have hlong : isVersion ((cutAt ' ' (requestURI path query)).2 ++
        ' '.toUInt8 :: utf8 "HTTP/1.1") = false := by
      have hlen : (utf8 "HTTP/1.1").length = 8 := by decide
      have hne : ((cutAt ' ' (requestURI path query)).2 ++
          ' '.toUInt8 :: utf8 "HTTP/1.1").length ≠ 8 := by
        rw [List.length_append, List.length_cons, hlen]
        omega
      rw [isVersion, beq_eq_false_iff_ne.mpr hne, Bool.and_false, Bool.false_and]
    rw [cutAt_append_of_mem (hblank.mpr hmem), if_pos hmem]
    simp only [hlong]
    rfl
  · have hversion : isVersion (utf8 "HTTP/1.1") = true := by decide
    rw [cutAt_append (mt hblank.mp hmem), if_neg hmem]
    simp only [hversion, if_true, cutAt_requestURI hpath.1]

/-! ## The client -/

/-- The client sends the query up to its fragment, unless that has a control character or the
fragment a malformed escape. -/
theorem newRequest_query (haddress : '#'.toUInt8 ∉ address ∧ '?'.toUInt8 ∉ address)
    (hcontrol : hasControl address = false) (hpath : pathOf address = some path) :
    newRequest pathOf (address ++ '?'.toUInt8 :: query) =
      if hasControl (beforeFragment query) then none
      else (unescape false (cutAt '#' query).2).map fun _ => (path, beforeFragment query) := by
  have hcut : cutAt '#' (address ++ '?'.toUInt8 :: query) =
      (address ++ '?'.toUInt8 :: beforeFragment query, (cutAt '#' query).2) := by
    have hfirst : '#'.toUInt8 ∉ address ++ ['?'.toUInt8] := by
      rw [List.mem_append, List.mem_singleton, not_or]
      exact ⟨haddress.1, by decide⟩
    have hcut := cutAt_append_of_notMem hfirst query
    rwa [List.append_assoc, List.append_assoc] at hcut
  have hchars : hasControl (address ++ '?'.toUInt8 :: beforeFragment query) =
      hasControl (beforeFragment query) := by
    unfold hasControl at hcontrol ⊢
    rw [List.any_append, hcontrol, Bool.false_or, List.any_cons]
    exact Bool.false_or _
  unfold newRequest
  rw [hcut]
  simp only [hchars, cutAt_append haddress.2, hpath, Option.bind_some]

/-- **The way of a query.** -/
theorem queryAtServer_eq_some (haddress : '#'.toUInt8 ∉ address ∧ '?'.toUInt8 ∉ address)
    (hcontrol : hasControl address = false) (hpath : pathOf address = some path)
    (hplain : '?'.toUInt8 ∉ path ∧ ' '.toUInt8 ∉ path) {r : Bytes × Bytes} :
    queryAtServer pathOf (address ++ '?'.toUInt8 :: query) = some r ↔
      r = (path, beforeFragment query) ∧ hasControl (beforeFragment query) = false ∧
        ' '.toUInt8 ∉ beforeFragment query ∧
        (unescape false (cutAt '#' query).2).isSome = true := by
  rw [queryAtServer, newRequest_query haddress hcontrol hpath]
  by_cases hctl : hasControl (beforeFragment query) = true
  · rw [if_pos hctl, hctl]
    exact iff_of_false (by simp) (by simp)
  · rw [if_neg hctl]
    cases hfragment : unescape false (cutAt '#' query).2 with
    | none => exact iff_of_false (by simp) (by simp)
    | some fragment =>
      rw [Option.map_some, Option.bind_some, readRequest_requestLine hplain]
      by_cases hblank : ' '.toUInt8 ∈ beforeFragment query
      · rw [if_pos hblank]
        exact iff_of_false (by simp) fun h => h.2.2.1 hblank
      · rw [if_neg hblank, Option.some.injEq, eq_comm]
        exact ⟨fun h => ⟨h, Bool.eq_false_iff.mpr hctl, hblank, rfl⟩, fun h => h.1⟩

end HttpLine
end Lib
