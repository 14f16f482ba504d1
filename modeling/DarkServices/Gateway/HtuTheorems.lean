import DarkServices.Gateway.AdmissionTheorems
import DarkServices.Lib.Uri

/-!
# How the gateway compares addresses

`verifyHTU` takes scheme and host away from two addresses and compares what is left. What is left
of an address starts at the first slash after `://` and goes on to the end, so it is the path only
when there is no query and no fragment, or when these make no difference
(`verifyHTU_compares_paths_iff`).
-/

namespace DarkServices
namespace Gateway

open Lib
open Lib.Strings (fromFirst)

/-- What is left of an address starts at the first slash after the authority. -/
theorem stripHostAndScheme_append {scheme authority rest : String} (hscheme : ':' ∉ scheme.toList)
    (hauthority : '/' ∉ authority.toList) :
    stripHostAndScheme (scheme ++ "://" ++ authority ++ rest) =
      String.ofList ((fromFirst ['/'] rest.toList).getD ['/']) := by
  have hsep : "://".toList = ':' :: ['/', '/'] := by decide
  have htext : (scheme ++ "://" ++ authority ++ rest).toList =
      scheme.toList ++ (':' :: ['/', '/'] ++ (authority.toList ++ rest.toList)) := by
    simp only [String.toList_append, hsep, List.append_assoc]
  -- the first `://` ends the scheme
  have hfound : fromFirst "://".toList (scheme ++ "://" ++ authority ++ rest).toList =
      some (':' :: ['/', '/'] ++ (authority.toList ++ rest.toList)) := by
    rw [htext, hsep, Strings.fromFirst_append hscheme, Strings.fromFirst_self]
  have hdrop : (':' :: ['/', '/'] ++ (authority.toList ++ rest.toList)).drop 3 =
      authority.toList ++ rest.toList := rfl
  unfold stripHostAndScheme
  simp only [hfound, hdrop, Strings.fromFirst_append hauthority]
  cases fromFirst ['/'] rest.toList <;> rfl

/-- A text that starts with a slash is taken as it is. -/
theorem fromFirst_of_head {s : String} (h : s.toList.head? = some '/') :
    (fromFirst ['/'] s.toList).getD ['/'] = s.toList := by
  have hs : s.toList = '/' :: s.toList.tail := List.eq_cons_of_mem_head? h
  rw [hs]
  exact congrArg (Option.getD · ['/']) (Strings.fromFirst_self '/' [] s.toList.tail)

/-- The comparison is of what is left. -/
theorem verifyHTU_iff {htu targetURI : String} :
    verifyHTU htu targetURI = true ↔ stripHostAndScheme htu = stripHostAndScheme targetURI := by
  rw [verifyHTU, Bool.or_eq_true, beq_iff_eq, beq_iff_eq]
  constructor
  · rintro (rfl | h)
    · rfl
    · exact h
  · exact Or.inr

/-- A request whose address is a host without a slash and a path without query and fragment, as
`net/http` passes it on. -/
structure PlainTarget (r : Request) : Prop where
  host : '/' ∉ r.host.toList
  path_slash : r.path.toList.head? = some '/'
  path_plain : '?' ∉ r.path.toList ∧ '#' ∉ r.path.toList

/-- What is left of the address of a request is its path. -/
theorem stripHostAndScheme_fullURI {r : Request} (h : PlainTarget r) :
    stripHostAndScheme r.fullURI = r.path := by
  have hscheme : ':' ∉ (if r.tls then "https" else "http").toList := by
    split <;> decide
  rw [Request.fullURI, stripHostAndScheme_append hscheme h.host, fromFirst_of_head h.path_slash]
  exact String.ofList_toList

/-- What is left of a URI. -/
theorem stripHostAndScheme_text (u : Uri) : stripHostAndScheme u.text =
    String.ofList ((fromFirst ['/'] (u.path ++ u.suffix)).getD ['/']) := by
  have htext : u.text = String.ofList u.scheme ++ "://" ++ String.ofList u.authority ++
      String.ofList (u.path ++ u.suffix) := by
    apply String.toList_inj.mp
    simp [Uri.text]
  rw [htext, stripHostAndScheme_append]
  · rw [String.toList_ofList]
  · rw [String.toList_ofList]
    exact u.scheme_plain
  · rw [String.toList_ofList]
    exact u.authority_plain.1

/-- Query and fragment make no difference for this path: there are none, or the paths differ; and
after an empty path, they have no slash, or what follows the first one makes no difference. -/
structure SuffixHarmless (u : Uri) (path : List Char) : Prop where
  nonempty : u.path ≠ [] → u.suffix = [] ∨ u.path ≠ path
  empty : u.path = [] → ∀ a b, u.suffix = a ++ '/' :: b → '/' ∉ a →
    b = [] ∨ path ≠ '/' :: b ∧ path ≠ ['/']

/-- A path is told from a longer text by the query or fragment in it. -/
theorem append_suffix_eq_iff {u : Uri} {path : List Char} (hplain : '?' ∉ path ∧ '#' ∉ path) :
    u.path ++ u.suffix = path ↔ u.suffix = [] ∧ u.path = path := by
  constructor
  · intro h
    rcases u.suffix_eq_nil_or with hnil | hquery | hfragment
    · rw [hnil, List.append_nil] at h
      exact ⟨hnil, h⟩
    · exact absurd (h ▸ List.mem_append_right _ hquery) hplain.1
    · exact absurd (h ▸ List.mem_append_right _ hfragment) hplain.2
  · rintro ⟨hnil, h⟩
    rw [hnil, List.append_nil, h]

/-- For a URI in a proof and the address of a request, `verifyHTU` decides whether the paths are
equal exactly when query and fragment make no difference. -/
theorem verifyHTU_compares_paths_iff (u : Uri) {r : Request} (htarget : PlainTarget r) :
    (verifyHTU u.text r.fullURI = true ↔ u.requestPath = r.path.toList) ↔
      SuffixHarmless u r.path.toList := by
  rw [verifyHTU_iff, stripHostAndScheme_fullURI htarget, stripHostAndScheme_text,
    ← String.toList_inj, String.toList_ofList, Uri.requestPath]
  by_cases hpath : u.path = []
  · rw [if_pos hpath, hpath, List.nil_append]
    by_cases hslash : '/' ∈ u.suffix
    · -- the first slash of query and fragment is taken for the path
      obtain ⟨a, b, hab, ha⟩ := List.eq_append_cons_of_mem hslash
      have hfirst : fromFirst ['/'] u.suffix = some ('/' :: b) := by
        rw [hab, Strings.fromFirst_append ha]
        exact Strings.fromFirst_self '/' [] b
      rw [hfirst, Option.getD_some]
      constructor
      · intro hiff
        refine ⟨fun hne => absurd hpath hne, fun _ a' b' hab' ha' => ?_⟩
        obtain ⟨-, rfl⟩ := Strings.append_cons_inj ha ha' (hab.symm.trans hab')
        by_cases hb : b = []
        · exact Or.inl hb
        · refine Or.inr ⟨fun heq => hb ?_, fun heq => hb ?_⟩
          · exact (List.cons.inj ((hiff.mp heq.symm).trans heq)).2.symm
          · exact (List.cons.inj ((hiff.mpr heq.symm).trans heq)).2
      · intro hharmless
        rcases hharmless.empty hpath a b hab ha with rfl | ⟨hb, hroot⟩
        · exact Iff.rfl
        · exact iff_of_false (fun h => hb h.symm) fun h => hroot h.symm
    · rw [Strings.fromFirst_eq_none hslash, Option.getD_none]
      refine iff_of_true Iff.rfl ⟨fun hne => absurd hpath hne, fun _ a b hab _ => ?_⟩
      exact absurd (hab ▸ List.mem_append_right a List.mem_cons_self) hslash
  · have hhead : u.path.head? = some '/' := u.path_slash.resolve_left hpath
    have hcons : u.path = '/' :: u.path.tail := List.eq_cons_of_mem_head? hhead
    have hwhole : fromFirst ['/'] (u.path ++ u.suffix) = some (u.path ++ u.suffix) := by
      rw [hcons]
      exact Strings.fromFirst_self '/' [] (u.path.tail ++ u.suffix)
    rw [if_neg hpath, hwhole, Option.getD_some, append_suffix_eq_iff htarget.path_plain]
    constructor
    · intro hiff
      refine ⟨fun _ => ?_, fun hnil => absurd hnil hpath⟩
      by_cases heq : u.path = r.path.toList
      · exact Or.inl (hiff.mpr heq).1
      · exact Or.inr heq
    · intro hharmless
      rcases hharmless.nonempty hpath with hnil | hne
      · exact and_iff_right hnil
      · exact iff_of_false (fun h => hne h.2) hne

/-! ### Two addresses of the gateway -/

/-- `http://gateway:8080/api/transfer?x=1`. -/
def queryURI : Uri where
  scheme := "http".toList
  authority := "gateway:8080".toList
  path := "/api/transfer".toList
  query := some "x=1".toList
  fragment := none
  scheme_plain := by decide
  authority_plain := by decide
  path_slash := by decide
  path_plain := by decide
  query_plain q hq := by
    cases hq
    decide

/-- `http://gateway:8080?next=/api/transfer`. -/
def rootURI : Uri where
  scheme := "http".toList
  authority := "gateway:8080".toList
  path := []
  query := some "next=/api/transfer".toList
  fragment := none
  scheme_plain := by decide
  authority_plain := by decide
  path_slash := by decide
  path_plain := by decide
  query_plain q hq := by
    cases hq
    decide

theorem fullURI_alice : (aliceRequest "DPoP" "POST" alicePostProof).fullURI =
    "http://gateway:8080/api/transfer" := by
  rfl

/-- The path of a request is refused for a query, and a query is taken for the path. -/
theorem verifyHTU_misreads :
    (queryURI.text = "http://gateway:8080/api/transfer?x=1" ∧
      queryURI.requestPath = "/api/transfer".toList ∧
      verifyHTU queryURI.text (aliceRequest "DPoP" "POST" alicePostProof).fullURI = false) ∧
    (rootURI.text = "http://gateway:8080?next=/api/transfer" ∧
      rootURI.requestPath = "/".toList ∧
      verifyHTU rootURI.text (aliceRequest "DPoP" "POST" alicePostProof).fullURI = true) := by
  rw [fullURI_alice]
  refine ⟨⟨?_, ?_, ?_⟩, ?_, ?_, ?_⟩ <;> decide

theorem verifyHTU_compares_paths_iff_alice :
    (verifyHTU queryURI.text (aliceRequest "DPoP" "POST" alicePostProof).fullURI = true ↔
        queryURI.requestPath = "/api/transfer".toList) ↔
      SuffixHarmless queryURI "/api/transfer".toList :=
  verifyHTU_compares_paths_iff queryURI (r := aliceRequest "DPoP" "POST" alicePostProof)
    ⟨by decide, by decide, by decide⟩

end Gateway
end DarkServices
