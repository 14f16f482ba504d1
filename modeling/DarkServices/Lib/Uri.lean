import DarkServices.Lib.Strings

/-!
# Absolute URIs in their parts

An absolute URI with an authority, `scheme://authority/path?query#fragment`. The fields say which
separators a part may not have, so that the text of a URI determines its parts.
-/

namespace Lib

/-- An absolute URI. The path is empty or starts with a slash. -/
structure Uri where
  scheme : List Char
  authority : List Char
  path : List Char
  query : Option (List Char)
  fragment : Option (List Char)
  scheme_plain : ':' ∉ scheme
  authority_plain : '/' ∉ authority ∧ '?' ∉ authority ∧ '#' ∉ authority
  path_slash : path = [] ∨ path.head? = some '/'
  path_plain : '?' ∉ path ∧ '#' ∉ path
  query_plain : ∀ q, query = some q → '#' ∉ q

namespace Uri

/-- The query and the fragment, with the characters that start them. -/
def suffix (u : Uri) : List Char :=
  (u.query.elim [] fun q => '?' :: q) ++ u.fragment.elim [] fun f => '#' :: f

/-- The text of the URI. -/
def text (u : Uri) : String :=
  String.ofList (u.scheme ++ "://".toList ++ u.authority ++ (u.path ++ u.suffix))

/-- The path that a request is made to: the empty path is read as `/`. -/
def requestPath (u : Uri) : List Char := if u.path = [] then ['/'] else u.path

/-- A query or a fragment is told from a path by its first character. -/
theorem suffix_eq_nil_or (u : Uri) : u.suffix = [] ∨ '?' ∈ u.suffix ∨ '#' ∈ u.suffix := by
  unfold suffix
  cases u.query with
  | some q => exact Or.inr (Or.inl (by simp))
  | none =>
    cases u.fragment with
    | some f => exact Or.inr (Or.inr (by simp))
    | none => exact Or.inl rfl

end Uri
end Lib
