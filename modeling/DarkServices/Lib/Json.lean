import DarkServices.Lib.Sha256
import DarkServices.Lib.Strings
import Mathlib.Data.Char
import Mathlib.Data.List.Dedup
import Mathlib.Data.List.Lex
import Mathlib.Data.List.Sort

/-!
# JSON values, their Go decoding and encoding, and their JSONB text

Numbers are decimals, `coeff / 10 ^ scale`. An object is the list of its members in text
order, duplicates included: a Go map keeps the last member of a name, a Go struct takes
every member whose name is the field's ignoring case, in order, and JSONB sorts the
members by the length of the name.
-/

namespace Lib

/-- A decimal number. -/
structure Decimal where
  coeff : ℤ
  scale : ℕ
deriving DecidableEq

namespace Decimal

/-- The conversion of Go to an integer: truncation toward zero. -/
def trunc (d : Decimal) : ℤ := d.coeff.tdiv (10 ^ d.scale)

/-- The largest integer not above the number. -/
def floor (d : Decimal) : ℤ := d.coeff / (10 ^ d.scale : ℤ)

/-- The number in hundredths, rounded half away from zero. -/
def toCents (d : Decimal) : ℤ :=
  d.coeff.sign * ((2 * (d.coeff.natAbs * 100) + 10 ^ d.scale) / (2 * 10 ^ d.scale) : ℕ)

/-- A number of hundredths. -/
def ofCents (n : ℤ) : Decimal := ⟨n, 2⟩

/-- Decimal text with all digits of the scale. -/
def text (d : Decimal) : String :=
  let n := d.coeff.natAbs
  let sign := if d.coeff < 0 then "-" else ""
  let frac := (Nat.toDigits 10 (n % 10 ^ d.scale)).leftpad d.scale '0'
  if d.scale = 0 then sign ++ String.ofList (Nat.toDigits 10 n)
  else sign ++ String.ofList (Nat.toDigits 10 (n / 10 ^ d.scale)) ++ "." ++ String.ofList frac

/-- An integer of a decimal is itself. -/
@[simp] theorem trunc_ofInt (n : ℤ) : trunc ⟨n, 0⟩ = n := by simp [trunc]

@[simp] theorem floor_ofInt (n : ℤ) : floor ⟨n, 0⟩ = n := by simp [floor]

end Decimal

/-- A JSON value. -/
inductive Json
  | null
  | bool (b : Bool)
  | num (d : Decimal)
  | str (s : String)
  | arr (l : List Json)
  | obj (m : List (String × Json))

/-- The members of an object, in text order. -/
abbrev Members := List (String × Json)

namespace Json

/-! ## Decoding into a Go map -/

/-- The value of a name in the map: the last member wins. -/
def lookup (m : Members) (k : String) : Option Json :=
  (m.reverse.find? fun p => p.1 == k).map Prod.snd

/-- `v, _ := m[k].(string)`: the text of a member, empty when absent or of another type. -/
def stringOf (m : Members) (k : String) : String :=
  match lookup m k with
  | some (.str s) => s
  | _ => ""

/-! ## Numbers as text -/

/-- The number a list of digits denotes. -/
def natOfDigits (l : List Char) : ℕ := l.foldl (fun n c => n * 10 + (c.toNat - '0'.toNat)) 0

/-- The exponent at the end of a number, if there is one. -/
def parseExponent : List Char → Option ℤ
  | [] => some 0
  | e :: cs =>
    if e = 'e' ∨ e = 'E' then
      let digits := if cs.head? = some '-' ∨ cs.head? = some '+' then cs.tail else cs
      if digits = [] ∨ !digits.all Char.isDigit then none
      else if cs.head? = some '-' then some (-natOfDigits digits) else some (natOfDigits digits)
    else none

/-- The number a text writes in the syntax of JSON. -/
def parseNumber (s : String) : Option Decimal :=
  let neg := s.toList.head? = some '-'
  let cs := if neg then s.toList.tail else s.toList
  let int := cs.takeWhile Char.isDigit
  let rest := cs.dropWhile Char.isDigit
  let frac := if rest.head? = some '.' then rest.tail.takeWhile Char.isDigit else []
  let rest' := if rest.head? = some '.' then rest.tail.dropWhile Char.isDigit else rest
  if int = [] ∨ (int.head? = some '0' ∧ int.length ≠ 1) ∨ (rest.head? = some '.' ∧ frac = []) then
    none
  else
    (parseExponent rest').map fun e =>
      let coeff : ℤ := if neg then -natOfDigits (int ++ frac) else natOfDigits (int ++ frac)
      ⟨coeff * 10 ^ e.toNat, frac.length + (-e).toNat⟩

example : parseNumber "-12.50e1" = some ⟨-12500, 2⟩ ∧ parseNumber "01" = none := by decide

/-! ## Decoding into a Go struct -/

/-- A string field: every member of the name assigns it, `null` leaves it as it is. -/
def stringField (m : Members) (field : String) : Except String String :=
  m.foldlM (fun acc p =>
    if Strings.equalFold p.1 field then
      match p.2 with
      | .str s => .ok s
      | .null => .ok acc
      | _ => .error ("json: cannot unmarshal into field " ++ field ++ " of type string")
    else .ok acc) ""

section

variable {α : Type} (set : α → Json → Except String α) {field : String}

/-- Members of other names leave a field as it is. -/
theorem foldlM_of_ne {m : Members} (h : ∀ p ∈ m, Strings.equalFold p.1 field = false) (acc : α) :
    m.foldlM (fun acc p => if Strings.equalFold p.1 field then set acc p.2 else .ok acc) acc =
      (.ok acc : Except String α) := by
  induction m with
  | nil => rfl
  | cons p m ih =>
    have hp : Strings.equalFold p.1 field = false := h p List.mem_cons_self
    rw [List.foldlM_cons, hp]
    exact ih fun q hq => h q (List.mem_cons_of_mem _ hq)

/-- A field with one member of its name is assigned once. -/
theorem foldlM_of_eq {m m' : Members} {name : String} {j : Json}
    (h : ∀ p ∈ m, Strings.equalFold p.1 field = false) (hname : Strings.equalFold name field = true)
    (h' : ∀ p ∈ m', Strings.equalFold p.1 field = false) (acc : α) :
    (m ++ (name, j) :: m').foldlM
      (fun acc p => if Strings.equalFold p.1 field then set acc p.2 else .ok acc) acc =
      set acc j := by
  rw [List.foldlM_append, foldlM_of_ne set h]
  show List.foldlM (fun acc p => if Strings.equalFold p.1 field then set acc p.2 else .ok acc) acc
    ((name, j) :: m') = _
  rw [List.foldlM_cons, hname]
  show (set acc j >>= fun acc => m'.foldlM _ acc) = _
  cases set acc j with
  | error e => rfl
  | ok a => exact foldlM_of_ne set h' a

end

/-- The names of the members decide which of them a field takes. -/
theorem name_ne {m : Members} {field : String} (names : List String)
    (hm : m.map Prod.fst = names) (h : (names.all fun n => !Strings.equalFold n field) = true) :
    ∀ p ∈ m, Strings.equalFold p.1 field = false := by
  intro p hp
  have hname : p.1 ∈ names := hm ▸ List.mem_map_of_mem hp
  simpa using List.all_eq_true.mp h p.1 hname

/-- A string field whose name no member has. -/
theorem stringField_of_ne {m : Members} {field : String}
    (h : ∀ p ∈ m, Strings.equalFold p.1 field = false) : stringField m field = .ok "" :=
  foldlM_of_ne (fun acc j => match j with
    | .str s => .ok s
    | .null => .ok acc
    | _ => .error ("json: cannot unmarshal into field " ++ field ++ " of type string")) h ""

/-- A string field with one member of its name. -/
theorem stringField_of_eq {m m' : Members} {field name s : String}
    (h : ∀ p ∈ m, Strings.equalFold p.1 field = false) (hname : Strings.equalFold name field = true)
    (h' : ∀ p ∈ m', Strings.equalFold p.1 field = false) :
    stringField (m ++ (name, .str s) :: m') field = .ok s :=
  foldlM_of_eq (fun acc j => match j with
    | .str s => .ok s
    | .null => .ok acc
    | _ => .error ("json: cannot unmarshal into field " ++ field ++ " of type string")) h hname h' ""

/-- A string field of an object whose names all differ. -/
theorem stringField_of_mem {m : Members} {field s : String} (names : List String)
    (hm : m.map Prod.fst = names)
    (hnames : names.Pairwise fun a b => Strings.equalFold a b = false)
    (h : (field, .str s) ∈ m) : stringField m field = .ok s := by
  obtain ⟨before, after, rfl⟩ := List.append_of_mem h
  rw [← hm, List.map_append, List.map_cons, List.pairwise_append, List.pairwise_cons] at hnames
  obtain ⟨-, ⟨hafter, -⟩, hbefore⟩ := hnames
  apply stringField_of_eq
  · intro p hp
    exact hbefore p.1 (List.mem_map_of_mem hp) field List.mem_cons_self
  · exact Strings.equalFold_refl field
  · intro p hp
    rw [Strings.equalFold_comm]
    exact hafter p.1 (List.mem_map_of_mem hp)

/-! ## Encoding by Go -/

/-- A control character or a character escaped for HTML, as four hexadecimal digits. -/
def unicodeEscape (c : Char) : List Char :=
  ['\\', 'u', hexDigit (c.toNat / 4096 % 16), hexDigit (c.toNat / 256 % 16),
    hexDigit (c.toNat / 16 % 16), hexDigit (c.toNat % 16)]

/-- The characters both encoders escape with one letter. -/
def shortEscape (c : Char) : Option Char :=
  if c = '"' then some '"' else if c = '\\' then some '\\'
  else if c = '\x08' then some 'b' else if c = '\x0c' then some 'f'
  else if c = '\n' then some 'n' else if c = '\r' then some 'r'
  else if c = '\t' then some 't' else none

/-- One character of a string in the text of `json.Marshal`. -/
def goEscape (c : Char) : List Char :=
  match shortEscape c with
  | some e => ['\\', e]
  | none =>
    if c.toNat < 0x20 ∨ c = '<' ∨ c = '>' ∨ c = '&' ∨ c = '\u2028' ∨ c = '\u2029' then
      unicodeEscape c
    else [c]

/-- The text of a string under `json.Marshal`. -/
def goString (s : String) : List Char := '"' :: s.toList.flatMap goEscape ++ ['"']

/-- The text of a map of strings whose names are listed in order. -/
def goStringMap (m : List (String × String)) : String :=
  String.ofList ('\x7b' :: (((m.map fun p => goString p.1 ++ ':' :: goString p.2).intersperse
    [',']).flatten ++ ['\x7d']))

/-- The members in the text of a decoded object: one for each name, with its last value, and
the names in order. -/
def goMap (m : Members) : Members :=
  ((m.map Prod.fst).dedup.insertionSort fun a b => a.toList ≤ b.toList).filterMap fun k =>
    (lookup m k).map fun v => (k, v)

example : (goMap [("y", .str "1"), ("X", .str "2"), ("y", .str "3")]).map Prod.fst = ["X", "y"] := by
  decide

/-- A value that is found belongs to a member. -/
theorem mem_of_lookup {m : Members} {k : String} {j : Json} (h : lookup m k = some j) :
    (k, j) ∈ m := by
  unfold lookup at h
  obtain ⟨p, hfind, rfl⟩ := Option.map_eq_some_iff.mp h
  have hname := List.find?_some hfind
  simp only [beq_iff_eq] at hname
  rw [← hname]
  exact List.mem_reverse.mp (List.mem_of_find?_eq_some hfind)

/-- A value is found unless no member has the name. -/
theorem lookup_eq_none_iff {m : Members} {k : String} :
    lookup m k = none ↔ ∀ p ∈ m, p.1 ≠ k := by
  unfold lookup
  rw [Option.map_eq_none_iff, List.find?_eq_none]
  simp only [List.mem_reverse, beq_iff_eq, ne_eq]

/-- The members of the decoded object are the values that are found. -/
theorem mem_goMap {m : Members} {k : String} {j : Json} :
    (k, j) ∈ goMap m ↔ lookup m k = some j := by
  unfold goMap
  rw [List.mem_filterMap]
  constructor
  · rintro ⟨k', -, hk'⟩
    obtain ⟨j', hj', heq⟩ := Option.map_eq_some_iff.mp hk'
    cases heq
    exact hj'
  · intro h
    refine ⟨k, ?_, by rw [h]; rfl⟩
    rw [List.mem_insertionSort, List.mem_dedup]
    exact List.mem_map_of_mem (mem_of_lookup h)

/-! ## JSONB -/

/-- The order of the members of a JSONB object: shorter names first. -/
def keyBefore (a b : String) : Bool :=
  (utf8 a).length < (utf8 b).length || ((utf8 a).length == (utf8 b).length && a.toList < b.toList)

/-- Put a member at its place, in the stead of one of the same name. -/
def insertMember (k : String) (v : Json) : Members → Members
  | [] => [(k, v)]
  | (k', v') :: m =>
    if k = k' then (k, v) :: m
    else if keyBefore k k' then (k, v) :: (k', v') :: m
    else (k', v') :: insertMember k v m

mutual

/-- The value stored in a JSONB column. -/
def toJsonb : Json → Json
  | .arr l => .arr (toJsonbList l)
  | .obj m => .obj (toJsonbMembers m [])
  | j => j

def toJsonbList : List Json → List Json
  | [] => []
  | j :: l => toJsonb j :: toJsonbList l

def toJsonbMembers : Members → Members → Members
  | [], acc => acc
  | (k, v) :: m, acc => toJsonbMembers m (insertMember k (toJsonb v) acc)

end

/-- One character of a string in JSONB text. -/
def pgEscape (c : Char) : List Char :=
  match shortEscape c with
  | some e => ['\\', e]
  | none => if c.toNat < 0x20 then unicodeEscape c else [c]

def pgString (s : String) : String :=
  String.ofList ('"' :: s.toList.flatMap pgEscape ++ ['"'])

mutual

/-- `details::text`: the text of a JSONB value. -/
def jsonbText : Json → String
  | .null => "null"
  | .bool true => "true"
  | .bool false => "false"
  | .num d => d.text
  | .str s => pgString s
  | .arr l => "[" ++ jsonbTextList l ++ "]"
  | .obj m => "\x7b" ++ jsonbTextMembers m ++ "\x7d"

def jsonbTextList : List Json → String
  | [] => ""
  | [j] => jsonbText j
  | j :: l => jsonbText j ++ ", " ++ jsonbTextList l

def jsonbTextMembers : Members → String
  | [] => ""
  | [(k, v)] => pgString k ++ ": " ++ jsonbText v
  | (k, v) :: m => pgString k ++ ": " ++ jsonbText v ++ ", " ++ jsonbTextMembers m

end

example : jsonbText (toJsonb (.obj [("amount", .num ⟨1005, 1⟩), ("description", .str "a\nb"),
    ("tx_id", .str "7")])) =
    "\x7b\"tx_id\": \"7\", \"amount\": 100.5, \"description\": \"a\\nb\"\x7d" := by
  decide

end Json
end Lib
