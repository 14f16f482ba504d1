import DarkServices.Gateway.AuthTheorems
import DarkServices.Idp.CryptoTheorems

/-!
# The two thumbprints of a key

The identity provider hashes the JSON text of a JWK, the gateway a template with the two
coordinates pasted in. The texts are compared by `canonical_eq_thumbprintText_iff`: the
coordinates are base64url text, which has no quotation mark and no backslash, so the texts are
equal only for equal coordinates, and only when these need no escaping.
-/

namespace DarkServices
namespace System

open Lib
open Lib.Json (lookup stringOf goEscape)
open Lib.Strings (append_cons_inj)
open Idp (JWK jwkToPublicKey computeThumbprint)
open Gateway (jwkToECDSA thumbprintText calculateJWKThumbprint)

/-! ## The JSON text of a coordinate -/

/-- A text without line breaks, which the decoder of base64url would skip. -/
def Unbroken (s : String) : Prop := ∀ c ∈ s.toList, c ≠ '\r' ∧ c ≠ '\n'

instance (s : String) : Decidable (Unbroken s) :=
  inferInstanceAs (Decidable (∀ c ∈ s.toList, c ≠ '\r' ∧ c ≠ '\n'))

theorem unbroken_of_all {s : String}
    (h : (s.toList.all fun c => c != '\r' && c != '\n') = true) : Unbroken s := by
  intro c hc
  simpa using List.all_eq_true.mp h c hc

theorem goEscape_of_mem_alphabet : ∀ c ∈ Base64Url.alphabet, (goEscape c == [c]) = true := by
  apply List.all_eq_true.mp
  decide

theorem alphabet_plain : ∀ c ∈ Base64Url.alphabet, (!(c == '"' || c == '\\')) = true := by
  apply List.all_eq_true.mp
  decide

/-- The text that the JSON encoder writes between the quotation marks. -/
def escaped (s : String) : List Char := s.toList.flatMap goEscape

variable {s s' : String} {l l' : List UInt8}

/-- A character of a coordinate is written as it is, or as a backslash and a letter. -/
theorem mem_escaped (h : Base64Url.decodeString s = some l) {c : Char} (hc : c ∈ escaped s) :
    c ∈ Base64Url.alphabet ∨ c = '\\' ∨ c = 'r' ∨ c = 'n' := by
  obtain ⟨d, hd, hcd⟩ := List.mem_flatMap.mp hc
  rcases Base64Url.mem_of_decodeString h d hd with halpha | rfl | rfl
  · rw [beq_iff_eq.mp (goEscape_of_mem_alphabet d halpha), List.mem_singleton] at hcd
    exact Or.inl (hcd ▸ halpha)
  · have hret : goEscape '\r' = ['\\', 'r'] := by decide
    rw [hret] at hcd
    simp only [List.mem_cons, List.not_mem_nil, or_false] at hcd
    tauto
  · have hline : goEscape '\n' = ['\\', 'n'] := by decide
    rw [hline] at hcd
    simp only [List.mem_cons, List.not_mem_nil, or_false] at hcd
    tauto

theorem quote_not_mem_escaped (h : Base64Url.decodeString s = some l) : '"' ∉ escaped s := by
  intro hq
  rcases mem_escaped h hq with halpha | hc
  · exact absurd (alphabet_plain _ halpha) (by decide)
  · exact absurd hc (by decide)

/-- A coordinate has no quotation mark and no backslash. -/
theorem plain_of_decodeString (h : Base64Url.decodeString s = some l) {c : Char}
    (hc : c ∈ s.toList) : c ≠ '"' ∧ c ≠ '\\' := by
  rcases Base64Url.mem_of_decodeString h c hc with halpha | rfl | rfl
  · simpa using alphabet_plain c halpha
  · decide
  · decide

theorem escaped_of_unbroken (h : Base64Url.decodeString s = some l) (hs : Unbroken s) :
    escaped s = s.toList := by
  have hself : ∀ c ∈ s.toList, goEscape c = [c] := by
    intro c hc
    rcases Base64Url.mem_of_decodeString h c hc with halpha | hbreak
    · exact beq_iff_eq.mp (goEscape_of_mem_alphabet c halpha)
    · have hne := hs c hc
      tauto
  rw [escaped, List.flatMap_congr hself]
  simp

/-- A line break is written with a backslash, which a coordinate does not have. -/
theorem unbroken_of_escaped_eq (h' : Base64Url.decodeString s' = some l')
    (heq : escaped s = s'.toList) : Unbroken s := by
  have hbackslash : '\\' ∉ escaped s := by
    rw [heq]
    exact fun hb => (plain_of_decodeString h' hb).2 rfl
  intro c hc
  constructor
  · rintro rfl
    exact hbackslash (List.mem_flatMap.mpr ⟨_, hc, by decide⟩)
  · rintro rfl
    exact hbackslash (List.mem_flatMap.mpr ⟨_, hc, by decide⟩)

/-- The JSON text of one coordinate is another coordinate only when it is the same text. -/
theorem escaped_eq_iff (h : Base64Url.decodeString s = some l)
    (h' : Base64Url.decodeString s' = some l') :
    escaped s = s'.toList ↔ s = s' ∧ Unbroken s := by
  constructor
  · intro heq
    have hs := unbroken_of_escaped_eq h' heq
    rw [escaped_of_unbroken h hs] at heq
    exact ⟨String.toList_inj.mp heq, hs⟩
  · rintro ⟨rfl, hs⟩
    exact escaped_of_unbroken h hs

/-! ## The two texts -/

/-- The text before the first coordinate, the one between the two and the one after them. -/
def textHead : String := "\x7b\"crv\":\"P-256\",\"kty\":\"EC\",\"x\":\""

def textMiddle : String := "\",\"y\":\""

def textEnd : String := "\"\x7d"

theorem textMiddle_toList : textMiddle.toList = '"' :: [',', '"', 'y', '"', ':', '"'] := by
  decide

theorem textEnd_toList : textEnd.toList = '"' :: ['\x7d'] := by decide

theorem thumbprintText_toList (x y : String) :
    (thumbprintText x y).toList =
      textHead.toList ++ (x.toList ++ (textMiddle.toList ++ (y.toList ++ textEnd.toList))) := by
  have htext : thumbprintText x y = textHead ++ x ++ textMiddle ++ y ++ textEnd := rfl
  rw [htext]
  simp only [String.toList_append, List.append_assoc]

theorem canonical_toList (x y : String) :
    (JWK.mk "P-256" "EC" x y).canonical.toList =
      textHead.toList ++ (escaped x ++ (textMiddle.toList ++ (escaped y ++ textEnd.toList))) := by
  have hhead : '\x7b' :: (Json.goString "crv" ++ ':' :: Json.goString "P-256" ++ ',' ::
      (Json.goString "kty" ++ ':' :: Json.goString "EC" ++ ',' ::
        (Json.goString "x" ++ [':', '"']))) = textHead.toList := by
    decide
  have hmiddle : '"' :: ',' :: (Json.goString "y" ++ [':', '"']) = textMiddle.toList := by
    decide
  have hcoord : ∀ s : String, Json.goString s = '"' :: (escaped s ++ ['"']) := fun _ => rfl
  rw [JWK.canonical, Json.goStringMap, String.toList_ofList, ← hhead, ← hmiddle, textEnd_toList]
  simp only [List.map_cons, List.map_nil, List.intersperse, List.flatten_cons, List.flatten_nil,
    hcoord x, hcoord y, List.append_assoc, List.cons_append, List.nil_append]

/-- The text hashed by the identity provider for one key is the text hashed by the gateway for
another only when the coordinates are the same texts, without line breaks. -/
theorem canonical_eq_thumbprintText_iff {x y x' y' : String} {bx bY bx' bY' : List UInt8}
    (hx : Base64Url.decodeString x = some bx) (hy : Base64Url.decodeString y = some bY)
    (hx' : Base64Url.decodeString x' = some bx') (hy' : Base64Url.decodeString y' = some bY') :
    (JWK.mk "P-256" "EC" x y).canonical = thumbprintText x' y' ↔
      (x = x' ∧ Unbroken x) ∧ (y = y' ∧ Unbroken y) := by
  have hquote : ∀ {s : String} {l : List UInt8}, Base64Url.decodeString s = some l →
      '"' ∉ s.toList := fun h hq => (plain_of_decodeString h hq).1 rfl
  rw [← String.toList_inj, canonical_toList, thumbprintText_toList, List.append_cancel_left_eq,
    textMiddle_toList, textEnd_toList, ← escaped_eq_iff hx hx', ← escaped_eq_iff hy hy']
  constructor
  · intro h
    -- the first quotation mark ends the first coordinate on both sides
    obtain ⟨hfirst, hrest⟩ := append_cons_inj (quote_not_mem_escaped hx) (hquote hx') h
    have hsecond := append_cons_inj (quote_not_mem_escaped hy) (hquote hy')
      (List.append_cancel_left hrest)
    exact ⟨hfirst, hsecond.1⟩
  · rintro ⟨hfirst, hsecond⟩
    rw [hfirst, hsecond]

/-! ## A JWK in the header of a proof -/

/-- The JWK as the object that the header of a proof carries. -/
def headerJWK (jwk : JWK) : Members :=
  [("crv", .str jwk.crv), ("kty", .str jwk.kty), ("x", .str jwk.x), ("y", .str jwk.y)]

/-- The gateway reads the four members. -/
theorem stringOf_headerJWK (jwk : JWK) :
    stringOf (headerJWK jwk) "crv" = jwk.crv ∧ stringOf (headerJWK jwk) "kty" = jwk.kty ∧
      stringOf (headerJWK jwk) "x" = jwk.x ∧ stringOf (headerJWK jwk) "y" = jwk.y := by
  refine ⟨?_, ?_, ?_, ?_⟩ <;> rfl

theorem goMap_headerJWK (jwk : JWK) : Json.goMap (headerJWK jwk) = headerJWK jwk := by
  have hnames : ((["crv", "kty", "x", "y"].dedup).insertionSort fun a b => a.toList ≤ b.toList) =
      ["crv", "kty", "x", "y"] := by
    decide
  show ((["crv", "kty", "x", "y"].dedup).insertionSort fun a b => a.toList ≤ b.toList).filterMap
    (fun k => (lookup (headerJWK jwk) k).map fun v => (k, v)) = _
  rw [hnames]
  rfl

/-- The identity provider reads an object that decodes to the four members. -/
theorem ofHeader_of_goMap {m : Members} {jwk : JWK} (h : Json.goMap m = headerJWK jwk) :
    JWK.ofHeader (.obj m) = .ok jwk := by
  have hdiffer : ["crv", "kty", "x", "y"].Pairwise fun a b => Strings.equalFold a b = false := by
    decide
  have hfield : ∀ field s, (field, Json.str s) ∈ headerJWK jwk →
      Json.stringField (headerJWK jwk) field = .ok s :=
    fun _ _ => Json.stringField_of_mem _ rfl hdiffer
  have hcrv := hfield "crv" jwk.crv (by simp [headerJWK])
  have hkty := hfield "kty" jwk.kty (by simp [headerJWK])
  have hx := hfield "x" jwk.x (by simp [headerJWK])
  have hy := hfield "y" jwk.y (by simp [headerJWK])
  rw [JWK.ofHeader, h, hcrv, hkty, hx, hy]
  rfl

/-- So does the identity provider. -/
theorem ofHeader_headerJWK (jwk : JWK) : JWK.ofHeader (.obj (headerJWK jwk)) = .ok jwk :=
  ofHeader_of_goMap (goMap_headerJWK jwk)

/-! ## The two thumbprints -/

/-- The two programs read one key from the texts of a JWK. -/
theorem jwkToPublicKey_iff {jwk : JWK} {key : PublicKey} : jwkToPublicKey jwk = .ok key ↔
    (jwk.kty = "EC" ∧ jwk.crv = "P-256") ∧ jwkToECDSA jwk.x jwk.y = .ok key := by
  rw [Idp.jwkToPublicKey_eq_ok, Gateway.jwkToECDSA_eq_ok]

/-- Keys without line breaks have one text. -/
theorem canonical_of_unbroken {jwk : JWK} {key : PublicKey} (h : jwkToPublicKey jwk = .ok key)
    (hx : Unbroken jwk.x) (hy : Unbroken jwk.y) : jwk.canonical = thumbprintText jwk.x jwk.y := by
  obtain ⟨⟨hkty, hcrv⟩, xBytes, yBytes, hxBytes, hyBytes, -⟩ := Idp.jwkToPublicKey_eq_ok.mp h
  have hjwk : jwk = ⟨"P-256", "EC", jwk.x, jwk.y⟩ := by rw [← hkty, ← hcrv]
  rw [hjwk]
  exact (canonical_eq_thumbprintText_iff hxBytes hyBytes hxBytes hyBytes).mpr ⟨⟨rfl, hx⟩, rfl, hy⟩

/-- One text belongs to one key, also for two JWKs. -/
theorem key_eq_of_text_eq {jwk : JWK} {x y : String} {key key' : PublicKey}
    (hidp : jwkToPublicKey jwk = .ok key) (hgateway : jwkToECDSA x y = .ok key')
    (htext : jwk.canonical = thumbprintText x y) : key = key' := by
  obtain ⟨⟨hkty, hcrv⟩, xBytes, yBytes, hx, hy, rfl⟩ := Idp.jwkToPublicKey_eq_ok.mp hidp
  obtain ⟨xBytes', yBytes', hx', hy', rfl⟩ := Gateway.jwkToECDSA_eq_ok.mp hgateway
  have hform : jwk = ⟨"P-256", "EC", jwk.x, jwk.y⟩ := by rw [← hkty, ← hcrv]
  rw [hform] at htext
  have hsame := (canonical_eq_thumbprintText_iff hx hy hx' hy').mp htext
  rw [hsame.1.1] at hx
  rw [hsame.2.1] at hy
  rw [Option.some.inj (hx.symm.trans hx'), Option.some.inj (hy.symm.trans hy')]

/-- **Thumbprints.** For a JWK that both sides accept, the two thumbprints are the same text
exactly when no coordinate has a line break, unless the two hashed texts collide. -/
theorem thumbprints_agree_iff {jwk : JWK} {proof : Token} {jwkMap : Members}
    {key key' : PublicKey} (hjwk : lookup proof.header "jwk" = some (.obj (headerJWK jwk)))
    (hidp : jwkToPublicKey jwk = .ok key) (hgateway : (Gateway.proofKey proof jwkMap).1 = .ok key')
    (hsha : Sha256.sum256 (utf8 jwk.canonical) = Sha256.sum256 (utf8 (thumbprintText jwk.x jwk.y)) →
      jwk.canonical = thumbprintText jwk.x jwk.y) :
    computeThumbprint jwk = calculateJWKThumbprint jwk.x jwk.y ↔
      Unbroken jwk.x ∧ Unbroken jwk.y := by
  constructor
  · intro h
    have htext := hsha (Base64Url.encodeToString_injective h)
    obtain ⟨m, -, hm, ⟨hkty, hcrv⟩, -, hcoord, -⟩ := Gateway.proofKey_eq_ok hgateway
    obtain rfl : headerJWK jwk = m := by simpa [hjwk] using hm
    obtain ⟨hcrv', hkty', hx, hy⟩ := stringOf_headerJWK jwk
    rw [hkty'] at hkty
    rw [hcrv'] at hcrv
    rw [hx, hy] at hcoord
    obtain ⟨xBytes, yBytes, hxBytes, hyBytes, -⟩ := Gateway.jwkToECDSA_eq_ok.mp hcoord
    have hform : jwk = ⟨"P-256", "EC", jwk.x, jwk.y⟩ := by rw [← hkty, ← hcrv]
    rw [hform] at htext
    have hsame := (canonical_eq_thumbprintText_iff hxBytes hyBytes hxBytes hyBytes).mp htext
    exact ⟨hsame.1.2, hsame.2.2⟩
  · rintro ⟨hx, hy⟩
    rw [computeThumbprint, calculateJWKThumbprint, canonical_of_unbroken hidp hx hy]

/-- A key on the curve, and a proof that carries it. -/
def deviceJWK : JWK where
  crv := "P-256"
  kty := "EC"
  x := "9EhFLGPaV3bQgjk7HSwf994Nnn8yjim2dDZYlhpV-K8"
  y := "UgGpdtQd8IskH4dMRjwt1jDTIMvxgVSUhe_lN21fomc"

def deviceKey : PublicKey :=
  ⟨110492025460232361761332217089034192846483225378730868618696665713864779102383,
    37092590029637458840305939640344456754811542647204613294610953988471043105383⟩

def proofOf (jwk : JWK) : Token :=
  ⟨"ES256", [("alg", .str "ES256"), ("jwk", .obj (headerJWK jwk)), ("typ", .str "dpop+jwt")], []⟩

theorem jwkToPublicKey_device : jwkToPublicKey deviceJWK = .ok deviceKey := by decide

/-- The gateway reads the key of such a proof as the identity provider does. -/
theorem proofKey_proofOf {jwk : JWK} {key : PublicKey} (h : jwkToPublicKey jwk = .ok key)
    (hne : jwk.x ≠ "" ∧ jwk.y ≠ "") : (Gateway.proofKey (proofOf jwk) []).1 = .ok key := by
  obtain ⟨⟨hkty, hcrv⟩, hkey⟩ := jwkToPublicKey_iff.mp h
  rw [Gateway.proofKey_of_embedded (t := proofOf jwk) rfl rfl ⟨hkty, hcrv⟩ hne hkey]

theorem canonical_device : deviceJWK.canonical = thumbprintText deviceJWK.x deviceJWK.y :=
  canonical_of_unbroken jwkToPublicKey_device (unbroken_of_all (by decide))
    (unbroken_of_all (by decide))

theorem thumbprints_agree_device :
    computeThumbprint deviceJWK = calculateJWKThumbprint deviceJWK.x deviceJWK.y ↔
      Unbroken deviceJWK.x ∧ Unbroken deviceJWK.y :=
  thumbprints_agree_iff rfl jwkToPublicKey_device
    (proofKey_proofOf jwkToPublicKey_device (by decide)) fun _ => canonical_device

/-- The same key with a line feed after its first coordinate. -/
def brokenJWK : JWK := { deviceJWK with x := "9EhFLGPaV3bQgjk7HSwf994Nnn8yjim2dDZYlhpV-K8\n" }

/-- Both sides read the key of the device, and each gives it another thumbprint. -/
theorem thumbprints_differ :
    jwkToPublicKey brokenJWK = .ok deviceKey ∧
      (Gateway.proofKey (proofOf brokenJWK) []).1 = .ok deviceKey ∧
      computeThumbprint brokenJWK ≠ calculateJWKThumbprint brokenJWK.x brokenJWK.y := by
  have hkey : jwkToPublicKey brokenJWK = .ok deviceKey := by decide
  refine ⟨hkey, proofKey_proofOf hkey (by decide), ?_⟩
  decide +kernel

end System
end DarkServices
