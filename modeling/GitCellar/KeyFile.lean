import GitCellar.GrantGate
import GitCellar.JsonText

/-! Key files (`transfer.rs`): an identity written between two marker lines, and
read back. -/

namespace GitCellar

open Json Loops Occurrence Unicode Utf8

def gckeyHeaderBegin : String := "-----BEGIN GITCELLAR KEY FILE-----"

def gckeyHeaderEnd : String := "-----END GITCELLAR KEY FILE-----"

def gckeyVersion : String := "3.0"

structure IdentityBundle where
  version : String
  createdAt : String
  userId : String
  fingerprint : String
  secretKey : String
  publicKey : String
  deriving DecidableEq, Repr

structure GckeyFile where
  version : String
  encrypted : Bool
  data : IdentityBundle
  deriving DecidableEq, Repr

/-- `serde_json::Value`, a number by its text. -/
inductive JsonValue where
  | null
  | bool (b : Bool)
  | number (text : String)
  | string (s : String)
  | array (items : List JsonValue)
  | object (members : List (String × JsonValue))

def JsonValue.get (v : JsonValue) (key : String) : Option JsonValue :=
  match v with
  | .object members => members.lookup key
  | _ => none

def JsonValue.asBool : JsonValue → Option Bool
  | .bool b => some b
  | _ => none

def JsonValue.asStr : JsonValue → Option String
  | .string s => some s
  | _ => none

def JsonValue.isObject : JsonValue → Bool
  | .object _ => true
  | _ => false

/-- `serde_json::from_str` at the three types read here, with the display of its
errors. A text it takes as a value has no string left open. -/
structure SerdeJson where
  value : String → Except String JsonValue
  file : String → Except String GckeyFile
  bundle : String → Except String IdentityBundle
  closed : ∀ s v, value s = .ok v → lex .outside s.toList = .outside

/-- The OpenPGP certificates an identity is kept in; `key` is the key in one. -/
structure OpenPgp (Cert Key : Type) where
  key : Cert → Key
  fingerprint : Cert → String
  firstUserId : Cert → Option String
  armorSecret : Cert → Except String String
  armorPublic : Cert → Except String String
  certFromBytes : String → Except String Cert

structure Identity (Cert : Type) where
  cert : Cert
  userId : String

/-- How the standard decoders describe what they refuse. -/
structure DecodeErrors where
  base64 : String → String
  utf8 : Bytes → String

def IdentityBundle.members (b : IdentityBundle) : List (String × List Char) :=
  [("version", quoteChars b.version.toList), ("created_at", quoteChars b.createdAt.toList),
    ("user_id", quoteChars b.userId.toList), ("fingerprint", quoteChars b.fingerprint.toList),
    ("secret_key", quoteChars b.secretKey.toList), ("public_key", quoteChars b.publicKey.toList)]

def IdentityBundle.text (b : IdentityBundle) (depth : Nat) : List Char :=
  prettyObject depth b.members

def boolText (b : Bool) : String := if b then "true" else "false"

def GckeyFile.text (f : GckeyFile) : List Char :=
  prettyObject 0 [("version", quoteChars f.version.toList),
    ("encrypted", (boolText f.encrypted).toList), ("data", f.data.text 1)]

/-- A file of format 2.0, as the compatibility test writes it: the bundle is a
string. -/
def IdentityBundle.legacyText (b : IdentityBundle) : List Char :=
  prettyObject 0 [("version", quoteChars "2.0".toList), ("encrypted", "false".toList),
    ("salt", "null".toList), ("nonce", "null".toList), ("data", quoteChars (b.text 0))]

def wrapGckeyFormat (content : String) : String :=
  gckeyHeaderBegin ++ "\n" ++ content ++ "\n" ++ gckeyHeaderEnd

/-- A slice by positions that have to be in order. -/
def charRange {ε : Type} (cs : List Char) (start stop : Nat) : Run ε (List Char) :=
  if start ≤ stop ∧ stop ≤ cs.length then .ok ((cs.take stop).drop start) else .error .panic

/-- Positions count characters: all before a marker's end are of one byte when
the text begins with the first marker. -/
def unwrapGckeyFormat (gckeyContent : String) : Run CryptoError String :=
  let trimmed := (trim gckeyContent).toList
  if ¬ gckeyHeaderBegin.toList <+: trimmed then
    fail (.bundleFormat ("Invalid file format. Expected header: " ++ gckeyHeaderBegin))
  else
    match trimmed.dropInfix? gckeyHeaderEnd.toList with
    | none => fail (.bundleFormat ("Missing end marker: " ++ gckeyHeaderEnd))
    | some (before, _) => do
      let content ← charRange trimmed gckeyHeaderBegin.length before.length
      return trim (String.ofList content)

def parseGckeyContent (J : SerdeJson) (content : String) : Except CryptoError IdentityBundle := do
  let jsonValue ← (J.value content).mapError fun e => .bundleFormat ("Invalid JSON: " ++ e)
  if (jsonValue.get "encrypted").bind JsonValue.asBool = some true then
    throw (.bundleFormat ("Password-protected gckey files are no longer supported. " ++
      "Please re-export your identity using the latest version."))
  if (jsonValue.get "data").any JsonValue.isObject then
    let gckeyFile ← (J.file content).mapError fun e => .bundleFormat ("Invalid v3.0 format: " ++ e)
    return gckeyFile.data
  match (jsonValue.get "data").bind JsonValue.asStr with
  | some data => (J.bundle data).mapError fun e => .bundleFormat ("Invalid v2.0 bundle: " ++ e)
  | none => throw (.bundleFormat "Unrecognized gckey format. Expected v2.0 or v3.0 format.")

section

variable {Cert Key : Type} (J : SerdeJson) (P : OpenPgp Cert Key) (E : DecodeErrors)

/-- `from_armored_secret_key`, with the error `?` makes of its own. -/
def Identity.fromArmoredSecretKey (armored : String) : Except CryptoError (Identity Cert) := do
  let cert ← (P.certFromBytes armored).mapError fun e =>
    .keyLoad ("Failed to parse armored key: " ++ e)
  return ⟨cert, (P.firstUserId cert).getD "unknown"⟩

def IdentityBundle.fromIdentity (now : String) (identity : Identity Cert) :
    Except CryptoError IdentityBundle := do
  let secretKey ← (P.armorSecret identity.cert).mapError .keySave
  let publicKey ← (P.armorPublic identity.cert).mapError .keySave
  return { version := gckeyVersion, createdAt := now, userId := identity.userId
           fingerprint := P.fingerprint identity.cert
           secretKey := Base64.encode (utf8 secretKey)
           publicKey := Base64.encode (utf8 publicKey) }

def exportKeyFile (now : String) (identity : Identity Cert) : Except CryptoError String := do
  let bundle ← IdentityBundle.fromIdentity P now identity
  let gckeyFile : GckeyFile := ⟨gckeyVersion, false, bundle⟩
  return wrapGckeyFormat (String.ofList gckeyFile.text)

def exportLegacyKeyFile (now : String) (identity : Identity Cert) : Except CryptoError String := do
  let bundle ← IdentityBundle.fromIdentity P now identity
  return wrapGckeyFormat (String.ofList bundle.legacyText)

def readSecretKey (bundle : IdentityBundle) : Except CryptoError (Identity Cert) := do
  let secretKeyBytes ← match Base64.decode bundle.secretKey with
    | some bytes => .ok bytes
    | none => .error (.bundleFormat ("Invalid secret key encoding: " ++ E.base64 bundle.secretKey))
  let secretKeyStr ← if h : IsText secretKeyBytes then .ok (toText secretKeyBytes h)
    else .error (.bundleFormat ("Invalid secret key UTF-8: " ++ E.utf8 secretKeyBytes))
  Identity.fromArmoredSecretKey P secretKeyStr

def importKeyFile (gckeyContent : String) : Run CryptoError (Identity Cert) := do
  let innerContent ← unwrapGckeyFormat gckeyContent
  ofExcept do
    let bundle ← parseGckeyContent J innerContent
    readSecretKey P E bundle

end

section

variable {part before after : List Char} {content : String}

def endMarkerName : List Char := "END GITCELLAR KEY FILE-----".toList

/-- The end marker begins in the dashes that the begin marker ends with. -/
def MarkersOverlap (text : List Char) : Prop :=
  ∃ dashes ≤ 4, gckeyHeaderBegin.toList ++ (List.replicate dashes '-' ++ endMarkerName) <+: text

theorem early_end_position : ∀ k < 34,
    (gckeyHeaderBegin.toList.drop k <+: gckeyHeaderEnd.toList ∨
      gckeyHeaderEnd.toList <+: gckeyHeaderBegin.toList.drop k) → 29 ≤ k := by
  decide +kernel

theorem overlap_shape :
    ∀ dashes ≤ 4, gckeyHeaderBegin.toList.take (29 + dashes) ++ gckeyHeaderEnd.toList =
    gckeyHeaderBegin.toList ++ (List.replicate dashes '-' ++ endMarkerName) := by
  decide +kernel

theorem length_gckeyHeaderBegin : gckeyHeaderBegin.toList.length = 34 := by decide +kernel

theorem markersOverlap_of_early {text : List Char} (hbegin : gckeyHeaderBegin.toList <+: text)
    (hend : text = before ++ gckeyHeaderEnd.toList ++ after) (hearly : before.length < 34) :
    MarkersOverlap text := by
  obtain ⟨rest, hrest⟩ := hbegin
  have hbefore : before = gckeyHeaderBegin.toList.take before.length := by
    have htake : text.take before.length = before := by
      rw [hend, List.append_assoc, List.take_left]
    rw [← hrest, List.take_append_of_le_length (by rw [length_gckeyHeaderBegin]; omega)] at htake
    exact htake.symm
  have hdrop : gckeyHeaderBegin.toList.drop before.length ++ rest =
      gckeyHeaderEnd.toList ++ after := by
    have hsame : text.drop before.length = gckeyHeaderEnd.toList ++ after := by
      rw [hend, List.append_assoc, List.drop_left]
    rw [← hrest, List.drop_append_of_le_length (by rw [length_gckeyHeaderBegin]; omega)] at hsame
    exact hsame
  have hposition : 29 ≤ before.length := early_end_position before.length hearly
    (List.prefix_or_prefix_of_prefix ⟨rest, hdrop⟩ (List.prefix_append _ after))
  obtain ⟨dashes, hdashes⟩ : ∃ dashes, before.length = 29 + dashes :=
    Nat.exists_eq_add_of_le hposition
  refine ⟨dashes, by omega, after, ?_⟩
  rw [← overlap_shape dashes (by omega), ← hdashes, ← hbefore, hend]

theorem early_of_markersOverlap {text : List Char} (h : MarkersOverlap text) :
    gckeyHeaderBegin.toList <+: text ∧
      ∃ before after, text.dropInfix? gckeyHeaderEnd.toList = some (before, after) ∧
        before.length < 34 := by
  obtain ⟨dashes, hle, tail, rfl⟩ := h
  refine ⟨⟨_, (List.append_assoc _ _ _).symm⟩, ?_⟩
  have hsplit : gckeyHeaderBegin.toList ++ (List.replicate dashes '-' ++ endMarkerName) ++ tail =
      gckeyHeaderBegin.toList.take (29 + dashes) ++ gckeyHeaderEnd.toList ++ tail := by
    rw [overlap_shape dashes hle]
  obtain ⟨before, after, hdrop⟩ := exists_dropInfix (List.infix_append _ gckeyHeaderEnd.toList tail)
  rw [hsplit]
  refine ⟨before, after, hdrop, ?_⟩
  have hfirst := (dropInfix_eq_some.mp hdrop).2 _ tail rfl
  rw [List.length_take, length_gckeyHeaderBegin] at hfirst
  omega

theorem unwrapGckeyFormat_answers_iff (gckeyContent : String) :
    Answers (unwrapGckeyFormat gckeyContent) ↔ ¬ MarkersOverlap (trim gckeyContent).toList := by
  have hlength : gckeyHeaderBegin.length = 34 := by decide +kernel
  by_cases hbegin : gckeyHeaderBegin.toList <+: (trim gckeyContent).toList
  · cases hdrop : (trim gckeyContent).toList.dropInfix? gckeyHeaderEnd.toList with
    | none =>
      have hoverlap : ¬ MarkersOverlap (trim gckeyContent).toList := by
        intro h
        obtain ⟨_, before, after, hsome, _⟩ := early_of_markersOverlap h
        rw [hdrop] at hsome
        cases hsome
      simp only [unwrapGckeyFormat, hbegin, not_true_eq_false, if_false, hdrop]
      exact iff_of_true (answers_fail _) hoverlap
    | some found =>
      obtain ⟨before, after⟩ := found
      have hend := (dropInfix_eq_some.mp hdrop).1
      have hstop : before.length ≤ (trim gckeyContent).toList.length := by
        rw [hend]
        simp only [List.length_append]
        omega
      simp only [unwrapGckeyFormat, hbegin, not_true_eq_false, if_false, hdrop, charRange,
        hlength, hstop, and_true]
      by_cases hearly : before.length < 34
      · have hoverlap := markersOverlap_of_early hbegin hend hearly
        rw [if_neg (Nat.not_le.mpr hearly)]
        exact iff_of_false not_answers_panic (not_not.mpr hoverlap)
      · have hoverlap : ¬ MarkersOverlap (trim gckeyContent).toList := by
          intro h
          obtain ⟨_, before', after', hsome, hlt⟩ := early_of_markersOverlap h
          rw [hdrop] at hsome
          obtain ⟨rfl, _⟩ := Prod.mk.inj (Option.some.inj hsome)
          exact hearly hlt
        rw [if_pos (Nat.not_lt.mp hearly)]
        exact iff_of_true (answers_ok _) hoverlap
  · have hoverlap : ¬ MarkersOverlap (trim gckeyContent).toList := fun h =>
      hbegin (early_of_markersOverlap h).1
    simp only [unwrapGckeyFormat, hbegin, not_false_eq_true, if_true]
    exact iff_of_true (answers_fail _) hoverlap

end

section

variable {Cert Key : Type}

/-- Importing a text gives a result or an error, and no panic, exactly when the
two markers do not overlap at its start. -/
theorem importKeyFile_answers_iff (J : SerdeJson) (P : OpenPgp Cert Key) (E : DecodeErrors)
    (gckeyContent : String) :
    Answers (importKeyFile J P E gckeyContent) ↔ ¬ MarkersOverlap (trim gckeyContent).toList := by
  rw [← unwrapGckeyFormat_answers_iff]
  constructor
  · intro h
    cases hunwrap : unwrapGckeyFormat gckeyContent with
    | ok s => exact answers_ok s
    | error stop =>
      rw [importKeyFile, hunwrap] at h
      rcases h with ⟨identity, h⟩ | ⟨e, h⟩
      · cases h
      · exact .inr ⟨e, congrArg Except.error (Except.error.inj h)⟩
  · intro h
    exact h.bind fun _ => answers_ofExcept _

end

def refusingJson : SerdeJson where
  value _ := .error "EOF while parsing"
  file _ := .error "EOF while parsing"
  bundle _ := .error "EOF while parsing"
  closed _ _ h := by cases h

def unarmored : OpenPgp Unit Unit where
  key _ := ()
  fingerprint _ := ""
  firstUserId _ := none
  armorSecret _ := .error "no armor"
  armorPublic _ := .error "no armor"
  certFromBytes _ := .error "no armor"

theorem importKeyFile_panics :
    ¬ Answers (importKeyFile refusingJson unarmored ⟨id, fun _ => ""⟩
      "-----BEGIN GITCELLAR KEY FILE-----END GITCELLAR KEY FILE-----") := by
  have hunwrap : unwrapGckeyFormat "-----BEGIN GITCELLAR KEY FILE-----END GITCELLAR KEY FILE-----" =
      .error .panic := by decide +kernel
  rw [importKeyFile, hunwrap]
  exact not_answers_panic

end GitCellar
