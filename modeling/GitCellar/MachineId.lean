import GitCellar.HexText
import GitCellar.Joined

/-! Machine ids: a key's fingerprint behind a prefix, how one is derived and which
texts pass for one. -/

namespace GitCellar

open Joined Unicode Utf8

structure PasskeyConfig where
  appName : String
  machineIdPrefix : String
  deriving DecidableEq, Repr

def PasskeyConfig.new (appName : String) : PasskeyConfig :=
  ⟨appName, toLowercase (String.ofList (appName.toList.take 3))⟩

def PasskeyConfig.withMachineIdPrefix (config : PasskeyConfig) (machineIdPrefix : String) :
    PasskeyConfig :=
  ⟨config.appName, machineIdPrefix⟩

def machineIdHexWidths : List Nat := [40, 64]

def isValidFingerprintHex (s : String) : Bool :=
  machineIdHexWidths.contains (utf8 s).length && s.toList.all isHexDigit

def deriveMachineIdFromFingerprint (idPrefix fingerprint : String) : String :=
  idPrefix ++ "-" ++ toLowercase fingerprint

/-- `parsePublicKey` reads an armored key and gives its fingerprint in hex. -/
def deriveMachineId (parsePublicKey : String → Except PasskeyError String) (config : PasskeyConfig)
    (publicKey : String) : Except PasskeyError String := do
  let fingerprint ← parsePublicKey publicKey
  .ok (deriveMachineIdFromFingerprint config.machineIdPrefix fingerprint)

def verifyMachineId (parsePublicKey : String → Except PasskeyError String) (config : PasskeyConfig)
    (publicKey claimedMachineId : String) : Except PasskeyError Bool := do
  let expected ← deriveMachineId parsePublicKey config publicKey
  .ok (expected == claimedMachineId)

def isValidMachineId (config : PasskeyConfig) (machineId : String) : Bool :=
  match machineId.toList.splitOn '-' with
  | [first, second] =>
    if String.ofList first ≠ config.machineIdPrefix then false
    else isValidFingerprintHex (String.ofList second)
  | _ => false

def extractPrefix (machineId : String) : Option String :=
  (machineId.toList.splitOn '-').head?.map String.ofList

def extractFingerprint (machineId : String) : Option String :=
  match machineId.toList.splitOn '-' with
  | [_, second] => some (String.ofList second)
  | _ => none

def IsFingerprint (fingerprint : String) : Prop :=
  HexDigits 40 fingerprint.toList ∨ HexDigits 64 fingerprint.toList

def Derived (idPrefix machineId : String) : Prop := ∃ fingerprint,
  IsFingerprint fingerprint ∧ machineId = deriveMachineIdFromFingerprint idPrefix fingerprint

/-- Validation and derivation agree on `machineId`, and a derived id gives back what it was made
of. -/
structure AgreesWithDerivation (config : PasskeyConfig) (machineId : String) : Prop where
  valid : isValidMachineId config machineId = true ↔ Derived config.machineIdPrefix machineId
  recovered : ∀ fingerprint, IsFingerprint fingerprint →
    machineId = deriveMachineIdFromFingerprint config.machineIdPrefix fingerprint →
      extractPrefix machineId = some config.machineIdPrefix ∧
        extractFingerprint machineId = some (toLowercase fingerprint)
  distinct : ∀ fingerprint other, IsFingerprint fingerprint → IsFingerprint other →
    toAsciiLowercase fingerprint ≠ toAsciiLowercase other →
      deriveMachineIdFromFingerprint config.machineIdPrefix fingerprint ≠
        deriveMachineIdFromFingerprint config.machineIdPrefix other

variable {config : PasskeyConfig} {idPrefix machineId fingerprint other : String}

theorem IsFingerprint.digits (h : IsFingerprint fingerprint) :
    ∀ c ∈ fingerprint.toList, isHexDigit c = true := by
  rcases h with h | h
  · exact h.2
  · exact h.2

theorem IsFingerprint.dash_notMem (h : IsFingerprint fingerprint) : '-' ∉ fingerprint.toList :=
  notMem_of_hexDigits rfl h.digits

theorem IsFingerprint.toLowercase_eq (h : IsFingerprint fingerprint) :
    toLowercase fingerprint = toAsciiLowercase fingerprint :=
  toLowercase_of_hexDigits h.digits

theorem asciiLower_idem (c : Char) : asciiLower (asciiLower c) = asciiLower c := by
  by_cases hupper : 65 ≤ c.toNat ∧ c.toNat ≤ 90
  · have hvalid : (c.toNat + 32).isValidChar := .inl (by omega)
    have hcode : (asciiLower c).toNat = c.toNat + 32 := by
      rw [asciiLower, if_pos hupper, Char.ofNat, dif_pos hvalid]
      rfl
    exact if_neg (by omega)
  · have hkeep : asciiLower c = c := if_neg hupper
    rw [hkeep, hkeep]

theorem toAsciiLowercase_idem (s : String) :
    toAsciiLowercase (toAsciiLowercase s) = toAsciiLowercase s := by
  simp only [toAsciiLowercase, String.toList_ofList, List.map_map]
  congr 1
  exact List.map_congr_left fun c _ => asciiLower_idem c

theorem HexDigits.lower {n : Nat} {text : List Char} (h : HexDigits n text) :
    HexDigits n (text.map asciiLower) := by
  refine ⟨by rw [List.length_map, h.1], ?_⟩
  intro c hc
  obtain ⟨d, hd, rfl⟩ := List.mem_map.mp hc
  obtain ⟨v, hv, hdigit⟩ := isHexDigit_iff.mp (h.2 d hd)
  exact isHexDigit_iff.mpr ⟨v, hv, by rw [asciiLower_idem, hdigit]⟩

theorem IsFingerprint.lower (h : IsFingerprint fingerprint) :
    IsFingerprint (toAsciiLowercase fingerprint) := by
  rw [IsFingerprint, toAsciiLowercase, String.toList_ofList]
  exact h.imp HexDigits.lower HexDigits.lower

theorem length_utf8_of_hexDigits (h : ∀ c ∈ fingerprint.toList, isHexDigit c = true) :
    (utf8 fingerprint).length = fingerprint.toList.length := by
  apply length_utf8_ascii
  intro c hc
  exact isHexDigit_lt (h c hc)

theorem isValidFingerprintHex_iff :
    isValidFingerprintHex fingerprint = true ↔ IsFingerprint fingerprint := by
  simp only [isValidFingerprintHex, machineIdHexWidths, Bool.and_eq_true, List.all_eq_true,
    List.contains_iff_mem, List.mem_cons, List.not_mem_nil, or_false]
  constructor
  · rintro ⟨hlen, hdigits⟩
    rw [length_utf8_of_hexDigits hdigits] at hlen
    exact hlen.imp (fun h => ⟨h, hdigits⟩) fun h => ⟨h, hdigits⟩
  · intro h
    rw [length_utf8_of_hexDigits h.digits]
    exact ⟨h.imp And.left And.left, h.digits⟩

theorem toList_append_dash (a b : String) :
    (a ++ "-" ++ b).toList = a.toList ++ '-' :: b.toList := by
  rw [String.toList_append, String.toList_append, List.append_assoc]
  rfl

theorem splitOn_dash_iff {a b : String} : machineId.toList.splitOn '-' = [a.toList, b.toList] ↔
    machineId = a ++ "-" ++ b ∧ '-' ∉ a.toList ∧ '-' ∉ b.toList := by
  rw [splitOn_eq_pair_iff, ← String.toList_inj, toList_append_dash]

theorem append_dash_inj {a b : String} (h : idPrefix ++ "-" ++ a = idPrefix ++ "-" ++ b) :
    a = b := by
  rw [← String.toList_inj, toList_append_dash, toList_append_dash, List.append_cancel_left_eq] at h
  exact String.toList_inj.mp (List.cons.inj h).2

/-- The validator reads a prefix without a dash, a dash and digits in either letter case. -/
theorem isValidMachineId_iff :
    isValidMachineId config machineId = true ↔ '-' ∉ config.machineIdPrefix.toList ∧
    ∃ fingerprint, IsFingerprint fingerprint ∧
    machineId = config.machineIdPrefix ++ "-" ++ fingerprint := by
  constructor
  · intro h
    cases hsplit : machineId.toList.splitOn '-' with
    | nil => simp [isValidMachineId, hsplit] at h
    | cons first rest =>
      rcases rest with _ | ⟨second, _ | ⟨next, rest⟩⟩
      · simp [isValidMachineId, hsplit] at h
      · simp only [isValidMachineId, hsplit] at h
        by_cases hfirst : String.ofList first = config.machineIdPrefix
        · rw [if_neg (not_not_intro hfirst), isValidFingerprintHex_iff] at h
          rw [← String.toList_ofList (l := first), ← String.toList_ofList (l := second), hfirst,
            splitOn_dash_iff] at hsplit
          exact ⟨hsplit.2.1, _, h, hsplit.1⟩
        · rw [if_pos hfirst] at h
          cases h
      · simp [isValidMachineId, hsplit] at h
  · rintro ⟨hdash, fingerprint, hfingerprint, hid⟩
    have hsplit := splitOn_dash_iff.mpr ⟨hid, hdash, hfingerprint.dash_notMem⟩
    simp only [isValidMachineId, hsplit, String.ofList_toList, ne_eq, not_true_eq_false, if_false]
    exact isValidFingerprintHex_iff.mpr hfingerprint

theorem derived_iff : Derived idPrefix machineId ↔ ∃ fingerprint, IsFingerprint fingerprint ∧
    toAsciiLowercase fingerprint = fingerprint ∧ machineId = idPrefix ++ "-" ++ fingerprint := by
  constructor
  · rintro ⟨fingerprint, hfingerprint, rfl⟩
    refine ⟨_, hfingerprint.lower, toAsciiLowercase_idem fingerprint, ?_⟩
    rw [deriveMachineIdFromFingerprint, hfingerprint.toLowercase_eq]
  · rintro ⟨fingerprint, hfingerprint, hlower, rfl⟩
    refine ⟨fingerprint, hfingerprint, ?_⟩
    rw [deriveMachineIdFromFingerprint, hfingerprint.toLowercase_eq, hlower]

theorem derive_injective (hfingerprint : IsFingerprint fingerprint) (hother : IsFingerprint other)
    (h : deriveMachineIdFromFingerprint idPrefix fingerprint =
      deriveMachineIdFromFingerprint idPrefix other) :
    toAsciiLowercase fingerprint = toAsciiLowercase other := by
  rw [← hfingerprint.toLowercase_eq, ← hother.toLowercase_eq]
  exact append_dash_inj h

theorem extract_derived (hdash : '-' ∉ idPrefix.toList) (hfingerprint : IsFingerprint fingerprint) :
    extractPrefix (deriveMachineIdFromFingerprint idPrefix fingerprint) = some idPrefix ∧
      extractFingerprint (deriveMachineIdFromFingerprint idPrefix fingerprint) =
        some (toLowercase fingerprint) := by
  have hlower : '-' ∉ (toLowercase fingerprint).toList := by
    rw [hfingerprint.toLowercase_eq]
    exact hfingerprint.lower.dash_notMem
  have hsplit := splitOn_dash_iff.mpr
    (show deriveMachineIdFromFingerprint idPrefix fingerprint = _ ∧ _ from ⟨rfl, hdash, hlower⟩)
  constructor
  · rw [extractPrefix, hsplit, List.head?_cons, Option.map_some, String.ofList_toList]
  · simp only [extractFingerprint, hsplit, String.ofList_toList]

/-- Where the id is the prefix, a dash and a fingerprint, the two agree on it exactly when
either the prefix has no dash and the fingerprint no capital, or both have one. -/
theorem agreesWithDerivation_iff (config : PasskeyConfig) (machineId : String) :
    AgreesWithDerivation config machineId ↔ ∀ fingerprint, IsFingerprint fingerprint →
      machineId = config.machineIdPrefix ++ "-" ++ fingerprint →
        (toAsciiLowercase fingerprint = fingerprint ↔ '-' ∉ config.machineIdPrefix.toList) := by
  constructor
  · intro h fingerprint hfingerprint hid
    constructor
    · intro hlower
      have hderived : Derived config.machineIdPrefix machineId :=
        derived_iff.mpr ⟨fingerprint, hfingerprint, hlower, hid⟩
      exact (isValidMachineId_iff.mp (h.valid.mpr hderived)).1
    · intro hdash
      have hvalid : isValidMachineId config machineId = true :=
        isValidMachineId_iff.mpr ⟨hdash, fingerprint, hfingerprint, hid⟩
      obtain ⟨other, _, hlower, hid'⟩ := derived_iff.mp (h.valid.mp hvalid)
      rw [hid] at hid'
      rwa [append_dash_inj hid']
  · intro h
    refine ⟨?_, ?_, ?_⟩
    · rw [isValidMachineId_iff, derived_iff]
      constructor
      · rintro ⟨hdash, fingerprint, hfingerprint, hid⟩
        exact ⟨fingerprint, hfingerprint, (h fingerprint hfingerprint hid).mpr hdash, hid⟩
      · rintro ⟨fingerprint, hfingerprint, hlower, hid⟩
        exact ⟨(h fingerprint hfingerprint hid).mp hlower, fingerprint, hfingerprint, hid⟩
    · rintro fingerprint hfingerprint rfl
      obtain ⟨fp, hfp, hlower, hid⟩ := derived_iff.mp ⟨fingerprint, hfingerprint, rfl⟩
      exact extract_derived ((h fp hfp hid).mp hlower) hfingerprint
    · intro fingerprint other hfingerprint hother hne heq
      exact hne (derive_injective hfingerprint hother heq)

def capitalId : String := "tst-ABCDEF0000000000000000000000000000000000"

def dashedId : String := "my--0000000000000000000000000000000000000000"

/-- A second spelling that is accepted, and a derived id that is refused. -/
theorem machineId_disagreements :
    ¬ AgreesWithDerivation ((PasskeyConfig.new "test").withMachineIdPrefix "tst") capitalId ∧
      ¬ AgreesWithDerivation (PasskeyConfig.new "my-app") dashedId := by
  constructor
  · intro h
    have hvalid : isValidMachineId ((PasskeyConfig.new "test").withMachineIdPrefix "tst")
        capitalId = true := by
      decide +kernel
    obtain ⟨fingerprint, _, hlower, hid⟩ := derived_iff.mp (h.valid.mp hvalid)
    have htext : "tst" ++ "-" ++ fingerprint =
        "tst" ++ "-" ++ "ABCDEF0000000000000000000000000000000000" :=
      hid.symm.trans (by decide +kernel)
    rw [append_dash_inj htext] at hlower
    revert hlower
    decide +kernel
  · intro h
    have hrefused : isValidMachineId (PasskeyConfig.new "my-app") dashedId = false := by
      decide +kernel
    have hderived : Derived (PasskeyConfig.new "my-app").machineIdPrefix dashedId := by
      refine ⟨"0000000000000000000000000000000000000000", .inl ?_, ?_⟩
      · exact ⟨by decide +kernel, List.all_eq_true.mp (by decide +kernel)⟩
      · decide +kernel
    rw [h.valid.mpr hderived] at hrefused
    cases hrefused

/-- Under a prefix without a dash, an id that verifies against a key passes the validator. -/
theorem isValid_of_verified {parsePublicKey : String → Except PasskeyError String}
    {publicKey : String} (hparse : ∀ text fingerprint, parsePublicKey text = .ok fingerprint →
      IsFingerprint fingerprint)
    (hdash : '-' ∉ config.machineIdPrefix.toList)
    (h : verifyMachineId parsePublicKey config publicKey machineId = .ok true) :
    isValidMachineId config machineId = true := by
  obtain ⟨expected, hexpected, heq⟩ := Loops.bind_eq_ok_iff.mp h
  obtain ⟨fingerprint, hkey, hderive⟩ := Loops.bind_eq_ok_iff.mp hexpected
  have hid : expected = machineId := eq_of_beq (Except.ok.inj heq)
  obtain ⟨fp, hfp, _, hid'⟩ := derived_iff.mp
    ⟨fingerprint, hparse publicKey fingerprint hkey, (hid.symm.trans (Except.ok.inj hderive).symm)⟩
  exact isValidMachineId_iff.mpr ⟨hdash, fp, hfp, hid'⟩

end GitCellar
