import GitCellar.GrantSigning

/-! Succession statements, signed by an account's recovery master, and the
first-key evidence the key directory signs. -/

namespace GitCellar

def identitySuccessionVersion : String := "gc-identity-succession-v1"

def firstKeyEvidenceVersion : String := "gc-kt-first-key-evidence-v1"

inductive SuccessionError where
  | emptyField (field : String)
  | sameIdentity
  | notNewerVersion (statement current : UInt32)
  | invalidPublicKey (msg : String)
  | signatureInvalid
  deriving DecidableEq, Repr

structure IdentitySuccession where
  account : String
  oldFingerprint : String
  newFingerprint : String
  newKeyVersion : UInt32
  issuedAtUnix : Int64
  deriving DecidableEq

def normalizeAccount (account : String) : String := Unicode.toAsciiLowercase (Unicode.trim account)

def IdentitySuccession.new (account oldFingerprint newFingerprint : String) (newKeyVersion : UInt32)
    (issuedAtUnix : Int64) : IdentitySuccession where
  account := normalizeAccount account
  oldFingerprint := normalizeFingerprint oldFingerprint
  newFingerprint := normalizeFingerprint newFingerprint
  newKeyVersion := newKeyVersion
  issuedAtUnix := issuedAtUnix

def IdentitySuccession.normalized (s : IdentitySuccession) : IdentitySuccession :=
  IdentitySuccession.new s.account s.oldFingerprint s.newFingerprint s.newKeyVersion s.issuedAtUnix

def IdentitySuccession.fields (s : IdentitySuccession) : List String :=
  [normalizeAccount s.account, normalizeFingerprint s.oldFingerprint,
    normalizeFingerprint s.newFingerprint, toString s.newKeyVersion, toString s.issuedAtUnix]

def IdentitySuccession.canonical (s : IdentitySuccession) : Bytes :=
  lpFields (identitySuccessionVersion :: s.fields)

def IdentitySuccession.validateShape (s : IdentitySuccession) : Except SuccessionError Unit := do
  if normalizeAccount s.account = "" then throw (.emptyField "account")
  let old := normalizeFingerprint s.oldFingerprint
  let new := normalizeFingerprint s.newFingerprint
  if old = "" then throw (.emptyField "old_fingerprint")
  if new = "" then throw (.emptyField "new_fingerprint")
  if old = new then throw .sameIdentity

/-- The bytes `sign_identity_succession` hands to the master key. -/
def IdentitySuccession.signedBytes (s : IdentitySuccession) : Except SuccessionError Bytes := do
  s.validateShape
  return s.canonical

theorem IdentitySuccession.fields_injective {s s' : IdentitySuccession} (h : s.fields = s'.fields) :
    s.normalized = s'.normalized := by
  simp only [fields, List.cons.injEq, and_true] at h
  obtain ⟨haccount, hold, hnew, hversion, htime⟩ := h
  simp only [normalized, new, IdentitySuccession.mk.injEq]
  exact ⟨haccount, hold, hnew, toString_uint32_injective hversion, toString_int64_injective htime⟩

theorem IdentitySuccession.signedBytes_ok {s : IdentitySuccession} {b : Bytes}
    (h : s.signedBytes = .ok b) : b = s.canonical := by
  cases hshape : s.validateShape with
  | error e =>
    rw [signedBytes, hshape] at h
    cases h
  | ok u =>
    rw [signedBytes, hshape] at h
    exact (Except.ok.inj h).symm

structure FirstKeyEvidence where
  account : String
  entryHash : String
  masterPublicKey : Bytes
  certificateCbor : Bytes
  deriving DecidableEq

section

variable (sha256 : Bytes → Bytes)

def FirstKeyEvidence.fields (e : FirstKeyEvidence) : List String :=
  [e.account, e.entryHash, hexEncode e.masterPublicKey, hexEncode (sha256 e.certificateCbor)]

def firstKeyEvidenceCanonical (e : FirstKeyEvidence) : Bytes :=
  lpFields (firstKeyEvidenceVersion :: e.fields sha256)

variable {sha256}

theorem FirstKeyEvidence.fields_injective {e e' : FirstKeyEvidence}
    (hsha : sha256 e.certificateCbor = sha256 e'.certificateCbor →
      e.certificateCbor = e'.certificateCbor)
    (h : e.fields sha256 = e'.fields sha256) : e = e' := by
  cases e
  cases e'
  simp only [fields, List.cons.injEq, and_true] at h
  obtain ⟨rfl, rfl, hmaster, hdigest⟩ := h
  obtain rfl := hexEncode_injective hmaster
  obtain rfl := hsha (hexEncode_injective hdigest)
  rfl

end

end GitCellar
