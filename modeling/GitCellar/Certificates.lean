import GitCellar.Bytes
import GitCellar.Cbor

/-! The payloads device and revocation certificates sign, as CBOR maps in the
declared field order. -/

namespace GitCellar

open Cbor Utf8

/-- A key's 32 bytes. -/
abbrev Bytes32 := { b : Bytes // b.length = 32 }

def filled (b : UInt8) : Bytes32 := ⟨List.replicate 32 b, List.length_replicate⟩

/-- A string no longer than memory allows. -/
abbrev Text := { s : String // (utf8 s).length < 2 ^ 63 }

def maxLabelBytes : Nat := 64

inductive SignerRole where
  | master
  | device
  deriving DecidableEq, Repr

inductive RevocationReason where
  | userInitiated
  | compromise
  | deviceLost
  | rotation
  deriving DecidableEq, Repr

inductive CertError where
  | labelTooLong (n : Nat)
  | masterMismatch
  | unknownSigner
  | signerRoleMismatch
  | signatureFailed
  | invalidPublicKey (msg : String)
  | unsupportedVersion (expected got : UInt32)
  deriving DecidableEq, Repr

structure DeviceCertificatePayload where
  certVersion : UInt32
  devicePubkey : Bytes32
  masterPubkey : Bytes32
  label : Text
  platform : Text
  enrolledAt : Int64
  signerRole : SignerRole
  signerPubkey : Bytes32
  deriving DecidableEq

structure RevocationCertificatePayload where
  certVersion : UInt32
  targetDevicePubkey : Bytes32
  masterPubkey : Bytes32
  revokedAt : Int64
  reason : RevocationReason
  signerRole : SignerRole
  signerPubkey : Bytes32
  deriving DecidableEq

def SignerRole.asStr : SignerRole → Text
  | .master => ⟨"master", by decide⟩
  | .device => ⟨"device", by decide⟩

def RevocationReason.asStr : RevocationReason → Text
  | .userInitiated => ⟨"user_initiated", by decide⟩
  | .compromise => ⟨"compromise", by decide⟩
  | .deviceLost => ⟨"device_lost", by decide⟩
  | .rotation => ⟨"rotation", by decide⟩

def text (s : Text) : Item := .text ⟨utf8 s.val, Nat.lt_of_lt_of_le s.property (by decide)⟩

def bytes32 (b : Bytes32) : Item := .bytes ⟨b.val, by rw [b.property]; decide⟩

def uint32 (n : UInt32) : Item := .uint n.toUInt64

def key (s : String) (h : (utf8 s).length < 2 ^ 63 := by decide) : Item := text ⟨s, h⟩

def DeviceCertificatePayload.items (p : DeviceCertificatePayload) : List Item :=
  [key "cert_version", uint32 p.certVersion, key "device_pubkey", bytes32 p.devicePubkey,
    key "master_pubkey", bytes32 p.masterPubkey, key "label", text p.label,
    key "platform", text p.platform, key "enrolled_at", int p.enrolledAt,
    key "signer_role", text p.signerRole.asStr, key "signer_pubkey", bytes32 p.signerPubkey]

def RevocationCertificatePayload.items (p : RevocationCertificatePayload) : List Item :=
  [key "cert_version", uint32 p.certVersion, key "target_device_pubkey",
    bytes32 p.targetDevicePubkey, key "master_pubkey", bytes32 p.masterPubkey, key "revoked_at",
    int p.revokedAt, key "reason", text p.reason.asStr, key "signer_role", text p.signerRole.asStr,
    key "signer_pubkey", bytes32 p.signerPubkey]

def DeviceCertificatePayload.encode (p : DeviceCertificatePayload) : Bytes := mapOf 8 p.items

def RevocationCertificatePayload.encode (p : RevocationCertificatePayload) : Bytes :=
  mapOf 7 p.items

def validateLabel (label : Text) : Except CertError Unit :=
  let n := (utf8 label.val).length
  if n > maxLabelBytes then throw (.labelTooLong n) else pure ()

/-- The bytes `sign_with_master` and `sign_with_device` sign. -/
def DeviceCertificatePayload.signedBytes (p : DeviceCertificatePayload) :
    Except CertError Bytes := do
  validateLabel p.label
  return p.encode

theorem text_injective {s t : Text} (h : text s = text t) : s = t :=
  Subtype.ext (utf8_injective (congrArg Subtype.val (Item.text.inj h)))

theorem bytes32_injective {b c : Bytes32} (h : bytes32 b = bytes32 c) : b = c := by
  have hsized := Item.bytes.inj h
  exact Subtype.ext (Subtype.mk.inj hsized)

theorem uint32_injective {m n : UInt32} (h : uint32 m = uint32 n) : m = n := by
  have hwide := congrArg UInt64.toNat (Item.uint.inj h)
  simp only [UInt32.toNat_toUInt64] at hwide
  exact UInt32.toNat_inj.mp hwide

theorem SignerRole.asStr_injective {r s : SignerRole} (h : r.asStr = s.asStr) : r = s := by
  revert h
  cases r <;> cases s <;> decide

theorem RevocationReason.asStr_injective {r s : RevocationReason} (h : r.asStr = s.asStr) :
    r = s := by
  revert h
  cases r <;> cases s <;> decide

theorem DeviceCertificatePayload.items_injective {p q : DeviceCertificatePayload}
    (h : p.items = q.items) : p = q := by
  cases p
  cases q
  simp only [items, List.cons.injEq, and_true, true_and] at h
  obtain ⟨hversion, hdevice, hmaster, hlabel, hplatform, hat, hrole, hsigner⟩ := h
  rw [uint32_injective hversion, bytes32_injective hdevice, bytes32_injective hmaster,
    text_injective hlabel, text_injective hplatform, int_injective hat,
    SignerRole.asStr_injective (text_injective hrole), bytes32_injective hsigner]

theorem RevocationCertificatePayload.items_injective {p q : RevocationCertificatePayload}
    (h : p.items = q.items) : p = q := by
  cases p
  cases q
  simp only [items, List.cons.injEq, and_true, true_and] at h
  obtain ⟨hversion, htarget, hmaster, hat, hreason, hrole, hsigner⟩ := h
  rw [uint32_injective hversion, bytes32_injective htarget, bytes32_injective hmaster,
    int_injective hat, RevocationReason.asStr_injective (text_injective hreason),
    SignerRole.asStr_injective (text_injective hrole), bytes32_injective hsigner]

theorem DeviceCertificatePayload.encode_injective {p q : DeviceCertificatePayload}
    (h : p.encode = q.encode) : p = q :=
  items_injective (mapOf_unique (by decide) (by decide) h).2

theorem RevocationCertificatePayload.encode_injective {p q : RevocationCertificatePayload}
    (h : p.encode = q.encode) : p = q :=
  items_injective (mapOf_unique (by decide) (by decide) h).2

/-- The two payloads are maps of different sizes. -/
theorem deviceCertificate_ne_revocation (p : DeviceCertificatePayload)
    (q : RevocationCertificatePayload) : p.encode ≠ q.encode := by
  intro h
  have hsize := (mapOf_unique (by decide) (by decide) h).1
  omega

theorem DeviceCertificatePayload.signedBytes_ok {p : DeviceCertificatePayload} {b : Bytes}
    (h : p.signedBytes = .ok b) : b = p.encode := by
  cases hlabel : validateLabel p.label with
  | error e =>
    rw [signedBytes, hlabel] at h
    cases h
  | ok u =>
    rw [signedBytes, hlabel] at h
    exact (Except.ok.inj h).symm

end GitCellar
