import GitCellar.Base64
import GitCellar.GrantSigning
import GitCellar.Json
import GitCellar.Signing

/-! The signed bundle a repo-key grant travels in, and the recipient's gate. -/

namespace GitCellar

open Json Signing Utf8

/-- `gitcellar_crypto::error::CryptoError`, the variants this code raises. -/
inductive CryptoError where
  | keyLoad (msg : String)
  | keySave (msg : String)
  | encryption (msg : String)
  | decryption (msg : String)
  | noSigningKey
  | invalidPassword
  | bundleFormat (msg : String)
  | openPgp (msg : String)
  | serialization (msg : String)
  | broadcast (msg : String)
  deriving DecidableEq, Repr

def CryptoError.toString : CryptoError → String
  | .keyLoad msg => "Failed to load key: " ++ msg
  | .keySave msg => "Failed to save key: " ++ msg
  | .encryption msg => "Encryption failed: " ++ msg
  | .decryption msg => "Decryption failed: " ++ msg
  | .noSigningKey => "No signing-capable key found in identity"
  | .invalidPassword => "Invalid password"
  | .bundleFormat msg => "Invalid bundle format: " ++ msg
  | .openPgp msg => "OpenPGP error: " ++ msg
  | .serialization msg => "Serialization error: " ++ msg
  | .broadcast msg => "Broadcast error: " ++ msg

structure GrantBundle where
  v : String
  repoUid : String
  keyMaterialB64 : String
  granterFingerprint : String
  timestampUnix : Int64
  grantSigB64 : String
  delegation : Option GrantDelegation
  deriving DecidableEq

def GrantDelegation.toValue (d : GrantDelegation) : Value :=
  .obj (Members.ofList [("repo_uid", .str d.repoUid), ("delegate_account", .str d.delegateAccount),
    ("delegate_fingerprint", .str d.delegateFingerprint), ("key_version", .num d.keyVersion.toNat),
    ("timestamp_unix", .num d.timestampUnix.toInt), ("expires_at_unix", .num d.expiresAtUnix.toInt),
    ("delegation_sig_b64", .str d.delegationSigB64)])

def GrantBundle.toValue (b : GrantBundle) : Value :=
  .obj (Members.ofList ([("v", .str b.v), ("repo_uid", .str b.repoUid),
    ("key_material_b64", .str b.keyMaterialB64), ("granter_fingerprint", .str b.granterFingerprint),
    ("timestamp_unix", .num b.timestampUnix.toInt), ("grant_sig_b64", .str b.grantSigB64)] ++
    optionalMember "delegation" (b.delegation.map GrantDelegation.toValue)))

def GrantBundle.toJson (b : GrantBundle) : Bytes := b.toValue.print

/-- The tuple the recipient rebuilds from the bundle and what it supplies itself. -/
def GrantBundle.toGrant (b : GrantBundle) (keyVersion : Int32) (recipientFingerprint : String) :
    RepoKeyGrant :=
  RepoKeyGrant.new b.repoUid keyVersion recipientFingerprint b.granterFingerprint b.keyMaterialB64
    b.timestampUnix

/-- `from_json`, over the derived parser and the `{:?}` of a string. -/
def GrantBundle.fromJson (fromSlice : Bytes → Except String GrantBundle) (debug : String → String)
    (bytes : Bytes) : Except CryptoError GrantBundle :=
  match fromSlice bytes with
  | .error e => .error (.decryption
      ("grant payload is not a gc-grant bundle (an old unsigned grant looks like " ++
        "this — it must be re-issued, not imported): " ++ e))
  | .ok bundle =>
    if bundle.v ≠ grantCanonicalVersion then
      .error (.decryption ("unsupported grant bundle version " ++ debug bundle.v ++
        " (expected " ++ debug grantCanonicalVersion ++ ")"))
    else if Unicode.trim bundle.repoUid = "" then
      .error (.decryption "grant bundle names no repo_uid; a gc-grant-v2 grant always binds one")
    else .ok bundle

inductive GrantVerifyOutcome where
  | valid
  | granterFingerprintMismatch (claimed served : String)
  | signatureInvalid
  | malformed (msg : String)
  deriving DecidableEq, Repr

def GrantVerifyOutcome.ofVerified : Except CryptoError Bool → GrantVerifyOutcome
  | .ok true => .valid
  | .ok false => .signatureInvalid
  | .error e => .malformed e.toString

structure GrantRequest where
  repoUid : String
  keyVersion : Int32
  recipientFingerprint : String
  keyMaterialB64 : String
  timestampUnix : Int64
  delegation : Option GrantDelegation

def GrantRequest.grant (r : GrantRequest) (granterFingerprint : String) : RepoKeyGrant :=
  RepoKeyGrant.new r.repoUid r.keyVersion r.recipientFingerprint granterFingerprint r.keyMaterialB64
    r.timestampUnix

section

variable {Key Cert : Type} (S : Scheme Key Cert CryptoError) (fingerprint : Key → String)
  (base64Error : String → String)

/-- The message `build_signed_repo_grant_bundle` has the granter's key sign. -/
def GrantRequest.message (r : GrantRequest) (granter : Key) : Bytes :=
  (r.grant (normalizeFingerprint (fingerprint granter))).canonicalWithDelegation r.delegation

def buildSignedRepoGrantBundle (granter : Key) (coins : Nat) (r : GrantRequest) :
    Except CryptoError GrantBundle := do
  let granterFingerprint := normalizeFingerprint (fingerprint granter)
  let sig ← S.sign granter coins (r.message fingerprint granter)
  return { v := grantCanonicalVersion, repoUid := r.repoUid, keyMaterialB64 := r.keyMaterialB64,
           granterFingerprint, timestampUnix := r.timestampUnix,
           grantSigB64 := Base64.encode sig, delegation := r.delegation }

def verifySignedBytes (cert : Cert) (signed : Bytes) (signatureB64 : String) :
    Except CryptoError Bool :=
  if signatureB64 = "" then .ok false
  else
    match Base64.decode signatureB64 with
    | none => .error (.openPgp ("grant sig is not valid base64: " ++ base64Error signatureB64))
    | some sig => S.verify cert signed sig

def verifyRepoKeyGrant (cert : Cert) (grant : RepoKeyGrant) (signatureB64 : String) :
    Except CryptoError Bool :=
  verifySignedBytes S base64Error cert grant.canonical signatureB64

def verifyGrantBundle (bundle : GrantBundle) (granterCert : Cert)
    (granterServedFingerprint : String) (repoUid : String) (keyVersion : Int32)
    (recipientFingerprint : String) : GrantVerifyOutcome :=
  let claimed := normalizeFingerprint bundle.granterFingerprint
  let served := normalizeFingerprint granterServedFingerprint
  if claimed ≠ served then .granterFingerprintMismatch claimed served
  else if repoUid = "" ∨ bundle.repoUid ≠ repoUid then .signatureInvalid
  else
    let grant := bundle.toGrant keyVersion recipientFingerprint
    .ofVerified <|
      match bundle.delegation with
      | none => verifyRepoKeyGrant S base64Error granterCert grant bundle.grantSigB64
      | some del => verifySignedBytes S base64Error granterCert
          (grant.canonicalWithDelegation (some del)) bundle.grantSigB64

end

section

variable {Key Cert : Type} {S : Scheme Key Cert CryptoError} {fingerprint : Key → String}
  {base64Error : String → String}

theorem GrantVerifyOutcome.ofVerified_valid_iff {verified : Except CryptoError Bool} :
    GrantVerifyOutcome.ofVerified verified = .valid ↔ verified = .ok true := by
  cases verified with
  | error e => simp [ofVerified]
  | ok b => cases b <;> simp [ofVerified]

theorem verifySignedBytes_true {cert : Cert} {signed : Bytes} {signatureB64 : String}
    (h : verifySignedBytes S base64Error cert signed signatureB64 = .ok true) :
    ∃ sig, Base64.decode signatureB64 = some sig ∧ S.verify cert signed sig = .ok true := by
  by_cases hempty : signatureB64 = ""
  · rw [verifySignedBytes, if_pos hempty] at h
    cases h
  · rw [verifySignedBytes, if_neg hempty] at h
    cases hdecode : Base64.decode signatureB64 with
    | none =>
      rw [hdecode] at h
      cases h
    | some sig =>
      rw [hdecode] at h
      exact ⟨sig, rfl, h⟩

theorem verifySignedBytes_encode {cert : Cert} {signed sig : Bytes} (hsig : sig ≠ []) :
    verifySignedBytes S base64Error cert signed (Base64.encode sig) = S.verify cert signed sig := by
  rw [verifySignedBytes, if_neg (Base64.encode_ne_empty hsig), Base64.decode_encode]

/-- The gate's three checks. The two forms of the signed bytes are one. -/
theorem verifyGrantBundle_valid_iff {bundle : GrantBundle} {cert : Cert} {served uid : String}
    {version : Int32} {recipient : String} :
    verifyGrantBundle S base64Error bundle cert served uid version recipient = .valid ↔
      normalizeFingerprint bundle.granterFingerprint = normalizeFingerprint served ∧
      uid ≠ "" ∧ bundle.repoUid = uid ∧
      verifySignedBytes S base64Error cert
        ((bundle.toGrant version recipient).canonicalWithDelegation bundle.delegation)
        bundle.grantSigB64 = .ok true := by
  by_cases hclaimed : normalizeFingerprint bundle.granterFingerprint = normalizeFingerprint served
  · by_cases huid : uid = "" ∨ bundle.repoUid ≠ uid
    · rw [verifyGrantBundle, if_neg (not_not_intro hclaimed), if_pos huid]
      constructor
      · intro h
        cases h
      · rintro ⟨_, hne, heq, _⟩
        exact absurd huid (not_or.mpr ⟨hne, not_not_intro heq⟩)
    · rw [verifyGrantBundle, if_neg (not_not_intro hclaimed), if_neg huid,
        GrantVerifyOutcome.ofVerified_valid_iff]
      obtain ⟨hne, heq⟩ := not_or.mp huid
      cases hdel : bundle.delegation with
      | none => simp only [verifyRepoKeyGrant, RepoKeyGrant.canonicalWithDelegation, hclaimed, hne,
          not_not.mp heq, ne_eq, not_false_eq_true, true_and]
      | some del => simp only [hclaimed, hne, not_not.mp heq, ne_eq, not_false_eq_true, true_and]
  · rw [verifyGrantBundle, if_pos hclaimed]
    constructor
    · intro h
      cases h
    · intro h
      exact absurd h.1 hclaimed

end

end GitCellar
