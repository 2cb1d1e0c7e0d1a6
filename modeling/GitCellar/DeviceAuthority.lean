import GitCellar.Ed25519

/-! Who may certify and who may revoke a device: the two certificates, their
signers and their verifiers. -/

namespace GitCellar

open Loops Utf8

def masterKeyVersion : UInt32 := 1

inductive RevocationCertError where
  | masterMismatch
  | unknownSigner
  | signerRoleMismatch
  | signatureFailed
  | invalidPublicKey (msg : String)
  | unsupportedVersion (expected got : UInt32)
  deriving DecidableEq, Repr

/-- The two verifiers' refusals, under the same names. -/
def RevocationCertError.toCertError : RevocationCertError → CertError
  | .masterMismatch => .masterMismatch
  | .unknownSigner => .unknownSigner
  | .signerRoleMismatch => .signerRoleMismatch
  | .signatureFailed => .signatureFailed
  | .invalidPublicKey msg => .invalidPublicKey msg
  | .unsupportedVersion expected got => .unsupportedVersion expected got

structure DeviceCertificate where
  payload : DeviceCertificatePayload
  signature : Bytes64

structure RevocationCertificate where
  payload : RevocationCertificatePayload
  signature : Bytes64

section

variable (P : Ed25519)

/-- `master` and `signerSecret` are seeds. -/
def DeviceCertificate.signWithMaster (master devicePubkey : Bytes32) (label platform : Text)
    (enrolledAt : Int64) : Except CertError DeviceCertificate :=
  let payload := ⟨masterKeyVersion, devicePubkey, P.publicKey master, label, platform, enrolledAt,
    .master, P.publicKey master⟩
  (validateLabel label).bind fun _ => .ok ⟨payload, P.sign master payload.encode⟩

def DeviceCertificate.signWithDevice (signerSecret masterPubkey devicePubkey : Bytes32)
    (label platform : Text) (enrolledAt : Int64) : Except CertError DeviceCertificate :=
  let payload := ⟨masterKeyVersion, devicePubkey, masterPubkey, label, platform, enrolledAt,
    .device, P.publicKey signerSecret⟩
  (validateLabel label).bind fun _ => .ok ⟨payload, P.sign signerSecret payload.encode⟩

def DeviceCertificate.checkSigner (c : DeviceCertificate) (masterPubkey : Bytes32)
    (eligible : List Bytes32) : Except CertError Unit :=
  match c.payload.signerRole with
  | .master => if c.payload.signerPubkey ≠ masterPubkey then .error .signerRoleMismatch else .ok ()
  | .device =>
    if !eligible.any (fun pk => pk == c.payload.signerPubkey) then .error .unknownSigner
    else if c.payload.signerPubkey = masterPubkey then .error .signerRoleMismatch
    else .ok ()

def DeviceCertificate.checkSignature (c : DeviceCertificate) : Except CertError Unit :=
  match P.fromBytes c.payload.signerPubkey with
  | some e => .error (.invalidPublicKey e)
  | none =>
    if P.verifyStrict c.payload.signerPubkey c.payload.encode c.signature then .ok ()
    else .error .signatureFailed

def DeviceCertificate.verify (c : DeviceCertificate) (masterPubkey : Bytes32)
    (eligible : List Bytes32) :
    Except CertError Unit :=
  if c.payload.certVersion ≠ masterKeyVersion then
    .error (.unsupportedVersion masterKeyVersion c.payload.certVersion)
  else if c.payload.masterPubkey ≠ masterPubkey then .error .masterMismatch
  else (validateLabel c.payload.label).bind fun _ =>
    (c.checkSigner masterPubkey eligible).bind fun _ => c.checkSignature P

def RevocationCertificate.signWithMaster (master targetDevicePubkey : Bytes32) (revokedAt : Int64)
    (reason : RevocationReason) : Except RevocationCertError RevocationCertificate :=
  let payload := ⟨masterKeyVersion, targetDevicePubkey, P.publicKey master, revokedAt, reason,
    .master, P.publicKey master⟩
  .ok ⟨payload, P.sign master payload.encode⟩

def RevocationCertificate.signWithDevice (signerSecret masterPubkey targetDevicePubkey : Bytes32)
    (revokedAt : Int64) (reason : RevocationReason) :
    Except RevocationCertError RevocationCertificate :=
  let payload := ⟨masterKeyVersion, targetDevicePubkey, masterPubkey, revokedAt, reason,
    .device, P.publicKey signerSecret⟩
  .ok ⟨payload, P.sign signerSecret payload.encode⟩

def RevocationCertificate.checkSigner (c : RevocationCertificate) (masterPubkey : Bytes32)
    (eligible : List Bytes32) : Except RevocationCertError Unit :=
  match c.payload.signerRole with
  | .master => if c.payload.signerPubkey ≠ masterPubkey then .error .signerRoleMismatch else .ok ()
  | .device =>
    if !eligible.any (fun pk => pk == c.payload.signerPubkey) then .error .unknownSigner
    else if c.payload.signerPubkey = masterPubkey then .error .signerRoleMismatch
    else .ok ()

def RevocationCertificate.checkSignature (c : RevocationCertificate) :
    Except RevocationCertError Unit :=
  match P.fromBytes c.payload.signerPubkey with
  | some e => .error (.invalidPublicKey e)
  | none =>
    if P.verifyStrict c.payload.signerPubkey c.payload.encode c.signature then .ok ()
    else .error .signatureFailed

def RevocationCertificate.verify (c : RevocationCertificate) (masterPubkey : Bytes32)
    (eligible : List Bytes32) : Except RevocationCertError Unit :=
  if c.payload.certVersion ≠ masterKeyVersion then
    .error (.unsupportedVersion masterKeyVersion c.payload.certVersion)
  else if c.payload.masterPubkey ≠ masterPubkey then .error .masterMismatch
  else (c.checkSigner masterPubkey eligible).bind fun _ => c.checkSignature P

end

structure DeviceCertificate.Certifies (c : DeviceCertificate) (devicePubkey : Bytes32)
    (label platform : Text) (enrolledAt : Int64) : Prop where
  devicePubkey : c.payload.devicePubkey = devicePubkey
  label : c.payload.label = label
  platform : c.payload.platform = platform
  enrolledAt : c.payload.enrolledAt = enrolledAt

structure RevocationCertificate.Revokes (c : RevocationCertificate) (targetDevicePubkey : Bytes32)
    (revokedAt : Int64) (reason : RevocationReason) : Prop where
  targetDevicePubkey : c.payload.targetDevicePubkey = targetDevicePubkey
  revokedAt : c.payload.revokedAt = revokedAt
  reason : c.payload.reason = reason

/-- The authority rule: the master signs as master, a device other than the
master signs while it is eligible. -/
inductive Authorised (master : Bytes32) (eligible : List Bytes32) :
    SignerRole → Bytes32 → Prop where
  | master : Authorised master eligible .master master
  | device {pk : Bytes32} (hmem : pk ∈ eligible) (hne : pk ≠ master) :
      Authorised master eligible .device pk

section

variable {P : Ed25519} {signed : Set (Bytes32 × Bytes)} {seen : Set Bytes} {master : Bytes32}
  {eligible eligible' : List Bytes32} {role : SignerRole} {signer : Bytes32}

theorem authorised_master_iff : Authorised master eligible .master signer ↔ signer = master := by
  constructor
  · rintro ⟨⟩
    rfl
  · rintro rfl
    exact .master

theorem authorised_device_iff :
    Authorised master eligible .device signer ↔ signer ∈ eligible ∧ signer ≠ master := by
  constructor
  · rintro ⟨⟩
    exact ⟨‹_›, ‹_›⟩
  · rintro ⟨hmem, hne⟩
    exact .device hmem hne

theorem Authorised.mono (h : Authorised master eligible role signer) (hsub : eligible ⊆ eligible') :
    Authorised master eligible' role signer := by
  cases h with
  | master => exact .master
  | device hmem hne => exact .device (hsub hmem) hne

theorem any_eq_iff_mem : eligible.any (fun pk => pk == signer) = true ↔ signer ∈ eligible := by
  rw [List.any_eq_true]
  constructor
  · rintro ⟨pk, hpk, heq⟩
    rw [← eq_of_beq heq]
    exact hpk
  · intro hmem
    exact ⟨signer, hmem, beq_self_eq_true signer⟩

theorem any_eq_congr (h : ∀ pk, pk ∈ eligible ↔ pk ∈ eligible') :
    eligible.any (fun pk => pk == signer) = eligible'.any fun pk => pk == signer := by
  rw [Bool.eq_iff_iff, any_eq_iff_mem, any_eq_iff_mem]
  exact h signer

theorem validateLabel_ok_iff {label : Text} :
    validateLabel label = .ok () ↔ (utf8 label.val).length ≤ maxLabelBytes := by
  by_cases hlong : (utf8 label.val).length > maxLabelBytes
  · simp [validateLabel, hlong, throw, throwThe, MonadExceptOf.throw]
  · simp [validateLabel, hlong, Nat.le_of_not_lt hlong, pure, Except.pure]

theorem validateLabel_long {label : Text} (h : maxLabelBytes < (utf8 label.val).length) :
    validateLabel label = .error (.labelTooLong (utf8 label.val).length) := if_pos h

/-- The rule on signers, with the error values of a kind of certificate. -/
def signerRule {ε : Type} (mismatch unknown : ε) (master : Bytes32) (eligible : List Bytes32) :
    SignerRole → Bytes32 → Except ε Unit
  | .master, signer => if signer ≠ master then .error mismatch else .ok ()
  | .device, signer =>
    if !eligible.any (fun pk => pk == signer) then .error unknown
    else if signer = master then .error mismatch
    else .ok ()

section

variable {ε δ : Type} {mismatch unknown : ε}

theorem signerRule_ok_iff : signerRule mismatch unknown master eligible role signer = .ok () ↔
    Authorised master eligible role signer := by
  cases role with
  | master =>
    simp only [signerRule, ite_error_eq_ok_iff, authorised_master_iff, ne_eq, not_not, and_true]
  | device =>
    simp only [signerRule, ite_error_eq_ok_iff, authorised_device_iff, Bool.not_eq_true',
      Bool.not_eq_false, any_eq_iff_mem, ne_eq, and_true]

theorem signerRule_congr (h : ∀ pk, pk ∈ eligible ↔ pk ∈ eligible') :
    signerRule mismatch unknown master eligible role signer =
      signerRule mismatch unknown master eligible' role signer := by
  cases role with
  | master => rfl
  | device => rw [signerRule, signerRule, any_eq_congr h]

theorem signerRule_mapError (f : ε → δ) :
    (signerRule mismatch unknown master eligible role signer).mapError f =
      signerRule (f mismatch) (f unknown) master eligible role signer := by
  cases role with
  | master =>
    rw [signerRule, mapError_ite_error]
    rfl
  | device =>
    rw [signerRule, mapError_ite_error, mapError_ite_error]
    rfl

end

theorem DeviceCertificate.checkSigner_eq (c : DeviceCertificate) (master : Bytes32)
    (eligible : List Bytes32) : c.checkSigner master eligible =
      signerRule .signerRoleMismatch .unknownSigner master eligible c.payload.signerRole
        c.payload.signerPubkey := by
  rw [checkSigner]
  cases c.payload.signerRole with
  | master => rfl
  | device => rfl

theorem RevocationCertificate.checkSigner_eq (c : RevocationCertificate) (master : Bytes32)
    (eligible : List Bytes32) : c.checkSigner master eligible =
      signerRule .signerRoleMismatch .unknownSigner master eligible c.payload.signerRole
        c.payload.signerPubkey := by
  rw [checkSigner]
  cases c.payload.signerRole with
  | master => rfl
  | device => rfl

theorem DeviceCertificate.checkSigner_ok_iff {c : DeviceCertificate} :
    c.checkSigner master eligible = .ok () ↔
      Authorised master eligible c.payload.signerRole c.payload.signerPubkey := by
  rw [checkSigner_eq]
  exact signerRule_ok_iff

theorem RevocationCertificate.checkSigner_ok_iff {c : RevocationCertificate} :
    c.checkSigner master eligible = .ok () ↔
      Authorised master eligible c.payload.signerRole c.payload.signerPubkey := by
  rw [checkSigner_eq]
  exact signerRule_ok_iff

theorem DeviceCertificate.checkSignature_ok_iff {c : DeviceCertificate} :
    c.checkSignature P = .ok () ↔
    P.Verifies c.payload.signerPubkey c.payload.encode c.signature := by
  cases hbytes : P.fromBytes c.payload.signerPubkey with
  | some e => simp [checkSignature, Ed25519.Verifies, hbytes]
  | none => simp [checkSignature, Ed25519.Verifies, hbytes]

theorem RevocationCertificate.checkSignature_ok_iff {c : RevocationCertificate} :
    c.checkSignature P = .ok () ↔
    P.Verifies c.payload.signerPubkey c.payload.encode c.signature := by
  cases hbytes : P.fromBytes c.payload.signerPubkey with
  | some e => simp [checkSignature, Ed25519.Verifies, hbytes]
  | none => simp [checkSignature, Ed25519.Verifies, hbytes]

theorem DeviceCertificate.verify_ok_iff {c : DeviceCertificate} :
    c.verify P master eligible = .ok () ↔
      c.payload.certVersion = masterKeyVersion ∧ c.payload.masterPubkey = master ∧
        (utf8 c.payload.label.val).length ≤ maxLabelBytes ∧
        Authorised master eligible c.payload.signerRole c.payload.signerPubkey ∧
        P.Verifies c.payload.signerPubkey c.payload.encode c.signature := by
  simp only [verify, ite_error_eq_ok_iff, not_not, ne_eq, check_bind_eq_ok_iff,
    validateLabel_ok_iff, checkSigner_ok_iff, checkSignature_ok_iff]

theorem RevocationCertificate.verify_ok_iff {c : RevocationCertificate} :
    c.verify P master eligible = .ok () ↔
      c.payload.certVersion = masterKeyVersion ∧ c.payload.masterPubkey = master ∧
        Authorised master eligible c.payload.signerRole c.payload.signerPubkey ∧
        P.Verifies c.payload.signerPubkey c.payload.encode c.signature := by
  simp only [verify, ite_error_eq_ok_iff, not_not, ne_eq, check_bind_eq_ok_iff, checkSigner_ok_iff,
    checkSignature_ok_iff]

theorem DeviceCertificate.checkSigner_congr {c : DeviceCertificate}
    (h : ∀ pk, pk ∈ eligible ↔ pk ∈ eligible') :
    c.checkSigner master eligible = c.checkSigner master eligible' := by
  rw [checkSigner_eq, checkSigner_eq, signerRule_congr h]

theorem RevocationCertificate.checkSigner_congr {c : RevocationCertificate}
    (h : ∀ pk, pk ∈ eligible ↔ pk ∈ eligible') :
    c.checkSigner master eligible = c.checkSigner master eligible' := by
  rw [checkSigner_eq, checkSigner_eq, signerRule_congr h]

/-- One authority rule: the same role and signer get the same answer. -/
theorem checkSigner_agree {d : DeviceCertificate} {r : RevocationCertificate}
    (hrole : d.payload.signerRole = r.payload.signerRole)
    (hsigner : d.payload.signerPubkey = r.payload.signerPubkey) (master : Bytes32)
    (eligible : List Bytes32) :
    d.checkSigner master eligible = (r.checkSigner master eligible).mapError
      RevocationCertError.toCertError := by
  rw [DeviceCertificate.checkSigner_eq, RevocationCertificate.checkSigner_eq, signerRule_mapError,
    hrole, hsigner]
  rfl

theorem checkSignature_agree {d : DeviceCertificate} {r : RevocationCertificate}
    (hsigner : d.payload.signerPubkey = r.payload.signerPubkey)
    (hsame : P.verifyStrict d.payload.signerPubkey d.payload.encode d.signature =
      P.verifyStrict r.payload.signerPubkey r.payload.encode r.signature) :
    d.checkSignature P = (r.checkSignature P).mapError RevocationCertError.toCertError := by
  rw [DeviceCertificate.checkSignature, RevocationCertificate.checkSignature, hsame, hsigner]
  cases P.fromBytes r.payload.signerPubkey with
  | some e => rfl
  | none =>
    cases P.verifyStrict r.payload.signerPubkey r.payload.encode r.signature with
    | true => rfl
    | false => rfl

theorem verify_agree {d : DeviceCertificate} {r : RevocationCertificate}
    (hversion : d.payload.certVersion = r.payload.certVersion)
    (hmaster : d.payload.masterPubkey = r.payload.masterPubkey)
    (hrole : d.payload.signerRole = r.payload.signerRole)
    (hsigner : d.payload.signerPubkey = r.payload.signerPubkey)
    (hlabel : (utf8 d.payload.label.val).length ≤ maxLabelBytes)
    (hsame : P.verifyStrict d.payload.signerPubkey d.payload.encode d.signature =
      P.verifyStrict r.payload.signerPubkey r.payload.encode r.signature)
    (master : Bytes32) (eligible : List Bytes32) :
    d.verify P master eligible = (r.verify P master eligible).mapError
      RevocationCertError.toCertError := by
  rw [DeviceCertificate.verify, RevocationCertificate.verify, validateLabel_ok_iff.mpr hlabel,
    checkSigner_agree hrole hsigner, checkSignature_agree hsigner hsame, hversion, hmaster]
  by_cases hv : r.payload.certVersion = masterKeyVersion
  · by_cases hm : r.payload.masterPubkey = master
    · simp only [hv, hm, ne_eq, not_true, if_false, Except.bind]
      cases r.checkSigner master eligible with
      | error e => rfl
      | ok u => rfl
    · simp [hv, hm, Except.mapError, RevocationCertError.toCertError]
  · simp [hv, Except.mapError, RevocationCertError.toCertError]

theorem DeviceCertificate.signWithMaster_made {master devicePubkey : Bytes32}
    {label platform : Text} {enrolledAt : Int64} (h : (utf8 label.val).length ≤ maxLabelBytes) :
    ∃ c, signWithMaster P master devicePubkey label platform enrolledAt = .ok c ∧
      c.Certifies devicePubkey label platform enrolledAt := by
  rw [signWithMaster, validateLabel_ok_iff.mpr h]
  exact ⟨_, rfl, rfl, rfl, rfl, rfl⟩

theorem DeviceCertificate.signWithDevice_made {signerSecret masterPubkey devicePubkey : Bytes32}
    {label platform : Text} {enrolledAt : Int64} (h : (utf8 label.val).length ≤ maxLabelBytes) :
    ∃ c, signWithDevice P signerSecret masterPubkey devicePubkey label platform enrolledAt = .ok c ∧
      c.Certifies devicePubkey label platform enrolledAt := by
  rw [signWithDevice, validateLabel_ok_iff.mpr h]
  exact ⟨_, rfl, rfl, rfl, rfl, rfl⟩

theorem DeviceCertificate.signWithMaster_verifies (hP : P.scheme.Lawful)
    {master devicePubkey : Bytes32} {label platform : Text} {enrolledAt : Int64}
    {c : DeviceCertificate}
    (hc : signWithMaster P master devicePubkey label platform enrolledAt = .ok c)
    (eligible : List Bytes32) : c.verify P (P.publicKey master) eligible = .ok () := by
  obtain ⟨hlabel, hcert⟩ := check_bind_eq_ok_iff.mp hc
  obtain rfl := Except.ok.inj hcert
  apply verify_ok_iff.mpr
  exact ⟨rfl, rfl, validateLabel_ok_iff.mp hlabel, .master, Ed25519.verifies_sign hP master _⟩

theorem DeviceCertificate.signWithDevice_verifies_iff (hP : P.scheme.Lawful)
    {signerSecret masterPubkey devicePubkey : Bytes32} {label platform : Text} {enrolledAt : Int64}
    {c : DeviceCertificate}
    (hc : signWithDevice P signerSecret masterPubkey devicePubkey label platform enrolledAt = .ok c)
    (eligible : List Bytes32) :
    c.verify P masterPubkey eligible = .ok () ↔
      P.publicKey signerSecret ∈ eligible ∧ P.publicKey signerSecret ≠ masterPubkey := by
  obtain ⟨hlabel, hcert⟩ := check_bind_eq_ok_iff.mp hc
  obtain rfl := Except.ok.inj hcert
  rw [verify_ok_iff, authorised_device_iff]
  constructor
  · rintro ⟨_, _, _, hauthorised, _⟩
    exact hauthorised
  · intro hauthorised
    exact ⟨rfl, rfl, validateLabel_ok_iff.mp hlabel, hauthorised,
      Ed25519.verifies_sign hP signerSecret _⟩

theorem DeviceCertificate.signWithDevice_removed {signerSecret masterPubkey devicePubkey : Bytes32}
    {label platform : Text} {enrolledAt : Int64} {c : DeviceCertificate}
    (hc : signWithDevice P signerSecret masterPubkey devicePubkey label platform enrolledAt = .ok c)
    (hremoved : P.publicKey signerSecret ∉ eligible) :
    c.verify P masterPubkey eligible = .error .unknownSigner := by
  obtain ⟨hlabel, hcert⟩ := check_bind_eq_ok_iff.mp hc
  obtain rfl := Except.ok.inj hcert
  have hany := Bool.eq_false_iff.mpr (mt any_eq_iff_mem.mp hremoved)
  simp only [verify, checkSigner, hlabel, hany, ne_eq, not_true, if_false, Bool.not_false, if_true,
    Except.bind]

theorem RevocationCertificate.signWithMaster_verifies (hP : P.scheme.Lawful)
    {master targetDevicePubkey : Bytes32} {revokedAt : Int64} {reason : RevocationReason}
    {c : RevocationCertificate}
    (hc : signWithMaster P master targetDevicePubkey revokedAt reason = .ok c)
    (eligible : List Bytes32) : c.verify P (P.publicKey master) eligible = .ok () := by
  obtain rfl := Except.ok.inj hc
  exact verify_ok_iff.mpr ⟨rfl, rfl, .master, Ed25519.verifies_sign hP master _⟩

theorem RevocationCertificate.signWithDevice_verifies_iff (hP : P.scheme.Lawful)
    {signerSecret masterPubkey targetDevicePubkey : Bytes32} {revokedAt : Int64}
    {reason : RevocationReason} {c : RevocationCertificate}
    (hc : signWithDevice P signerSecret masterPubkey targetDevicePubkey revokedAt reason = .ok c)
    (eligible : List Bytes32) :
    c.verify P masterPubkey eligible = .ok () ↔
      P.publicKey signerSecret ∈ eligible ∧ P.publicKey signerSecret ≠ masterPubkey := by
  obtain rfl := Except.ok.inj hc
  rw [verify_ok_iff, authorised_device_iff]
  constructor
  · rintro ⟨_, _, hauthorised, _⟩
    exact hauthorised
  · intro hauthorised
    exact ⟨rfl, rfl, hauthorised, Ed25519.verifies_sign hP signerSecret _⟩

theorem RevocationCertificate.signWithDevice_removed
    {signerSecret masterPubkey targetDevicePubkey : Bytes32} {revokedAt : Int64}
    {reason : RevocationReason} {c : RevocationCertificate}
    (hc : signWithDevice P signerSecret masterPubkey targetDevicePubkey revokedAt reason = .ok c)
    (hremoved : P.publicKey signerSecret ∉ eligible) :
    c.verify P masterPubkey eligible = .error .unknownSigner := by
  obtain rfl := Except.ok.inj hc
  have hany := Bool.eq_false_iff.mpr (mt any_eq_iff_mem.mp hremoved)
  simp only [verify, checkSigner, hany, ne_eq, not_true, if_false, Bool.not_false,
    if_true, Except.bind]

theorem not_authorised_filter :
    ¬ Authorised master (eligible.filter fun pk => pk != signer) .device signer := by
  intro h
  have hmem := (authorised_device_iff.mp h).1
  simp at hmem

end

/-- What the two verifiers accept: the certificates of an authorised signer, and
nothing else. The signers make them, with what they were given. -/
structure CertificateAuthority (P : Ed25519) (signed : Set (Bytes32 × Bytes)) (seen : Set Bytes) :
    Prop where
  device_iff : ∀ (c : DeviceCertificate) master eligible, c.verify P master eligible = .ok () ↔
    c.payload.certVersion = masterKeyVersion ∧ c.payload.masterPubkey = master ∧
      (utf8 c.payload.label.val).length ≤ maxLabelBytes ∧
      Authorised master eligible c.payload.signerRole c.payload.signerPubkey ∧
      P.Verifies c.payload.signerPubkey c.payload.encode c.signature
  revocation_iff : ∀ (c : RevocationCertificate) master eligible,
    c.verify P master eligible = .ok () ↔
      c.payload.certVersion = masterKeyVersion ∧ c.payload.masterPubkey = master ∧
        Authorised master eligible c.payload.signerRole c.payload.signerPubkey ∧
        P.Verifies c.payload.signerPubkey c.payload.encode c.signature
  device_signature_iff : ∀ (c : DeviceCertificate) k, c.payload.signerPubkey = P.publicKey k →
    c.signature.val ∈ seen →
    (P.Verifies c.payload.signerPubkey c.payload.encode c.signature ↔
      (k, c.payload.encode) ∈ signed ∧ c.signature = P.sign k c.payload.encode)
  revocation_signature_iff : ∀ (c : RevocationCertificate) k,
    c.payload.signerPubkey = P.publicKey k → c.signature.val ∈ seen →
    (P.Verifies c.payload.signerPubkey c.payload.encode c.signature ↔
      (k, c.payload.encode) ∈ signed ∧ c.signature = P.sign k c.payload.encode)
  device_by_master : ∀ master devicePubkey (label platform : Text) enrolledAt,
    (utf8 label.val).length ≤ maxLabelBytes →
    ∃ c, DeviceCertificate.signWithMaster P master devicePubkey label platform enrolledAt = .ok c ∧
      c.Certifies devicePubkey label platform enrolledAt ∧
      ∀ eligible, c.verify P (P.publicKey master) eligible = .ok ()
  revocation_by_master : ∀ master targetDevicePubkey revokedAt reason,
    ∃ c, RevocationCertificate.signWithMaster P master targetDevicePubkey revokedAt reason = .ok c ∧
      c.Revokes targetDevicePubkey revokedAt reason ∧
      ∀ eligible, c.verify P (P.publicKey master) eligible = .ok ()
  device_by_device : ∀ k masterPubkey devicePubkey (label platform : Text) enrolledAt,
    (utf8 label.val).length ≤ maxLabelBytes →
    ∃ c, DeviceCertificate.signWithDevice P k masterPubkey devicePubkey label platform enrolledAt =
        .ok c ∧
      c.Certifies devicePubkey label platform enrolledAt ∧
      ∀ eligible, (c.verify P masterPubkey eligible = .ok () ↔
          P.publicKey k ∈ eligible ∧ P.publicKey k ≠ masterPubkey) ∧
        (P.publicKey k ∉ eligible → c.verify P masterPubkey eligible = .error .unknownSigner)
  revocation_by_device : ∀ k masterPubkey targetDevicePubkey revokedAt reason,
    ∃ c, RevocationCertificate.signWithDevice P k masterPubkey targetDevicePubkey revokedAt reason =
        .ok c ∧
      c.Revokes targetDevicePubkey revokedAt reason ∧
      ∀ eligible, (c.verify P masterPubkey eligible = .ok () ↔
          P.publicKey k ∈ eligible ∧ P.publicKey k ≠ masterPubkey) ∧
        (P.publicKey k ∉ eligible → c.verify P masterPubkey eligible = .error .unknownSigner)
  label_limit : ∀ k masterPubkey devicePubkey (label platform : Text) enrolledAt,
    maxLabelBytes < (utf8 label.val).length →
    DeviceCertificate.signWithMaster P k devicePubkey label platform enrolledAt =
        .error (.labelTooLong (utf8 label.val).length) ∧
      DeviceCertificate.signWithDevice P k masterPubkey devicePubkey label platform enrolledAt =
        .error (.labelTooLong (utf8 label.val).length)
  same_decision : ∀ (d : DeviceCertificate) (r : RevocationCertificate),
    d.payload.signerRole = r.payload.signerRole → d.payload.signerPubkey = r.payload.signerPubkey →
    ∀ master eligible,
      d.checkSigner master eligible = (r.checkSigner master eligible).mapError
          RevocationCertError.toCertError ∧
      (d.payload.certVersion = r.payload.certVersion →
        d.payload.masterPubkey = r.payload.masterPubkey →
        (utf8 d.payload.label.val).length ≤ maxLabelBytes →
        P.verifyStrict d.payload.signerPubkey d.payload.encode d.signature =
          P.verifyStrict r.payload.signerPubkey r.payload.encode r.signature →
        d.verify P master eligible = (r.verify P master eligible).mapError
          RevocationCertError.toCertError)
  eligible_as_set : ∀ eligible eligible' : List Bytes32, (∀ pk, pk ∈ eligible ↔ pk ∈ eligible') →
    ∀ master, (∀ c : DeviceCertificate, c.verify P master eligible = c.verify P master eligible') ∧
      (∀ c : RevocationCertificate, c.verify P master eligible = c.verify P master eligible')
  monotone : ∀ eligible eligible' : List Bytes32, eligible ⊆ eligible' → ∀ master,
    (∀ c : DeviceCertificate, c.verify P master eligible = .ok () →
      c.verify P master eligible' = .ok ()) ∧
    (∀ c : RevocationCertificate, c.verify P master eligible = .ok () →
      c.verify P master eligible' = .ok ())
  removed : ∀ master (eligible : List Bytes32),
    (∀ c : DeviceCertificate, c.payload.signerRole = .device →
      c.verify P master (eligible.filter fun pk => pk != c.payload.signerPubkey) ≠ .ok ()) ∧
    (∀ c : RevocationCertificate, c.payload.signerRole = .device →
      c.verify P master (eligible.filter fun pk => pk != c.payload.signerPubkey) ≠ .ok ())

theorem certificate_authority {P : Ed25519} {signed : Set (Bytes32 × Bytes)} {seen : Set Bytes}
    (hP : P.scheme.Strong signed seen) : CertificateAuthority P signed seen where
  device_iff _ _ _ := DeviceCertificate.verify_ok_iff
  revocation_iff _ _ _ := RevocationCertificate.verify_ok_iff
  device_signature_iff c k hsigner hseen := by
    rw [hsigner]
    exact Ed25519.verifies_iff hP hseen
  revocation_signature_iff c k hsigner hseen := by
    rw [hsigner]
    exact Ed25519.verifies_iff hP hseen
  device_by_master master devicePubkey label platform enrolledAt hlabel := by
    obtain ⟨c, hc, hcertifies⟩ := @DeviceCertificate.signWithMaster_made P master devicePubkey
      label platform enrolledAt hlabel
    exact ⟨c, hc, hcertifies, DeviceCertificate.signWithMaster_verifies hP.toLawful hc⟩
  revocation_by_master master targetDevicePubkey revokedAt reason :=
    ⟨_, rfl, ⟨rfl, rfl, rfl⟩, RevocationCertificate.signWithMaster_verifies hP.toLawful rfl⟩
  device_by_device k masterPubkey devicePubkey label platform enrolledAt hlabel := by
    obtain ⟨c, hc, hcertifies⟩ := @DeviceCertificate.signWithDevice_made P k masterPubkey
      devicePubkey label platform enrolledAt hlabel
    refine ⟨c, hc, hcertifies, fun eligible => ?_⟩
    exact ⟨DeviceCertificate.signWithDevice_verifies_iff hP.toLawful hc eligible,
      DeviceCertificate.signWithDevice_removed hc⟩
  revocation_by_device k masterPubkey targetDevicePubkey revokedAt reason :=
    ⟨_, rfl, ⟨rfl, rfl, rfl⟩, fun eligible =>
      ⟨RevocationCertificate.signWithDevice_verifies_iff hP.toLawful rfl eligible,
        RevocationCertificate.signWithDevice_removed rfl⟩⟩
  label_limit k masterPubkey devicePubkey label platform enrolledAt hlong := by
    have hrefused := validateLabel_long hlong
    constructor
    · rw [DeviceCertificate.signWithMaster, hrefused]
      rfl
    · rw [DeviceCertificate.signWithDevice, hrefused]
      rfl
  same_decision d r hrole hsigner master eligible := by
    refine ⟨checkSigner_agree hrole hsigner master eligible, ?_⟩
    intro hversion hmaster hlabel hsame
    exact verify_agree hversion hmaster hrole hsigner hlabel hsame master eligible
  eligible_as_set eligible eligible' hmem master := by
    constructor
    · intro c
      rw [DeviceCertificate.verify, DeviceCertificate.verify,
        DeviceCertificate.checkSigner_congr hmem]
    · intro c
      rw [RevocationCertificate.verify, RevocationCertificate.verify,
        RevocationCertificate.checkSigner_congr hmem]
  monotone eligible eligible' hsub master := by
    constructor
    · intro c hok
      obtain ⟨hversion, hmaster, hlabel, hauthorised, hverifies⟩ :=
        DeviceCertificate.verify_ok_iff.mp hok
      exact DeviceCertificate.verify_ok_iff.mpr
        ⟨hversion, hmaster, hlabel, hauthorised.mono hsub, hverifies⟩
    · intro c hok
      obtain ⟨hversion, hmaster, hauthorised, hverifies⟩ :=
        RevocationCertificate.verify_ok_iff.mp hok
      exact RevocationCertificate.verify_ok_iff.mpr
        ⟨hversion, hmaster, hauthorised.mono hsub, hverifies⟩
  removed master eligible := by
    constructor
    · intro c hrole hok
      obtain ⟨_, _, _, hauthorised, _⟩ := DeviceCertificate.verify_ok_iff.mp hok
      rw [hrole] at hauthorised
      exact not_authorised_filter hauthorised
    · intro c hrole hok
      obtain ⟨_, _, hauthorised, _⟩ := RevocationCertificate.verify_ok_iff.mp hok
      rw [hrole] at hauthorised
      exact not_authorised_filter hauthorised

/-- What the key `filled 1` signs as the master of a laptop, and nothing else. -/
def laptopPayload : DeviceCertificatePayload where
  certVersion := masterKeyVersion
  devicePubkey := filled 2
  masterPubkey := filled 1
  label := ⟨"macbook", by decide⟩
  platform := ⟨"macos", by decide⟩
  enrolledAt := 1700000000
  signerRole := .master
  signerPubkey := filled 1

theorem certificate_authority_sample :
    CertificateAuthority (Ed25519.signOnce (filled 1) laptopPayload.encode)
        {(filled 1, laptopPayload.encode)} {List.replicate 64 1} ∧
      ∃ c, DeviceCertificate.signWithMaster (Ed25519.signOnce (filled 1) laptopPayload.encode)
          (filled 1) (filled 2) ⟨"macbook", by decide⟩ ⟨"macos", by decide⟩ 1700000000 = .ok c ∧
        c.payload = laptopPayload ∧ c.signature.val = List.replicate 64 1 ∧
        c.verify (Ed25519.signOnce (filled 1) laptopPayload.encode) (filled 1) [] = .ok () := by
  have hauthority := certificate_authority
    (Ed25519.signOnce_strong (filled 1) laptopPayload.encode)
  obtain ⟨c, hc, _, haccepted⟩ := hauthority.device_by_master (filled 1) (filled 2)
    ⟨"macbook", by decide⟩ ⟨"macos", by decide⟩ 1700000000 (by decide)
  have hmade : DeviceCertificate.signWithMaster
      (Ed25519.signOnce (filled 1) laptopPayload.encode) (filled 1) (filled 2)
      ⟨"macbook", by decide⟩ ⟨"macos", by decide⟩ 1700000000 =
      .ok ⟨laptopPayload, (Ed25519.signOnce (filled 1) laptopPayload.encode).sign (filled 1)
        laptopPayload.encode⟩ := rfl
  obtain rfl := Except.ok.inj (hc.symm.trans hmade)
  refine ⟨hauthority, _, hc, rfl, ?_, haccepted []⟩
  exact congrArg (List.replicate 64) (if_pos ⟨rfl, rfl⟩)

end GitCellar
