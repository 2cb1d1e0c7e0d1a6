import GitCellar.KeyRestore
import GitCellar.SealedFormat

/-! Cloud backup bundles (`cloud_backup.rs`): an identity sealed under a recovery key and
under a passkey's, kept apart by a context string. -/

namespace GitCellar

open AuthEnc Json Loops Utf8

def bundleVersion : String := "1.0"

def recoveryCodeContext : Bytes := utf8 "gitcellar-cloud-backup-recovery-code-v1"

def passkeyContext : Bytes := utf8 "gitcellar-cloud-backup-passkey-v1"

structure EncryptedPayload where
  salt : String
  nonce : String
  ciphertext : String
  deriving DecidableEq, Repr

structure PasskeyPayload where
  credentialId : String
  encrypted : EncryptedPayload
  deriving DecidableEq, Repr

structure CloudBackupBundle where
  version : String
  fingerprint : String
  userId : String
  createdAt : String
  recoveryCode : Option EncryptedPayload
  passkey : Option PasskeyPayload
  deriving DecidableEq, Repr

/-- `serde_json` at bundles: what it prints it reads back. -/
structure BundleJson where
  toStringPretty : CloudBackupBundle → Except String String
  fromStr : String → Except String CloudBackupBundle
  reads : ∀ bundle text, toStringPretty bundle = .ok text → fromStr text = .ok bundle

variable {Cert Key : Type} (A : Aes256Gcm) (hkdf : Hkdf) (P : OpenPgp Cert Key) (E : DecodeErrors)
  (J : BundleJson)

def serializeIdentity (identity : Identity Cert) : Except CryptoError Bytes :=
  ((P.armorSecret identity.cert).mapError .keySave).map utf8

def deserializeIdentity (data : Bytes) : Except CryptoError (Identity Cert) :=
  if h : IsText data then Identity.fromArmoredSecretKey P (toText data h)
  else .error (.decryption ("Invalid UTF-8 in decrypted identity: " ++ E.utf8 data))

def encryptPayload (data keyMaterial context : Bytes) (salt : Bytes32) (nonce : GcmNonce) :
    Except CryptoError EncryptedPayload :=
  match A.encrypt (hkdf salt.val keyMaterial context) nonce [] data with
  | none => .error (.encryption "Encryption failed: aead::Error")
  | some ciphertext =>
    .ok ⟨Base64.encode salt.val, Base64.encode nonce.val, Base64.encode ciphertext⟩

def decodeField (name text : String) : Run CryptoError Bytes :=
  match Base64.decode text with
  | some bytes => .ok bytes
  | none => fail (.bundleFormat ("Invalid " ++ name ++ " encoding: " ++ E.base64 text))

def decryptPayload (payload : EncryptedPayload) (keyMaterial context : Bytes) :
    Run CryptoError Bytes := do
  let salt ← decodeField E "salt" payload.salt
  let nonceBytes ← decodeField E "nonce" payload.nonce
  let ciphertext ← decodeField E "ciphertext" payload.ciphertext
  if nonceBytes.length ≠ 12 then
    fail (.bundleFormat ("Invalid nonce size: " ++ toString nonceBytes.length ++ " (expected 12)"))
  else do
    let nonce ← nonceFromSlice nonceBytes
    match A.decrypt (hkdf salt keyMaterial context) nonce [] ciphertext with
    | none => fail .invalidPassword
    | some data => .ok data

def keyLength (name : String) (keyMaterial : Bytes) : String :=
  name ++ " key material must be 32 bytes, got " ++ toString keyMaterial.length

def createWithRecoveryCode (now : String) (identity : Identity Cert) (keyMaterial : Bytes)
    (salt : Bytes32) (nonce : GcmNonce) : Except CryptoError CloudBackupBundle :=
  if keyMaterial.length ≠ 32 then .error (.encryption (keyLength "Recovery" keyMaterial))
  else do
    let identityData ← serializeIdentity P identity
    let payload ← encryptPayload A hkdf identityData keyMaterial recoveryCodeContext salt nonce
    .ok ⟨bundleVersion, P.fingerprint identity.cert, identity.userId, now, some payload, none⟩

/-- The payload that an addition would put into the bundle. -/
def passkeyPayload (fingerprint : String) (identity : Identity Cert)
    (keyMaterial credentialId : Bytes) (salt : Bytes32) (nonce : GcmNonce) :
    Except CryptoError PasskeyPayload :=
  if keyMaterial.length ≠ 32 then .error (.encryption (keyLength "Passkey" keyMaterial))
  else if P.fingerprint identity.cert ≠ fingerprint then
    .error (.encryption "Identity fingerprint does not match bundle")
  else do
    let identityData ← serializeIdentity P identity
    let encrypted ← encryptPayload A hkdf identityData keyMaterial passkeyContext salt nonce
    .ok ⟨Base64.encode credentialId, encrypted⟩

/-- `&mut self`: the bundle as the call leaves it. -/
def addPasskeyEncryption (bundle : CloudBackupBundle) (identity : Identity Cert)
    (keyMaterial credentialId : Bytes) (salt : Bytes32) (nonce : GcmNonce) :
    Except CryptoError Unit × CloudBackupBundle :=
  match passkeyPayload A hkdf P bundle.fingerprint identity keyMaterial credentialId salt nonce with
  | .error e => (.error e, bundle)
  | .ok payload => (.ok (), { bundle with passkey := some payload })

/-- The steps the two decryptions share. -/
def decryptWith (name mechanism : String) (context : Bytes) (fingerprint : String)
    (payload : Option EncryptedPayload) (keyMaterial : Bytes) : Run CryptoError (Identity Cert) :=
  if keyMaterial.length ≠ 32 then fail (.decryption (keyLength name keyMaterial))
  else
    match payload with
    | none => fail (.decryption ("Bundle does not contain " ++ mechanism ++ " encryption"))
    | some payload => do
      let identityData ← decryptPayload A hkdf E payload keyMaterial context
      let identity ← ofExcept (deserializeIdentity P E identityData)
      if P.fingerprint identity.cert ≠ fingerprint then
        fail (.decryption "Decrypted identity fingerprint does not match bundle")
      else .ok identity

def decryptWithRecoveryCode (bundle : CloudBackupBundle) (keyMaterial : Bytes) :
    Run CryptoError (Identity Cert) :=
  decryptWith A hkdf P E "Recovery" "recovery code" recoveryCodeContext bundle.fingerprint
    bundle.recoveryCode keyMaterial

def decryptWithPasskey (bundle : CloudBackupBundle) (keyMaterial : Bytes) :
    Run CryptoError (Identity Cert) :=
  decryptWith A hkdf P E "Passkey" "passkey" passkeyContext bundle.fingerprint
    (bundle.passkey.map PasskeyPayload.encrypted) keyMaterial

def CloudBackupBundle.toJson (bundle : CloudBackupBundle) : Except CryptoError String :=
  (J.toStringPretty bundle).mapError fun e => .encryption ("Failed to serialize bundle: " ++ e)

def CloudBackupBundle.fromJson (json : String) : Except CryptoError CloudBackupBundle :=
  (J.fromStr json).mapError fun e => .bundleFormat ("Failed to parse bundle JSON: " ++ e)

inductive BackupCall (Cert : Type) where
  | addPasskeyEncryption (identity : Identity Cert) (keyMaterial credentialId : Bytes)
      (salt : Bytes32) (nonce : GcmNonce)
  | jsonRoundTrip

def BackupCall.run (call : BackupCall Cert) (bundle : CloudBackupBundle) :
    Except CryptoError Unit × CloudBackupBundle :=
  match call with
  | .addPasskeyEncryption identity keyMaterial credentialId salt nonce =>
    GitCellar.addPasskeyEncryption A hkdf P bundle identity keyMaterial credentialId salt nonce
  | .jsonRoundTrip =>
    match bundle.toJson J >>= CloudBackupBundle.fromJson J with
    | .error e => (.error e, bundle)
    | .ok read => (.ok (), read)

/-- The bundle, with the identity and the key of the last addition that succeeded. -/
structure BackupState (Cert : Type) where
  bundle : CloudBackupBundle
  added : Option (Identity Cert × Bytes)

def BackupState.next (s : BackupState Cert) (call : BackupCall Cert) : BackupState Cert :=
  match call, call.run A hkdf P J s.bundle with
  | .addPasskeyEncryption identity keyMaterial _ _ _, (.ok _, bundle) =>
    ⟨bundle, some (identity, keyMaterial)⟩
  | _, (_, bundle) => ⟨bundle, s.added⟩

def backupRun (bundle : CloudBackupBundle) (calls : List (BackupCall Cert)) : BackupState Cert :=
  calls.foldl (BackupState.next A hkdf P J) ⟨bundle, none⟩

/-- What one call of `encrypt_payload` for a bundle was given. -/
structure Sealing (Cert : Type) where
  identity : Identity Cert
  keyMaterial : Bytes
  context : Bytes
  salt : Bytes32
  nonce : GcmNonce

def Sealing.Makes (x : Sealing Cert) (ciphertext : Bytes) : Prop :=
  ∃ data, serializeIdentity P x.identity = .ok data ∧
    A.encrypt (hkdf x.salt.val x.keyMaterial x.context) x.nonce [] data = some ciphertext

def Sealing.MadePayload (x : Sealing Cert) (payload : EncryptedPayload) : Prop :=
  ∃ ciphertext, x.Makes A hkdf P ciphertext ∧
    payload = ⟨Base64.encode x.salt.val, Base64.encode x.nonce.val, Base64.encode ciphertext⟩

/-- Keys derived for the sealings are derived from nothing else with their salt, and their
ciphertexts open only as they were sealed. -/
structure IdealSealings (tagSize maxMsg : Nat) (sealings : Set (Sealing Cert)) : Prop where
  derives : ∀ x ∈ sealings, ∀ keyMaterial context,
    hkdf x.salt.val x.keyMaterial x.context = hkdf x.salt.val keyMaterial context →
      x.keyMaterial = keyMaterial ∧ x.context = context
  ideal : A.Ideal tagSize maxMsg {ciphertext | ∃ x ∈ sealings, x.Makes A hkdf P ciphertext}

def BackupCall.sealing? : BackupCall Cert → Option (Sealing Cert)
  | .addPasskeyEncryption identity keyMaterial _ salt nonce =>
    some ⟨identity, keyMaterial, passkeyContext, salt, nonce⟩
  | .jsonRoundTrip => none

/-- The sealings of a bundle's making and of the additions to it. -/
def sealingsOf (first : Sealing Cert) (calls : List (BackupCall Cert)) : Set (Sealing Cert) :=
  {x | x = first ∨ ∃ call ∈ calls, call.sealing? = some x}

def readIdentity (cert : Cert) : Identity Cert := ⟨cert, (P.firstUserId cert).getD "unknown"⟩

/-- A certificate's armor is read back as that certificate. -/
def ArmorReads (cert : Cert) : Prop :=
  ∀ text, P.armorSecret cert = .ok text → P.certFromBytes text = .ok cert

structure BackupSound (first : Sealing Cert) (sealings : Set (Sealing Cert))
    (s : BackupState Cert) :
    Prop where
  fingerprint : s.bundle.fingerprint = P.fingerprint first.identity.cert
  recoveryCode : ∃ payload, s.bundle.recoveryCode = some payload ∧
    first.MadePayload A hkdf P payload
  notAdded : s.added = none → s.bundle.passkey = none
  added : ∀ identity keyMaterial, s.added = some (identity, keyMaterial) →
    keyMaterial.length = 32 ∧ P.fingerprint identity.cert = s.bundle.fingerprint ∧
      ∃ salt nonce payload, ⟨identity, keyMaterial, passkeyContext, salt, nonce⟩ ∈ sealings ∧
        s.bundle.passkey = some payload ∧ Sealing.MadePayload A hkdf P
          ⟨identity, keyMaterial, passkeyContext, salt, nonce⟩ payload.encrypted

/-- What the two keys of a bundle give, and all other keys do not. -/
structure Recovers (identity : Identity Cert) (keyMaterial : Bytes) (s : BackupState Cert) :
    Prop where
  recoveryCode : decryptWithRecoveryCode A hkdf P E s.bundle keyMaterial =
    .ok (readIdentity P identity.cert)
  otherCode : ∀ other, other ≠ keyMaterial →
    Refused (decryptWithRecoveryCode A hkdf P E s.bundle other)
  codeContext : ∀ payload other, s.bundle.recoveryCode = some payload →
    Refused (decryptPayload A hkdf E payload other passkeyContext)
  noPasskey : s.added = none → ∀ other, Refused (decryptWithPasskey A hkdf P E s.bundle other)
  passkey : ∀ added passkeyMaterial, s.added = some (added, passkeyMaterial) →
    decryptWithPasskey A hkdf P E s.bundle passkeyMaterial = .ok (readIdentity P added.cert) ∧
      ∀ other, other ≠ passkeyMaterial → Refused (decryptWithPasskey A hkdf P E s.bundle other)
  passkeyContext : ∀ payload other, s.bundle.passkey = some payload →
    Refused (decryptPayload A hkdf E payload.encrypted other recoveryCodeContext)

section

variable {A hkdf P E J} {tagSize maxMsg : Nat} {first x : Sealing Cert}
    {sealings : Set (Sealing Cert)}
  {payload : EncryptedPayload} {keyMaterial context data salt ciphertext : Bytes} {nonce : GcmNonce}
  {identity : Identity Cert} {bundle : CloudBackupBundle}

theorem decryptPayload_encoded : decryptPayload A hkdf E
      ⟨Base64.encode salt, Base64.encode nonce.val, Base64.encode ciphertext⟩ keyMaterial context =
    (A.decrypt (hkdf salt keyMaterial context) nonce [] ciphertext).elim
    (fail .invalidPassword) .ok := by
  have hnonce : (nonceFromSlice nonce.val : Run CryptoError GcmNonce) = .ok nonce :=
    dif_pos nonce.property
  simp only [decryptPayload, decodeField, Base64.decode_encode, bind, Except.bind,
    nonce.property, ne_eq, not_true_eq_false, if_false, hnonce]
  cases A.decrypt (hkdf salt keyMaterial context) nonce [] ciphertext with
  | none => rfl
  | some m => rfl

theorem decryptPayload_same (hA : A.Lawful tagSize maxMsg) (h : x.MadePayload A hkdf P payload) :
    ∃ data, serializeIdentity P x.identity = .ok data ∧
      decryptPayload A hkdf E payload x.keyMaterial x.context = .ok data := by
  obtain ⟨ciphertext, ⟨data, hdata, hc⟩, rfl⟩ := h
  refine ⟨data, hdata, ?_⟩
  rw [decryptPayload_encoded, (hA.opens_iff _ _ _ _ _).mpr hc]
  rfl

/-- A payload is refused under another key, and under the other context. -/
theorem decryptPayload_other (hideal : IdealSealings A hkdf P tagSize maxMsg sealings)
    (hx : x ∈ sealings) (h : x.MadePayload A hkdf P payload)
    (hne : ¬ (x.keyMaterial = keyMaterial ∧ x.context = context)) :
    decryptPayload A hkdf E payload keyMaterial context = fail .invalidPassword := by
  obtain ⟨ciphertext, hmakes, rfl⟩ := h
  have hnone : A.decrypt (hkdf x.salt.val keyMaterial context) x.nonce [] ciphertext = none := by
    cases hd : A.decrypt (hkdf x.salt.val keyMaterial context) x.nonce [] ciphertext with
    | none => rfl
    | some m =>
      have hsealed := (hideal.ideal.opens_iff _ _ _ _ _).mp hd
      obtain ⟨data, _, hc⟩ := id hmakes
      have hkey := (hideal.ideal.binds ciphertext ⟨x, hx, hmakes⟩ _ _ _ _ _ _ _ _ hc hsealed).1
      exact absurd (hideal.derives x hx keyMaterial context hkey) hne
  rw [decryptPayload_encoded, hnone]
  rfl

theorem IdealSealings.mono {wider : Set (Sealing Cert)}
    (h : IdealSealings A hkdf P tagSize maxMsg wider) (hsub : sealings ⊆ wider) :
    IdealSealings A hkdf P tagSize maxMsg sealings where
  derives x hx := h.derives x (hsub hx)
  ideal := h.ideal.mono fun _ ⟨x, hx, hmakes⟩ => ⟨x, hsub hx, hmakes⟩

theorem encryptPayload_ok {salt : Bytes32}
    (h : encryptPayload A hkdf data keyMaterial context salt nonce = .ok payload) :
    ∃ ciphertext, A.encrypt (hkdf salt.val keyMaterial context) nonce [] data = some ciphertext ∧
      payload = ⟨Base64.encode salt.val, Base64.encode nonce.val, Base64.encode ciphertext⟩ := by
  rw [encryptPayload] at h
  cases hc : A.encrypt (hkdf salt.val keyMaterial context) nonce [] data with
  | none =>
    rw [hc] at h
    cases h
  | some ciphertext =>
    rw [hc] at h
    exact ⟨ciphertext, rfl, (Except.ok.inj h).symm⟩

theorem createWithRecoveryCode_ok {now : String} {salt : Bytes32}
    (h : createWithRecoveryCode A hkdf P now identity keyMaterial salt nonce = .ok bundle) :
    keyMaterial.length = 32 ∧ ∃ payload,
      Sealing.MadePayload A hkdf P
        ⟨identity, keyMaterial, recoveryCodeContext, salt, nonce⟩ payload ∧
      bundle =
        ⟨bundleVersion, P.fingerprint identity.cert, identity.userId, now, some payload, none⟩ := by
  obtain ⟨hlen, hrest⟩ := ite_error_eq_ok_iff.mp h
  obtain ⟨data, hdata, hrest⟩ := bind_eq_ok_iff.mp hrest
  obtain ⟨payload, hpayload, hbundle⟩ := bind_eq_ok_iff.mp hrest
  obtain ⟨ciphertext, hc, hmade⟩ := encryptPayload_ok hpayload
  exact ⟨not_not.mp hlen, payload, ⟨ciphertext, ⟨data, hdata, hc⟩, hmade⟩,
    (Except.ok.inj hbundle).symm⟩

theorem passkeyPayload_ok {fingerprint : String} {credentialId : Bytes} {salt : Bytes32}
    {made : PasskeyPayload}
    (h : passkeyPayload A hkdf P fingerprint identity keyMaterial credentialId salt nonce =
      .ok made) :
    keyMaterial.length = 32 ∧ P.fingerprint identity.cert = fingerprint ∧
      Sealing.MadePayload A hkdf P ⟨identity, keyMaterial, passkeyContext, salt, nonce⟩
        made.encrypted := by
  obtain ⟨hlen, hrest⟩ := ite_error_eq_ok_iff.mp h
  obtain ⟨hsame, hrest⟩ := ite_error_eq_ok_iff.mp hrest
  obtain ⟨data, hdata, hrest⟩ := bind_eq_ok_iff.mp hrest
  obtain ⟨payload, hpayload, hmade⟩ := bind_eq_ok_iff.mp hrest
  obtain ⟨ciphertext, hc, hencoded⟩ := encryptPayload_ok hpayload
  rw [← Except.ok.inj hmade]
  exact ⟨not_not.mp hlen, not_not.mp hsame, ciphertext, ⟨data, hdata, hc⟩, hencoded⟩

theorem run_jsonRoundTrip : (BackupCall.jsonRoundTrip.run A hkdf P J bundle).2 = bundle := by
  cases htext : J.toStringPretty bundle with
  | error e =>
    simp only [BackupCall.run, CloudBackupBundle.toJson, htext]
    rfl
  | ok text =>
    simp only [BackupCall.run, CloudBackupBundle.toJson, htext, CloudBackupBundle.fromJson,
      Except.mapError, bind, Except.bind, J.reads bundle text htext]

theorem BackupState.next_jsonRoundTrip (s : BackupState Cert) :
    s.next A hkdf P J .jsonRoundTrip = s := by
  have hrun : (BackupCall.jsonRoundTrip.run A hkdf P J s.bundle).2 = s.bundle := run_jsonRoundTrip
  cases hresult : BackupCall.jsonRoundTrip.run A hkdf P J s.bundle with
  | mk outcome bundle =>
    rw [hresult] at hrun
    obtain rfl : bundle = s.bundle := hrun
    simp only [BackupState.next, hresult]

theorem BackupSound.next {s : BackupState Cert} {call : BackupCall Cert}
    (hs : BackupSound A hkdf P first sealings s) (hcall : ∀ x, call.sealing? = some x →
      x ∈ sealings) :
    BackupSound A hkdf P first sealings (s.next A hkdf P J call) := by
  cases call with
  | jsonRoundTrip =>
    rwa [BackupState.next_jsonRoundTrip]
  | addPasskeyEncryption identity keyMaterial credentialId salt nonce =>
    cases hmade : passkeyPayload A hkdf P s.bundle.fingerprint identity keyMaterial
        credentialId salt nonce with
    | error e => simpa only [BackupState.next, BackupCall.run, addPasskeyEncryption, hmade] using hs
    | ok payload =>
      obtain ⟨hlen, hsame, hpayload⟩ := passkeyPayload_ok hmade
      simp only [BackupState.next, BackupCall.run, addPasskeyEncryption, hmade]
      refine ⟨hs.fingerprint, hs.recoveryCode, (nomatch ·), ?_⟩
      intro added passkeyMaterial hadded
      obtain ⟨rfl, rfl⟩ := Prod.mk.inj (Option.some.inj hadded)
      exact ⟨hlen, hsame, salt, nonce, payload, hcall _ rfl, rfl, hpayload⟩

theorem BackupSound.foldl {s : BackupState Cert} {calls : List (BackupCall Cert)}
    (hs : BackupSound A hkdf P first sealings s)
    (hcalls : ∀ call ∈ calls, ∀ x, call.sealing? = some x → x ∈ sealings) :
    BackupSound A hkdf P first sealings (calls.foldl (BackupState.next A hkdf P J) s) := by
  induction calls generalizing s with
  | nil => exact hs
  | cons call calls ih =>
    have hnext := hs.next (J := J) (hcalls call List.mem_cons_self)
    exact ih hnext fun later hlater => hcalls later (List.mem_cons_of_mem call hlater)

theorem deserialize_serialize (harmor : ArmorReads P identity.cert)
    (hdata : serializeIdentity P identity = .ok data) :
    deserializeIdentity P E data = .ok (readIdentity P identity.cert) := by
  cases harmored : P.armorSecret identity.cert with
  | error e =>
    rw [serializeIdentity, harmored] at hdata
    cases hdata
  | ok secret =>
    rw [serializeIdentity, harmored] at hdata
    obtain rfl := Except.ok.inj hdata
    have htext : IsText (utf8 secret) := isText_utf8 secret
    have hback : toText (utf8 secret) htext = secret := utf8_injective (utf8_toText _ htext)
    simp only [deserializeIdentity, htext, dif_pos, hback, Identity.fromArmoredSecretKey,
      harmor secret harmored]
    rfl

section

variable {name mechanism fingerprint : String} {read : Identity Cert}

theorem decryptWith_same (hA : A.Lawful tagSize maxMsg) (hlen : x.keyMaterial.length = 32)
    (h : x.MadePayload A hkdf P payload) (harmor : ArmorReads P x.identity.cert)
    (hsame : P.fingerprint x.identity.cert = fingerprint) :
    decryptWith A hkdf P E name mechanism x.context fingerprint (some payload) x.keyMaterial =
      .ok (readIdentity P x.identity.cert) := by
  obtain ⟨data, hdata, hopen⟩ := decryptPayload_same hA (E := E) h
  have hread : deserializeIdentity P E data = .ok (readIdentity P x.identity.cert) :=
    deserialize_serialize harmor hdata
  have hfingerprint : ¬ P.fingerprint (readIdentity P x.identity.cert).cert ≠ fingerprint :=
    not_not.mpr hsame
  rw [decryptWith, if_neg (not_not.mpr hlen)]
  refine bind_eq_ok_iff.mpr ⟨data, hopen, bind_eq_ok_iff.mpr ⟨_, ofExcept_eq_ok_iff.mpr hread, ?_⟩⟩
  rw [if_neg hfingerprint]

theorem decryptWith_other (hideal : IdealSealings A hkdf P tagSize maxMsg sealings)
    (hx : x ∈ sealings) (h : x.MadePayload A hkdf P payload)
    (hne : ¬ (x.keyMaterial = keyMaterial ∧ x.context = context)) :
    Refused
      (decryptWith A hkdf P E name mechanism context fingerprint (some payload) keyMaterial) := by
  rw [decryptWith]
  exact Refused.ite_fail fun _ => Refused.bind ⟨_, decryptPayload_other hideal hx h hne⟩ _

theorem decryptWith_none :
    Refused (decryptWith A hkdf P E name mechanism context fingerprint none keyMaterial) := by
  rw [decryptWith]
  exact Refused.ite_fail fun _ => ⟨_, rfl⟩

theorem decryptWith_fingerprint {payload : Option EncryptedPayload}
    (h : decryptWith A hkdf P E name mechanism context fingerprint payload keyMaterial = .ok read) :
    P.fingerprint read.cert = fingerprint := by
  obtain ⟨_, hrest⟩ := ite_error_eq_ok_iff.mp h
  cases payload with
  | none => cases hrest
  | some payload =>
    obtain ⟨data, _, hrest⟩ := bind_eq_ok_iff.mp hrest
    obtain ⟨identity, _, hrest⟩ := bind_eq_ok_iff.mp hrest
    obtain ⟨hsame, hread⟩ := ite_error_eq_ok_iff.mp hrest
    rw [← Except.ok.inj hread]
    exact not_not.mp hsame

end

theorem answers_decodeField {name text : String} : Answers (decodeField E name text) := by
  rw [decodeField]
  cases Base64.decode text with
  | none => exact answers_fail _
  | some bytes => exact answers_ok bytes

/-- The slice that could panic is taken after its length was checked. -/
theorem answers_decryptPayload : Answers (decryptPayload A hkdf E payload keyMaterial context) := by
  refine answers_decodeField.bind fun salt => answers_decodeField.bind fun nonceBytes =>
    answers_decodeField.bind fun ciphertext => ?_
  refine Answers.ite_fail fun hlen => ?_
  have hnonce : (nonceFromSlice nonceBytes : Run CryptoError GcmNonce) =
      .ok ⟨nonceBytes, not_not.mp hlen⟩ :=
    dif_pos (not_not.mp hlen)
  rw [hnonce]
  show Answers (match A.decrypt (hkdf salt keyMaterial context) _ [] ciphertext with
    | none => (fail .invalidPassword : Run CryptoError Bytes)
    | some data => .ok data)
  cases A.decrypt (hkdf salt keyMaterial context) ⟨nonceBytes, not_not.mp hlen⟩ [] ciphertext with
  | none => exact answers_fail _
  | some data => exact answers_ok data

theorem answers_decryptWith {name mechanism fingerprint : String}
    {payload : Option EncryptedPayload} :
    Answers (decryptWith A hkdf P E name mechanism context fingerprint payload keyMaterial) := by
  cases payload with
  | none => exact .inr decryptWith_none
  | some payload =>
    rw [decryptWith]
    refine Answers.ite_fail fun _ => answers_decryptPayload.bind fun data => ?_
    exact (answers_ofExcept _).bind fun identity => Answers.ite_fail fun _ => answers_ok identity

theorem recoveryCodeContext_ne : recoveryCodeContext ≠ passkeyContext := by
  decide +kernel

theorem BackupSound.recovers {s : BackupState Cert}
    (hideal : IdealSealings A hkdf P tagSize maxMsg sealings)
    (harmor : ∀ x ∈ sealings, ArmorReads P x.identity.cert)
    (hfirst : first ∈ sealings) (hcontext : first.context = recoveryCodeContext)
    (hlen : first.keyMaterial.length = 32) (hs : BackupSound A hkdf P first sealings s) :
    Recovers A hkdf P E first.identity first.keyMaterial s := by
  have hA := hideal.ideal.toLawful
  obtain ⟨payload, hpayload, hmade⟩ := hs.recoveryCode
  refine ⟨?_, ?_, ?_, ?_, ?_, ?_⟩
  · rw [decryptWithRecoveryCode, hpayload, ← hcontext]
    exact decryptWith_same hA hlen hmade (harmor first hfirst) hs.fingerprint.symm
  · intro other hother
    rw [decryptWithRecoveryCode, hpayload]
    exact decryptWith_other hideal hfirst hmade fun h => hother h.1.symm
  · intro payload' other hpayload'
    obtain rfl := Option.some.inj (hpayload.symm.trans hpayload')
    have hother : first.context ≠ passkeyContext := hcontext ▸ recoveryCodeContext_ne
    exact ⟨_, decryptPayload_other hideal hfirst hmade fun h => hother h.2⟩
  · intro hadded other
    rw [decryptWithPasskey, hs.notAdded hadded]
    exact decryptWith_none
  · intro added passkeyMaterial hadded
    obtain ⟨hlen', hsame, salt, nonce, made, hmem, hpasskey, hmade'⟩ :=
      hs.added added passkeyMaterial hadded
    refine ⟨?_, ?_⟩
    · rw [decryptWithPasskey, hpasskey]
      exact decryptWith_same hA hlen' hmade' (harmor _ hmem) hsame
    · intro other hother
      rw [decryptWithPasskey, hpasskey]
      exact decryptWith_other hideal hmem hmade' fun h => hother h.1.symm
  · intro payload' other hpasskey'
    cases hadded : s.added with
    | none => simp only [hs.notAdded hadded, reduceCtorEq] at hpasskey'
    | some pair =>
      obtain ⟨_, _, salt, nonce, made, hmem, hpasskey, hmade'⟩ := hs.added pair.1 pair.2 hadded
      obtain rfl := Option.some.inj (hpasskey.symm.trans hpasskey')
      exact ⟨_, decryptPayload_other hideal hmem hmade' fun h => recoveryCodeContext_ne h.2.symm⟩

/-- However passkeys were added, the recovery key gives the certificate back and the last
passkey its own; whatever the bundle, decryption answers, and only with its fingerprint. -/
theorem cloudBackup_recovers :
    (∀ (tagSize maxMsg : Nat) (now : String) (identity : Identity Cert) (keyMaterial : Bytes)
      (salt : Bytes32) (nonce : GcmNonce) (bundle : CloudBackupBundle)
      (calls : List (BackupCall Cert)),
      createWithRecoveryCode A hkdf P now identity keyMaterial salt nonce = .ok bundle →
      IdealSealings A hkdf P tagSize maxMsg
        (sealingsOf ⟨identity, keyMaterial, recoveryCodeContext, salt, nonce⟩ calls) →
      (∀ x ∈ sealingsOf ⟨identity, keyMaterial, recoveryCodeContext, salt, nonce⟩ calls,
        ArmorReads P x.identity.cert) →
      Recovers A hkdf P E identity keyMaterial (backupRun A hkdf P J bundle calls)) ∧
    (∀ (bundle after : CloudBackupBundle) (identity : Identity Cert)
      (keyMaterial credentialId : Bytes) (salt : Bytes32) (nonce : GcmNonce) (e : CryptoError),
      addPasskeyEncryption A hkdf P bundle identity keyMaterial credentialId salt nonce =
        (.error e, after) → after = bundle) ∧
    (∀ (bundle : CloudBackupBundle) (keyMaterial : Bytes),
      Answers (decryptWithRecoveryCode A hkdf P E bundle keyMaterial) ∧
      Answers (decryptWithPasskey A hkdf P E bundle keyMaterial) ∧
      ∀ identity, decryptWithRecoveryCode A hkdf P E bundle keyMaterial = .ok identity ∨
        decryptWithPasskey A hkdf P E bundle keyMaterial = .ok identity →
        P.fingerprint identity.cert = bundle.fingerprint) := by
  refine ⟨?_, ?_, ?_⟩
  · intro tagSize maxMsg now identity keyMaterial salt nonce bundle calls hcreate hideal harmor
    obtain ⟨hlen, payload, hmade, rfl⟩ := createWithRecoveryCode_ok hcreate
    let first : Sealing Cert := ⟨identity, keyMaterial, recoveryCodeContext, salt, nonce⟩
    let bundle : CloudBackupBundle :=
      ⟨bundleVersion, P.fingerprint identity.cert, identity.userId, now, some payload, none⟩
    have hstart : BackupSound A hkdf P first (sealingsOf first calls) ⟨bundle, none⟩ :=
      ⟨rfl, ⟨payload, rfl, hmade⟩, fun _ => rfl, fun _ _ => (nomatch ·)⟩
    have hrun : BackupSound A hkdf P first (sealingsOf first calls)
        (backupRun A hkdf P J bundle calls) :=
      hstart.foldl fun call hcall x hx => .inr ⟨call, hcall, hx⟩
    exact hrun.recovers hideal harmor (.inl rfl) rfl hlen
  · intro bundle after identity keyMaterial credentialId salt nonce e h
    rw [addPasskeyEncryption] at h
    cases hmade : passkeyPayload A hkdf P bundle.fingerprint identity keyMaterial credentialId
      salt nonce with
    | error e' =>
      rw [hmade] at h
      exact (Prod.mk.inj h).2.symm
    | ok payload =>
      rw [hmade] at h
      exact nomatch (Prod.mk.inj h).1
  · intro bundle keyMaterial
    refine ⟨answers_decryptWith, answers_decryptWith, ?_⟩
    rintro identity (h | h)
    · exact decryptWith_fingerprint h
    · exact decryptWith_fingerprint h

end

def backupSalt : Bytes32 := ⟨List.replicate 32 0, List.length_replicate⟩

def backupNonce : GcmNonce := ⟨List.replicate 12 0, List.length_replicate⟩

def phraseKey : Bytes := List.replicate 32 1

def prfKey : Bytes := List.replicate 32 2

def codeKey : Bytes32 := ⟨phraseKey, List.length_replicate⟩

def credentialKey : Bytes32 := ⟨prfKey, List.length_replicate⟩

/-- Each mechanism derives one key, and all else derives a third. -/
def backupHkdf : Hkdf := fun _ keyMaterial context =>
  if keyMaterial = phraseKey ∧ context = recoveryCodeContext then codeKey
  else if keyMaterial = prfKey ∧ context = passkeyContext then credentialKey
  else backupSalt

def backupMark (key : Bytes32) (nonce : GcmNonce) (aad : Bytes) : UInt8 :=
  if key = codeKey ∧ nonce = backupNonce ∧ aad = [] then 1
  else if key = credentialKey ∧ nonce = backupNonce ∧ aad = [] then 2
  else 0

def backupAead : Aes256Gcm := Aead.marked 1000 16 backupMark

def backupBundle (userId : String) : CloudBackupBundle where
  version := bundleVersion
  fingerprint := onePgp.fingerprint 7
  userId := userId
  createdAt := oneNow
  recoveryCode := some ⟨Base64.encode backupSalt.val, Base64.encode backupNonce.val,
    Base64.encode (utf8 oneArmor ++ List.replicate 16 1)⟩
  passkey := none

def EncryptedPayload.text (payload : EncryptedPayload) : List Char :=
  prettyObject 1
    [("salt", quoteChars payload.salt.toList), ("nonce", quoteChars payload.nonce.toList),
      ("ciphertext", quoteChars payload.ciphertext.toList)]

/-- A bundle without a passkey, as it is printed. -/
def CloudBackupBundle.text (bundle : CloudBackupBundle) : String :=
  String.ofList (prettyObject 0 [("version", quoteChars bundle.version.toList),
    ("fingerprint", quoteChars bundle.fingerprint.toList),
    ("user_id", quoteChars bundle.userId.toList),
    ("created_at", quoteChars bundle.createdAt.toList),
    ("recovery_code", (bundle.recoveryCode.map EncryptedPayload.text).getD "null".toList),
    ("passkey", "null".toList)])

/-- The printer and the reader at one bundle. -/
def backupJson (known : CloudBackupBundle) : BundleJson where
  toStringPretty bundle := if bundle = known then .ok known.text else .error "not that bundle"
  fromStr text :=
    if text = known.text then .ok known else .error "expected value at line 1 column 1"
  reads bundle text h := by
    by_cases hknown : bundle = known
    · rw [if_pos hknown] at h
      rw [if_pos (Except.ok.inj h).symm, hknown]
    · rw [if_neg hknown] at h
      cases h

theorem backupMark_cases (k : Bytes32) (n : GcmNonce) (a : Bytes) :
    (backupMark k n a = 1 ∧ k = codeKey ∧ n = backupNonce ∧ a = []) ∨
      (backupMark k n a = 2 ∧ k = credentialKey ∧ n = backupNonce ∧ a = []) ∨
      backupMark k n a = 0 := by
  by_cases hcode : k = codeKey ∧ n = backupNonce ∧ a = []
  · exact .inl ⟨if_pos hcode, hcode⟩
  · by_cases hcredential : k = credentialKey ∧ n = backupNonce ∧ a = []
    · refine .inr (.inl ⟨?_, hcredential⟩)
      rw [backupMark, if_neg hcode, if_pos hcredential]
    · refine .inr (.inr ?_)
      rw [backupMark, if_neg hcode, if_neg hcredential]

theorem backupMark_binds (k : Bytes32) (n : GcmNonce) (a : Bytes) (k' : Bytes32)
    (n' : GcmNonce) (a' : Bytes) (hne : backupMark k n a ≠ 0)
    (hsame : backupMark k n a = backupMark k' n' a') :
    k = k' ∧ n = n' ∧ a = a' := by
  rcases backupMark_cases k n a with ⟨hm, rfl, rfl, rfl⟩ | ⟨hm, rfl, rfl, rfl⟩ | hzero
  · rcases backupMark_cases k' n' a' with ⟨hm', rfl, rfl, rfl⟩ | ⟨hm', _⟩ | hm'
    · exact ⟨rfl, rfl, rfl⟩
    · exact absurd (hm.symm.trans (hsame.trans hm')) (by decide)
    · exact absurd (hm.symm.trans (hsame.trans hm')) (by decide)
  · rcases backupMark_cases k' n' a' with ⟨hm', _⟩ | ⟨hm', rfl, rfl, rfl⟩ | hm'
    · exact absurd (hm.symm.trans (hsame.trans hm')) (by decide)
    · exact ⟨rfl, rfl, rfl⟩
    · exact absurd (hm.symm.trans (hsame.trans hm')) (by decide)
  · exact absurd hzero hne

theorem backupAead_ideal : backupAead.Ideal 16 1000 {c | ¬ List.replicate 16 0 <:+ c} :=
  Aead.marked_ideal (by decide) backupMark_binds

def codeSealing (identity : Identity Nat) : Sealing Nat :=
  ⟨identity, phraseKey, recoveryCodeContext, backupSalt, backupNonce⟩

def credentialSealing (identity : Identity Nat) : Sealing Nat :=
  ⟨identity, prfKey, passkeyContext, backupSalt, backupNonce⟩

theorem backupHkdf_derives {key : Bytes32} {keyMaterial context : Bytes}
    (h : backupHkdf backupSalt.val keyMaterial context = key) :
    (key = codeKey → keyMaterial = phraseKey ∧ context = recoveryCodeContext) ∧
      (key = credentialKey → keyMaterial = prfKey ∧ context = passkeyContext) := by
  have hkeys : codeKey ≠ credentialKey := by decide
  have hcode : codeKey ≠ backupSalt := by decide
  have hcredential : credentialKey ≠ backupSalt := by decide
  by_cases hphrase : keyMaterial = phraseKey ∧ context = recoveryCodeContext
  · rw [backupHkdf, if_pos hphrase] at h
    exact ⟨fun _ => hphrase, fun hkey => absurd (h.trans hkey) hkeys⟩
  · by_cases hprf : keyMaterial = prfKey ∧ context = passkeyContext
    · rw [backupHkdf, if_neg hphrase, if_pos hprf] at h
      exact ⟨fun hkey => absurd (hkey.symm.trans h.symm) hkeys, fun _ => hprf⟩
    · rw [backupHkdf, if_neg hphrase, if_neg hprf] at h
      exact ⟨fun hkey => absurd (hkey.symm.trans h.symm) hcode,
        fun hkey => absurd (hkey.symm.trans h.symm) hcredential⟩

theorem backupAead_code :
    backupAead.encrypt (backupHkdf backupSalt.val phraseKey recoveryCodeContext)
    backupNonce [] (utf8 oneArmor) = some (utf8 oneArmor ++ List.replicate 16 1) := by
  decide +kernel

theorem backupAead_credential : backupAead.encrypt (backupHkdf backupSalt.val prfKey passkeyContext)
    backupNonce [] (utf8 oneArmor) = some (utf8 oneArmor ++ List.replicate 16 2) := by
  decide +kernel

theorem backup_idealSealings (identity : Identity Nat) :
    IdealSealings backupAead backupHkdf onePgp 16 1000
    {codeSealing identity, credentialSealing identity} where
  derives := by
    have hcode : backupHkdf backupSalt.val phraseKey recoveryCodeContext = codeKey := by
      decide +kernel
    have hcredential : backupHkdf backupSalt.val prfKey passkeyContext = credentialKey := by
      decide +kernel
    rintro x (rfl | rfl) keyMaterial context h
    · obtain ⟨hphrase, hcontext⟩ := (backupHkdf_derives h.symm).1 hcode
      exact ⟨hphrase.symm, hcontext.symm⟩
    · obtain ⟨hprf, hcontext⟩ := (backupHkdf_derives h.symm).2 hcredential
      exact ⟨hprf.symm, hcontext.symm⟩
  ideal := by
    apply backupAead_ideal.mono
    rintro c ⟨x, hx, data, hdata, hc⟩
    show ¬ List.replicate 16 0 <:+ c
    rcases hx with rfl | rfl
    · obtain rfl : utf8 oneArmor = data := Except.ok.inj hdata
      rw [← Option.some.inj (backupAead_code.symm.trans hc)]
      decide +kernel
    · obtain rfl : utf8 oneArmor = data := Except.ok.inj hdata
      rw [← Option.some.inj (backupAead_credential.symm.trans hc)]
      decide +kernel

theorem onePgp_armorReads (cert : Nat) (h : cert = 7) : ArmorReads onePgp cert := by
  intro text htext
  obtain rfl : oneArmor = text := Except.ok.inj htext
  have hread : (if oneArmor = oneArmor then .ok 7 else .error "no armor" : Except String Nat) =
      .ok 7 :=
    if_pos rfl
  rw [h]
  exact hread

theorem createWithRecoveryCode_backup (userId : String) :
    createWithRecoveryCode backupAead backupHkdf onePgp oneNow ⟨7, userId⟩ phraseKey backupSalt
      backupNonce = .ok (backupBundle userId) := by
  have hpayload : encryptPayload backupAead backupHkdf (utf8 oneArmor) phraseKey recoveryCodeContext
      backupSalt backupNonce = .ok ⟨Base64.encode backupSalt.val, Base64.encode backupNonce.val,
        Base64.encode (utf8 oneArmor ++ List.replicate 16 1)⟩ := by
    rw [encryptPayload, backupAead_code]
  rw [createWithRecoveryCode, if_neg (by decide)]
  exact bind_eq_ok_iff.mpr ⟨_, rfl, bind_eq_ok_iff.mpr ⟨_, hpayload, rfl⟩⟩

def backupCalls : List (BackupCall Nat) :=
  [.jsonRoundTrip, .addPasskeyEncryption oneIdentity prfKey [9] backupSalt backupNonce]

def backupErrors : DecodeErrors :=
  ⟨fun _ => "Invalid symbol", fun _ => "invalid utf-8 sequence"⟩

theorem backupCalls_added (J : BundleJson) : (backupRun backupAead backupHkdf onePgp J
    (backupBundle oneIdentity.userId) backupCalls).added = some (oneIdentity, prfKey) := by
  have hencrypted : encryptPayload backupAead backupHkdf (utf8 oneArmor) prfKey passkeyContext
      backupSalt backupNonce = .ok ⟨Base64.encode backupSalt.val, Base64.encode backupNonce.val,
        Base64.encode (utf8 oneArmor ++ List.replicate 16 2)⟩ := by
    rw [encryptPayload, backupAead_credential]
  have hsame : ¬ onePgp.fingerprint oneIdentity.cert ≠ onePgp.fingerprint 7 := not_not.mpr rfl
  have hpayload : ∃ payload, passkeyPayload backupAead backupHkdf onePgp (onePgp.fingerprint 7)
      oneIdentity prfKey [9] backupSalt backupNonce = .ok payload := by
    rw [passkeyPayload, if_neg (by decide), if_neg hsame]
    exact ⟨_, bind_eq_ok_iff.mpr ⟨_, rfl, bind_eq_ok_iff.mpr ⟨_, hencrypted, rfl⟩⟩⟩
  obtain ⟨payload, hpayload⟩ := hpayload
  simp only [backupRun, backupCalls, List.foldl_cons, List.foldl_nil,
    BackupState.next_jsonRoundTrip]
  simp only [BackupState.next, BackupCall.run, addPasskeyEncryption, backupBundle, hpayload]

theorem mem_sealingsOf_backupCalls {x : Sealing Nat}
    (hx : x ∈ sealingsOf (codeSealing oneIdentity) backupCalls) :
    x = codeSealing oneIdentity ∨ x = credentialSealing oneIdentity := by
  rcases hx with hx | ⟨call, hcall, hx⟩
  · exact .inl hx
  · rcases List.mem_cons.mp hcall with rfl | hcall
    · cases hx
    · obtain rfl := List.mem_singleton.mp hcall
      exact .inr (Option.some.inj hx).symm

theorem cloudBackup_sample :
    decryptWithRecoveryCode backupAead backupHkdf onePgp backupErrors
      (backupRun backupAead backupHkdf onePgp (backupJson (backupBundle oneIdentity.userId))
        (backupBundle oneIdentity.userId) backupCalls).bundle
      phraseKey = .ok oneIdentity ∧
    decryptWithPasskey backupAead backupHkdf onePgp backupErrors
      (backupRun backupAead backupHkdf onePgp (backupJson (backupBundle oneIdentity.userId))
        (backupBundle oneIdentity.userId) backupCalls).bundle
      prfKey = .ok oneIdentity := by
  have hideal : IdealSealings backupAead backupHkdf onePgp 16 1000
      (sealingsOf (codeSealing oneIdentity) backupCalls) :=
    (backup_idealSealings oneIdentity).mono fun x hx => mem_sealingsOf_backupCalls hx
  have harmor : ∀ x ∈ sealingsOf (codeSealing oneIdentity) backupCalls,
      ArmorReads onePgp x.identity.cert := by
    intro x hx
    rcases mem_sealingsOf_backupCalls hx with rfl | rfl
    · exact onePgp_armorReads 7 rfl
    · exact onePgp_armorReads 7 rfl
  have h := (@cloudBackup_recovers Nat Nat backupAead backupHkdf onePgp backupErrors
    (backupJson (backupBundle oneIdentity.userId))).1 16 1000 oneNow oneIdentity phraseKey
    backupSalt backupNonce (backupBundle oneIdentity.userId) backupCalls
    (createWithRecoveryCode_backup _) hideal harmor
  exact ⟨h.recoveryCode, (h.passkey oneIdentity prfKey (backupCalls_added _)).1⟩

/-- `Identity::from_cert` takes any label. -/
def Identity.fromCert {Cert : Type} (cert : Cert) (userId : String) :
    Except CryptoError (Identity Cert) :=
  .ok ⟨cert, userId⟩

def relabelled : Identity Nat := ⟨7, "work laptop"⟩

theorem relabelled_not_recovered : Identity.fromCert 7 "work laptop" = .ok relabelled ∧
    IdealSealings backupAead backupHkdf onePgp 16 1000 (sealingsOf (codeSealing relabelled) []) ∧
    ArmorReads onePgp relabelled.cert ∧
    createWithRecoveryCode backupAead backupHkdf onePgp oneNow relabelled phraseKey backupSalt
      backupNonce = .ok (backupBundle relabelled.userId) ∧
    decryptWithRecoveryCode backupAead backupHkdf onePgp backupErrors
      (backupBundle relabelled.userId) phraseKey = .ok oneIdentity ∧
    oneIdentity ≠ relabelled := by
  have hideal : IdealSealings backupAead backupHkdf onePgp 16 1000
      (sealingsOf (codeSealing relabelled) []) := by
    refine (backup_idealSealings relabelled).mono ?_
    rintro x (hx | ⟨call, hcall, _⟩)
    · exact .inl hx
    · cases hcall
  have harmor : ArmorReads onePgp relabelled.cert := onePgp_armorReads 7 rfl
  have hcreate := createWithRecoveryCode_backup relabelled.userId
  refine ⟨rfl, hideal, harmor, hcreate, ?_, ?_⟩
  · obtain ⟨_, payload, hmade, hbundle⟩ := createWithRecoveryCode_ok hcreate
    rw [hbundle, decryptWithRecoveryCode]
    exact decryptWith_same hideal.ideal.toLawful (x := codeSealing relabelled)
      List.length_replicate hmade
      harmor rfl
  · intro h
    have hlabel : "alice@example.org" = "work laptop" := congrArg Identity.userId h
    exact absurd hlabel (by decide)

end GitCellar
