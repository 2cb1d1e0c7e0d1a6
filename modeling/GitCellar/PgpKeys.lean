import GitCellar.BatchSeal
import GitCellar.ChunkNames

/-! The keys of an OpenPGP certificate: which one signs, which are encrypted to, which
decrypt, and the repository's key drawn from one (`gitcellar-crypto/src/encryption.rs`). -/

namespace GitCellar

open Utf8

/-- The rest of `CryptoError`. -/
inductive EngineError where
  | crypto (e : CryptoError)
  | identityNotFound
  | noEncryptionKey
  | invalidRecoveryCode (msg : String)
  | io (msg : String)
  | other (msg : String)
  deriving DecidableEq, Repr

/-- `From<PasskeyError>` -/
def EngineError.ofPasskey : PasskeyError → EngineError
  | .identityNotFound => .identityNotFound
  | .io msg => .io msg
  | .keyLoad msg => .crypto (.keyLoad msg)
  | .keySave msg => .crypto (.keySave msg)
  | .invalidChallenge => .other "Challenge is not a well-formed nonce"
  | .invalidRecoveryCode msg => .invalidRecoveryCode msg
  | .credentialStore msg => .other ("Credential store: " ++ msg)
  | .other msg => .other msg

inductive SecretMpi where
  | ecdh (scalar : Bytes)
  | other (algorithm : String) (value : Bytes)
  deriving DecidableEq, Repr

inductive SecretKeyMaterial where
  | unencrypted (mpi : SecretMpi)
  | encrypted (blob : Bytes)
  deriving DecidableEq, Repr

/-- What the standard policy makes of a key's binding and revocation signatures. -/
structure KeyStatus where
  valid : Bool
  alive : Bool
  revoked : Bool
  forSigning : Bool
  forTransportEncryption : Bool
  forStorageEncryption : Bool
  deriving DecidableEq, Repr

structure CertKey where
  publicKey : Bytes
  supported : Bool
  secret : Option SecretKeyMaterial
  status : Nat → KeyStatus

/-- A certificate, its keys in the order it yields them. -/
structure PgpCert where
  keys : List CertKey

/-- `with_policy(policy, None).supported()` -/
def CertKey.usable (now : Nat) (k : CertKey) : Bool := (k.status now).valid && k.supported

/-- And `alive().revoked(false)`. -/
def CertKey.live (now : Nat) (k : CertKey) : Bool :=
  k.usable now && (k.status now).alive && !(k.status now).revoked

def CertKey.receives (now : Nat) (k : CertKey) : Bool :=
  k.live now && (k.status now).forTransportEncryption

def CertKey.signs (now : Nat) (k : CertKey) : Bool := k.live now && (k.status now).forSigning

/-- Two flags asked for one after the other ask for either. -/
def CertKey.decrypts (now : Nat) (k : CertKey) : Bool :=
  k.usable now && ((k.status now).forTransportEncryption || (k.status now).forStorageEncryption)

/-- The certificate's `keys()` that a chain of filters lets through. -/
def PgpCert.select (c : PgpCert) (filters : CertKey → Bool) : List CertKey := c.keys.filter filters

def CertKey.hasSecret (k : CertKey) : Bool := k.secret.isSome

def PgpCert.recipients (c : PgpCert) (now : Nat) : List CertKey := c.select (CertKey.receives now)

def PgpCert.repoKeys (c : PgpCert) (now : Nat) : List CertKey :=
  c.select fun k => k.receives now && k.hasSecret

def PgpCert.signingKeys (c : PgpCert) (now : Nat) : List CertKey :=
  c.select fun k => k.signs now && k.hasSecret

def PgpCert.decryptionKeys (c : PgpCert) (now : Nat) : List CertKey :=
  c.select fun k => k.decrypts now && k.hasSecret

def PgpCert.hasEncryptionKey (c : PgpCert) (now : Nat) : Bool := (c.repoKeys now).head?.isSome

/-- What `EncryptionEngine::new` asks of the identity. -/
def PgpCert.checkEngine (c : PgpCert) (now : Nat) : Except EngineError Unit :=
  if c.hasEncryptionKey now then .ok () else .error .noEncryptionKey

/-- Two keys are refused, none is missing. -/
def theKey (ambiguous : Nat → EngineError) (missing : EngineError) (kas : List CertKey) :
    Except EngineError CertKey :=
  if 1 < kas.length then .error (ambiguous kas.length)
  else
    match kas with
    | [] => .error missing
    | ka :: _ => .ok ka

inductive PgpError where
  | invalidKey (msg : String)
  | missingSessionKey (msg : String)
  | badSignature (msg : String)
  | malformed (msg : String)
  deriving DecidableEq, Repr

inductive MessageLayer where
  | compression
  | encryption
  | signatureGroup (results : List Bool)
  deriving DecidableEq, Repr

/-- What an encrypted message holds. A short one is read while its decryptor is made. -/
structure PgpContent where
  data : Except PgpError Bytes
  layers : List MessageLayer
  buffered : Bool

/-- The packets that hold the session key, and what a session key opens. -/
structure PgpMessage where
  pkesks : List Bytes
  unlock : Bytes → Option PgpContent

inductive SignStage where
  | create
  | write
  | finalize
  deriving DecidableEq, Repr

def SignStage.label : SignStage → String
  | .create => "Failed to create signer: "
  | .write => "Failed to write data: "
  | .finalize => "Failed to finalize: "

inductive EncryptStage where
  | armor
  | encryptor
  | literal
  | write
  | finalize
  deriving DecidableEq, Repr

def EncryptStage.label : EncryptStage → String
  | .armor => "Failed to create armor writer: "
  | .encryptor => "Failed to create encryptor: "
  | .literal => "Failed to create literal writer: "
  | .write => "Failed to write data: "
  | .finalize => "Failed to finalize: "

/-- The library's messages and signatures; `coins` are its randomness. -/
structure PgpLibrary where
  publicOf : SecretMpi → Bytes
  debug : SecretMpi → String
  display : PgpError → String
  /-- how `into_keypair` refuses an encrypted secret -/
  lockedKey : String
  /-- the date that goes into the signature, and coins -/
  sign : SecretMpi → Nat → Nat → Bytes → Except (SignStage × String) Bytes
  encrypt : List Bytes → Nat → Bytes → Except (EncryptStage × String) Bytes
  message : Bytes → Except String PgpMessage
  sessionKey : Bytes → SecretMpi → Option Bytes
  cert : String → Except String PgpCert
  /-- a detached signature to be verified under a certificate, over data to come -/
  signature : PgpCert → Nat → Bytes → Except String (Bytes → List MessageLayer)

section

variable (P : PgpLibrary)

def PgpLibrary.intoKeypair (ka : CertKey) : Except String SecretMpi :=
  match ka.secret with
  | some (.unencrypted mpi) => .ok mpi
  | _ => .error P.lockedKey

def ambiguousSigners (n : Nat) : EngineError :=
  .other
    ("ambiguous cert: " ++ toString n ++ " live, unrevoked signing subkeys with secret material " ++
      "(expected exactly 1) — refusing to sign, as the choice would be order-dependent and " ++
      "silently change which key signs across a rotation")

def signData (c : PgpCert) (now coins : Nat) (data : Bytes) : Except EngineError Bytes := do
  let ka ← theKey ambiguousSigners (.crypto .noSigningKey) (c.signingKeys now)
  let keypair ← (P.intoKeypair ka).mapError fun e => .other ("Failed to create keypair: " ++ e)
  (P.sign keypair now coins data).mapError fun e => .other (e.1.label ++ e.2)

def encryptData (c : PgpCert) (now coins : Nat) (data : Bytes) : Except EngineError Bytes :=
  let recipients := c.recipients now
  if recipients = [] then .error .noEncryptionKey
  else (P.encrypt (recipients.map CertKey.publicKey) coins data).mapError
    fun e => .crypto (.encryption (e.1.label ++ e.2))

/-- One packet that holds the session key, tried with one key after the other. -/
def tryKeys (m : PgpMessage) (pkesk : Bytes) : List CertKey → Except PgpError (Option PgpContent)
  | [] => .ok none
  | ka :: kas => do
    let keypair ← (P.intoKeypair ka).mapError fun e =>
        .invalidKey ("Failed to create keypair: " ++ e)
    match (P.sessionKey pkesk keypair).bind m.unlock with
    | some content => return some content
    | none => tryKeys m pkesk kas

/-- The helper's `decrypt`. -/
def openSession (m : PgpMessage) (kas : List CertKey) : List Bytes → Except PgpError PgpContent
  | [] => .error (.missingSessionKey "Failed to decrypt: no matching secret key found")
  | pkesk :: pkesks => do
    match ← tryKeys P m pkesk kas with
    | some content => return content
    | none => openSession m kas pkesks

/-- The helper's `check`: no signature is expected, and none is passed over. -/
def checkConfidential : List MessageLayer → Except PgpError Unit
  | [] => .ok ()
  | .encryption :: layers => checkConfidential layers
  | .compression :: layers => checkConfidential layers
  | .signatureGroup _ :: _ => .error (.badSignature ("unexpected OpenPGP signature layer on an " ++
      "encryption-only key-grant payload; this path verifies confidentiality, not signatures"))

def PgpContent.read (content : PgpContent) : Except PgpError Bytes := do
  let data ← content.data
  checkConfidential content.layers
  return data

def decryptData (c : PgpCert) (now : Nat) (encryptedData : Bytes) : Except EngineError Bytes :=
  let failed (label : String) (e : PgpError) : EngineError :=
    .crypto (.decryption (label ++ P.display e))
  match P.message encryptedData with
  | .error e => .error (.crypto (.decryption ("Failed to parse message: " ++ e)))
  | .ok m => do
    let content ← (openSession P m (c.decryptionKeys now) m.pkesks).mapError
      (failed "Failed to create decryptor: ")
    content.read.mapError (failed (if content.buffered then "Failed to create decryptor: "
      else "Failed to read decrypted data: "))

end

def kRepoInfo : Bytes := utf8 "gitcellar/krepo/v2"

def e1IdKeyInfo : Bytes := utf8 "gitcellar/chunk-name/v1"

def e1BoundaryKeyInfo : Bytes := utf8 "gitcellar/cdc-boundary/v1"

def objectKeyPrefixInfo : Bytes := utf8 "gitcellar/object-key-prefix/v1"

def Bytes32.digest (b : Bytes32) : Digest := ⟨b.val.toArray, by rw [List.size_toArray, b.property]⟩

def ambiguousRepoKeys (n : Nat) : EngineError :=
  .crypto (.encryption ("ambiguous repo cert: " ++ toString n ++ " live, unrevoked " ++
    "transport-encryption subkeys with secret material (expected exactly 1) — refusing to " ++
    "derive K_repo, as the choice would be order-dependent and diverge between parties"))

section

variable (P : PgpLibrary) (hkdf : Hkdf) (h : Hashes)

def repoScalar (ka : CertKey) : Except EngineError Bytes :=
  match ka.secret with
  | some (.unencrypted (.ecdh scalar)) => .ok scalar
  | some (.unencrypted secret) => .error (.crypto (.encryption
      ("repo encryption subkey secret is not ECDH: " ++ P.debug secret)))
  | some (.encrypted _) => .error (.crypto (.encryption
      "repo encryption subkey secret is password-encrypted; cannot derive content key"))
  | none => .error .noEncryptionKey

def deriveKRepo (c : PgpCert) (now : Nat) : Except EngineError Bytes32 := do
  let ka ← theKey ambiguousRepoKeys .noEncryptionKey (c.repoKeys now)
  let scalar ← repoScalar P ka
  return hkdf noSalt scalar kRepoInfo

def deriveE1Key (kRepo info : Bytes) : Bytes32 := hkdf noSalt kRepo info

/-- `hex(HMAC-SHA256(prefix_key, repo_id))` -/
def objectKeyPrefixHex (prefixKey : Bytes32) (repoId : String) : String :=
  hexEncode (h.hmacSha256 (Bytes32.digest prefixKey) (utf8 repoId)).toList

def deriveObjectKeyPrefix (c : PgpCert) (now : Nat) (repoUid : String) :
    Except EngineError String := do
  let kRepo ← deriveKRepo P hkdf c now
  return objectKeyPrefixHex h (deriveE1Key hkdf kRepo.val objectKeyPrefixInfo) repoUid

def certChunkKeying (c : PgpCert) (now : Nat) : Except EngineError ChunkKeying := do
  let kRepo ← deriveKRepo P hkdf c now
  let idKey := deriveE1Key hkdf kRepo.val e1IdKeyInfo
  let boundaryKey := deriveE1Key hkdf kRepo.val e1BoundaryKeyInfo
  return ChunkKeying.derive h (Bytes32.digest boundaryKey) (Bytes32.digest idKey)

end

/-- A signature layer with a good result: the loop of both `check`s. -/
def checkSignatures : List MessageLayer → Except String Unit
  | [] => .error "no valid signature over the provided data"
  | .signatureGroup results :: layers => if results.any id then .ok () else checkSignatures layers
  | _ :: layers => checkSignatures layers

/-- The errors of `passkey-core`'s verifier. -/
inductive VerifyError where
  | invalidPublicKey (msg : String)
  | invalidSignature
  deriving DecidableEq, Repr

section

variable (P : PgpLibrary)

/-- `broadcast.rs` -/
def verifyDetached (armoredPublicKey : String) (now : Nat) (data signature : Bytes) :
    Except CryptoError Bool :=
  match P.cert armoredPublicKey with
  | .error e => .error (.openPgp ("parse broadcast public key: " ++ e))
  | .ok cert =>
    match P.signature cert now signature with
    | .error _ => .ok false
    | .ok layers => .ok (checkSignatures (layers data)).isOk

def parsePublicKey (armored : String) : Except VerifyError PgpCert :=
  (P.cert armored).mapError fun e => .invalidPublicKey ("Failed to parse public key: " ++ e)

def verifyDetachedSignatureWithCert (cert : PgpCert) (now : Nat) (data signature : Bytes) :
    Except VerifyError Bool :=
  match P.signature cert now signature with
  | .error _ => .error .invalidSignature
  | .ok layers =>
    match checkSignatures (layers data) with
    | .ok _ => .ok true
    | .error _ => .ok false

/-- `verification.rs` -/
def verifyDetachedSignature (publicKeyPem : String) (now : Nat) (data signature : Bytes) :
    Except VerifyError Bool := do
  let cert ← parsePublicKey P publicKeyPem
  verifyDetachedSignatureWithCert P cert now data signature

end

end GitCellar
