import GitCellar.AtRest
import GitCellar.DeviceAuthority

/-! The file-system keystore of a device: its four files, how each is replaced,
and what its operations return. -/

namespace GitCellar

inductive KeystoreError where
  | unavailable
  | sealUnavailable (msg : String)
  | notInitialized
  | noCertificate
  | noMasterPubkey
  | io (msg : String)
  | invalidKey (msg : String)
  | cert (msg : String)
  deriving DecidableEq, Repr

inductive KeyFile where
  | devicePrivate
  | devicePublic
  | deviceCert
  | masterPublic
  deriving DecidableEq, Repr

/-- The identity directory: whether it is there, its files, and the `.tmp` file
beside each. -/
structure IdentityDir where
  made : Bool
  files : KeyFile → Option Bytes
  tmps : KeyFile → Option Bytes

/-- The errors of the three steps of `write_atomic`. A failed `fs::write` leaves
no new file, or one cut after some bytes. -/
structure WriteFaults where
  write : Option (String × Option Nat)
  rename : Option String
  permissions : Option String

def writeAtomic (target : KeyFile) (contents : Bytes) (faults : WriteFaults) (d : IdentityDir) :
    Except KeystoreError Unit × IdentityDir :=
  match faults.write with
  | some (e, none) => (.error (.io e), d)
  | some (e, some n) =>
    (.error (.io e), { d with tmps := Function.update d.tmps target (some (contents.take n)) })
  | none =>
    match faults.rename with
    | some e => (.error (.io e), { d with tmps := Function.update d.tmps target (some contents) })
    | none =>
      let renamed := { d with
        files := Function.update d.files target (some contents)
        tmps := Function.update d.tmps target none }
      match faults.permissions with
      | some e => (.error (.io e), renamed)
      | none => (.ok (), renamed)

/-- What the keystore relies on: Ed25519, the opening of a sealed seed, and the
encoding of certificates. -/
structure KeystoreEnv where
  P : Ed25519
  unwrapAtRest : Bytes → Except PasskeyError Bytes
  toCbor : DeviceCertificate → Except String Bytes
  fromCbor : Bytes → Except String DeviceCertificate

/-- What one call runs into. `seed` is what `SigningKey::generate` draws. -/
structure KeystoreConditions where
  createDir : Option String
  seed : Bytes32
  sealer : Bytes32 → Except KeystoreError Bytes
  first : WriteFaults
  second : WriteFaults
  read : Option String
  unwrap : Option PasskeyError

section

variable (env : KeystoreEnv) (c : KeystoreConditions)

def openFailed (e : PasskeyError) : KeystoreError :=
  .invalidKey ("device seed at-rest open failed: " ++ e.toString)

def openDeviceSeedAtRest (unwrapFault : Option PasskeyError) (raw : Bytes) :
    Except KeystoreError Bytes :=
  if isWrapped raw then
    match unwrapFault with
    | some e => .error (openFailed e)
    | none => (env.unwrapAtRest raw).mapError openFailed
  else .ok raw

def signingKeyFromSeed (seed : Bytes) : Except KeystoreError Bytes32 :=
  if h : seed.length = 32 then .ok ⟨seed, h⟩
  else .error (.invalidKey "device private key is not 32 bytes")

def ensureDir (d : IdentityDir) : Except KeystoreError Unit × IdentityDir :=
  match c.createDir with
  | some e => (.error (.io e), d)
  | none => (.ok (), { d with made := true })

/-- The reading half of `export_pubkey` and of `export_master_pubkey`. -/
def readPubkey (file : KeyFile) (missing : KeystoreError) (name : String) (d : IdentityDir) :
    Except KeystoreError Bytes32 :=
  match d.files file with
  | none => .error missing
  | some bytes =>
    match c.read with
    | some e => .error (.io e)
    | none =>
      if h : bytes.length = 32 then
        match env.P.fromBytes ⟨bytes, h⟩ with
        | some e => .error (.invalidKey e)
        | none => .ok ⟨bytes, h⟩
      else .error (.invalidKey (name ++ " is not 32 bytes"))

def readSigningKey (d : IdentityDir) : Except KeystoreError Bytes32 :=
  match d.files .devicePrivate with
  | none => .error .notInitialized
  | some raw =>
    match c.read with
    | some e => .error (.io e)
    | none => (openDeviceSeedAtRest env c.unwrap raw).bind signingKeyFromSeed

def sign (message : Bytes) (d : IdentityDir) : Except KeystoreError Bytes64 :=
  (readSigningKey env c d).map fun seed => env.P.sign seed message

def exportPubkey (cached : Option Bytes32) (d : IdentityDir) : Except KeystoreError Bytes32 :=
  match cached with
  | some p => .ok p
  | none => readPubkey env c .devicePublic .notInitialized "device public key" d

def bothExist (d : IdentityDir) : Bool :=
  (d.files .devicePrivate).isSome && (d.files .devicePublic).isSome

/-- The writing half of `generate_device_keypair`, past the existence checks. -/
def writeKeypair (cached : Option Bytes32) (d : IdentityDir) :
    Except KeystoreError Bytes32 × Option Bytes32 × IdentityDir :=
  let pubkey := env.P.publicKey c.seed
  match c.sealer c.seed with
  | .error e => (.error e, cached, d)
  | .ok sealed =>
    match writeAtomic .devicePrivate sealed c.first d with
    | (.error e, d) => (.error e, cached, d)
    | (.ok _, d) =>
      match writeAtomic .devicePublic pubkey.val c.second d with
      | (.error e, d) => (.error e, cached, d)
      | (.ok _, d) => (.ok pubkey, some pubkey, d)

def generateDeviceKeypair (cached : Option Bytes32) (d : IdentityDir) :
    Except KeystoreError Bytes32 × Option Bytes32 × IdentityDir :=
  match ensureDir c d with
  | (.error e, d) => (.error e, cached, d)
  | (.ok _, d) =>
    if bothExist d then (exportPubkey env c cached d, cached, d) else writeKeypair env c cached d

def exportCert (d : IdentityDir) : Except KeystoreError DeviceCertificate :=
  match d.files .deviceCert with
  | none => .error .noCertificate
  | some bytes =>
    match c.read with
    | some e => .error (.io e)
    | none => (env.fromCbor bytes).mapError .cert

def importCert (cert : DeviceCertificate) (d : IdentityDir) :
    Except KeystoreError Unit × IdentityDir :=
  match ensureDir c d with
  | (.error e, d) => (.error e, d)
  | (.ok _, d) =>
    match env.toCbor cert with
    | .error e => (.error (.cert e), d)
    | .ok bytes => writeAtomic .deviceCert bytes c.first d

def exportMasterPubkey (d : IdentityDir) : Except KeystoreError Bytes32 :=
  readPubkey env c .masterPublic .noMasterPubkey "master public key" d

def importMasterPubkey (masterPubkey : Bytes32) (d : IdentityDir) :
    Except KeystoreError Unit × IdentityDir :=
  match ensureDir c d with
  | (.error e, d) => (.error e, d)
  | (.ok _, d) =>
    match env.P.fromBytes masterPubkey with
    | some e => (.error (.invalidKey e), d)
    | none => writeAtomic .masterPublic masterPubkey.val c.first d

end

inductive KeystoreOp where
  | generateDeviceKeypair
  | sign (message : Bytes)
  | exportPubkey
  | exportCert
  | importCert (cert : DeviceCertificate)
  | exportMasterPubkey
  | importMasterPubkey (masterPubkey : Bytes32)

inductive KeystoreReply where
  | pubkey (p : Bytes32)
  | signature (σ : Bytes64)
  | cert (cert : DeviceCertificate)
  | done

/-- A call on the keystore instance `id`. -/
structure KeystoreCall where
  id : Nat
  op : KeystoreOp
  conditions : KeystoreConditions

/-- The directory, and the public key each instance has cached. -/
structure KeystoreWorld where
  dir : IdentityDir
  cached : Nat → Option Bytes32

def keystoreStep (env : KeystoreEnv) (w : KeystoreWorld) (call : KeystoreCall) :
    Except KeystoreError KeystoreReply × KeystoreWorld :=
  let c := call.conditions
  match call.op with
  | .generateDeviceKeypair =>
    let (result, cached, dir) := generateDeviceKeypair env c (w.cached call.id) w.dir
    (result.map .pubkey, ⟨dir, Function.update w.cached call.id cached⟩)
  | .sign message => ((sign env c message w.dir).map .signature, w)
  | .exportPubkey => ((exportPubkey env c (w.cached call.id) w.dir).map .pubkey, w)
  | .exportCert => ((exportCert env c w.dir).map .cert, w)
  | .importCert cert =>
    let (result, dir) := importCert env c cert w.dir
    (result.map fun _ => .done, ⟨dir, w.cached⟩)
  | .exportMasterPubkey => ((exportMasterPubkey env c w.dir).map .pubkey, w)
  | .importMasterPubkey masterPubkey =>
    let (result, dir) := importMasterPubkey env c masterPubkey w.dir
    (result.map fun _ => .done, ⟨dir, w.cached⟩)

end GitCellar
