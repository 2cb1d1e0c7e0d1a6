import GitCellar.AuthEnc
import GitCellar.Keywrap
import GitCellar.Traces

/-! Sealing at rest: which Local Protection Key a process of one host resolves,
and what it seals and opens with it. -/

namespace GitCellar

open AuthEnc Utf8

inductive LpkSource where
  | osKeyring
  | headless
  deriving DecidableEq, Repr

def headlessLpkEnv : String := "GITCELLAR_HEADLESS_LPK_SECRET"

def headlessLpkFileEnv : String := "GITCELLAR_HEADLESS_LPK_SECRET_FILE"

def headlessLpkMinLen : Nat := 32

def headlessLpkHkdfSalt : Bytes := utf8 "gitcellar-headless-lpk-salt/v1"

def headlessLpkHkdfInfo : Bytes := utf8 "gitcellar-headless-lpk/v1"

/-- HKDF-SHA256 of salt, input and info, 32 bytes of it. -/
abbrev Hkdf := Bytes → Bytes → Bytes → Bytes32

/-- `Hkdf::new(None, ..)`: no salt is a salt of zeros. -/
def noSalt : Bytes := List.replicate 32 0

def deriveHeadlessLpk (hkdf : Hkdf) (raw : String) : Bytes32 :=
  hkdf headlessLpkHkdfSalt (utf8 (Unicode.trim raw)) headlessLpkHkdfInfo

def headlessLpkOf (hkdf : Hkdf) (raw origin : String) : Except PasskeyError (Option Bytes32) :=
  let len := (Unicode.trim raw).length
  if len < headlessLpkMinLen then
    .error (.credentialStore ("the headless LPK secret from " ++ origin ++ " is too short (" ++
      toString len ++ " chars; at least " ++ toString headlessLpkMinLen ++ " required)"))
  else .ok (some (deriveHeadlessLpk hkdf raw))

def headlessLpkFrom (hkdf : Hkdf) (secret file : Option String)
    (readFile : String → Except String String) : Except PasskeyError (Option Bytes32) :=
  let secret := secret.filter fun v => Unicode.trim v != ""
  let file := file.filter fun v => Unicode.trim v != ""
  match secret, file with
  | none, none => .ok none
  | some _, some _ => .error (.credentialStore ("both " ++ headlessLpkEnv ++ " and " ++
      headlessLpkFileEnv ++ " are set; set exactly one"))
  | some v, none => headlessLpkOf hkdf v headlessLpkEnv
  | none, some file =>
    let path := Unicode.trim file
    match readFile path with
    | .error e => .error (.credentialStore (headlessLpkFileEnv ++ " names " ++ path ++
        ", which could not be read: " ++ e))
    | .ok v => headlessLpkOf hkdf v (headlessLpkFileEnv ++ " (" ++ path ++ ")")

/-- `str::contains`. -/
def strContains (s part : String) : Bool := s.toList.tails.any part.toList.isPrefixOf

def howToSetHeadless : String :=
  "Set " ++ headlessLpkEnv ++ " (or " ++ headlessLpkFileEnv ++
    ", a file holding it) to a secret of " ++
    "at least " ++ toString headlessLpkMinLen ++
    " characters that this host keeps; every process that " ++
    "opens the same keys needs the same value. Nothing was written."

def chooseLpk (osPersistent : Bool) (os : Except PasskeyError Bytes32)
    (headless : Except PasskeyError (Option Bytes32)) : Except PasskeyError (Bytes32 × LpkSource) :=
  if !osPersistent then
    match headless with
    | .error e => .error e
    | .ok (some key) => .ok (key, .headless)
    | .ok none =>
      .error (.credentialStore ("no persistent place for the at-rest Local Protection " ++
        "Key: this host's OS keyring (Linux kernel keyutils) forgets it at logout, reboot or " ++
        "container restart, so it is not used. " ++ howToSetHeadless))
  else
    match os with
    | .ok key => .ok (key, .osKeyring)
    | .error osErr =>
      if strContains osErr.toString lpkMissingMarker then .error osErr
      else
        match headless with
        | .error e => .error e
        | .ok (some key) => .ok (key, .headless)
        | .ok none => .error (.credentialStore ("the OS keyring is unavailable for the at-rest " ++
            "Local Protection Key (" ++ osErr.toString ++ "). " ++ howToSetHeadless))

/-- What all processes of a host share: the build's keyring, the two settings,
and the text of the file the second one names. -/
structure Setup where
  osKeyringPersistent : Bool
  secret : Option String
  file : Option String
  fileText : String

/-- What a call runs into: the keyring entry cannot be opened, its reads and
writes fail, the secret's file cannot be read; `fresh` is what it would mint. -/
structure Conditions where
  entryInit : Option String
  keyring : Faults
  fileRead : Option String
  fresh : Bytes32

/-- The host, and the key each process has cached. -/
structure AtRestWorld where
  host : Host
  cache : Nat → Option (Bytes32 × LpkSource)

abbrev GcmNonce := { b : Bytes // b.length = 12 }

abbrev Aes256Gcm := Aead Bytes32 GcmNonce

def keywrapMagic : Bytes := utf8 "GCKW0001"

def isWrapped (data : Bytes) : Bool := keywrapMagic.isPrefixOf data

theorem isWrapped_magic (body : Bytes) : isWrapped (keywrapMagic ++ body) = true := by
  rw [isWrapped, List.isPrefixOf_iff_prefix]
  exact List.prefix_append keywrapMagic body

def wrapWithKey (A : Aes256Gcm) (plaintext : Bytes) (key : Bytes32) (nonce : GcmNonce) :
    Except PasskeyError Bytes :=
  match A.encrypt key nonce [] plaintext with
  | none => .error (.other "at-rest seal failed: aead::Error")
  | some ciphertext => .ok (keywrapMagic ++ nonce.val ++ ciphertext)

def wrongKeyOrTampered : PasskeyError := .other "at-rest open failed: wrong key or tampered data"

def unwrapWithKey (A : Aes256Gcm) (data : Bytes) (key : Bytes32) : Except PasskeyError Bytes :=
  if !isWrapped data then
    .error (.other "at-rest payload is not wrapped (missing magic header)")
  else
    let body := data.drop keywrapMagic.length
    if h : body.length < 12 then .error (.other "at-rest payload truncated (no nonce)")
    else
      match A.decrypt key ⟨body.take 12, List.length_take_of_le (Nat.le_of_not_lt h)⟩ []
        (body.drop 12) with
      | none => .error wrongKeyOrTampered
      | some plaintext => .ok plaintext

inductive AtRestOp where
  | wrap (plaintext : Bytes) (nonce : GcmNonce)
  | unwrap (data : Bytes)
  | remint

structure AtRestCall where
  pid : Nat
  op : AtRestOp
  conditions : Conditions

/-- The key the call resolved, with its source, and what it returned; a call
that needs no key resolves none. -/
structure AtRestOutcome where
  resolved : Option (Except PasskeyError (Bytes32 × LpkSource))
  result : Except PasskeyError Bytes
  deriving DecidableEq

section

variable (hkdf : Hkdf) (A : Aes256Gcm) (base64Error : String → String) (markerPath : String)
  (setup : Setup)

def hostHeadlessLpk (fileRead : Option String) : Except PasskeyError (Option Bytes32) :=
  headlessLpkFrom hkdf setup.secret setup.file fun _ =>
    match fileRead with
    | some e => .error e
    | none => .ok setup.fileText

/-- `resolve_lpk` over the entry `KeyringLpkStore::new` opens. -/
def osLpk (mode : LpkMode) (c : Conditions) (h : Host) : Except PasskeyError Bytes32 × Host :=
  match c.entryInit with
  | some e => (.error (.credentialStore ("LPK entry init failed: " ++ e)), h)
  | none =>
    let outcome := resolveLpk base64Error markerPath mode c.fresh c.keyring h
    (outcome.result, outcome.host)

/-- The keyring is called only where it is persistent. -/
def resolveHostLpk (mode : LpkMode) (c : Conditions) (h : Host) :
    Except PasskeyError (Bytes32 × LpkSource) × Host :=
  let os := osLpk base64Error markerPath mode c h
  (chooseLpk setup.osKeyringPersistent os.1 (hostHeadlessLpk hkdf setup c.fileRead),
    if setup.osKeyringPersistent then os.2 else h)

/-- Resolve anew, and cache a key that was found. -/
def resolveAndCache (pid : Nat) (mode : LpkMode) (c : Conditions) (w : AtRestWorld) :
    Except PasskeyError (Bytes32 × LpkSource) × AtRestWorld :=
  let resolved := resolveHostLpk hkdf base64Error markerPath setup mode c w.host
  (resolved.1, ⟨resolved.2, match resolved.1 with
    | .ok found => Function.update w.cache pid (some found)
    | .error _ => w.cache⟩)

def cachedLpk (pid : Nat) (mode : LpkMode) (c : Conditions) (w : AtRestWorld) :
    Except PasskeyError (Bytes32 × LpkSource) × AtRestWorld :=
  match w.cache pid with
  | some cached => (.ok cached, w)
  | none => resolveAndCache hkdf base64Error markerPath setup pid mode c w

def atRestStep (w : AtRestWorld) (call : AtRestCall) : AtRestOutcome × AtRestWorld :=
  match call.op with
  | .wrap plaintext nonce =>
    let (found, w) :=
      cachedLpk hkdf base64Error markerPath setup call.pid .sealing call.conditions w
    (⟨some found, found.bind fun found => wrapWithKey A plaintext found.1 nonce⟩, w)
  | .unwrap data =>
    if !isWrapped data then (⟨none, .ok data⟩, w)
    else
      let (found, w) :=
        cachedLpk hkdf base64Error markerPath setup call.pid .opening call.conditions w
      (⟨some found, found.bind fun found => unwrapWithKey A data found.1⟩, w)
  | .remint =>
    let (found, w) :=
      resolveAndCache hkdf base64Error markerPath setup call.pid .remint call.conditions w
    (⟨some found, found.map fun _ => []⟩, w)

end

end GitCellar
