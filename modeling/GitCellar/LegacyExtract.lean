import GitCellar.Ed25519
import GitCellar.Recovery
import Mathlib.Data.List.TakeWhile

/-! The key of a legacy OpenPGP identity as raw Ed25519 bytes (`legacy_extract.rs`),
and the master that a migration makes of it (`MaterializedMaster::from_secret_bytes`). -/

namespace GitCellar

open Loops Signing Utf8

inductive LegacyExtractError where
  | badCert (msg : String)
  | notEd25519 (shown : String)
  | noSecretMaterial
  | encryptedSecret
  | pubkeyMismatch
  deriving DecidableEq, Repr

inductive LegacyCurve where
  | ed25519
  | other (shown : String)
  deriving DecidableEq

/-- `mpi::PublicKey` of the primary key. -/
inductive LegacyPublic where
  | eddsa (curve : LegacyCurve) (q : Bytes)
  | other (shown : String)
  deriving DecidableEq

inductive LegacySecretMpis where
  | eddsa (scalar : Bytes)
  | other (shown : String)
  deriving DecidableEq

inductive LegacySecret where
  | unencrypted (mpis : LegacySecretMpis)
  | encrypted
  deriving DecidableEq

/-- A certificate, as far as its primary key. -/
structure LegacyCert where
  mpis : LegacyPublic
  optionalSecret : Option LegacySecret
  deriving DecidableEq

/-- As it is written without `as_tsk`. -/
def LegacyCert.public (cert : LegacyCert) : LegacyCert := { cert with optionalSecret := none }

/-- Zeros in front, up to `n` bytes. -/
def padded (value : Bytes) (n : Nat) : Bytes := List.replicate (n - value.length) 0 ++ value

/-- An MPI's value: no zeros in front. -/
def stripped (value : Bytes) : Bytes := value.dropWhile (· == 0)

/-- What the OpenPGP library does: `MPI::value_padded` refuses a longer value, that of
a protected MPI cuts it. -/
structure LegacyPgp where
  fromBytes : Bytes → Except String LegacyCert
  serializeArmored : LegacyCert → Except String Bytes
  valuePadded : Bytes → Nat → Except String Bytes
  secretPadded : Bytes → Nat → Bytes
  utf8Error : Bytes → String
  valuePadded_fits : ∀ v n, v.length ≤ n → valuePadded v n = .ok (padded v n)
  valuePadded_long : ∀ v n, n < v.length → ∃ e, valuePadded v n = .error e
  secretPadded_eq : ∀ v n, secretPadded v n = padded (v.take n) n
  armored_text : ∀ cert b, serializeArmored cert = .ok b → IsText b
  armored_parses : ∀ cert b, serializeArmored cert = .ok b → fromBytes b = .ok cert.public

structure LegacyEd25519Keypair where
  secretSeed : Bytes32
  publicKey : Bytes32
  deriving DecidableEq

/-- The bytes where there are 32 of them. -/
def asBytes32 (b : Bytes) : Option Bytes32 := if h : b.length = 32 then some ⟨b, h⟩ else none

section

variable (L : LegacyPgp) (P : Ed25519)

def checkPoint (publicBytes : Bytes32) : Except LegacyExtractError Unit :=
  match P.fromBytes publicBytes with
  | some e => .error (.badCert e)
  | none => .ok ()

def pointOfQ (point : Bytes) : Except LegacyExtractError Bytes32 :=
  match point with
  | 0x40 :: arr =>
    match asBytes32 arr with
    | some publicBytes => .ok publicBytes
    | none => .error (.badCert (badPoint (0x40 :: arr)))
  | other => .error (.badCert (badPoint other))
where
  badPoint (point : Bytes) : String := "unexpected Ed25519 public-point encoding (len=" ++
    toString point.length ++ ", prefix=0x" ++ hexEncode [point.headD 0] ++ ")"

def pointOfMpis : LegacyPublic → Except LegacyExtractError Bytes32
  | .eddsa .ed25519 q => (L.valuePadded q 33).mapError .badCert >>= pointOfQ
  | .eddsa (.other shown) _ => .error (.notEd25519 shown)
  | .other shown => .error (.notEd25519 shown)

def ed25519PublicFromCert (cert : LegacyCert) : Except LegacyExtractError Bytes32 := do
  let publicBytes ← pointOfMpis L cert.mpis
  checkPoint P publicBytes
  return publicBytes

def seedOf (optionalSecret : Option LegacySecret) : Except LegacyExtractError Bytes32 :=
  match optionalSecret with
  | some (.unencrypted (.eddsa scalar)) =>
    match asBytes32 (L.secretPadded scalar 32) with
    | some seed => .ok seed
    | none => .error (.badCert ("Ed25519 scalar has unexpected length " ++
        toString (L.secretPadded scalar 32).length))
  | some (.unencrypted (.other shown)) => .error (.notEd25519 shown)
  | some .encrypted => .error .encryptedSecret
  | none => .error .noSecretMaterial

def extractEd25519Keypair (secretPgpBytes : Bytes) :
    Except LegacyExtractError LegacyEd25519Keypair := do
  let cert ← (L.fromBytes secretPgpBytes).mapError .badCert
  let publicBytes ← ed25519PublicFromCert L P cert
  let secretSeed ← seedOf L cert.optionalSecret
  if P.publicKey secretSeed ≠ publicBytes then
    throw .pubkeyMismatch
  checkPoint P publicBytes
  return ⟨secretSeed, publicBytes⟩

def extractEd25519PublicKey (publicPgpBytes : Bytes) : Except LegacyExtractError Bytes32 := do
  let cert ← (L.fromBytes publicPgpBytes).mapError .badCert
  ed25519PublicFromCert L P cert

def armoredPublicKey (publicPgpBytes : Bytes) : Except LegacyExtractError String := do
  let cert ← (L.fromBytes publicPgpBytes).mapError .badCert
  let buf ← (L.serializeArmored cert).mapError .badCert
  if h : IsText buf then
    return toText buf h
  else
    throw (.badCert (L.utf8Error buf))

/-- The master, and what is left in the caller's buffer. -/
def MaterializedMaster.fromSecretBytes (secretBytes : Bytes32) : MaterializedMaster × Bytes32 :=
  (⟨secretBytes, P.publicKey secretBytes⟩, filled 0)

def MaterializedMaster.sign (master : MaterializedMaster) (msg : Bytes) : Bytes64 :=
  P.sign master.secretBytes msg

end

/-- The seed that a scalar stands for. -/
def seedBytes (scalar : Bytes) : Bytes := padded (scalar.take 32) 32

theorem length_seedBytes (scalar : Bytes) : (seedBytes scalar).length = 32 := by
  rw [seedBytes, padded, List.length_append, List.length_replicate, List.length_take]
  omega

def seedOfScalar (scalar : Bytes) : Bytes32 := ⟨seedBytes scalar, length_seedBytes scalar⟩

/-- The primary key is the Ed25519 key of these bytes. -/
def LegacyCert.HasPublic (cert : LegacyCert) (publicKey : Bytes32) : Prop :=
  cert.mpis = .eddsa .ed25519 (0x40 :: publicKey.val)

theorem padded_stripped {bytes : Bytes} {n : Nat} (h : bytes.length = n) :
    padded (stripped bytes) n = bytes := by
  have hzeros : ∀ b ∈ bytes.takeWhile (· == 0), b = 0 := by
    intro b hb
    simpa using List.mem_takeWhile_imp hb
  have hsplit : bytes.takeWhile (· == 0) ++ bytes.dropWhile (· == 0) = bytes :=
    List.takeWhile_append_dropWhile
  have hlength := congrArg List.length hsplit
  rw [List.length_append] at hlength
  have hcount : n - (bytes.dropWhile (· == 0)).length = (bytes.takeWhile (· == 0)).length := by
    omega
  rw [padded, stripped, hcount, ← List.eq_replicate_of_mem hzeros]
  exact hsplit

theorem length_stripped_le (bytes : Bytes) : (stripped bytes).length ≤ bytes.length :=
  List.length_dropWhile_le _ _

/-- A seed comes back from the MPI that is made of it, zeros in front included. -/
theorem seedOfScalar_stripped (seed : Bytes32) : seedOfScalar (stripped seed.val) = seed := by
  have hle := length_stripped_le seed.val
  rw [seed.property] at hle
  apply Subtype.ext
  show padded ((stripped seed.val).take 32) 32 = seed.val
  rw [List.take_of_length_le hle]
  exact padded_stripped seed.property

theorem stripped_point (publicKey : Bytes32) :
    stripped (0x40 :: publicKey.val) = 0x40 :: publicKey.val := rfl

section

variable {L : LegacyPgp} {P : Ed25519} {cert : LegacyCert} {publicKey seed : Bytes32}
    {bytes : Bytes}

theorem asBytes32_eq_some : asBytes32 bytes = some seed ↔ bytes = seed.val := by
  rw [asBytes32]
  split
  · rw [Option.some.injEq, Subtype.ext_iff]
  · rename_i h
    refine iff_of_false nofun ?_
    rintro rfl
    exact h seed.property

theorem checkPoint_ok : checkPoint P publicKey = .ok () ↔ P.fromBytes publicKey = none := by
  rw [checkPoint]
  cases P.fromBytes publicKey with
  | none => simp
  | some e => simp

theorem pointOfQ_ok : pointOfQ bytes = .ok publicKey ↔ bytes = 0x40 :: publicKey.val := by
  rw [pointOfQ.eq_def]
  split
  · rename_i arr
    rw [List.cons.injEq, eq_self, true_and, ← asBytes32_eq_some]
    cases asBytes32 arr with
    | none => simp
    | some found => simp
  · rename_i hother
    refine iff_of_false nofun ?_
    rintro rfl
    exact hother publicKey.val rfl

/-- Nothing is in front of a point's first byte. -/
theorem padded_point {q : Bytes} (hq : q.length ≤ 33) :
    padded q 33 = 0x40 :: publicKey.val ↔ q = 0x40 :: publicKey.val := by
  constructor
  · intro h
    have hlength : 33 - q.length = 0 := by
      by_contra hne
      obtain ⟨k, hk⟩ := Nat.exists_eq_succ_of_ne_zero hne
      rw [padded, hk, List.replicate_succ, List.cons_append] at h
      exact absurd (List.cons.inj h).1 (by decide)
    rwa [padded, hlength, List.replicate_zero, List.nil_append] at h
  · rintro rfl
    rw [padded, List.length_cons, publicKey.property]
    rfl

theorem mapError_badCert_ok {α : Type} {r : Except String α} {a : α} :
    r.mapError LegacyExtractError.badCert = .ok a ↔ r = .ok a := by
  cases r with
  | error e => exact iff_of_false nofun nofun
  | ok b => simp [Except.mapError]

theorem valuePadded_point {q : Bytes} :
    L.valuePadded q 33 = .ok (0x40 :: publicKey.val) ↔ q = 0x40 :: publicKey.val := by
  by_cases hq : q.length ≤ 33
  · rw [L.valuePadded_fits q 33 hq, Except.ok.injEq, padded_point hq]
  · obtain ⟨e, he⟩ := L.valuePadded_long q 33 (by omega)
    rw [he]
    refine iff_of_false nofun ?_
    rintro rfl
    rw [List.length_cons, publicKey.property] at hq
    exact hq le_rfl

theorem pointOfMpis_ok {mpis : LegacyPublic} : pointOfMpis L mpis = .ok publicKey ↔
    mpis = .eddsa .ed25519 (0x40 :: publicKey.val) := by
  cases mpis with
  | other shown => exact iff_of_false nofun nofun
  | eddsa curve q =>
    cases curve with
    | other shown => exact iff_of_false nofun nofun
    | ed25519 =>
      simp only [pointOfMpis, bind_eq_ok_iff, mapError_badCert_ok, pointOfQ_ok,
        LegacyPublic.eddsa.injEq, true_and]
      rw [← valuePadded_point]
      constructor
      · rintro ⟨point, hpoint, rfl⟩
        exact hpoint
      · intro hpoint
        exact ⟨_, hpoint, rfl⟩

theorem ed25519PublicFromCert_ok : ed25519PublicFromCert L P cert = .ok publicKey ↔
    cert.HasPublic publicKey ∧ P.fromBytes publicKey = none := by
  simp only [ed25519PublicFromCert, bind_eq_ok_iff, pointOfMpis_ok, LegacyCert.HasPublic]
  constructor
  · rintro ⟨found, hfound, _, hcheck, hreturn⟩
    cases hreturn
    exact ⟨hfound, checkPoint_ok.mp hcheck⟩
  · rintro ⟨hmpis, hpoint⟩
    exact ⟨publicKey, hmpis, (), checkPoint_ok.mpr hpoint, rfl⟩

theorem seedOf_ok {secret : Option LegacySecret} : seedOf L secret = .ok seed ↔
    ∃ scalar, secret = some (.unencrypted (.eddsa scalar)) ∧ seedOfScalar scalar = seed := by
  have hseed : ∀ scalar, asBytes32 (L.secretPadded scalar 32) = some (seedOfScalar scalar) := by
    intro scalar
    rw [asBytes32_eq_some, L.secretPadded_eq]
    rfl
  constructor
  · intro h
    cases secret with
    | none => cases h
    | some found =>
      cases found with
      | encrypted => cases h
      | unencrypted mpis =>
        cases mpis with
        | other shown => cases h
        | eddsa scalar =>
          rw [seedOf, hseed] at h
          exact ⟨scalar, rfl, Except.ok.inj h⟩
  · rintro ⟨scalar, rfl, rfl⟩
    rw [seedOf, hseed]

/-- What is extracted, and from which files. -/
theorem extractEd25519Keypair_ok {pair : LegacyEd25519Keypair} :
    extractEd25519Keypair L P bytes = .ok pair ↔
    ∃ cert scalar, L.fromBytes bytes = .ok cert ∧ cert.HasPublic pair.publicKey ∧
      cert.optionalSecret = some (.unencrypted (.eddsa scalar)) ∧
      seedOfScalar scalar = pair.secretSeed ∧
      P.publicKey pair.secretSeed = pair.publicKey ∧ P.fromBytes pair.publicKey = none := by
  simp only [extractEd25519Keypair, bind_eq_ok_iff, mapError_badCert_ok,
    ed25519PublicFromCert_ok, seedOf_ok]
  constructor
  · rintro ⟨cert, hcert, publicBytes, ⟨hpublic, hpoint⟩, secretSeed,
      ⟨scalar, hsecret, hscalar⟩, hrest⟩
    by_cases hderived : P.publicKey secretSeed = publicBytes
    · rw [if_neg (not_not.mpr hderived)] at hrest
      obtain ⟨_, _, hreturn⟩ := bind_eq_ok_iff.mp hrest
      cases hreturn
      exact ⟨cert, scalar, hcert, hpublic, hsecret, hscalar, hderived, hpoint⟩
    · rw [if_pos hderived] at hrest
      cases hrest
  · rintro ⟨cert, scalar, hcert, hpublic, hsecret, hscalar, hderived, hpoint⟩
    refine ⟨cert, hcert, pair.publicKey, ⟨hpublic, hpoint⟩, pair.secretSeed,
      ⟨scalar, hsecret, hscalar⟩, ?_⟩
    rw [if_neg (not_not.mpr hderived)]
    exact bind_eq_ok_iff.mpr ⟨(), checkPoint_ok.mpr hpoint, rfl⟩

theorem extractEd25519PublicKey_ok : extractEd25519PublicKey L P bytes = .ok publicKey ↔
    ∃ cert, L.fromBytes bytes = .ok cert ∧ cert.HasPublic publicKey ∧
    P.fromBytes publicKey = none := by
  simp only [extractEd25519PublicKey, bind_eq_ok_iff, mapError_badCert_ok, ed25519PublicFromCert_ok]

/-- Armor keeps the public key. -/
theorem extract_armored {text : String}
    (hpublic : extractEd25519PublicKey L P bytes = .ok publicKey)
    (harmor : armoredPublicKey L bytes = .ok text) :
    extractEd25519PublicKey L P (utf8 text) = .ok publicKey := by
  obtain ⟨cert, hcert, hkey, hpoint⟩ := extractEd25519PublicKey_ok.mp hpublic
  simp only [armoredPublicKey, bind_eq_ok_iff, mapError_badCert_ok] at harmor
  obtain ⟨cert', hcert', buf, hbuf, htext⟩ := harmor
  obtain rfl : cert = cert' := Except.ok.inj (hcert.symm.trans hcert')
  rw [dif_pos (L.armored_text cert buf hbuf)] at htext
  cases htext
  rw [extractEd25519PublicKey_ok, utf8_toText]
  exact ⟨cert.public, L.armored_parses cert buf hbuf, hkey, hpoint⟩

/-- The registered certificate `registered` vouches for the master made of `pair`. -/
structure MigratedKey (L : LegacyPgp) (P : Ed25519) (signed : Set (Bytes32 × Bytes))
    (seen : Set Bytes) (registered : Bytes) (pair : LegacyEd25519Keypair) : Prop where
  extracted : extractEd25519PublicKey L P registered = .ok pair.publicKey
  armored : ∀ text, armoredPublicKey L registered = .ok text →
    extractEd25519PublicKey L P (utf8 text) = .ok pair.publicKey
  master : (MaterializedMaster.fromSecretBytes P pair.secretSeed).1.publicKey = pair.publicKey
  signs : ∀ msg, P.verifyWithPubkey pair.publicKey msg
    ((MaterializedMaster.fromSecretBytes P pair.secretSeed).1.sign P msg) = .ok ()
  only : ∀ msg sig, sig.val ∈ seen → P.verifyWithPubkey pair.publicKey msg sig = .ok () →
    (pair.secretSeed, msg) ∈ signed ∧
      sig = (MaterializedMaster.fromSecretBytes P pair.secretSeed).1.sign P msg

/-- A migration keeps the identity. The pair is extracted from exactly the files that
hold an unlocked Ed25519 key whose seed derives its public part; the certificate the
account is registered with then gives the same public key in either form, and what
verifies under it is what the new master signs. Every seed comes back as it was. -/
theorem legacy_migration {signed : Set (Bytes32 × Bytes)} {seen : Set Bytes}
    (hP : P.scheme.Strong signed seen) (L : LegacyPgp) :
    (∀ bytes pair, extractEd25519Keypair L P bytes = .ok pair ↔
      ∃ cert scalar, L.fromBytes bytes = .ok cert ∧ cert.HasPublic pair.publicKey ∧
        cert.optionalSecret = some (.unencrypted (.eddsa scalar)) ∧
        seedOfScalar scalar = pair.secretSeed ∧ P.publicKey pair.secretSeed = pair.publicKey) ∧
    (∀ bytes pair cert registered cert', extractEd25519Keypair L P bytes = .ok pair →
      L.fromBytes bytes = .ok cert → L.fromBytes registered = .ok cert' → cert'.mpis = cert.mpis →
      MigratedKey L P signed seen registered pair) ∧
    ∀ bytes cert seed, L.fromBytes bytes = .ok cert →
      cert.mpis = .eddsa .ed25519 (stripped (0x40 :: (P.publicKey seed).val)) →
      cert.optionalSecret = some (.unencrypted (.eddsa (stripped seed.val))) →
      extractEd25519Keypair L P bytes = .ok ⟨seed, P.publicKey seed⟩ := by
  have hvalid : ∀ seed, P.fromBytes (P.publicKey seed) = none := fun seed =>
    (Ed25519.verifies_sign hP.toLawful seed []).1
  refine ⟨?_, ?_, ?_⟩
  · intro bytes pair
    rw [extractEd25519Keypair_ok]
    constructor
    · rintro ⟨cert, scalar, hcert, hpublic, hsecret, hscalar, hderived, _⟩
      exact ⟨cert, scalar, hcert, hpublic, hsecret, hscalar, hderived⟩
    · rintro ⟨cert, scalar, hcert, hpublic, hsecret, hscalar, hderived⟩
      exact ⟨cert, scalar, hcert, hpublic, hsecret, hscalar, hderived, hderived ▸ hvalid _⟩
  · intro bytes pair cert registered cert' hpair hcert hregistered hsame
    obtain ⟨found, _, hfound, hpublic, _, _, hderived, hpoint⟩ := extractEd25519Keypair_ok.mp hpair
    obtain rfl : cert = found := Except.ok.inj (hcert.symm.trans hfound)
    have hextracted : extractEd25519PublicKey L P registered = .ok pair.publicKey :=
      extractEd25519PublicKey_ok.mpr ⟨cert', hregistered, hsame.trans hpublic, hpoint⟩
    refine ⟨hextracted, fun text => extract_armored hextracted, hderived, ?_, ?_⟩
    · intro msg
      rw [← hderived, Ed25519.verifyWithPubkey_ok_iff]
      exact Ed25519.verifies_sign hP.toLawful pair.secretSeed msg
    · intro msg sig hseen hverifies
      rw [← hderived, Ed25519.verifyWithPubkey_ok_iff] at hverifies
      exact (Ed25519.verifies_iff hP hseen).mp hverifies
  · intro bytes cert seed hcert hpublic hsecret
    rw [stripped_point] at hpublic
    exact extractEd25519Keypair_ok.mpr
      ⟨cert, _, hcert, hpublic, hsecret, seedOfScalar_stripped seed, rfl, hvalid seed⟩

end

/-- A seed that begins with a zero byte. -/
def shortSeed : Bytes32 := ⟨0 :: List.replicate 31 7, rfl⟩

/-- A library that knows one certificate, with and without its secret. -/
def samplePgp : LegacyPgp where
  fromBytes b :=
    if b = [1] then
      .ok ⟨.eddsa .ed25519 (0x40 :: shortSeed.val),
        some (.unencrypted (.eddsa (stripped shortSeed.val)))⟩
    else if b = [2] then .ok ⟨.eddsa .ed25519 (0x40 :: shortSeed.val), none⟩
    else .error "unexpected EOF"
  serializeArmored cert :=
    if cert.mpis =
      .eddsa .ed25519 (0x40 :: shortSeed.val) then .ok [2] else .error "not the certificate"
  valuePadded v n := if v.length ≤ n then .ok (padded v n) else .error "Input value is too long"
  secretPadded v n := padded (v.take n) n
  utf8Error _ := "invalid utf-8 sequence"
  valuePadded_fits v n h := if_pos h
  valuePadded_long v n h := ⟨_, if_neg (by omega)⟩
  secretPadded_eq _ _ := rfl
  armored_text cert b h := by
    split at h
    · cases h
      decide
    · cases h
  armored_parses cert b h := by
    split at h
    · rename_i hmpis
      cases h
      rw [if_neg (by decide), if_pos rfl, LegacyCert.public, hmpis]
    · cases h

theorem legacy_migration_sample :
    extractEd25519Keypair samplePgp (.signOnce shortSeed [7]) [1] =
        .ok ⟨shortSeed, shortSeed⟩ ∧
      MigratedKey samplePgp (.signOnce shortSeed [7]) {(shortSeed, [7])}
        {List.replicate 64 1} [2] ⟨shortSeed, shortSeed⟩ := by
  obtain ⟨_, hmigrated, hround⟩ :=
    legacy_migration (Ed25519.signOnce_strong shortSeed [7]) samplePgp
  have hpair := hround [1] _ shortSeed rfl rfl rfl
  exact ⟨hpair, hmigrated [1] _ _ [2] _ hpair rfl rfl rfl⟩

end GitCellar
