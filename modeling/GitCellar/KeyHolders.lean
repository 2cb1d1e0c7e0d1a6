import GitCellar.PgpKeys
import GitCellar.SignedStatements
import Mathlib.Logic.Relation

/-! What the holders of one certificate agree on, whatever order its keys come in, and what
stays readable while keys are added, revoked and expire. -/

namespace GitCellar

/-- A certificate at a time. -/
structure Snapshot where
  cert : PgpCert
  now : Nat

namespace Snapshot

def repoSecrets (s : Snapshot) : List (Option SecretKeyMaterial) :=
  (s.cert.repoKeys s.now).map CertKey.secret

def signingSecrets (s : Snapshot) : List (Option SecretKeyMaterial) :=
  (s.cert.signingKeys s.now).map CertKey.secret

/-- No secret that opened messages is gone from the later certificate. -/
def Keeps (s t : Snapshot) : Prop :=
  ∀ k ∈ s.cert.decryptionKeys s.now, ∃ k' ∈ t.cert.decryptionKeys t.now,
    k'.publicKey = k.publicKey ∧ k'.secret = k.secret

/-- No secret is behind a password. -/
def Unlocked (s : Snapshot) : Prop :=
  ∀ k ∈ s.cert.decryptionKeys s.now, ∃ mpi, k.secret = some (.unencrypted mpi)

/-- The decryption keys an encryption to `publicKeys` is for. -/
def Reads (s : Snapshot) (publicKeys : List Bytes) : Prop :=
  ∃ k ∈ s.cert.decryptionKeys s.now, k.publicKey ∈ publicKeys

end Snapshot

/-- A secret is the secret of the public key it comes with. -/
def PgpCert.Paired (P : PgpLibrary) (c : PgpCert) : Prop :=
  ∀ k ∈ c.keys, ∀ mpi, k.secret = some (.unencrypted mpi) → P.publicOf mpi = k.publicKey

/-- What the library documents of encryption: the recipients' secrets open a message, no other
secret does, and its packets lead to one content. -/
structure PgpLibrary.Encrypts (P : PgpLibrary) : Prop where
  opens : ∀ recipients coins data b, P.encrypt recipients coins data = .ok b →
    ∃ m content, P.message b = .ok m ∧ content.read = .ok data ∧
      (∀ pkesk ∈ m.pkesks, ∀ mpi found,
        (P.sessionKey pkesk mpi).bind m.unlock = some found → found = content) ∧
      (∀ mpi, P.publicOf mpi ∈ recipients →
        ∃ pkesk ∈ m.pkesks, ((P.sessionKey pkesk mpi).bind m.unlock).isSome) ∧
      ∀ pkesk ∈ m.pkesks, ∀ mpi, ((P.sessionKey pkesk mpi).bind m.unlock).isSome →
        P.publicOf mpi ∈ recipients

/-- What it documents of signatures: from its date on, one is good under every certificate in
which its key signs, at that date and now. -/
structure PgpLibrary.Signs (P : PgpLibrary) : Prop where
  accepted : ∀ mpi date coins m σ, P.sign mpi date coins m = .ok σ →
    ∀ (c : PgpCert) now, date ≤ now → ∀ k ∈ c.keys, k.publicKey = P.publicOf mpi →
      k.signs date = true → k.signs now = true →
      ∃ layers results, P.signature c now σ = .ok layers ∧
        .signatureGroup results ∈ layers m ∧ true ∈ results

variable {P : PgpLibrary} {hkdf : Hkdf} {h : Hashes} {s t u : Snapshot}

section

variable {ambiguous : Nat → EngineError} {missing : EngineError} {kas kas' : List CertKey}

theorem theKey_ok_iff {ka : CertKey} : theKey ambiguous missing kas = .ok ka ↔ kas = [ka] := by
  cases kas with
  | nil => simp [theKey]
  | cons k rest =>
    cases rest with
    | nil => simp [theKey]
    | cons k' rest => simp [theKey]

theorem theKey_many (hmany : 1 < kas.length) :
    theKey ambiguous missing kas = .error (ambiguous kas.length) := if_pos hmany

/-- What is made of the key depends on its secret alone, so the order of the keys does not show. -/
theorem theKey_bind_congr {β : Type} {f : CertKey → Except EngineError β}
    (hf : ∀ k k', k.secret = k'.secret → f k = f k')
    (hsecrets : (kas.map CertKey.secret).Perm (kas'.map CertKey.secret)) :
    (theKey ambiguous missing kas >>= f) = (theKey ambiguous missing kas' >>= f) := by
  have hlen : kas.length = kas'.length := by
    have hmapped := hsecrets.length_eq
    rwa [List.length_map, List.length_map] at hmapped
  cases kas with
  | nil =>
    obtain rfl : kas' = [] := List.eq_nil_of_length_eq_zero hlen.symm
    rfl
  | cons k rest =>
    cases rest with
    | nil =>
      obtain ⟨k', rfl⟩ : ∃ k', kas' = [k'] := List.length_eq_one_iff.mp hlen.symm
      have hsecret : k.secret = k'.secret := by
        have heq := List.perm_singleton.mp hsecrets.symm
        exact (List.cons.inj heq).1.symm
      exact hf k k' hsecret
    | cons k' rest =>
      have hmany : 1 < (k :: k' :: rest).length := by
        simp only [List.length_cons]
        omega
      rw [theKey_many hmany, theKey_many (hlen ▸ hmany), hlen]

end

theorem repoScalar_congr {k k' : CertKey} (hsecret : k.secret = k'.secret) :
    repoScalar P k = repoScalar P k' := by
  unfold repoScalar
  rw [hsecret]

theorem intoKeypair_congr {k k' : CertKey} (hsecret : k.secret = k'.secret) :
    P.intoKeypair k = P.intoKeypair k' := by
  unfold PgpLibrary.intoKeypair
  rw [hsecret]

theorem deriveKRepo_congr (hsecrets : s.repoSecrets.Perm t.repoSecrets) :
    deriveKRepo P hkdf s.cert s.now = deriveKRepo P hkdf t.cert t.now := by
  refine theKey_bind_congr ?_ hsecrets
  intro k k' hsecret
  rw [repoScalar_congr hsecret]

theorem signData_congr (htime : s.now = t.now)
    (hsecrets : s.signingSecrets.Perm t.signingSecrets) (coins : Nat) (data : Bytes) :
    signData P s.cert s.now coins data = signData P t.cert t.now coins data := by
  rw [htime]
  rw [Snapshot.signingSecrets, htime] at hsecrets
  refine theKey_bind_congr ?_ hsecrets
  intro k k' hsecret
  rw [intoKeypair_congr hsecret]

theorem select_perm {c c' : PgpCert} (hkeys : c.keys.Perm c'.keys) (filters : CertKey → Bool) :
    (c.select filters).Perm (c'.select filters) := hkeys.filter filters

theorem intoKeypair_ok_iff {k : CertKey} {mpi : SecretMpi} :
    P.intoKeypair k = .ok mpi ↔ k.secret = some (.unencrypted mpi) := by
  unfold PgpLibrary.intoKeypair
  cases hsecret : k.secret with
  | none => simp
  | some material =>
    cases material with
    | unencrypted mpi' => simp
    | encrypted blob => simp

theorem repoScalar_ok_iff {k : CertKey} {scalar : Bytes} :
    repoScalar P k = .ok scalar ↔ k.secret = some (.unencrypted (.ecdh scalar)) := by
  unfold repoScalar
  cases hsecret : k.secret with
  | none => simp
  | some material =>
    cases material with
    | encrypted blob => simp
    | unencrypted mpi =>
      cases mpi with
      | ecdh scalar' => simp
      | other algorithm value => simp

/-- Exactly one live transport subkey has its secret here, and that is an ECDH scalar. -/
theorem deriveKRepo_ok_iff {kRepo : Bytes32} : deriveKRepo P hkdf s.cert s.now = .ok kRepo ↔
    ∃ ka scalar, s.cert.repoKeys s.now = [ka] ∧ ka.secret = some (.unencrypted (.ecdh scalar)) ∧
      kRepo = hkdf noSalt scalar kRepoInfo := by
  unfold deriveKRepo
  constructor
  · intro hderived
    cases hkey : theKey ambiguousRepoKeys .noEncryptionKey (s.cert.repoKeys s.now) with
    | error e =>
      rw [hkey] at hderived
      cases hderived
    | ok ka =>
      rw [hkey] at hderived
      cases hscalar : repoScalar P ka with
      | error e =>
        simp only [bind, Except.bind, hscalar] at hderived
        cases hderived
      | ok scalar =>
        simp only [bind, Except.bind, hscalar] at hderived
        exact ⟨ka, scalar, theKey_ok_iff.mp hkey, repoScalar_ok_iff.mp hscalar,
          (Except.ok.inj hderived).symm⟩
  · rintro ⟨ka, scalar, honly, hsecret, rfl⟩
    have hkey : theKey ambiguousRepoKeys .noEncryptionKey (s.cert.repoKeys s.now) = .ok ka :=
      theKey_ok_iff.mpr honly
    rw [hkey]
    have hscalar : repoScalar P ka = .ok scalar := repoScalar_ok_iff.mpr hsecret
    simp only [bind, Except.bind, hscalar]
    rfl

theorem signData_ok_iff {coins : Nat} {data σ : Bytes} :
    signData P s.cert s.now coins data = .ok σ ↔
      ∃ ka mpi, s.cert.signingKeys s.now = [ka] ∧ ka.secret = some (.unencrypted mpi) ∧
        P.sign mpi s.now coins data = .ok σ := by
  unfold signData
  constructor
  · intro hsigned
    cases hkey : theKey ambiguousSigners (.crypto .noSigningKey) (s.cert.signingKeys s.now) with
    | error e =>
      rw [hkey] at hsigned
      cases hsigned
    | ok ka =>
      rw [hkey] at hsigned
      cases hpair : P.intoKeypair ka with
      | error e =>
        simp only [bind, Except.bind, hpair] at hsigned
        cases hsigned
      | ok mpi =>
        simp only [bind, Except.bind, hpair] at hsigned
        exact ⟨ka, mpi, theKey_ok_iff.mp hkey, intoKeypair_ok_iff.mp hpair, mapError_ok hsigned⟩
  · rintro ⟨ka, mpi, honly, hsecret, hsigned⟩
    have hkey : theKey ambiguousSigners (.crypto .noSigningKey) (s.cert.signingKeys s.now) =
        .ok ka :=
      theKey_ok_iff.mpr honly
    have hpair : P.intoKeypair ka = .ok mpi := intoKeypair_ok_iff.mpr hsecret
    rw [hkey]
    simp only [bind, Except.bind, hpair, hsigned, Except.mapError]

theorem exists_mpis {kas : List CertKey}
    (hunlocked : ∀ k ∈ kas, ∃ mpi, k.secret = some (.unencrypted mpi)) :
    ∃ mpis : List SecretMpi,
      kas.map CertKey.secret = mpis.map fun mpi => some (.unencrypted mpi) := by
  induction kas with
  | nil => exact ⟨[], rfl⟩
  | cons k kas ih =>
    obtain ⟨mpi, hmpi⟩ := hunlocked k List.mem_cons_self
    obtain ⟨mpis, hmpis⟩ := ih fun k' hk' => hunlocked k' (List.mem_cons_of_mem _ hk')
    refine ⟨mpi :: mpis, ?_⟩
    rw [List.map_cons, List.map_cons, hmpi, hmpis]

section

variable {m : PgpMessage} {kas : List CertKey} {mpis : List SecretMpi}

theorem tryKeys_unlocked (pkesk : Bytes)
    (hsecrets : kas.map CertKey.secret = mpis.map fun mpi => some (.unencrypted mpi)) :
    tryKeys P m pkesk kas =
    .ok (mpis.findSome? fun mpi => (P.sessionKey pkesk mpi).bind m.unlock) := by
  induction kas generalizing mpis with
  | nil =>
    obtain rfl : mpis = [] := List.map_eq_nil_iff.mp hsecrets.symm
    rfl
  | cons k kas ih =>
    cases mpis with
    | nil => simp at hsecrets
    | cons mpi mpis =>
      obtain ⟨hsecret, hrest⟩ := List.cons.inj hsecrets
      have hpair : P.intoKeypair k = .ok mpi := intoKeypair_ok_iff.mpr hsecret
      simp only [tryKeys, hpair, Except.mapError, bind, Except.bind, List.findSome?_cons]
      cases (P.sessionKey pkesk mpi).bind m.unlock with
      | none => exact ih hrest
      | some content => rfl

/-- The first packet that some key opens to a session key that fits. -/
theorem openSession_unlocked (pkesks : List Bytes)
    (hsecrets : kas.map CertKey.secret = mpis.map fun mpi => some (.unencrypted mpi)) :
    openSession P m kas pkesks =
      match pkesks.findSome? fun pkesk =>
        mpis.findSome? fun mpi => (P.sessionKey pkesk mpi).bind m.unlock with
      | some content => .ok content
      | none => .error (.missingSessionKey "Failed to decrypt: no matching secret key found") := by
  induction pkesks with
  | nil => rfl
  | cons pkesk pkesks ih =>
    simp only [openSession, tryKeys_unlocked pkesk hsecrets, bind, Except.bind, List.findSome?_cons]
    cases mpis.findSome? fun mpi => (P.sessionKey pkesk mpi).bind m.unlock with
    | none => exact ih
    | some content => rfl

end

theorem mem_select {c : PgpCert} {filters : CertKey → Bool} {k : CertKey} :
    k ∈ c.select filters ↔ k ∈ c.keys ∧ filters k = true := List.mem_filter

def unreadable (P : PgpLibrary) : EngineError :=
  .crypto (.decryption ("Failed to create decryptor: " ++
    P.display (.missingSessionKey "Failed to decrypt: no matching secret key found")))

theorem reads_iff_secrets {mpis : List SecretMpi} {recipients : List Bytes}
    (hpaired : t.cert.Paired P)
    (hmpis : (t.cert.decryptionKeys t.now).map CertKey.secret =
      mpis.map fun mpi => some (.unencrypted mpi)) :
    t.Reads recipients ↔ ∃ mpi ∈ mpis, P.publicOf mpi ∈ recipients := by
  constructor
  · rintro ⟨k, hk, hrecipient⟩
    have hlisted := List.mem_map_of_mem (f := CertKey.secret) hk
    rw [hmpis] at hlisted
    obtain ⟨mpi, hmpi, hsecret⟩ := List.mem_map.mp hlisted
    refine ⟨mpi, hmpi, ?_⟩
    rwa [hpaired k (mem_select.mp hk).1 mpi hsecret.symm]
  · rintro ⟨mpi, hmpi, hrecipient⟩
    have hlisted : some (.unencrypted mpi) ∈
        (t.cert.decryptionKeys t.now).map CertKey.secret := by
      rw [hmpis]
      exact List.mem_map_of_mem hmpi
    obtain ⟨k, hk, hsecret⟩ := List.mem_map.mp hlisted
    refine ⟨k, hk, ?_⟩
    rwa [← hpaired k (mem_select.mp hk).1 mpi hsecret]

/-- What comes of an encryption to `recipients`: the data where a decryption key is one of them,
else the refusal that no key matches. -/
theorem decryptData_encrypted (hP : P.Encrypts) (hpaired : t.cert.Paired P) (hunlocked : t.Unlocked)
    {recipients : List Bytes} {coins : Nat} {data b : Bytes}
    (hb : P.encrypt recipients coins data = .ok b) :
    (t.Reads recipients → decryptData P t.cert t.now b = .ok data) ∧
      (¬ t.Reads recipients → decryptData P t.cert t.now b = .error (unreadable P)) := by
  obtain ⟨m, content, hm, hread, hunique, hopens, honly⟩ := hP.opens recipients coins data b hb
  obtain ⟨mpis, hmpis⟩ := exists_mpis hunlocked
  have hsession := openSession_unlocked (P := P) (m := m) m.pkesks hmpis
  rw [reads_iff_secrets hpaired hmpis]
  cases hfound : m.pkesks.findSome? fun pkesk =>
      mpis.findSome? fun mpi => (P.sessionKey pkesk mpi).bind m.unlock with
  | none =>
    have hnone : ¬ ∃ mpi ∈ mpis, P.publicOf mpi ∈ recipients := by
      rintro ⟨mpi, hmem, hrecipient⟩
      obtain ⟨pkesk, hpkesk, hopen⟩ := hopens mpi hrecipient
      have hclosed := List.findSome?_eq_none_iff.mp
        (List.findSome?_eq_none_iff.mp hfound pkesk hpkesk) mpi hmem
      rw [hclosed] at hopen
      cases hopen
    refine ⟨fun hreads => absurd hreads hnone, fun _ => ?_⟩
    rw [hfound] at hsession
    simp only [decryptData, hm, hsession, Except.mapError, bind, Except.bind]
    rfl
  | some found =>
    obtain ⟨pkesk, hpkesk, htried⟩ := List.exists_of_findSome?_eq_some hfound
    obtain ⟨mpi, hmem, hopen⟩ := List.exists_of_findSome?_eq_some htried
    have hreads : P.publicOf mpi ∈ recipients := honly pkesk hpkesk mpi (by rw [hopen]; rfl)
    refine ⟨fun _ => ?_, fun hnone => absurd ⟨mpi, hmem, hreads⟩ hnone⟩
    obtain rfl := hunique pkesk hpkesk mpi found hopen
    rw [hfound] at hsession
    simp only [decryptData, hm, hsession, Except.mapError, bind, Except.bind, hread]

theorem receives_of_repoKey {k : CertKey} (hk : k ∈ s.cert.repoKeys s.now) :
    k ∈ s.cert.recipients s.now ∧ k ∈ s.cert.decryptionKeys s.now := by
  obtain ⟨hmem, hfilters⟩ := mem_select.mp hk
  obtain ⟨hreceives, hsecret⟩ := Bool.and_eq_true_iff.mp hfilters
  refine ⟨mem_select.mpr ⟨hmem, hreceives⟩, mem_select.mpr ⟨hmem, ?_⟩⟩
  simp only [CertKey.receives, CertKey.live, Bool.and_eq_true] at hreceives
  simp only [CertKey.decrypts, Bool.and_eq_true, Bool.or_eq_true]
  exact ⟨⟨hreceives.1.1.1, .inl hreceives.2⟩, hsecret⟩

theorem checkEngine_ok_iff {c : PgpCert} {now : Nat} :
    c.checkEngine now = .ok () ↔ ∃ k, k ∈ c.repoKeys now := by
  unfold PgpCert.checkEngine PgpCert.hasEncryptionKey
  cases c.repoKeys now with
  | nil => simp
  | cons k kas => simp

theorem encryptData_ok {coins : Nat} {data b : Bytes}
    (hb : encryptData P s.cert s.now coins data = .ok b) :
    P.encrypt ((s.cert.recipients s.now).map CertKey.publicKey) coins data = .ok b := by
  unfold encryptData at hb
  by_cases hnone : s.cert.recipients s.now = []
  · rw [if_pos hnone] at hb
    cases hb
  · rw [if_neg hnone] at hb
    exact mapError_ok hb

namespace Snapshot

theorem Reads.mono {publicKeys : List Bytes} (hkeeps : s.Keeps t) (hreads : s.Reads publicKeys) :
    t.Reads publicKeys := by
  obtain ⟨k, hk, hrecipient⟩ := hreads
  obtain ⟨k', hk', hpublic, _⟩ := hkeeps k hk
  exact ⟨k', hk', by rwa [hpublic]⟩

theorem Reads.later {publicKeys : List Bytes} (hlater : Relation.ReflTransGen Keeps s t)
    (hreads : s.Reads publicKeys) : t.Reads publicKeys := by
  induction hlater with
  | refl => exact hreads
  | tail _ hkeeps ih => exact ih.mono hkeeps

theorem reads_of_checkEngine (hnew : s.cert.checkEngine s.now = .ok ()) :
    s.Reads ((s.cert.recipients s.now).map CertKey.publicKey) := by
  obtain ⟨k, hk⟩ := checkEngine_ok_iff.mp hnew
  obtain ⟨hrecipient, hdecrypts⟩ := receives_of_repoKey hk
  exact ⟨k, hdecrypts, List.mem_map_of_mem hrecipient⟩

end Snapshot

/-- What an engine encrypts it reads at every later time, keys being added, revoked and left to
expire in between, and so does every other holder of a recipient's secret; nobody else does. -/
theorem encrypted_stays_readable (hP : P.Encrypts) {coins : Nat} {data b : Bytes}
    (hnew : s.cert.checkEngine s.now = .ok ())
    (hb : encryptData P s.cert s.now coins data = .ok b) :
    (∀ t, Relation.ReflTransGen Snapshot.Keeps s t → t.cert.Paired P → t.Unlocked →
      decryptData P t.cert t.now b = .ok data) ∧
    ∀ t : Snapshot, t.cert.Paired P → t.Unlocked →
      (t.Reads ((s.cert.recipients s.now).map CertKey.publicKey) →
        decryptData P t.cert t.now b = .ok data) ∧
      (¬ t.Reads ((s.cert.recipients s.now).map CertKey.publicKey) →
        decryptData P t.cert t.now b = .error (unreadable P)) := by
  have hencrypted := encryptData_ok hb
  constructor
  · intro t hlater hpaired hunlocked
    have hreads := (Snapshot.reads_of_checkEngine hnew).later hlater
    exact (decryptData_encrypted hP hpaired hunlocked hencrypted).1 hreads
  · intro t hpaired hunlocked
    exact decryptData_encrypted hP hpaired hunlocked hencrypted

theorem repoSecrets_of_derived {kRepo : Bytes32}
    (hk : deriveKRepo P hkdf s.cert s.now = .ok kRepo) :
    ∃ scalar, s.repoSecrets = [some (.unencrypted (.ecdh scalar))] ∧
      kRepo = hkdf noSalt scalar kRepoInfo := by
  obtain ⟨ka, scalar, honly, hsecret, hkRepo⟩ := deriveKRepo_ok_iff.mp hk
  refine ⟨scalar, ?_, hkRepo⟩
  rw [Snapshot.repoSecrets, honly, List.map_singleton, hsecret]

theorem certChunkKeying_congr (hsecrets : s.repoSecrets.Perm t.repoSecrets) :
    certChunkKeying P hkdf h s.cert s.now = certChunkKeying P hkdf h t.cert t.now := by
  rw [certChunkKeying, certChunkKeying, deriveKRepo_congr hsecrets]

theorem deriveObjectKeyPrefix_congr (hsecrets : s.repoSecrets.Perm t.repoSecrets)
    (repoUid : String) :
    deriveObjectKeyPrefix P hkdf h s.cert s.now repoUid =
      deriveObjectKeyPrefix P hkdf h t.cert t.now repoUid := by
  rw [deriveObjectKeyPrefix, deriveObjectKeyPrefix, deriveKRepo_congr hsecrets]

theorem deriveKRepo_refused (hnone : s.cert.repoKeys s.now = []) :
    deriveKRepo P hkdf s.cert s.now = .error .noEncryptionKey := by
  unfold deriveKRepo
  rw [hnone]
  rfl

theorem deriveKRepo_ambiguous (hmany : 1 < (s.cert.repoKeys s.now).length) :
    deriveKRepo P hkdf s.cert s.now =
    .error (ambiguousRepoKeys (s.cert.repoKeys s.now).length) := by
  unfold deriveKRepo
  rw [theKey_many hmany]
  rfl

/-- The repository's key, its names and its prefix come from the secrets of the live transport
subkeys: no order of the keys, no other key and no time shows in them. -/
structure RepoKeyDetermined (P : PgpLibrary) (hkdf : Hkdf) (h : Hashes) (s : Snapshot) : Prop where
  secrets : ∀ t : Snapshot, s.repoSecrets.Perm t.repoSecrets →
    deriveKRepo P hkdf s.cert s.now = deriveKRepo P hkdf t.cert t.now ∧
    certChunkKeying P hkdf h s.cert s.now = certChunkKeying P hkdf h t.cert t.now ∧
    ∀ repoUid, deriveObjectKeyPrefix P hkdf h s.cert s.now repoUid =
      deriveObjectKeyPrefix P hkdf h t.cert t.now repoUid
  order : ∀ c : PgpCert, s.cert.keys.Perm c.keys →
    s.repoSecrets.Perm (Snapshot.repoSecrets ⟨c, s.now⟩) ∧
    (s.cert.recipients s.now).Perm (c.recipients s.now) ∧
    ∀ coins data, signData P s.cert s.now coins data = signData P c s.now coins data
  /-- the key it comes from is one that messages are encrypted to -/
  received : ∀ kRepo, deriveKRepo P hkdf s.cert s.now = .ok kRepo →
    s.cert.checkEngine s.now = .ok () ∧ ∃ ka ∈ s.cert.recipients s.now, ∃ scalar,
      s.repoSecrets = [ka.secret] ∧ ka.secret = some (.unencrypted (.ecdh scalar)) ∧
      kRepo = hkdf noSalt scalar kRepoInfo
  owned : ∀ (t : Snapshot) kRepo, deriveKRepo P hkdf s.cert s.now = .ok kRepo →
    deriveKRepo P hkdf t.cert t.now = .ok kRepo →
    (∀ a b, some (.unencrypted (.ecdh a)) ∈ s.repoSecrets →
      some (.unencrypted (.ecdh b)) ∈ t.repoSecrets →
      hkdf noSalt a kRepoInfo = hkdf noSalt b kRepoInfo → a = b) →
    s.repoSecrets = t.repoSecrets
  missing : s.repoSecrets = [] → deriveKRepo P hkdf s.cert s.now = .error .noEncryptionKey
  ambiguous : 1 < s.repoSecrets.length →
    deriveKRepo P hkdf s.cert s.now = .error (ambiguousRepoKeys s.repoSecrets.length)

theorem repo_key_determined (P : PgpLibrary) (hkdf : Hkdf) (h : Hashes) (s : Snapshot) :
    RepoKeyDetermined P hkdf h s := by
  refine ⟨?_, ?_, ?_, ?_, ?_, ?_⟩
  · intro t hsecrets
    exact ⟨deriveKRepo_congr hsecrets, certChunkKeying_congr hsecrets,
      fun repoUid => deriveObjectKeyPrefix_congr hsecrets repoUid⟩
  · intro c hkeys
    refine ⟨(select_perm hkeys _).map _, select_perm hkeys _, ?_⟩
    intro coins data
    have hsigning : s.signingSecrets.Perm (Snapshot.signingSecrets ⟨c, s.now⟩) :=
      (select_perm hkeys _).map _
    exact signData_congr (s := s) (t := ⟨c, s.now⟩) rfl hsigning coins data
  · intro kRepo hderived
    obtain ⟨ka, scalar, honly, hsecret, hkRepo⟩ := deriveKRepo_ok_iff.mp hderived
    have hka : ka ∈ s.cert.repoKeys s.now := by
      rw [honly]
      exact List.mem_cons_self
    refine ⟨checkEngine_ok_iff.mpr ⟨ka, hka⟩, ka, (receives_of_repoKey hka).1, scalar, ?_, hsecret,
      hkRepo⟩
    rw [Snapshot.repoSecrets, honly, List.map_singleton]
  · intro t kRepo hs ht hapart
    obtain ⟨a, ha, hka⟩ := repoSecrets_of_derived hs
    obtain ⟨b, hb, hkb⟩ := repoSecrets_of_derived ht
    have hsame : a = b := by
      refine hapart a b ?_ ?_ (hka.symm.trans hkb)
      · rw [ha]
        exact List.mem_cons_self
      · rw [hb]
        exact List.mem_cons_self
    rw [ha, hb, hsame]
  · intro hnone
    exact deriveKRepo_refused (List.map_eq_nil_iff.mp hnone)
  · intro hmany
    rw [Snapshot.repoSecrets, List.length_map] at hmany ⊢
    exact deriveKRepo_ambiguous hmany

theorem checkSignatures_ok {layers : List MessageLayer} {results : List Bool}
    (hlayer : .signatureGroup results ∈ layers) (hgood : true ∈ results) :
    checkSignatures layers = .ok () := by
  induction layers with
  | nil => cases hlayer
  | cons layer layers ih =>
    rcases List.mem_cons.mp hlayer with heq | hmem
    · have hany : results.any id = true := List.any_eq_true.mpr ⟨true, hgood, rfl⟩
      rw [← heq, checkSignatures, if_pos hany]
    · cases layer with
      | compression => exact ih hmem
      | encryption => exact ih hmem
      | signatureGroup others =>
        rw [checkSignatures]
        by_cases hany : others.any id = true
        · rw [if_pos hany]
        · rw [if_neg hany]
          exact ih hmem

/-- The two verifiers accept the same signatures under the same keys. What is no signature at all
is false to one and an error to the other. -/
theorem verifiers_agree (P : PgpLibrary) (armored : String) (now : Nat) (m σ : Bytes) :
    (verifyDetached P armored now m σ = .ok true ↔
      verifyDetachedSignature P armored now m σ = .ok true) ∧
    (verifyDetached P armored now m σ = .ok false ↔
      verifyDetachedSignature P armored now m σ = .ok false ∨
      verifyDetachedSignature P armored now m σ = .error .invalidSignature) ∧
    ∀ e, verifyDetached P armored now m σ =
      .error (.openPgp ("parse broadcast public key: " ++ e)) ↔
      verifyDetachedSignature P armored now m σ =
        .error (.invalidPublicKey ("Failed to parse public key: " ++ e)) := by
  unfold verifyDetached verifyDetachedSignature parsePublicKey verifyDetachedSignatureWithCert
  cases hcert : P.cert armored with
  | error e => simp [Except.mapError, bind, Except.bind]
  | ok c =>
    cases hsignature : P.signature c now σ with
    | error e => simp [Except.mapError, bind, Except.bind, hsignature]
    | ok layers =>
      cases hcheck : checkSignatures (layers m) with
      | error e =>
        simp [Except.mapError, bind, Except.bind, hsignature, hcheck, Except.isOk, Except.toBool]
      | ok u =>
        simp [Except.mapError, bind, Except.bind, hsignature, hcheck, Except.isOk, Except.toBool]

/-- The certificate as others have it: the same keys, of the same standing, secrets aside. -/
def PgpCert.PublicPart (c published : PgpCert) (now : Nat) : Prop :=
  ∀ k ∈ c.keys, ∃ k' ∈ published.keys,
    k'.publicKey = k.publicKey ∧ k'.supported = k.supported ∧ k'.status now = k.status now

theorem signs_of_signingKey {k : CertKey} (hk : k ∈ s.cert.signingKeys s.now) :
    k ∈ s.cert.keys ∧ k.signs s.now = true := by
  obtain ⟨hmem, hfilters⟩ := mem_select.mp hk
  exact ⟨hmem, (Bool.and_eq_true_iff.mp hfilters).1⟩

/-- Both verifiers take the signature for the data's. -/
def PgpLibrary.Accepts (P : PgpLibrary) (armored : String) (now : Nat) (m σ : Bytes) : Prop :=
  verifyDetached P armored now m σ = .ok true ∧ verifyDetachedSignature P armored now m σ = .ok true

/-- The loop of both checks gets to the good result, whatever layers and results there are. -/
theorem signature_accepted (hP : P.Signs) {mpi : SecretMpi} {date coins : Nat} {m σ : Bytes}
    (hσ : P.sign mpi date coins m = .ok σ) {armored : String} {published : PgpCert}
    (hcert : P.cert armored = .ok published) {now : Nat} (hdate : date ≤ now) {k : CertKey}
    (hk : k ∈ published.keys) (hkey : k.publicKey = P.publicOf mpi)
    (hthen : k.signs date = true) (hnow : k.signs now = true) : P.Accepts armored now m σ := by
  obtain ⟨layers, results, hlayers, hgroup, hgood⟩ :=
    hP.accepted mpi date coins m σ hσ published now hdate k hk hkey hthen hnow
  have haccepted : verifyDetached P armored now m σ = .ok true := by
    simp only [verifyDetached, hcert, hlayers, checkSignatures_ok hgroup hgood]
    rfl
  exact ⟨haccepted, (verifiers_agree P armored now m σ).1.mp haccepted⟩

theorem PgpCert.PublicPart.signs {c published : PgpCert} {now : Nat}
    (hpublic : c.PublicPart published now) {k : CertKey} (hk : k ∈ c.keys)
    (hsigns : k.signs now = true) :
    ∃ k' ∈ published.keys, k'.publicKey = k.publicKey ∧ k'.signs now = true := by
  obtain ⟨k', hk', hkey, hsupported, hstatus⟩ := hpublic k hk
  refine ⟨k', hk', hkey, ?_⟩
  unfold CertKey.signs CertKey.live CertKey.usable at hsigns ⊢
  rwa [hsupported, hstatus]

/-- What `sign_data` signs, both verifiers accept at once under the published certificate, and
from then on under any certificate in which the one key it can have signed with still signs. -/
theorem signData_verifies (hP : P.Signs) {coins : Nat} {m σ : Bytes} (hpaired : s.cert.Paired P)
    (hσ : signData P s.cert s.now coins m = .ok σ) :
    ∃ ka, s.cert.signingKeys s.now = [ka] ∧
      ∀ armored published, P.cert armored = .ok published →
        (s.cert.PublicPart published s.now → P.Accepts armored s.now m σ) ∧
        ∀ now, s.now ≤ now → ∀ k ∈ published.keys, k.publicKey = ka.publicKey →
          k.signs s.now = true → k.signs now = true → P.Accepts armored now m σ := by
  obtain ⟨ka, mpi, honly, hsecret, hsigned⟩ := signData_ok_iff.mp hσ
  have hka : ka ∈ s.cert.signingKeys s.now := by
    rw [honly]
    exact List.mem_cons_self
  obtain ⟨hmem, hsigns⟩ := signs_of_signingKey hka
  have hpair : ka.publicKey = P.publicOf mpi := (hpaired ka hmem mpi hsecret).symm
  refine ⟨ka, honly, fun armored published hcert => ⟨?_, ?_⟩⟩
  · intro hpublic
    obtain ⟨k, hk, hkey, hlive⟩ := hpublic.signs hmem hsigns
    exact signature_accepted hP hsigned hcert (Nat.le_refl _) hk (hkey.trans hpair) hlive hlive
  · intro now hlater k hk hkey hthen hnow
    exact signature_accepted hP hsigned hcert hlater hk (hkey.trans hpair) hthen hnow

/-- The key that is revoked at time 2, the one that is live from then on, and one that signs
until it expires at time 9. -/
def sampleKey (publicKey : UInt8) (secret : Option SecretKeyMaterial)
    (status : Nat → KeyStatus) : CertKey :=
  ⟨[publicKey], true, secret, status⟩

def oldKey : CertKey := sampleKey 1 (some (.unencrypted (.ecdh [1]))) fun now =>
  ⟨true, true, decide (2 ≤ now), false, true, false⟩

def newKey : CertKey := sampleKey 2 (some (.unencrypted (.ecdh [2]))) fun now =>
  ⟨true, decide (2 ≤ now), false, false, true, false⟩

def signingKey (secret : Option SecretKeyMaterial) : CertKey := sampleKey 3 secret fun now =>
  ⟨true, decide (now < 9), false, true, false, false⟩

def beforeRotation : Snapshot :=
  ⟨⟨[oldKey, signingKey (some (.unencrypted (.other "EdDSA" [3])))]⟩, 1⟩

def afterRotation : Snapshot :=
  ⟨⟨[newKey, oldKey, signingKey (some (.unencrypted (.other "EdDSA" [3])))]⟩, 2⟩

/-- A message names its one recipient, a signature its date and its key. -/
def toyPgp : PgpLibrary where
  publicOf
    | .ecdh scalar => scalar
    | .other _ value => value
  debug _ := "secret"
  display _ := "refused"
  lockedKey := "secret key is encrypted"
  sign
    | .ecdh _, _, _, _ => .error (.create, "not a signing key")
    | .other _ value, date, _, m =>
      if date < 256 then .ok (UInt8.ofNat date :: (value ++ m))
      else .error (.finalize, "time is not representable")
  encrypt
    | [[x]], _, data => .ok (x :: data)
    | _, _, _ => .error (.encryptor, "one recipient")
  message
    | [] => .error "empty"
    | x :: data => .ok ⟨[[x]], fun key =>
        if key = [7] then some ⟨.ok data, [.encryption], true⟩ else none⟩
  sessionKey pkesk
    | .ecdh scalar => if scalar = pkesk then some [7] else none
    | .other _ value => if value = pkesk then some [7] else none
  cert _ := .ok ⟨[oldKey, newKey, signingKey none]⟩
  signature c now
    | [] => .error "no signature"
    | date :: σ => .ok fun data => [.signatureGroup (c.keys.map fun k =>
        decide (date.toNat ≤ now) && k.signs date.toNat && σ == k.publicKey ++ data)]

theorem toyPgp_sessionKey {pkesk : Bytes} {mpi : SecretMpi} :
    toyPgp.sessionKey pkesk mpi = if toyPgp.publicOf mpi = pkesk then some [7] else none := by
  cases mpi with
  | ecdh scalar => rfl
  | other algorithm value => rfl

theorem toyPgp_encrypts : toyPgp.Encrypts where
  opens recipients coins data b hb := by
    match recipients with
    | [[x]] =>
      obtain rfl : x :: data = b := Except.ok.inj hb
      refine ⟨_, ⟨.ok data, [.encryption], true⟩, rfl, rfl, ?_, ?_, ?_⟩
      · intro pkesk _ mpi found hfound
        obtain ⟨key, _, hunlocked⟩ := Option.bind_eq_some_iff.mp hfound
        by_cases hkey : key = [7]
        · exact (Option.some.inj ((if_pos hkey).symm.trans hunlocked)).symm
        · exact absurd ((if_neg hkey).symm.trans hunlocked) (by simp)
      · intro mpi hmpi
        refine ⟨[x], List.mem_cons_self, ?_⟩
        rw [toyPgp_sessionKey, if_pos (List.mem_singleton.mp hmpi)]
        rfl
      · intro pkesk hpkesk mpi hopen
        rw [toyPgp_sessionKey] at hopen
        by_cases hpair : toyPgp.publicOf mpi = pkesk
        · exact hpair ▸ hpkesk
        · rw [if_neg hpair] at hopen
          cases hopen
    | [] => cases hb
    | [] :: _ => cases hb
    | (_ :: _ :: _) :: _ => cases hb
    | [_] :: _ :: _ => cases hb

theorem toyPgp_signs : toyPgp.Signs where
  accepted mpi date coins m σ hσ c now hdate k hk hkey hthen _ := by
    cases mpi with
    | ecdh scalar => cases hσ
    | other algorithm value =>
      by_cases hrange : date < 256
      · obtain rfl : UInt8.ofNat date :: (value ++ m) = σ :=
          Except.ok.inj ((if_pos hrange).symm.trans hσ)
        have htoNat : (UInt8.ofNat date).toNat = date := by
          rw [UInt8.toNat_ofNat']
          exact Nat.mod_eq_of_lt hrange
        refine ⟨_, _, rfl, List.mem_cons_self, List.mem_map.mpr ⟨k, hk, ?_⟩⟩
        rw [htoNat, decide_eq_true hdate, hthen, hkey]
        exact beq_self_eq_true _
      · cases (if_neg hrange).symm.trans hσ

theorem encrypted_stays_readable_sample :
    encryptData toyPgp beforeRotation.cert beforeRotation.now 0 [104, 105] = .ok [1, 104, 105] ∧
      decryptData toyPgp afterRotation.cert afterRotation.now [1, 104, 105] = .ok [104, 105] := by
  have hbefore : beforeRotation.cert.decryptionKeys beforeRotation.now = [oldKey] := rfl
  have hafter : afterRotation.cert.decryptionKeys afterRotation.now = [newKey, oldKey] := rfl
  have hkeeps : beforeRotation.Keeps afterRotation := by
    intro k hk
    rw [hbefore] at hk
    rw [hafter]
    exact ⟨k, List.mem_cons_of_mem _ hk, rfl, rfl⟩
  have hunlocked : afterRotation.Unlocked := by
    intro k hk
    rw [hafter] at hk
    rcases List.mem_cons.mp hk with rfl | hk
    · exact ⟨_, rfl⟩
    · obtain rfl := List.mem_singleton.mp hk
      exact ⟨_, rfl⟩
  have hpaired : afterRotation.cert.Paired toyPgp := by
    intro k hk mpi hsecret
    rcases List.mem_cons.mp hk with rfl | hk
    · obtain rfl := SecretKeyMaterial.unencrypted.inj (Option.some.inj hsecret)
      rfl
    · rcases List.mem_cons.mp hk with rfl | hk
      · obtain rfl := SecretKeyMaterial.unencrypted.inj (Option.some.inj hsecret)
        rfl
      · obtain rfl := List.mem_singleton.mp hk
        obtain rfl := SecretKeyMaterial.unencrypted.inj (Option.some.inj hsecret)
        rfl
  have hencrypted : encryptData toyPgp beforeRotation.cert beforeRotation.now 0 [104, 105] =
      .ok [1, 104, 105] := rfl
  exact ⟨hencrypted, (encrypted_stays_readable (s := beforeRotation) toyPgp_encrypts rfl
    hencrypted).1 afterRotation (.single hkeeps) hpaired hunlocked⟩

/-- Signed at 1, accepted then and at 8, and neither before nor under another date. -/
theorem signData_verifies_sample :
    signData toyPgp beforeRotation.cert beforeRotation.now 0 [104, 105] = .ok [1, 3, 104, 105] ∧
      toyPgp.Accepts "" 1 [104, 105] [1, 3, 104, 105] ∧
      toyPgp.Accepts "" 8 [104, 105] [1, 3, 104, 105] ∧
      verifyDetached toyPgp "" 0 [104, 105] [1, 3, 104, 105] = .ok false ∧
      verifyDetached toyPgp "" 9 [104, 105] [9, 3, 104, 105] = .ok false := by
  have hkeys : ∀ k ∈ beforeRotation.cert.keys, k = oldKey ∨
      k = signingKey (some (.unencrypted (.other "EdDSA" [3]))) := by
    intro k hk
    rcases List.mem_cons.mp hk with rfl | hk
    · exact .inl rfl
    · exact .inr (List.mem_singleton.mp hk)
  have hpaired : beforeRotation.cert.Paired toyPgp := by
    intro k hk mpi hsecret
    rcases hkeys k hk with rfl | rfl
    · obtain rfl := SecretKeyMaterial.unencrypted.inj (Option.some.inj hsecret)
      rfl
    · obtain rfl := SecretKeyMaterial.unencrypted.inj (Option.some.inj hsecret)
      rfl
  have hpublic :
      beforeRotation.cert.PublicPart ⟨[oldKey, newKey, signingKey none]⟩ beforeRotation.now := by
    intro k hk
    rcases hkeys k hk with rfl | rfl
    · exact ⟨oldKey, List.mem_cons_self, rfl, rfl, rfl⟩
    · exact ⟨signingKey none,
        List.mem_cons_of_mem _ (List.mem_cons_of_mem _ List.mem_cons_self), rfl, rfl, rfl⟩
  have hsigned : signData toyPgp beforeRotation.cert beforeRotation.now 0 [104, 105] =
      .ok [1, 3, 104, 105] := rfl
  obtain ⟨ka, honly, hverifies⟩ :=
    signData_verifies (s := beforeRotation) toyPgp_signs hpaired hsigned
  obtain rfl : signingKey (some (.unencrypted (.other "EdDSA" [3]))) = ka := (List.cons.inj honly).1
  obtain ⟨hpublished, hlater⟩ := hverifies "" ⟨[oldKey, newKey, signingKey none]⟩ rfl
  refine ⟨hsigned, hpublished hpublic, ?_, by decide, by decide⟩
  exact hlater 8 (by decide) (signingKey none)
    (List.mem_cons_of_mem _ (List.mem_cons_of_mem _ List.mem_cons_self)) rfl rfl rfl

end GitCellar
