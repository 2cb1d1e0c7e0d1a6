import GitCellar.ChunkSeal

/-! The AES-256-GCM engine of the C interface: nonce, ciphertext and tag, without a
version byte (`vault-core/src/encryption.rs`). -/

namespace GitCellar

open Loops AuthEnc Utf8

abbrev AesNonce := Vector UInt8 12

abbrev AesGcm := Aead Digest AesNonce

/-- `ChunkEngine::compute_hash`. -/
def computeHash (h : Hashes) (data : Bytes) : String := hexEncode (h.sha256 data).toList

structure AesEncryptionEngine where
  key : Digest
  keyId : String

namespace AesEncryptionEngine

def nonceSize : Nat := 12
def tagSize : Nat := 16
def keySize : Nat := 32
def saltSize : Nat := 16

/-- What the cipher seals: below `2^36` bytes. -/
def maxPlaintext : Nat := 2 ^ 36

def new (h : Hashes) (key : Bytes) : Run VaultError AesEncryptionEngine :=
  if hlen : key.length = keySize then
    .ok ⟨⟨key.toArray, by simpa [keySize] using hlen⟩,
      String.ofList ((computeHash h key).toList.take 16)⟩
  else
    fail (.key
      ("AES-256 key must be " ++ toString keySize ++ " bytes, got " ++ toString key.length))

/-- Argon2id is a parameter; its error is a text. -/
def deriveKey (argon2id : Bytes → Bytes → Except String Digest) (passphrase salt : Bytes) :
    Run VaultError Digest :=
  match argon2id passphrase salt with
  | .ok key => .ok key
  | .error e => fail (.key ("Key derivation failed: " ++ e))

/-- `Nonce::from_slice`, which panics on any other length. -/
def nonceFromSlice (bytes : Bytes) : Run VaultError AesNonce :=
  if h : bytes.length = 12 then .ok ⟨bytes.toArray, by simpa using h⟩ else .error .panic

section

variable (A : AesGcm) (e : AesEncryptionEngine)

def sealBound (bound plaintext : Bytes) (nonce : AesNonce) : Run VaultError Bytes :=
  match A.encrypt e.key nonce bound plaintext with
  | none => fail (.encryption "AES encryption failed: aead::Error")
  | some ciphertext => .ok (nonce.toList ++ ciphertext)

/-- The end of both opening paths: the nonce split off, the tag checked. -/
def openBound (label : String) (bound ciphertext : Bytes) : Run VaultError Bytes := do
  let nonce ← nonceFromSlice (ciphertext.take nonceSize)
  match A.decrypt e.key nonce bound (ciphertext.drop nonceSize) with
  | some plaintext => return plaintext
  | none => fail (.decryption (label ++ ": aead::Error"))

def encrypt (plaintext : Bytes) (nonce : AesNonce) : Run VaultError Bytes :=
  e.sealBound A [] plaintext nonce

def decrypt (ciphertext : Bytes) : Run VaultError Bytes :=
  if ciphertext.length < nonceSize then
    fail (.decryption "Ciphertext too short (missing nonce)")
  else e.openBound A "AES decryption failed" [] ciphertext

def encryptChunk (chunk : Chunk) (aad : ChunkAad) (nonce : AesNonce) : Run VaultError Bytes := do
  aad.check
  e.sealBound A aad.canonicalAadBytes chunk.data nonce

def decryptChunk (encryptedData : Bytes) (aad : ChunkAad) : Run VaultError Bytes :=
  if encryptedData.length < nonceSize then
    fail (.decryption "Ciphertext too short (missing nonce)")
  else do
    aad.check
    e.openBound A "AES decryption failed (tampered, wrong key, or chunk-identity/AAD mismatch)"
      aad.canonicalAadBytes encryptedData

end

variable {A : AesGcm} {e : AesEncryptionEngine} {used : Set Bytes} {bound plaintext blob : Bytes}
  {nonce : AesNonce} {a : ChunkAad} {chunk : Chunk}

theorem nonceFromSlice_toList (n : AesNonce) : nonceFromSlice n.toList = .ok n := by
  have hn : n.toList.length = 12 := n.length_toList
  rw [nonceFromSlice, dif_pos hn]
  exact congrArg Except.ok (Vector.toList_inj.mp (by simp))

theorem sealBound_ok_iff : e.sealBound A bound plaintext nonce = .ok blob ↔
    ∃ ct, A.encrypt e.key nonce bound plaintext = some ct ∧ blob = nonce.toList ++ ct := by
  rw [sealBound]
  cases A.encrypt e.key nonce bound plaintext with
  | none => simp [fail]
  | some ct => simp [eq_comm]

theorem openBound_layout (label : String) (n : AesNonce) (ct : Bytes) :
    e.openBound A label bound (n.toList ++ ct) =
      match A.decrypt e.key n bound ct with
      | some plaintext => .ok plaintext
      | none => fail (.decryption (label ++ ": aead::Error")) := by
  have hn : n.toList.length = nonceSize := n.length_toList
  rw [openBound, List.take_left' hn, List.drop_left' hn, nonceFromSlice_toList]
  cases hdec : A.decrypt e.key n bound ct with
  | none => simp [hdec, bind, Except.bind]
  | some p => simp [hdec, bind, Except.bind, pure, Except.pure]

theorem exists_layout (h : ¬ blob.length < nonceSize) :
    ∃ (n : AesNonce) (ct : Bytes), blob = n.toList ++ ct := by
  have hn : (blob.take 12).toArray.size = 12 := by
    rw [List.size_toArray, List.length_take]
    simp only [nonceSize] at h
    omega
  exact ⟨⟨(blob.take 12).toArray, hn⟩, blob.drop 12, by simp⟩

/-- Bytes long enough for a nonce open to what was sealed in them, or are refused. -/
theorem openBound_cases (hA : A.Lawful tagSize maxPlaintext) (e : AesEncryptionEngine)
    (bound : Bytes) (label : String) (h : ¬ blob.length < nonceSize) :
    (∃ p n, e.openBound A label bound blob = .ok p ∧ e.sealBound A bound p n = .ok blob) ∨
      (Refused (e.openBound A label bound blob) ∧ ∀ p n, e.sealBound A bound p n ≠ .ok blob) := by
  obtain ⟨n, ct, rfl⟩ := exists_layout h
  rw [openBound_layout]
  cases hdec : A.decrypt e.key n bound ct with
  | some p =>
    exact .inl ⟨p, n, rfl, sealBound_ok_iff.mpr ⟨ct, (hA.opens_iff _ _ _ _ _).mp hdec, rfl⟩⟩
  | none =>
    refine .inr ⟨⟨_, rfl⟩, fun p n' hseal => ?_⟩
    obtain ⟨ct', hct', hlayout⟩ := sealBound_ok_iff.mp hseal
    obtain ⟨hn, rfl⟩ := List.append_inj hlayout (by rw [Vector.length_toList, Vector.length_toList])
    obtain rfl := Vector.toList_inj.mp hn
    rw [(hA.opens_iff _ _ _ _ _).mpr hct'] at hdec
    cases hdec

theorem openBound_ok_iff (hA : A.Lawful tagSize maxPlaintext) {label : String}
    (h : ¬ blob.length < nonceSize) : e.openBound A label bound blob = .ok plaintext ↔
      ∃ n, e.sealBound A bound plaintext n = .ok blob := by
  constructor
  · intro hopen
    rcases openBound_cases hA e bound label h with ⟨p, n, hok, hseal⟩ | ⟨href, _⟩
    · obtain rfl := Except.ok.inj (hok.symm.trans hopen)
      exact ⟨n, hseal⟩
    · exact absurd hopen (href.ne_ok plaintext)
  · rintro ⟨n, hseal⟩
    obtain ⟨ct, hct, rfl⟩ := sealBound_ok_iff.mp hseal
    rw [openBound_layout, (hA.opens_iff _ _ _ _ _).mpr hct]

theorem sealBound_length (hA : A.Lawful tagSize maxPlaintext)
    (h : e.sealBound A bound plaintext nonce = .ok blob) :
    blob.length = plaintext.length + nonceSize + tagSize := by
  obtain ⟨ct, hct, rfl⟩ := sealBound_ok_iff.mp h
  have hlen := hA.length_eq _ _ _ _ _ hct
  rw [List.length_append, hlen, Vector.length_toList, nonceSize]
  omega

theorem not_short_of_sealed (hA : A.Lawful tagSize maxPlaintext)
    (h : e.sealBound A bound plaintext nonce = .ok blob) : ¬ blob.length < nonceSize := by
  have hlen := sealBound_length hA h
  omega

theorem openBound_other (hA : A.Ideal tagSize maxPlaintext used) {label : String} {bound' : Bytes}
    {e' : AesEncryptionEngine} (hseal : e.sealBound A bound plaintext nonce = .ok blob)
    (hused : blob.drop nonceSize ∈ used) (hne : bound ≠ bound' ∨ e.key ≠ e'.key) :
    Refused (e'.openBound A label bound' blob) := by
  obtain ⟨ct, hct, rfl⟩ := sealBound_ok_iff.mp hseal
  have hn : nonce.toList.length = nonceSize := nonce.length_toList
  rw [List.drop_left' hn] at hused
  rw [openBound_layout]
  cases hdec : A.decrypt e'.key nonce bound' ct with
  | none => exact ⟨_, rfl⟩
  | some p =>
    obtain ⟨hkey, _, hbound⟩ :=
      hA.binds ct hused _ _ _ _ _ _ _ _ hct ((hA.opens_iff _ _ _ _ _).mp hdec)
    exact absurd hbound (hne.resolve_right (absurd hkey))

theorem canonicalAadBytes_ne_nil (a : ChunkAad) : a.canonicalAadBytes ≠ [] := by
  simp [ChunkAad.canonicalAadBytes]

theorem decrypt_of_long (h : ¬ blob.length < nonceSize) :
    e.decrypt A blob = e.openBound A "AES decryption failed" [] blob := by
  rw [decrypt, if_neg h]

theorem decryptChunk_of_long (h : ¬ blob.length < nonceSize) (hclean : a.Clean) :
    e.decryptChunk A blob a = e.openBound A
      "AES decryption failed (tampered, wrong key, or chunk-identity/AAD mismatch)"
      a.canonicalAadBytes blob := by
  rw [decryptChunk, if_neg h, ChunkAad.check_of_clean hclean]
  rfl

theorem encryptChunk_ok_iff : e.encryptChunk A chunk a nonce = .ok blob ↔
    a.Clean ∧ e.sealBound A a.canonicalAadBytes chunk.data nonce = .ok blob := by
  rw [encryptChunk, bind_eq_ok_iff]
  constructor
  · rintro ⟨_, hcheck, hseal⟩
    exact ⟨ChunkAad.check_ok_iff.mp hcheck, hseal⟩
  · rintro ⟨hclean, hseal⟩
    exact ⟨(), ChunkAad.check_of_clean hclean, hseal⟩

theorem decrypt_ok_iff (hA : A.Lawful tagSize maxPlaintext) :
    e.decrypt A blob = .ok plaintext ↔ ∃ n, e.encrypt A plaintext n = .ok blob := by
  by_cases h : blob.length < nonceSize
  · have href : Refused (e.decrypt A blob) := by
      rw [decrypt, if_pos h]
      exact ⟨_, rfl⟩
    constructor
    · intro hopen
      exact absurd hopen (href.ne_ok plaintext)
    · rintro ⟨n, hseal⟩
      exact absurd h (not_short_of_sealed hA hseal)
  · rw [decrypt_of_long h]
    exact openBound_ok_iff hA h

theorem decryptChunk_refused_of_unclean (h : ¬ a.Clean) : Refused (e.decryptChunk A blob a) := by
  rw [decryptChunk]
  exact Refused.ite_fail fun _ => (ChunkAad.check_refused h).bind _

/-- One wire format, two layers: the associated data keeps them, the identities and
the keys apart. -/
structure Binds (A : AesGcm) (used : Set Bytes) (e : AesEncryptionEngine) : Prop where
  opens_iff : ∀ blob plaintext, e.decrypt A blob = .ok plaintext ↔
    ∃ nonce, e.encrypt A plaintext nonce = .ok blob
  chunk_opens_iff : ∀ blob a chunk, e.decryptChunk A blob a = .ok chunk.data ↔
    ∃ nonce, e.encryptChunk A chunk a nonce = .ok blob
  answers : ∀ blob, Loops.Answers (e.decrypt A blob)
  chunk_answers : ∀ blob a, Loops.Answers (e.decryptChunk A blob a)
  raw_only : ∀ plaintext nonce blob, e.encrypt A plaintext nonce = .ok blob →
    blob.drop nonceSize ∈ used → ∀ (e' : AesEncryptionEngine) a, Refused (e'.decryptChunk A blob a)
  chunk_only : ∀ chunk a nonce blob, e.encryptChunk A chunk a nonce = .ok blob →
    blob.drop nonceSize ∈ used → ∀ (e' : AesEncryptionEngine), Refused (e'.decrypt A blob) ∧
      ∀ a', a' ≠ a → Refused (e'.decryptChunk A blob a')
  other_key : ∀ (e' : AesEncryptionEngine), e'.key ≠ e.key →
    (∀ plaintext nonce blob, e.encrypt A plaintext nonce = .ok blob → blob.drop nonceSize ∈ used →
      Refused (e'.decrypt A blob)) ∧
    ∀ chunk a nonce blob, e.encryptChunk A chunk a nonce = .ok blob → blob.drop nonceSize ∈ used →
      Refused (e'.decryptChunk A blob a)

theorem decryptChunk_other (hA : A.Ideal tagSize maxPlaintext used) {e' : AesEncryptionEngine}
    (hseal : e.sealBound A bound plaintext nonce = .ok blob) (hused : blob.drop nonceSize ∈ used)
    (hne : a.Clean → bound ≠ a.canonicalAadBytes ∨ e.key ≠ e'.key) :
    Refused (e'.decryptChunk A blob a) := by
  by_cases hclean : a.Clean
  · rw [decryptChunk_of_long (not_short_of_sealed hA.toLawful hseal) hclean]
    exact openBound_other hA hseal hused (hne hclean)
  · exact decryptChunk_refused_of_unclean hclean

theorem decrypt_other (hA : A.Ideal tagSize maxPlaintext used) {e' : AesEncryptionEngine}
    (hseal : e.sealBound A bound plaintext nonce = .ok blob) (hused : blob.drop nonceSize ∈ used)
    (hne : bound ≠ [] ∨ e.key ≠ e'.key) : Refused (e'.decrypt A blob) := by
  rw [decrypt_of_long (not_short_of_sealed hA.toLawful hseal)]
  exact openBound_other hA hseal hused hne

theorem answers_of_cases (hA : A.Lawful tagSize maxPlaintext) (label : String)
    (h : ¬ blob.length < nonceSize) : Loops.Answers (e.openBound A label bound blob) := by
  rcases openBound_cases hA e bound label h with ⟨p, _, hok, _⟩ | ⟨href, _⟩
  · exact .inl ⟨p, hok⟩
  · exact .inr href

theorem aes_binds (A : AesGcm) (used : Set Bytes) (hA : A.Ideal tagSize maxPlaintext used)
    (e : AesEncryptionEngine) : Binds A used e where
  opens_iff _ _ := decrypt_ok_iff hA.toLawful
  chunk_opens_iff blob a chunk := by
    simp only [encryptChunk_ok_iff, exists_and_left]
    by_cases hclean : a.Clean
    · by_cases h : blob.length < nonceSize
      · have href : Refused (e.decryptChunk A blob a) := by
          rw [decryptChunk, if_pos h]
          exact ⟨_, rfl⟩
        constructor
        · intro hopen
          exact absurd hopen (href.ne_ok chunk.data)
        · rintro ⟨_, n, hseal⟩
          exact absurd h (not_short_of_sealed hA.toLawful hseal)
      · rw [decryptChunk_of_long h hclean, openBound_ok_iff hA.toLawful h]
        simp only [hclean, true_and]
    · constructor
      · intro hopen
        exact absurd hopen ((decryptChunk_refused_of_unclean hclean).ne_ok chunk.data)
      · intro hboth
        exact absurd hboth.1 hclean
  answers blob := by
    by_cases h : blob.length < nonceSize
    · rw [decrypt, if_pos h]
      exact answers_fail _
    · rw [decrypt_of_long h]
      exact answers_of_cases hA.toLawful _ h
  chunk_answers blob a := by
    by_cases h : blob.length < nonceSize
    · rw [decryptChunk, if_pos h]
      exact answers_fail _
    · by_cases hclean : a.Clean
      · rw [decryptChunk_of_long h hclean]
        exact answers_of_cases hA.toLawful _ h
      · exact .inr (decryptChunk_refused_of_unclean hclean)
  raw_only _ _ _ hseal hused _ a :=
    decryptChunk_other hA hseal hused fun _ => .inl (canonicalAadBytes_ne_nil a).symm
  chunk_only chunk a nonce blob hseal hused e' := by
    obtain ⟨hclean, hseal⟩ := encryptChunk_ok_iff.mp hseal
    refine ⟨decrypt_other hA hseal hused (.inl (canonicalAadBytes_ne_nil a)), fun a' hne => ?_⟩
    refine decryptChunk_other hA hseal hused fun hclean' => .inl fun heq => hne ?_
    exact ChunkAad.canonicalAadBytes_inj hclean' hclean heq.symm
  other_key e' hkey := by
    refine ⟨fun _ _ _ hseal hused => decrypt_other hA hseal hused (.inr hkey.symm), ?_⟩
    intro chunk a nonce blob hseal hused
    exact decryptChunk_other hA (encryptChunk_ok_iff.mp hseal).2 hused fun _ => .inr hkey.symm

def sampleAesEngine : AesEncryptionEngine := ⟨Vector.replicate 32 7, "cafe"⟩

def sampleAesNonce : AesNonce := Vector.replicate 12 9

/-- Binds the one chunk the sample engine seals. -/
def sampleAesCipher : AesGcm :=
  Aead.tagOnce maxPlaintext tagSize sampleAesEngine.key sampleAesNonce
    sampleAad.canonicalAadBytes [104, 105]

theorem aes_binds_sample :
    Binds sampleAesCipher {[104, 105] ++ List.replicate 16 1} sampleAesEngine ∧
    sampleAesEngine.encryptChunk sampleAesCipher ⟨"cafe", [104, 105], 2, 0⟩ sampleAad
      sampleAesNonce =
      .ok (List.replicate 12 9 ++ ([104, 105] ++ List.replicate 16 1)) :=
  ⟨aes_binds sampleAesCipher _ (Aead.tagOnce_ideal (by decide) _ _ _ _) sampleAesEngine, rfl⟩

end AesEncryptionEngine

end GitCellar
