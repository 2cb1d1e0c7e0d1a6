import GitCellar.ChunkFormat

/-! What a sealed chunk binds. A blob opens under an `AAD` exactly when it was
sealed under that `AAD`, and every other blob is refused with an error. -/

namespace GitCellar

open Loops Framing AuthEnc Utf8 XChaChaChunkEngine

variable {A : XChaCha20Poly1305} {e : XChaChaChunkEngine} {used : Set Bytes}
variable {a b : ChunkAad} {data plaintext blob : Bytes} {nonce : XNonce}

/-- No field of the associated data holds a NUL byte. -/
def ChunkAad.Clean (a : ChunkAad) : Prop :=
  (0 : UInt8) ∉ utf8 a.repoUid ∧ (0 : UInt8) ∉ utf8 a.chunkName

theorem ChunkAad.check_of_clean (h : a.Clean) : a.check = .ok () := by
  simp only [ChunkAad.check, h.1, h.2, if_false]

theorem ChunkAad.check_refused (h : ¬ a.Clean) : Refused a.check := by
  by_cases hrepo : (0 : UInt8) ∈ utf8 a.repoUid
  · simp only [ChunkAad.check, hrepo, if_true]
    exact ⟨_, rfl⟩
  · have hname : (0 : UInt8) ∈ utf8 a.chunkName := by
      by_contra hn
      exact h ⟨hrepo, hn⟩
    simp only [ChunkAad.check, hrepo, hname, if_true, if_false]
    exact ⟨_, rfl⟩

theorem ChunkAad.check_ok_iff : a.check = .ok () ↔ a.Clean := by
  constructor
  · intro h
    by_contra hdirty
    exact (ChunkAad.check_refused hdirty).ne_ok () h
  · exact ChunkAad.check_of_clean

theorem ChunkAad.canonicalAadBytes_inj (ha : a.Clean) (hb : b.Clean)
    (h : a.canonicalAadBytes = b.canonicalAadBytes) : a = b := by
  have hz : (fun x : UInt8 => decide (x ≠ 0)) 0 = false := rfl
  have hp : ∀ {s : String}, (0 : UInt8) ∉ utf8 s → ∀ x ∈ utf8 s, (decide (x ≠ 0)) = true := by
    intro s hs x hx
    exact decide_eq_true (fun h0 => hs (h0 ▸ hx))
  simp only [ChunkAad.canonicalAadBytes] at h
  obtain ⟨hrepo, _, hrest⟩ := span_unique (hp ha.1) (hp hb.1) hz hz h
  obtain ⟨hname, _, hrest⟩ := span_unique (hp ha.2) (hp hb.2) hz hz hrest
  simp only [List.append_assoc] at hrest
  obtain ⟨hver, hrest⟩ := List.append_inj hrest (by simp)
  obtain ⟨hoff, hsize⟩ := List.append_inj hrest (by simp)
  have hver := UInt32.toNat_inj.mp
    (leBytes_inj (UInt32.toNat_lt a.keyVersion) (UInt32.toNat_lt b.keyVersion) hver)
  have hoff := UInt64.toNat_inj.mp
    (leBytes_inj (UInt64.toNat_lt a.streamOffset) (UInt64.toNat_lt b.streamOffset) hoff)
  have hsize := UInt64.toNat_inj.mp
    (leBytes_inj (UInt64.toNat_lt a.size) (UInt64.toNat_lt b.size) hsize)
  cases a
  cases b
  simp only [ChunkAad.mk.injEq]
  exact ⟨utf8_injective hrepo, utf8_injective hname, hver, hoff, hsize⟩

theorem parseVersion_refused {byte : UInt8} (h : byte ≠ v3RepoUidKeyVersion) :
    Refused (parseVersion byte) := by
  simp only [parseVersion, h, if_false]
  split
  · exact ⟨_, rfl⟩
  · exact ⟨_, rfl⟩

theorem cipherAad_of_clean (h : a.Clean) (versionByte : UInt8) :
    cipherAad versionByte a = .ok (versionByte :: a.canonicalAadBytes) := by
  simp only [cipherAad, ChunkAad.check_of_clean h]
  rfl

theorem cipherAad_refused (h : ¬ a.Clean) (versionByte : UInt8) :
    Refused (cipherAad versionByte a) :=
  (ChunkAad.check_refused h).bind _

theorem length_layout (v : UInt8) (n : XNonce) (ct : Bytes) :
    (v :: (n.toList ++ ct)).length = 25 + ct.length := by
  simp only [List.length_cons, List.length_append, Vector.length_toList]
  omega

theorem checkLayout_of_long {n : XNonce} {ct : Bytes} (h : tagSize ≤ ct.length) :
    checkLayout (v3RepoUidKeyVersion :: (n.toList ++ ct)) = .ok () := by
  have hlen : ¬ (v3RepoUidKeyVersion :: (n.toList ++ ct)).length < overhead := by
    rw [length_layout]
    simp only [overhead, versionSize, nonceSize, tagSize] at h ⊢
    omega
  simp only [checkLayout, versionOf, parseVersion, List.head?_cons, if_true, bind, Except.bind,
    ChunkFormatVersion.isXChaCha20Poly1305Layout, hlen, reduceCtorEq, if_false]
  rfl

theorem checkLayout_cases (data : Bytes) : Refused (checkLayout data) ∨
    ∃ (n : XNonce) (ct : Bytes),
      data = v3RepoUidKeyVersion :: (n.toList ++ ct) ∧ tagSize ≤ ct.length := by
  cases data with
  | nil => exact .inl (Refused.bind ⟨_, rfl⟩ _)
  | cons byte rest =>
    by_cases hv : byte = v3RepoUidKeyVersion
    · subst hv
      by_cases hlen : (v3RepoUidKeyVersion :: rest).length < overhead
      · refine .inl ?_
        simp only [checkLayout, versionOf, parseVersion, List.head?_cons, if_true,
          bind, Except.bind, ChunkFormatVersion.isXChaCha20Poly1305Layout, hlen,
          reduceCtorEq, if_false]
        exact ⟨_, rfl⟩
      · simp only [overhead, versionSize, nonceSize, tagSize, List.length_cons] at hlen
        have hn : (rest.take 24).toArray.size = 24 := by
          rw [List.size_toArray, List.length_take]
          omega
        refine .inr ⟨⟨(rest.take 24).toArray, hn⟩, rest.drop 24, by simp, ?_⟩
        simp only [List.length_drop, tagSize]
        omega
    · exact .inl ((parseVersion_refused hv).bind _)

theorem checkLayout_refused_of_version {byte : UInt8} {rest : Bytes}
    (h : byte ≠ v3RepoUidKeyVersion) : Refused (checkLayout (byte :: rest)) :=
  (parseVersion_refused h).bind _

theorem checkLayout_refused_of_short (h : data.length < overhead) :
    Refused (checkLayout data) := by
  rcases checkLayout_cases data with href | ⟨n, ct, rfl, hct⟩
  · exact href
  · rw [length_layout] at h
    simp only [overhead, versionSize, nonceSize, tagSize] at h hct
    omega

theorem encryptWithNonce_ok_iff :
    e.encryptWithNonce A plaintext nonce a = .ok blob ↔ a.Clean ∧ ∃ ct,
      A.encrypt e.contentKey nonce (v3RepoUidKeyVersion :: a.canonicalAadBytes) plaintext =
      some ct ∧
        blob = v3RepoUidKeyVersion :: (nonce.toList ++ ct) := by
  by_cases hclean : a.Clean
  · have hbound := cipherAad_of_clean hclean v3RepoUidKeyVersion
    simp only [encryptWithNonce, e.emit_v3, hbound, bind, Except.bind, hclean, true_and]
    cases A.encrypt e.contentKey nonce (v3RepoUidKeyVersion :: a.canonicalAadBytes) plaintext with
    | none => simp [fail]
    | some ct => simp [pure, Except.pure, eq_comm]
  · have href : Refused (e.encryptWithNonce A plaintext nonce a) :=
      (cipherAad_refused hclean _).bind _
    constructor
    · intro h
      exact absurd h (href.ne_ok blob)
    · rintro ⟨h, _⟩
      exact absurd h hclean

theorem encryptWithNonce_answers (data : Bytes) (nonce : XNonce) (a : ChunkAad) :
    Answers (e.encryptWithNonce A data nonce a) := by
  by_cases hclean : a.Clean
  · have hbound := cipherAad_of_clean hclean e.emitVersion
    simp only [encryptWithNonce, hbound, bind, Except.bind]
    cases A.encrypt e.contentKey nonce (e.emitVersion :: a.canonicalAadBytes) data with
    | none => exact answers_fail _
    | some ct => exact answers_ok _
  · exact .inr ((cipherAad_refused hclean _).bind _)

theorem byteRange_layout (v : UInt8) (n : XNonce) (ct : Bytes) :
    (byteRange (v :: (n.toList ++ ct)) 1 (1 + nonceSize) : Run VaultError Bytes) = .ok n.toList ∧
      (byteRange (v :: (n.toList ++ ct)) (1 + nonceSize) (v :: (n.toList ++ ct)).length :
        Run VaultError Bytes) = .ok ct := by
  have hn : n.toList.length = 24 := n.length_toList
  have hlen := length_layout v n ct
  constructor
  · have htake : ((v :: (n.toList ++ ct)).take 25).drop 1 = n.toList := by
      rw [List.take_succ_cons, List.drop_succ_cons, List.drop_zero, List.take_left' hn]
    rw [byteRange, nonceSize, if_pos (by omega), htake]
  · have hdrop : (v :: (n.toList ++ ct)).drop 25 = ct := by
      rw [List.drop_succ_cons, List.drop_left' hn]
    rw [byteRange, nonceSize, if_pos (by omega), List.take_length, hdrop]

theorem xnonceFromSlice_toList (n : XNonce) : xnonceFromSlice n.toList = .ok n := by
  have hn : n.toList.length = 24 := n.length_toList
  rw [xnonceFromSlice, dif_pos hn]
  exact congrArg Except.ok (Vector.toList_inj.mp (by simp))

theorem decryptWithAad_layout {n : XNonce} {ct : Bytes} (hclean : a.Clean)
    (hct : tagSize ≤ ct.length) :
    (∃ p, A.decrypt e.contentKey n (v3RepoUidKeyVersion :: a.canonicalAadBytes) ct = some p ∧
      e.decryptWithAad A (v3RepoUidKeyVersion :: (n.toList ++ ct)) a = .ok p) ∨
    (A.decrypt e.contentKey n (v3RepoUidKeyVersion :: a.canonicalAadBytes) ct = none ∧
      Refused (e.decryptWithAad A (v3RepoUidKeyVersion :: (n.toList ++ ct)) a)) := by
  have hlay := checkLayout_of_long (n := n) hct
  have hbound := cipherAad_of_clean hclean v3RepoUidKeyVersion
  obtain ⟨hnonce, hrest⟩ := byteRange_layout v3RepoUidKeyVersion n ct
  cases hdec : A.decrypt e.contentKey n (v3RepoUidKeyVersion :: a.canonicalAadBytes) ct with
  | none =>
    refine .inr ⟨rfl, ?_⟩
    simp only [decryptWithAad, hlay, bind, Except.bind, byteAt, List.getElem?_cons_zero, hbound,
      hnonce, xnonceFromSlice_toList, hrest, hdec]
    exact ⟨_, rfl⟩
  | some p =>
    refine .inl ⟨p, rfl, ?_⟩
    simp only [decryptWithAad, hlay, bind, Except.bind, byteAt, List.getElem?_cons_zero, hbound,
      hnonce, xnonceFromSlice_toList, hrest, hdec]
    rfl

theorem decryptWithAad_refused_of_unclean (h : ¬ a.Clean) (data : Bytes) :
    Refused (e.decryptWithAad A data a) := by
  rcases checkLayout_cases data with href | ⟨n, ct, rfl, hct⟩
  · exact href.bind _
  · have hlay := checkLayout_of_long (n := n) hct
    have hrest := cipherAad_refused h v3RepoUidKeyVersion
    simp only [decryptWithAad, hlay, bind, Except.bind, byteAt, List.getElem?_cons_zero]
    exact hrest.bind _

theorem decryptWithAad_ok_iff (hA : A.Lawful tagSize maxPlaintext) :
    e.decryptWithAad A blob a = .ok plaintext ↔
      a.check = .ok () ∧ ∃ nonce, e.encryptWithNonce A plaintext nonce a = .ok blob := by
  rw [ChunkAad.check_ok_iff]
  constructor
  · intro hopen
    by_cases hclean : a.Clean
    · rcases checkLayout_cases blob with href | ⟨n, ct, rfl, hlen⟩
      · exact absurd hopen ((href.bind _).ne_ok plaintext)
      · rcases decryptWithAad_layout (A := A) (e := e) hclean hlen with ⟨p, hdec, hok⟩ | ⟨_, href⟩
        · obtain rfl := Except.ok.inj (hok.symm.trans hopen)
          have hseal := (hA.opens_iff _ _ _ _ _).mp hdec
          exact ⟨hclean, n, encryptWithNonce_ok_iff.mpr ⟨hclean, ct, hseal, rfl⟩⟩
        · exact absurd hopen (href.ne_ok plaintext)
    · exact absurd hopen ((decryptWithAad_refused_of_unclean hclean blob).ne_ok plaintext)
  · rintro ⟨hclean, n, hseal⟩
    obtain ⟨_, ct, hct, rfl⟩ := encryptWithNonce_ok_iff.mp hseal
    have hdec := (hA.opens_iff _ _ _ _ _).mpr hct
    have hlen := hA.length_eq _ _ _ _ _ hct
    have htag : tagSize ≤ ct.length := by omega
    rcases decryptWithAad_layout (A := A) (e := e) hclean htag with ⟨p, hp, hok⟩ | ⟨hnone, _⟩
    · rw [hdec] at hp
      obtain rfl := Option.some.inj hp
      exact hok
    · rw [hdec] at hnone
      cases hnone

theorem decryptWithAad_answers (data : Bytes) (a : ChunkAad) :
    (∃ p, e.decryptWithAad A data a = .ok p) ∨ Refused (e.decryptWithAad A data a) := by
  by_cases hclean : a.Clean
  · rcases checkLayout_cases data with href | ⟨n, ct, rfl, hct⟩
    · exact .inr (href.bind _)
    · rcases decryptWithAad_layout (A := A) (e := e) (n := n) hclean hct with ⟨p, _, hok⟩ |
        ⟨_, href⟩
      · exact .inl ⟨p, hok⟩
      · exact .inr href
  · exact .inr (decryptWithAad_refused_of_unclean hclean data)

theorem decryptWithAad_refused_of_bound {used : Set Bytes}
    (hA : A.Ideal tagSize maxPlaintext used) {k : Digest} {bound ct : Bytes}
    (hseal : A.encrypt k nonce bound plaintext = some ct) (hused : ct ∈ used)
    (hne : bound ≠ v3RepoUidKeyVersion :: a.canonicalAadBytes) :
    Refused (e.decryptWithAad A (v3RepoUidKeyVersion :: (nonce.toList ++ ct)) a) := by
  by_cases hclean : a.Clean
  · have hlen := hA.length_eq _ _ _ _ _ hseal
    have htag : tagSize ≤ ct.length := by omega
    rcases decryptWithAad_layout (A := A) (e := e) (n := nonce) hclean htag with
      ⟨p, hdec, _⟩ | ⟨_, href⟩
    · rw [hA.decrypt_other_aad hused hseal hne] at hdec
      cases hdec
    · exact href
  · exact decryptWithAad_refused_of_unclean hclean _

theorem encrypt_ok_iff :
    e.encrypt A plaintext nonce = .ok blob ↔ ∃ ct,
      A.encrypt e.contentKey nonce [] plaintext = some ct ∧
        blob = v3RepoUidKeyVersion :: (nonce.toList ++ ct) := by
  simp only [XChaChaChunkEngine.encrypt, e.emit_v3]
  cases A.encrypt e.contentKey nonce [] plaintext with
  | none => simp [fail]
  | some ct => simp [eq_comm]

theorem drop_layout (v : UInt8) (n : XNonce) (ct : Bytes) :
    (v :: (n.toList ++ ct)).drop (versionSize + nonceSize) = ct := by
  have hn : n.toList.length = 24 := n.length_toList
  simp only [versionSize, nonceSize]
  rw [List.drop_succ_cons, List.drop_left' hn]

/-- Format v3 under the cipher `A`, whose ciphertexts `used` bind what they were
sealed with. The engine `e` seals, any engine opens. -/
structure SealsBind (A : XChaCha20Poly1305) (used : Set Bytes) (e : XChaChaChunkEngine) : Prop where
  opens_iff : ∀ blob a plaintext, e.decryptWithAad A blob a = .ok plaintext ↔
    a.check = .ok () ∧ ∃ nonce, e.encryptWithNonce A plaintext nonce a = .ok blob
  answers : ∀ blob a, (∃ plaintext, e.decryptWithAad A blob a = .ok plaintext) ∨
    Refused (e.decryptWithAad A blob a)
  other_aad : ∀ plaintext nonce a blob, e.encryptWithNonce A plaintext nonce a = .ok blob →
    blob.drop (versionSize + nonceSize) ∈ used →
    ∀ (e' : XChaChaChunkEngine) a', a' ≠ a → Refused (e'.decryptWithAad A blob a')
  other_version : ∀ byte rest a, byte ≠ v3RepoUidKeyVersion →
    Refused (e.decryptWithAad A (byte :: rest) a)
  truncated : ∀ blob a, blob.length < overhead → Refused (e.decryptWithAad A blob a)
  raw : ∀ plaintext nonce blob, e.encrypt A plaintext nonce = .ok blob →
    blob.drop (versionSize + nonceSize) ∈ used →
    ∀ (e' : XChaChaChunkEngine) a, Refused (e'.decryptWithAad A blob a)
  nul_refused : ∀ a : ChunkAad, (0 : UInt8) ∈ utf8 a.repoUid ∨ (0 : UInt8) ∈ utf8 a.chunkName →
    (∀ plaintext nonce, Refused (e.encryptWithNonce A plaintext nonce a)) ∧
      ∀ blob, Refused (e.decryptWithAad A blob a)
  aad_injective : ∀ a a' : ChunkAad, a.check = .ok () → a'.check = .ok () →
    a.canonicalAadBytes = a'.canonicalAadBytes → a = a'
  length_eq : ∀ plaintext nonce a blob, e.encryptWithNonce A plaintext nonce a = .ok blob →
    blob.length = plaintext.length + overhead

theorem encryptWithNonce_length (hA : A.Lawful tagSize maxPlaintext)
    (h : e.encryptWithNonce A plaintext nonce a = .ok blob) :
    blob.length = plaintext.length + overhead := by
  obtain ⟨_, ct, hct, rfl⟩ := encryptWithNonce_ok_iff.mp h
  have hlen := hA.length_eq _ _ _ _ _ hct
  rw [length_layout, hlen]
  simp only [overhead, versionSize, nonceSize, tagSize]
  omega

theorem chunkFormat_seals_bind (A : XChaCha20Poly1305) (used : Set Bytes)
    (hA : A.Ideal tagSize maxPlaintext used) (e : XChaChaChunkEngine) : SealsBind A used e where
  opens_iff _ _ _ := decryptWithAad_ok_iff hA.toLawful
  answers := decryptWithAad_answers
  other_aad := by
    intro plaintext nonce a blob hseal hused e' a' hne
    obtain ⟨hclean, ct, hct, rfl⟩ := encryptWithNonce_ok_iff.mp hseal
    rw [drop_layout] at hused
    by_cases hclean' : a'.Clean
    · refine decryptWithAad_refused_of_bound hA hct hused fun heq => hne ?_
      exact ChunkAad.canonicalAadBytes_inj hclean' hclean (List.cons.inj heq).2.symm
    · exact decryptWithAad_refused_of_unclean hclean' _
  other_version _ _ _ h := (checkLayout_refused_of_version h).bind _
  truncated _ _ h := (checkLayout_refused_of_short h).bind _
  raw := by
    intro plaintext nonce blob hseal hused e' a
    obtain ⟨ct, hct, rfl⟩ := encrypt_ok_iff.mp hseal
    rw [drop_layout] at hused
    exact decryptWithAad_refused_of_bound hA hct hused (by simp)
  nul_refused := by
    intro a hnul
    have hdirty : ¬ a.Clean := by
      rintro ⟨hrepo, hname⟩
      exact hnul.elim hrepo hname
    exact ⟨fun _ _ => (cipherAad_refused hdirty _).bind _, decryptWithAad_refused_of_unclean hdirty⟩
  aad_injective _ _ h h' :=
    ChunkAad.canonicalAadBytes_inj (ChunkAad.check_ok_iff.mp h) (ChunkAad.check_ok_iff.mp h')
  length_eq _ _ _ _ := encryptWithNonce_length hA.toLawful

def sampleAad : ChunkAad := ⟨"repo", "cafe", 2, 0, 2⟩

def sampleEngine : XChaChaChunkEngine := ⟨Vector.replicate 32 7, v3RepoUidKeyVersion, rfl⟩

def sampleNonce : XNonce := Vector.replicate 24 9

/-- Binds the one blob the sample engine seals. -/
def sampleCipher : XChaCha20Poly1305 :=
  Aead.tagOnce maxPlaintext tagSize sampleEngine.contentKey sampleNonce
    (v3RepoUidKeyVersion :: sampleAad.canonicalAadBytes) [104, 105]

theorem chunkFormat_seals_bind_sample :
    SealsBind sampleCipher {[104, 105] ++ List.replicate 16 1} sampleEngine ∧
    sampleEngine.encryptWithNonce sampleCipher [104, 105] sampleNonce sampleAad =
      .ok (3 :: (List.replicate 24 9 ++ ([104, 105] ++ List.replicate 16 1))) :=
  ⟨chunkFormat_seals_bind sampleCipher _ (Aead.tagOnce_ideal (by decide) _ _ _ _) sampleEngine,
    rfl⟩

end GitCellar
