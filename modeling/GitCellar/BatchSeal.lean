import GitCellar.AtRest
import GitCellar.ChunkSeal
import GitCellar.GrantGate
import GitCellar.Tasks

/-! Sealing and opening many chunks at once: one task a chunk, awaited by
position (`gitcellar-crypto/src/encryption.rs`). -/

namespace GitCellar

open Loops Framing AuthEnc Utf8 Tasks XChaChaChunkEngine

def contentKeyInfo : Bytes := utf8 "gitcellar/chunk-content/v1"

def XChaChaChunkEngine.deriveContentKey (hkdf : Hkdf) (kRepo : Bytes) : Bytes32 :=
  hkdf noSalt kRepo contentKeyInfo

def XChaChaChunkEngine.new (hkdf : Hkdf) (kRepo : Bytes) : Run VaultError XChaChaChunkEngine :=
  fromContentKey (deriveContentKey hkdf kRepo).val

/-- `kRepo` is what `derive_k_repo` gives for the engine's certificate. -/
structure EncryptionEngine where
  kRepo : Except CryptoError Bytes32
  keyVersion : Option UInt32

/-- Why an awaited task gave nothing. -/
inductive JoinError where
  | cancelled
  | panicked
  deriving DecidableEq, Repr

namespace EncryptionEngine

def withKeyVersion (e : EncryptionEngine) (keyVersion : UInt32) : EncryptionEngine :=
  { e with keyVersion := some keyVersion }

def batchKeyVersion (e : EncryptionEngine) : Run CryptoError UInt32 :=
  match e.keyVersion with
  | some v =>
    if 1 ≤ v then .ok v
    else fail (.encryption ("invalid repository key version " ++ toString v.toNat))
  | none => fail (.encryption ("this engine has no repository key version; build it with " ++
      "EncryptionEngine::with_key_version before batch-sealing chunks"))

section

variable (hkdf : Hkdf) (e : EncryptionEngine)

def chunkEngine : Run CryptoError XChaChaChunkEngine := do
  let kRepo ← ofExcept e.kRepo
  mapErr (fun err => .encryption ("chunk cipher init failed: " ++ err.toString))
    (XChaChaChunkEngine.new hkdf kRepo.val)

def chunkEngineE1 : Run CryptoError XChaChaChunkEngine := do
  let kRepo ← ofExcept e.kRepo
  mapErr
    (fun err => .encryption ("keyed-pipeline chunk cipher init failed: " ++ err.toString)) <| do
    let engine ← XChaChaChunkEngine.new hkdf kRepo.val
    engine.withFormatVersion .repoUidKeyVersionV3

end

def contentChunkAad (repoUid : String) (chunk : Chunk) (keyVersion : UInt32) :
    Run CryptoError ChunkAad :=
  mapErr (fun err => .encryption ("chunk AAD refused: " ++ err.toString))
    (ChunkAad.content repoUid chunk.hash keyVersion (UInt64.ofNat chunk.size))

/-- `task.await`, its `JoinError` and the task's own error as `wrap` of a text. -/
def awaitTask (joinError : JoinError → String) (wrap : String → CryptoError) (label : String) :
    Option (Run VaultError Bytes) → Run CryptoError Bytes
  | none => fail (wrap ("Task failed: " ++ joinError .cancelled))
  | some (.error .panic) => fail (wrap ("Task failed: " ++ joinError .panicked))
  | some r => mapErr (fun err => wrap (label ++ err.toString)) r

section

variable (hkdf : Hkdf) (A : XChaCha20Poly1305) (joinError : JoinError → String)
  (e : EncryptionEngine)

def encryptChunkE1 (chunk : Chunk) (aad : ChunkAad) (nonce : XNonce) : Run CryptoError Bytes := do
  let engine ← e.chunkEngineE1 hkdf
  mapErr (fun err => .encryption ("keyed-pipeline chunk encryption failed: " ++ err.toString))
    (engine.encryptWithNonce A chunk.data nonce aad)

def decryptChunk (encryptedData : Bytes) (aad : ChunkAad) : Run CryptoError Bytes := do
  let engine ← e.chunkEngine hkdf
  mapErr (fun err => .decryption ("Chunk decryption failed: " ++ err.toString))
    (engine.decryptWithAad A encryptedData aad)

/-- The body of both sealing batches. An identity is refused while the tasks are
being spawned, before any is awaited. -/
def sealBatch (chunkEngine : Run CryptoError XChaChaChunkEngine) (label repoUid : String)
    (chunks : List Chunk) (events : List (Nat × XNonce)) : Run CryptoError (List Bytes) := do
  let keyVersion ← e.batchKeyVersion
  let engine ← chunkEngine
  let tasks ← chunks.mapM fun chunk => do
    let aad ← contentChunkAad repoUid chunk keyVersion
    return fun nonce => engine.encryptWithNonce A chunk.data nonce aad
  (runTasks tasks events).mapM (awaitTask joinError .encryption label)

def encryptChunksE1Parallel (repoUid : String) (chunks : List Chunk)
    (events : List (Nat × XNonce)) : Run CryptoError (List Bytes) :=
  e.sealBatch A joinError (e.chunkEngineE1 hkdf) "keyed-pipeline chunk encryption failed: "
    repoUid chunks events

def encryptChunksParallel (repoUid : String) (chunks : List Chunk)
    (events : List (Nat × XNonce)) : Run CryptoError (List Bytes) :=
  e.sealBatch A joinError (e.chunkEngine hkdf) "Chunk encryption failed: " repoUid chunks events

def decryptChunksParallel (encryptedChunks : List Bytes) (aads : List ChunkAad)
    (events : List (Nat × Unit)) : Run CryptoError (List Bytes) := do
  if encryptedChunks.length ≠ aads.length then
    fail (.decryption ("chunk/AAD count mismatch: " ++ toString encryptedChunks.length ++
      " chunks but " ++ toString aads.length ++ " identities"))
  else
    let engine ← e.chunkEngine hkdf
    let tasks := (encryptedChunks.zip aads).map fun p (_ : Unit) => engine.decryptWithAad A p.1 p.2
    (runTasks tasks events).mapM (awaitTask joinError .decryption "Chunk decryption failed: ")

end

variable {hkdf : Hkdf} {A : XChaCha20Poly1305} {joinError : JoinError → String}
  {e : EncryptionEngine} {used : Set Bytes}

theorem batchKeyVersion_ok_iff {v : UInt32} :
    e.batchKeyVersion = .ok v ↔ e.keyVersion = some v ∧ 1 ≤ v := by
  unfold batchKeyVersion
  cases e.keyVersion with
  | none => simp [fail]
  | some w =>
    by_cases hw : 1 ≤ w
    · simp only [hw, if_true, Except.ok.injEq, Option.some.injEq]
      constructor
      · rintro rfl
        exact ⟨rfl, hw⟩
      · rintro ⟨rfl, _⟩
        rfl
    · simp only [hw, if_false]
      constructor
      · intro h
        cases h
      · rintro ⟨hv, hle⟩
        obtain rfl := Option.some.inj hv
        exact absurd hle hw

theorem batchKeyVersion_answers : Answers e.batchKeyVersion := by
  unfold batchKeyVersion
  cases e.keyVersion with
  | none => exact answers_fail _
  | some v =>
    by_cases hv : 1 ≤ v
    · simp only [hv, if_true]
      exact answers_ok v
    · simp only [hv, if_false]
      exact answers_fail _

theorem new_ok (hkdf : Hkdf) (kRepo : Bytes) :
    ∃ engine, XChaChaChunkEngine.new hkdf kRepo = .ok engine := by
  have hlen : (deriveContentKey hkdf kRepo).val.length = keySize :=
    (deriveContentKey hkdf kRepo).property
  exact ⟨_, dif_pos hlen⟩

theorem withFormatVersion_v3 (engine : XChaChaChunkEngine) :
    engine.withFormatVersion .repoUidKeyVersionV3 = .ok engine := by
  obtain ⟨key, emitted, rfl⟩ := engine
  rfl

/-- Both engines are one: `with_format_version` sets what `new` set. -/
theorem chunkEngine_ok (hkdf : Hkdf) {kRepo : Bytes32} (h : e.kRepo = .ok kRepo) :
    ∃ engine, e.chunkEngine hkdf = .ok engine ∧ e.chunkEngineE1 hkdf = .ok engine := by
  obtain ⟨engine, hnew⟩ := new_ok hkdf kRepo.val
  refine ⟨engine, ?_, ?_⟩
  · rw [chunkEngine, h]
    change mapErr _ (XChaChaChunkEngine.new hkdf kRepo.val) = .ok engine
    rw [mapErr_eq_ok_iff]
    exact hnew
  · rw [chunkEngineE1, h]
    change mapErr _ (XChaChaChunkEngine.new hkdf kRepo.val >>= fun engine =>
      engine.withFormatVersion .repoUidKeyVersionV3) = .ok engine
    rw [mapErr_eq_ok_iff, hnew]
    exact withFormatVersion_v3 engine

theorem contentChunkAad_ok_iff {repoUid : String} {chunk : Chunk} {v : UInt32} {aad : ChunkAad} :
    contentChunkAad repoUid chunk v = .ok aad ↔
      ChunkAad.content repoUid chunk.hash v (UInt64.ofNat chunk.size) = .ok aad :=
  mapErr_eq_ok_iff

theorem awaitTask_some {wrap : String → CryptoError} {label : String} {r : Run VaultError Bytes}
    (h : Answers r) :
    awaitTask joinError wrap label (some r) =
    mapErr (fun err => wrap (label ++ err.toString)) r := by
  rcases h with ⟨a, rfl⟩ | ⟨err, rfl⟩
  · rfl
  · rfl

section

variable {engine : XChaChaChunkEngine} {blob plaintext : Bytes} {aad : ChunkAad}

theorem decryptChunk_eq (h : e.chunkEngine hkdf = .ok engine) :
    e.decryptChunk hkdf A blob aad =
      mapErr (fun err => .decryption ("Chunk decryption failed: " ++ err.toString))
        (engine.decryptWithAad A blob aad) := by
  rw [decryptChunk, h]
  rfl

theorem decryptChunk_ok_iff (h : e.chunkEngine hkdf = .ok engine) :
    e.decryptChunk hkdf A blob aad = .ok plaintext ↔
      engine.decryptWithAad A blob aad = .ok plaintext := by
  rw [decryptChunk_eq h]
  exact mapErr_eq_ok_iff

theorem decryptChunk_answers (h : e.chunkEngine hkdf = .ok engine) :
    Answers (e.decryptChunk hkdf A blob aad) := by
  rw [decryptChunk_eq h]
  exact Answers.mapErr (decryptWithAad_answers blob aad)

end

section

variable {Draw : Type} {tasks : List (Draw → Run VaultError Bytes)} {events : List (Nat × Draw)}
  {wrap : String → CryptoError} {label : String}

theorem awaitAll_answers (hdone : Completes events tasks.length)
    (h : ∀ task ∈ tasks, ∀ d, Answers (task d)) :
    Answers ((runTasks tasks events).mapM (awaitTask joinError wrap label)) := by
  refine Answers.mapM fun slot hslot => ?_
  obtain ⟨task, htask, d, rfl⟩ := (forall₂_covers (runTasks_collects hdone)).2 slot hslot
  rw [awaitTask_some (h task htask d)]
  exact (h task htask d).mapErr

theorem awaitAll_returns (hdone : Completes events tasks.length)
    (h : ∀ task ∈ tasks, ∀ d, ∃ x, task d = .ok x) :
    ∃ xs, (runTasks tasks events).mapM (awaitTask joinError wrap label) = .ok xs := by
  have hslots : ∀ slot ∈ runTasks tasks events,
      ∃ x, awaitTask joinError wrap label slot = .ok x := by
    intro slot hslot
    obtain ⟨task, htask, d, rfl⟩ := (forall₂_covers (runTasks_collects hdone)).2 slot hslot
    obtain ⟨x, hx⟩ := h task htask d
    rw [awaitTask_some (.inl ⟨x, hx⟩)]
    exact ⟨x, mapErr_eq_ok_iff.mpr hx⟩
  obtain ⟨xs, hxs, _⟩ := mapM_returns hslots
  exact ⟨xs, hxs⟩

end

section

variable {engine : XChaChaChunkEngine} {label repoUid : String} {chunks : List Chunk}
  {events : List (Nat × XNonce)} {blobs : List Bytes}

theorem sealBatch_ok (hdone : Completes events chunks.length)
    (h : e.sealBatch A joinError (.ok engine) label repoUid chunks events = .ok blobs) :
    ∃ v, e.keyVersion = some v ∧ 1 ≤ v ∧ List.Forall₂ (fun chunk blob => ∃ aad nonce,
      ChunkAad.content repoUid chunk.hash v (UInt64.ofNat chunk.size) = .ok aad ∧
        engine.encryptWithNonce A chunk.data nonce aad = .ok blob) chunks blobs := by
  obtain ⟨v, hversion, hrest⟩ := bind_eq_ok_iff.mp h
  obtain ⟨_, hengine, hrest⟩ := bind_eq_ok_iff.mp hrest
  obtain rfl := Except.ok.inj hengine
  obtain ⟨tasks, htasks, hblobs⟩ := bind_eq_ok_iff.mp hrest
  obtain ⟨hv, hle⟩ := batchKeyVersion_ok_iff.mp hversion
  have hspawned := mapM_eq_ok_iff.mp htasks
  rw [hspawned.length_eq] at hdone
  have hawaited := mapM_eq_ok_iff.mp hblobs
  have hall := forall₂_trans (forall₂_trans hspawned (runTasks_collects hdone)) hawaited
  refine ⟨v, hv, hle, hall.imp fun chunk blob hpair => ?_⟩
  obtain ⟨slot, ⟨task, htask, nonce, rfl⟩, hawait⟩ := hpair
  obtain ⟨aad, haad, htask⟩ := bind_eq_ok_iff.mp htask
  obtain rfl := Except.ok.inj htask
  rw [awaitTask_some (encryptWithNonce_answers chunk.data nonce aad), mapErr_eq_ok_iff] at hawait
  exact ⟨aad, nonce, contentChunkAad_ok_iff.mp haad, hawait⟩

theorem content_of_clean {chunk : Chunk} (v : UInt32) (hrepo : (0 : UInt8) ∉ utf8 repoUid)
    (hname : (0 : UInt8) ∉ utf8 chunk.hash) :
    ∃ aad : ChunkAad, aad.Clean ∧
      ChunkAad.content repoUid chunk.hash v (UInt64.ofNat chunk.size) = .ok aad := by
  have hclean : ChunkAad.Clean ⟨repoUid, chunk.hash, v, 0, UInt64.ofNat chunk.size⟩ :=
    ⟨hrepo, hname⟩
  refine ⟨_, hclean, ?_⟩
  simp only [ChunkAad.content, ChunkAad.new, ChunkAad.check_of_clean hclean]
  rfl

theorem sealBatch_succeeds (hA : A.Lawful tagSize maxPlaintext) {v : UInt32}
    (hdone : Completes events chunks.length) (hv : e.keyVersion = some v) (hle : 1 ≤ v)
    (hrepo : (0 : UInt8) ∉ utf8 repoUid)
    (hchunks : ∀ chunk ∈ chunks, (0 : UInt8) ∉ utf8 chunk.hash ∧ chunk.data.length < maxPlaintext) :
    ∃ blobs, e.sealBatch A joinError (.ok engine) label repoUid chunks events = .ok blobs := by
  have hspawn : ∀ chunk ∈ chunks, ∃ task, (contentChunkAad repoUid chunk v >>= fun aad =>
      pure fun nonce => engine.encryptWithNonce A chunk.data nonce aad) = .ok task ∧
        ∀ nonce, ∃ blob, task nonce = .ok blob := by
    intro chunk hchunk
    obtain ⟨hname, hlen⟩ := hchunks chunk hchunk
    obtain ⟨aad, hclean, hcontent⟩ := content_of_clean v hrepo hname
    refine ⟨_, bind_eq_ok_iff.mpr ⟨aad, contentChunkAad_ok_iff.mpr hcontent, rfl⟩, fun nonce => ?_⟩
    obtain ⟨ct, hct⟩ := hA.seals engine.contentKey nonce _ chunk.data hlen
    exact ⟨_, encryptWithNonce_ok_iff.mpr ⟨hclean, ct, hct, rfl⟩⟩
  obtain ⟨tasks, htasks, hspawned⟩ := mapM_returns fun chunk hchunk =>
    (hspawn chunk hchunk).imp fun _ htask => htask.1
  have hreturn : ∀ task ∈ tasks, ∀ nonce, ∃ blob, task nonce = .ok blob := by
    intro task htask
    obtain ⟨chunk, hchunk, hown⟩ := (forall₂_covers hspawned).2 task htask
    obtain ⟨task', hown', hblob⟩ := hspawn chunk hchunk
    obtain rfl := Except.ok.inj (hown'.symm.trans hown)
    exact hblob
  rw [hspawned.length_eq] at hdone
  obtain ⟨blobs, hblobs⟩ := awaitAll_returns hdone hreturn
  refine ⟨blobs, ?_⟩
  refine bind_eq_ok_iff.mpr ⟨v, batchKeyVersion_ok_iff.mpr ⟨hv, hle⟩, ?_⟩
  refine bind_eq_ok_iff.mpr ⟨engine, rfl, ?_⟩
  exact bind_eq_ok_iff.mpr ⟨tasks, htasks, hblobs⟩

theorem contentChunkAad_answers (chunk : Chunk) (v : UInt32) :
    Answers (contentChunkAad repoUid chunk v) := by
  have hcheck : ∀ aad : ChunkAad, Answers aad.check := by
    intro aad
    by_cases hclean : aad.Clean
    · exact .inl ⟨(), ChunkAad.check_of_clean hclean⟩
    · exact .inr (ChunkAad.check_refused hclean)
  exact Answers.mapErr ((hcheck _).bind fun _ => answers_ok _)

theorem sealBatch_answers (hdone : Completes events chunks.length) :
    Answers (e.sealBatch A joinError (.ok engine) label repoUid chunks events) := by
  refine batchKeyVersion_answers.bind fun v => ?_
  have hspawn : ∀ chunk ∈ chunks, Answers (contentChunkAad repoUid chunk v >>= fun aad =>
      pure fun nonce => engine.encryptWithNonce A chunk.data nonce aad) := by
    intro chunk _
    exact (contentChunkAad_answers chunk v).bind fun aad => answers_ok _
  rcases mapM_answers hspawn with ⟨tasks, htasks, hspawned⟩ | ⟨href, _⟩
  · rw [hspawned.length_eq] at hdone
    have hanswers : ∀ task ∈ tasks, ∀ nonce, Answers (task nonce) := by
      intro task htask nonce
      obtain ⟨chunk, _, hown⟩ := (forall₂_covers hspawned).2 task htask
      obtain ⟨aad, _, hown⟩ := bind_eq_ok_iff.mp hown
      obtain rfl := Except.ok.inj hown
      exact encryptWithNonce_answers chunk.data nonce aad
    change Answers (chunks.mapM _ >>= _)
    rw [htasks]
    exact awaitAll_answers hdone hanswers
  · exact .inr (href.bind _)

end

variable (hkdf A e) in
/-- What a batch gives for `chunks`: one blob each, in order, under the engine's own
version, as the single-chunk path seals it and opens it under that identity alone. -/
structure SealsInOrder (used : Set Bytes) (repoUid : String) (chunks : List Chunk)
    (batch : Run CryptoError (List Bytes)) : Prop where
  sealed : ∀ blobs, batch = .ok blobs → ∃ v, e.keyVersion = some v ∧ 1 ≤ v ∧
    List.Forall₂ (fun chunk blob => ∃ aad,
      ChunkAad.content repoUid chunk.hash v (UInt64.ofNat chunk.size) = .ok aad ∧
      (∃ nonce, e.encryptChunkE1 hkdf A chunk aad nonce = .ok blob) ∧
      e.decryptChunk hkdf A blob aad = .ok chunk.data ∧
      (blob.drop (versionSize + nonceSize) ∈ used →
        ∀ other, other ≠ aad → Refused (e.decryptChunk hkdf A blob other))) chunks blobs
  succeeds : ∀ v, e.keyVersion = some v → 1 ≤ v → (0 : UInt8) ∉ utf8 repoUid →
    (∀ chunk ∈ chunks, (0 : UInt8) ∉ utf8 chunk.hash ∧ chunk.data.length < maxPlaintext) →
    ∃ blobs, batch = .ok blobs
  answers : Answers batch

theorem sealBatch_inOrder {engine : XChaChaChunkEngine} {label repoUid : String}
    {chunks : List Chunk} {events : List (Nat × XNonce)} (hA : A.Ideal tagSize maxPlaintext used)
    (hengine : e.chunkEngine hkdf = .ok engine) (hengineE1 : e.chunkEngineE1 hkdf = .ok engine)
    (hdone : Completes events chunks.length) :
    SealsInOrder hkdf A e used repoUid chunks
      (e.sealBatch A joinError (.ok engine) label repoUid chunks events) where
  sealed blobs h := by
    obtain ⟨v, hv, hle, hall⟩ := sealBatch_ok hdone h
    refine ⟨v, hv, hle, hall.imp fun chunk blob hpair => ?_⟩
    obtain ⟨aad, nonce, hcontent, hseal⟩ := hpair
    have hbinds := chunkFormat_seals_bind A used hA engine
    have hopen : engine.decryptWithAad A blob aad = .ok chunk.data := by
      refine (hbinds.opens_iff blob aad chunk.data).mpr ⟨?_, nonce, hseal⟩
      exact ChunkAad.check_ok_iff.mpr (encryptWithNonce_ok_iff.mp hseal).1
    have hsingle : e.encryptChunkE1 hkdf A chunk aad nonce = .ok blob := by
      rw [encryptChunkE1, hengineE1]
      exact mapErr_eq_ok_iff.mpr hseal
    refine ⟨aad, hcontent, ⟨nonce, hsingle⟩, (decryptChunk_ok_iff hengine).mpr hopen,
      fun hused other hne => ?_⟩
    rw [decryptChunk_eq hengine]
    exact (hbinds.other_aad chunk.data nonce aad blob hseal hused engine other hne).mapErr
  succeeds _ hv hle := sealBatch_succeeds hA.toLawful hdone hv hle
  answers := sealBatch_answers hdone

section

variable {encryptedChunks : List Bytes} {aads : List ChunkAad} {events : List (Nat × Unit)}

theorem decryptChunksParallel_eq {engine : XChaChaChunkEngine}
    (hengine : e.chunkEngine hkdf = .ok engine) (hlen : encryptedChunks.length = aads.length)
    (hdone : Completes events encryptedChunks.length) :
    e.decryptChunksParallel hkdf A joinError encryptedChunks aads events =
      (encryptedChunks.zip aads).mapM fun p => e.decryptChunk hkdf A p.1 p.2 := by
  have hzip : Completes events ((encryptedChunks.zip aads).map fun p (_ : Unit) =>
      engine.decryptWithAad A p.1 p.2).length := by
    rw [List.length_map, List.length_zip, ← hlen, Nat.min_self]
    exact hdone
  rw [decryptChunksParallel, if_neg (not_not.mpr hlen), hengine]
  change (runTasks _ events).mapM _ = _
  rw [runTasks_unit hzip, List.map_map, List.mapM_map]
  congr 1
  funext p
  rw [decryptChunk_eq hengine]
  exact awaitTask_some (decryptWithAad_answers p.1 p.2)

theorem decryptChunksParallel_mismatch (h : encryptedChunks.length ≠ aads.length) :
    Refused (e.decryptChunksParallel hkdf A joinError encryptedChunks aads events) := by
  rw [decryptChunksParallel, if_pos h]
  exact ⟨_, rfl⟩

end

variable (hkdf A e) in
/-- The opening batch: all the plaintexts in order or an error, never some of them. -/
structure OpensInOrder (encryptedChunks : List Bytes) (aads : List ChunkAad)
    (batch : Run CryptoError (List Bytes)) : Prop where
  opened_iff : ∀ plaintexts, batch = .ok plaintexts ↔ encryptedChunks.length = aads.length ∧
    List.Forall₂ (fun p plaintext => e.decryptChunk hkdf A p.1 p.2 = .ok plaintext)
      (encryptedChunks.zip aads) plaintexts
  answers : Answers batch

theorem decryptChunksParallel_inOrder {engine : XChaChaChunkEngine} {encryptedChunks : List Bytes}
    {aads : List ChunkAad} {events : List (Nat × Unit)} (hengine : e.chunkEngine hkdf = .ok engine)
    (hdone : encryptedChunks.length = aads.length → Completes events encryptedChunks.length) :
    OpensInOrder hkdf A e encryptedChunks aads
      (e.decryptChunksParallel hkdf A joinError encryptedChunks aads events) where
  opened_iff plaintexts := by
    by_cases hlen : encryptedChunks.length = aads.length
    · rw [decryptChunksParallel_eq hengine hlen (hdone hlen), mapM_eq_ok_iff]
      exact (and_iff_right hlen).symm
    · constructor
      · intro h
        exact absurd h ((decryptChunksParallel_mismatch hlen).ne_ok plaintexts)
      · rintro ⟨h, _⟩
        exact absurd h hlen
  answers := by
    by_cases hlen : encryptedChunks.length = aads.length
    · rw [decryptChunksParallel_eq hengine hlen (hdone hlen)]
      exact Answers.mapM fun p _ => decryptChunk_answers hengine
    · exact .inr (decryptChunksParallel_mismatch hlen)

theorem batches_agree_with_single (hA : A.Ideal tagSize maxPlaintext used) {kRepo : Bytes32}
    (hkRepo : e.kRepo = .ok kRepo) :
    (∀ repoUid chunks events, Completes events chunks.length →
      SealsInOrder hkdf A e used repoUid chunks
        (e.encryptChunksE1Parallel hkdf A joinError repoUid chunks events) ∧
      SealsInOrder hkdf A e used repoUid chunks
        (e.encryptChunksParallel hkdf A joinError repoUid chunks events)) ∧
    ∀ encryptedChunks aads events,
      (encryptedChunks.length = aads.length → Completes events encryptedChunks.length) →
      OpensInOrder hkdf A e encryptedChunks aads
        (e.decryptChunksParallel hkdf A joinError encryptedChunks aads events) := by
  obtain ⟨engine, hengine, hengineE1⟩ := chunkEngine_ok hkdf hkRepo
  constructor
  · intro repoUid chunks events hdone
    rw [encryptChunksE1Parallel, encryptChunksParallel, hengineE1, hengine]
    exact ⟨sealBatch_inOrder hA hengine hengineE1 hdone,
      sealBatch_inOrder hA hengine hengineE1 hdone⟩
  · intro encryptedChunks aads events hdone
    exact decryptChunksParallel_inOrder hengine hdone

def sampleHkdf : Hkdf := fun _ _ _ => ⟨List.replicate 32 7, rfl⟩

def sampleVersioned : EncryptionEngine :=
  withKeyVersion ⟨.ok ⟨List.replicate 32 1, rfl⟩, none⟩ 2

def sampleBatch : List Chunk := [⟨"cafe", [104, 105], 2, 0⟩, ⟨"beef", [33], 1, 2⟩]

theorem batches_agree_with_single_sample :
    SealsInOrder sampleHkdf sampleCipher sampleVersioned {[104, 105] ++ List.replicate 16 1} "repo"
      sampleBatch (sampleVersioned.encryptChunksParallel sampleHkdf sampleCipher (fun _ => "")
        "repo" sampleBatch [(1, sampleNonce), (0, sampleNonce)]) ∧
    sampleVersioned.encryptChunksParallel sampleHkdf sampleCipher (fun _ => "")
      "repo" sampleBatch [(1, sampleNonce), (0, sampleNonce)] =
        .ok [3 :: (List.replicate 24 9 ++ ([104, 105] ++ List.replicate 16 1)),
          3 :: (List.replicate 24 9 ++ ([33] ++ List.replicate 16 0))] :=
  ⟨((batches_agree_with_single (Aead.tagOnce_ideal (by decide) _ _ _ _) rfl).1 "repo" sampleBatch
    [(1, sampleNonce), (0, sampleNonce)] (List.Perm.swap 0 1 [])).2, rfl⟩

end EncryptionEngine

end GitCellar
