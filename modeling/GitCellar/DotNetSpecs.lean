import GitCellar.DotNet

/-! What the .NET methods answer and leave on the heap, as values. -/

namespace GitCellar

open Effects Ownership Loops

def vaultFailure (operation msg : String) : NetError :=
  .vault (if '\x00' ∈ msg.toList then operation ++ " failed (no error message)"
    else operation ++ " failed: " ++ msg)

def toArray (v : Bytes) : Except NetError NetBytes :=
  (checkArrayLength (toInt32 v.length)).map (.ofPrefix v)

/-- What a method makes of the answer of its native call. -/
def netResult {α β : Type} (operation : String) (convert : α → Except NetError β) :
    Except String α → Except NetError β
  | .ok a => convert a
  | .error msg => .error (vaultFailure operation msg)

def toNetChunk (c : Chunk) : Except NetError NetChunk :=
  (toArray c.data).map fun data => ⟨c.hash, data, c.offset⟩

def toNetChunks : List Chunk → Except NetError (List NetChunk)
  | [] => .ok []
  | c :: chunks => do
    let chunk ← toNetChunk c
    let parsed ← toNetChunks chunks
    return chunk :: parsed

def toChunkList (chunks : List Chunk) : Except NetError (List NetChunk) :=
  if toInt32 chunks.length < 0 then .error .argumentOutOfRange else toNetChunks chunks

/-- The configurations the constructors of the chunk engine let through. -/
structure SizedConfig where
  config : ChunkConfig
  min_pos : 1 ≤ config.minSize
  min_le_avg : config.minSize ≤ config.avgSize
  avg_le_max : config.avgSize ≤ config.maxSize

def SizedConfig.default : SizedConfig := ⟨.default, by decide, by decide, by decide⟩

def SizedConfig.engine (P : NativePlatform) (c : SizedConfig) : ChunkEngine :=
  .new P.hashes c.config

section

variable (P : NativePlatform)

def createdFrom (key : NetBytes) : Except NetError AesEncryptionEngine :=
  if key.length ≠ AesEngine.keySize then
    .error (.argument ("Key must be " ++ toString AesEngine.keySize ++ " bytes, got " ++
      toString key.length) "key")
  else netResult "Create AES engine" .ok (toMessage (AesEncryptionEngine.new P.hashes key.bytes))

def derivedFrom (passphrase salt : NetBytes) : Except NetError NetBytes :=
  netResult "Derive key" toArray
    (if passphrase.bytes = [] ∨ salt.bytes = [] then .error nullArgument
    else toMessage (Vector.toList <$>
      AesEncryptionEngine.deriveKey P.argon2id passphrase.bytes salt.bytes))

/-- No bytes are a null pointer, which the native side refuses. -/
def appliedTo (operation : String) (cipher : Bytes → Run VaultError Bytes) (input : NetBytes) :
    Except NetError NetBytes :=
  netResult operation toArray
    (if input.bytes = [] then .error nullArgument else toMessage (cipher input.bytes))

def chunkedFrom (c : SizedConfig) (data : NetBytes) : Except NetError (List NetChunk) :=
  if data.bytes = [] then .ok []
  else netResult "Chunk data" toChunkList
    (toMessage ((c.engine P).chunkData P.hashes data.bytes (data.bytes.length + 1)))

def customConfig (minSize avgSize maxSize : Int) : Except NetError SizedConfig :=
  if hpos : minSize ≤ 0 then .error (.argument "minSize must be positive" "minSize")
  else if h1 : avgSize < minSize then .error (.argument "avgSize must be >= minSize" "avgSize")
  else if h2 : maxSize < avgSize then .error (.argument "maxSize must be >= avgSize" "maxSize")
  else .ok ⟨⟨minSize.toNat, avgSize.toNat, maxSize.toNat⟩, by simp only; omega, by simp only; omega,
    by simp only; omega⟩

end

variable {P : NativePlatform} {S own own' : Multiset (Block Cell)} {l : Option String} {a d : Addr}
  {v : Bytes} {msg operation : String} {α β : Type}

theorem ptrToStringAnsi_spec {text : String}
    {post : Option String → Option String → Multiset (Block Cell) → Prop} (ha : a ≠ 0)
    (hmem : (a, Cell.cstring text) ∈ S + own) (h : post (some text) l own) :
    Spec S l own (ptrToStringAnsi a) post := by
  have hmap : (some <$> loadAs Cell.asCString a : Ffi (Option String)) =
      (loadAs Cell.asCString a >>= fun text => pure (some text)) := map_eq_pure_bind some _
  rw [ptrToStringAnsi, if_neg ha, hmap]
  exact Spec.bind (Spec.loadAs hmem rfl (Spec.pure h))

theorem marshalCopy_spec {n : Nat} {post : Bytes → Option String → Multiset (Block Cell) → Prop}
    (hmem : vecBlocks d v (P.capacity v) ⊆ S + own) (hn : n ≤ v.length)
    (h : post (v.take n) l own) :
    Spec S l own (marshalCopy d n) post := by
  by_cases hzero : n = 0
  · subst hzero
    exact Spec.pure h
  · have hcapacity : P.capacity v ≠ 0 := by
      rw [NativePlatform.capacity]
      omega
    have hvec : (d, Cell.vec v (P.capacity v)) ∈ S + own := by
      refine hmem ?_
      rw [vecBlocks, if_neg hcapacity]
      exact Multiset.mem_singleton_self _
    rw [marshalCopy, if_neg hzero]
    refine Spec.bind (Spec.loadAs hvec rfl ?_)
    rw [if_pos hn]
    exact Spec.pure h

theorem toInt32_le (n : Nat) : (toInt32 n).toNat ≤ n := by
  have hmod := Nat.mod_le n (2 ^ 32)
  rw [toInt32]
  split
  · omega
  · omega

section

variable {post : Except NetError α → Option String → Multiset (Block Cell) → Prop}

theorem native_safe {c : NativeCall} {f : NativeReply c → Net α}
    (h : Spec S l own (answerNative P c) fun r l' own' =>
      Safe (answerNative P) S post (f r) l' own') :
    Safe (answerNative P) S post (native c >>= f) l own :=
  Safe.bind (Safe.call h)

theorem ofExcept_safe {r : Except NetError α} (h : post r l own) :
    Safe (answerNative P) S post (Prog.ofExcept r) l own := by
  cases r with
  | ok a => exact h
  | error e => exact h

theorem tryFinally_safe {body : Net α} {last : Net Unit}
    (h : Safe (answerNative P) S (fun r => Safe (answerNative P) S
      (leaving (answerNative P) S (fun _ => Prog.ofExcept r) post) last) body l own) :
    Safe (answerNative P) S post (tryFinally body last) l own :=
  Safe.catchAll (h.mono fun _ _ _ hlast => Safe.bind hlast)

theorem throwLastError_safe (h : ∀ l', post (.error (vaultFailure operation msg)) l' own) :
    Safe (answerNative P) S post (throwLastError operation) (some msg) own := by
  refine native_safe (vaultLastError_spec (fun hnone => nomatch hnone) ?_ ?_)
  · intro m hm hnul
    obtain rfl := Option.some.inj hm
    have hfail := h (some msg)
    rw [vaultFailure, if_pos hnul] at hfail
    exact hfail
  · intro m hm hnul errorPtr hptr
    obtain rfl := Option.some.inj hm
    have hfail := h (some msg)
    rw [vaultFailure, if_neg hnul] at hfail
    rw [if_neg hptr]
    have hmem : (errorPtr, Cell.cstring msg) ∈ S + ({(errorPtr, Cell.cstring msg)} + own) :=
      Multiset.mem_add.mpr (.inr (Multiset.mem_add.mpr (.inl (Multiset.mem_singleton_self _))))
    refine Safe.bind (tryFinally_safe (Safe.call (ptrToStringAnsi_spec hptr hmem ?_)))
    exact Safe.call (vaultErrorFree_spec hptr rfl hfail)

theorem copyOut_safe {post : Except NetError NetBytes → Option String →
      Multiset (Block Cell) → Prop}
    (hmem : vecBlocks d v (P.capacity v) ⊆ S + own) (h : post (toArray v) l own) :
    Safe (answerNative P) S post (copyOut d v.length) l own := by
  refine Safe.bind (ofExcept_safe ?_)
  cases hn : checkArrayLength (toInt32 v.length) with
  | error e =>
    rw [toArray, hn] at h
    exact h
  | ok n =>
    rw [toArray, hn] at h
    have hle : n.length ≤ v.length := by
      have hlen := toInt32_le v.length
      unfold checkArrayLength at hn
      split at hn
      · cases hn
      · split at hn
        · obtain rfl := Except.ok.inj hn
          exact hlen
        · cases hn
    refine native_safe (marshalCopy_spec (P := P) hmem hle ?_)
    have htaken : NetBytes.ofPrefix (v.take n.length) n = NetBytes.ofPrefix v n := by
      simp [NetBytes.ofPrefix]
    show post (.ok (NetBytes.ofPrefix (v.take n.length) n)) l own
    rw [htaken]
    exact h

theorem bufferToByteArray_safe
    {post : Except NetError NetBytes → Option String → Multiset (Block Cell) → Prop}
    (hmem : bufferBlocks P v a d ⊆ S + own) (h : post (toArray v) l own) :
    Safe (answerNative P) S post (bufferToByteArray a) l own := by
  have hbuffer : (a, Cell.buffer d v.length (P.capacity v)) ∈ S + own :=
    hmem (Multiset.mem_add.mpr (.inl (Multiset.mem_singleton_self _)))
  have hvec : vecBlocks d v (P.capacity v) ⊆ S + own :=
    fun b hb => hmem (Multiset.mem_add.mpr (.inr hb))
  exact native_safe (Spec.loadAs hbuffer rfl (copyOut_safe hvec h))

theorem takeBuffer_gives {r : Except String Bytes}
    {post : Except NetError NetBytes → Option String → Multiset (Block Cell) → Prop}
    (h : ∀ l', post (netResult operation toArray r) l' own) :
    Gives (BufferAt P) own (fun ptr => Safe (answerNative P) S post (takeBuffer operation ptr))
      r := by
  cases r with
  | error msg => exact throwLastError_safe h
  | ok v =>
    rintro a new ha ⟨d, rfl⟩
    rw [takeBuffer, if_neg ha]
    have hmem : bufferBlocks P v a d ⊆ S + (bufferBlocks P v a d + own) := fun b hb =>
      Multiset.mem_add.mpr (.inr (Multiset.mem_add.mpr (.inl hb)))
    refine tryFinally_safe (bufferToByteArray_safe hmem ?_)
    exact Safe.call (vaultBufferFree_spec ha rfl (ofExcept_safe (h none)))

theorem newObject_gives {E : Type} {holds : E → Addr → Multiset (Block Cell) → Prop}
    {post : Except NetError NetObject → Option String → Multiset (Block Cell) → Prop}
    {r : Except String E}
    (hfail : ∀ msg, r = .error msg → ∀ l', post (.error (vaultFailure operation msg)) l' own)
    (hnew : ∀ e a new, r = .ok e → a ≠ 0 → holds e a new →
      ∀ l', post (.ok ⟨a, false⟩) l' (new + own)) :
    Gives holds own (fun ptr => Safe (answerNative P) S post (newObject operation ptr)) r := by
  cases r with
  | error msg => exact throwLastError_safe (hfail msg rfl)
  | ok e =>
    intro a new ha hholds
    rw [newObject, if_neg ha]
    exact hnew e a new rfl ha hholds none

end

theorem NetBytes.readable_pinned (b : NetBytes) : Readable b.pinned b.length := by
  intro bytes hb
  rw [NetBytes.pinned] at hb
  split at hb
  · cases hb
  · obtain rfl := Option.some.inj hb
    exact Nat.le_refl _

theorem NetBytes.bytesAt_pinned (b : NetBytes) : bytesAt b.pinned b.length = b.bytes := by
  rw [NetBytes.pinned]
  split
  · next hnil => rw [hnil, bytesAt, Option.getD_none, List.take_nil]
  · rw [bytesAt, Option.getD_some, NetBytes.length, List.take_length]

theorem NetBytes.pinned_eq_none {b : NetBytes} : b.pinned = none ↔ b.bytes = [] := by
  rw [NetBytes.pinned]
  split
  · next hnil => exact ⟨fun _ => hnil, fun _ => rfl⟩
  · next hne =>
    constructor
    · intro h
      cases h
    · intro h
      exact absurd h hne

theorem NetBytes.length_ne_zero {b : NetBytes} (h : b.bytes ≠ []) : b.length ≠ 0 := fun hzero =>
  h (List.length_eq_zero_iff.mp hzero)

theorem applyResult_pinned (cipher : Bytes → Run VaultError Bytes) (b : NetBytes) :
    applyResult cipher b.pinned b.length =
      if b.bytes = [] then .error nullArgument else toMessage (cipher b.bytes) := by
  rw [applyResult, b.bytesAt_pinned]
  exact if_congr NetBytes.pinned_eq_none rfl rfl

theorem deriveKeyResult_pinned (passphrase salt : NetBytes) :
    deriveKeyResult P passphrase.pinned passphrase.length salt.pinned salt.length =
      if passphrase.bytes = [] ∨ salt.bytes = [] then .error nullArgument
      else toMessage (Vector.toList <$>
        AesEncryptionEngine.deriveKey P.argon2id passphrase.bytes salt.bytes) := by
  rw [deriveKeyResult, passphrase.bytesAt_pinned, salt.bytesAt_pinned]
  exact if_congr (or_congr NetBytes.pinned_eq_none NetBytes.pinned_eq_none) rfl rfl

section

variable {post : Except NetError NetBytes → Option String → Multiset (Block Cell) → Prop}

theorem generateKey_safe {drawn : Digest} (h : ∀ l', post (toArray drawn.toList) l' own) :
    Safe (answerNative P) S post (AesEngine.generateKey drawn) l own :=
  native_safe (generateKey_spec (takeBuffer_gives h))

theorem generateSalt_safe {drawn : Vector UInt8 16} (h : ∀ l', post (toArray drawn.toList) l' own) :
    Safe (answerNative P) S post (AesEngine.generateSalt drawn) l own :=
  native_safe (generateSalt_spec (takeBuffer_gives h))

theorem deriveKey_safe {passphrase salt : NetBytes}
    (h : ∀ l', post (derivedFrom P passphrase salt) l' own) :
    Safe (answerNative P) S post (AesEngine.deriveKey (some passphrase) (some salt)) l own := by
  refine native_safe
    (deriveKey_spec passphrase.readable_pinned salt.readable_pinned (takeBuffer_gives ?_))
  rw [deriveKeyResult_pinned]
  exact h

theorem aes_apply_safe {cipher : AesEncryptionEngine → Bytes → Run VaultError Bytes}
    {e : AesEncryptionEngine} {input : NetBytes} (ha : a ≠ 0) (he : (a, Cell.aesEngine e) ∈ S + own)
    (hc : ∀ v, Loops.Answers (cipher e v))
    (h : ∀ l', post (appliedTo operation (cipher e) input) l' own) :
    Spec S l own (vaultAesApply P cipher a input.pinned input.length) fun ptr =>
      Safe (answerNative P) S post (takeBuffer operation ptr) := by
  refine aesApply_spec ha he input.readable_pinned hc (takeBuffer_gives ?_)
  rw [applyResult_pinned]
  exact h

theorem encrypt_answers (e : AesEncryptionEngine) (plaintext : Bytes) (nonce : AesNonce) :
    Loops.Answers (e.encrypt P.aes plaintext nonce) := by
  rw [AesEncryptionEngine.encrypt, AesEncryptionEngine.sealBound]
  cases P.aes.encrypt e.key nonce [] plaintext with
  | none => exact answers_fail _
  | some ct => exact answers_ok _

theorem decrypt_answers (e : AesEncryptionEngine) (blob : Bytes) :
    Loops.Answers (e.decrypt P.aes blob) := by
  by_cases h : blob.length < AesEncryptionEngine.nonceSize
  · rw [AesEncryptionEngine.decrypt, if_pos h]
    exact answers_fail _
  · obtain ⟨n, ct, rfl⟩ := AesEncryptionEngine.exists_layout h
    rw [AesEncryptionEngine.decrypt_of_long h, AesEncryptionEngine.openBound_layout]
    cases P.aes.decrypt e.key n [] ct with
    | none => exact answers_fail _
    | some p => exact answers_ok _

theorem encrypt_safe {e : AesEncryptionEngine} {plaintext : NetBytes}
    {drawn : AesNonce} (ha : a ≠ 0) (he : (a, Cell.aesEngine e) ∈ S + own)
    (h : ∀ l', post (appliedTo "Encrypt" (fun v => e.encrypt P.aes v drawn) plaintext) l' own) :
    Safe (answerNative P) S post
      (AesEngine.encrypt (some ⟨a, false⟩) (some plaintext) drawn) l own :=
  native_safe (aes_apply_safe ha he (fun v => encrypt_answers e v drawn) h)

theorem decrypt_safe {e : AesEncryptionEngine} {ciphertext : NetBytes} (ha : a ≠ 0)
    (he : (a, Cell.aesEngine e) ∈ S + own)
    (h : ∀ l', post (appliedTo "Decrypt" (e.decrypt P.aes) ciphertext) l' own) :
    Safe (answerNative P) S post (AesEngine.decrypt (some ⟨a, false⟩) (some ciphertext)) l own :=
  native_safe (aes_apply_safe ha he (decrypt_answers e) h)

end

section

variable {post : Except NetError NetObject → Option String → Multiset (Block Cell) → Prop}

theorem createResult_pinned {key : NetBytes} (hlen : key.length = AesEngine.keySize) :
    createResult P key.pinned key.length =
    toMessage (AesEncryptionEngine.new P.hashes key.bytes) := by
  have hne : key.pinned ≠ none := by
    rw [ne_eq, NetBytes.pinned_eq_none]
    intro hnil
    rw [NetBytes.length, hnil] at hlen
    cases hlen
  rw [createResult, if_neg hne, key.bytesAt_pinned]

theorem new_safe {key : NetBytes}
    (hfail : ∀ e, createdFrom P key = .error e → ∀ l', post (.error e) l' own)
    (hnew : ∀ e a, createdFrom P key = .ok e → a ≠ 0 →
      ∀ l', post (.ok ⟨a, false⟩) l' ({(a, .aesEngine e)} + own)) :
    Safe (answerNative P) S post (AesEngine.new (some key)) l own := by
  by_cases hlen : key.length ≠ AesEngine.keySize
  · rw [createdFrom, if_pos hlen] at hfail
    show Safe (answerNative P) S post (if _ then _ else _) l own
    rw [if_pos hlen]
    exact hfail _ rfl l
  · rw [createdFrom, if_neg hlen] at hfail hnew
    show Safe (answerNative P) S post (if _ then _ else _) l own
    rw [if_neg hlen]
    refine native_safe (aesCreate_spec key.readable_pinned ?_)
    rw [createResult_pinned (not_not.mp hlen)]
    refine newObject_gives (fun msg hmsg => hfail _ ?_) fun e a new he ha hholds => ?_
    · rw [hmsg]
      rfl
    · subst hholds
      refine hnew e a ?_ ha
      rw [he]
      rfl

theorem chunkerNew_safe
    (hnew : ∀ a, a ≠ 0 → ∀ l', post (.ok ⟨a, false⟩) l'
      ({(a, .chunkEngine (SizedConfig.default.engine P))} + own)) :
    Safe (answerNative P) S post NetChunkEngine.new l own := by
  refine native_safe (chunkerCreate_spec (newObject_gives (fun msg hmsg => nomatch hmsg) ?_))
  intro e a new he ha hholds
  obtain rfl := Except.ok.inj he
  subst hholds
  exact hnew a ha

theorem chunkerCustom_safe {lo avg hi : Int}
    (hfail : ∀ e, customConfig lo avg hi = .error e → ∀ l', post (.error e) l' own)
    (hnew : ∀ c a, customConfig lo avg hi = .ok c → a ≠ 0 →
      ∀ l', post (.ok ⟨a, false⟩) l' ({(a, .chunkEngine (c.engine P))} + own)) :
    Safe (answerNative P) S post (NetChunkEngine.newCustom lo avg hi) l own := by
  rw [customConfig] at hfail hnew
  by_cases hpos : lo ≤ 0
  · rw [dif_pos hpos] at hfail
    rw [NetChunkEngine.newCustom, if_pos hpos]
    exact hfail _ rfl l
  by_cases h1 : avg < lo
  · rw [dif_neg hpos, dif_pos h1] at hfail
    rw [NetChunkEngine.newCustom, if_neg hpos, if_pos h1]
    exact hfail _ rfl l
  by_cases h2 : hi < avg
  · rw [dif_neg hpos, dif_neg h1, dif_pos h2] at hfail
    rw [NetChunkEngine.newCustom, if_neg hpos, if_neg h1, if_pos h2]
    exact hfail _ rfl l
  · rw [dif_neg hpos, dif_neg h1, dif_neg h2] at hnew
    rw [NetChunkEngine.newCustom, if_neg hpos, if_neg h1, if_neg h2]
    have h1' : lo.toNat ≤ avg.toNat := by omega
    have h2' : avg.toNat ≤ hi.toNat := by omega
    refine native_safe
      (chunkerCreateCustom_spec h1' h2' (newObject_gives (fun msg hmsg => nomatch hmsg) ?_))
    intro e a new he ha hholds
    obtain rfl := Except.ok.inj he
    subst hholds
    exact hnew _ a rfl ha

end

section

variable {c : SizedConfig}

theorem SizedConfig.chunkData_eq (c : SizedConfig) (data : Bytes) :
    ∃ ps : List Bytes, (c.engine P).chunkData P.hashes data (data.length + 1) =
      .ok (chunksFrom P.hashes none 0 ps) ∧ ps.flatten = data ∧ ∀ p ∈ ps, p ≠ [] := by
  let p := CutProfile.ofPositive c.config (c.engine P).gear c.min_pos c.min_le_avg c.avg_le_max
  refine ⟨p.cutter.pieces data, ?_, p.cutter.pieces_flatten data, fun q hq =>
    p.cutter.mem_pieces_ne_nil hq⟩
  by_cases hd : data = []
  · rw [ChunkEngine.chunkData, if_pos hd, hd, p.cutter.pieces_nil]
    rfl
  · have hloop :=
      chunkLoop_eq P.hashes p none data (data.length + 1) 0 [] (Nat.zero_le _) (by omega)
    rw [ChunkEngine.chunkData, if_neg hd]
    exact hloop

theorem SizedConfig.chunkData_named (c : SizedConfig) (data : Bytes) :
    ∃ chunks, (c.engine P).chunkData P.hashes data (data.length + 1) = .ok chunks ∧
      ∀ x ∈ chunks, '\x00' ∉ x.hash.toList := by
  obtain ⟨ps, hps, _⟩ := c.chunkData_eq (P := P) data
  refine ⟨_, hps, fun x hx => ?_⟩
  rw [(mem_chunksFrom hx).2.1]
  exact nul_notMem_hexEncode _

variable {chunks : List Chunk} (s : ChunkListShape chunks)

theorem ChunkListShape.hash_at {i : Nat} {x : Chunk} (hx : chunks[i]? = some x) :
    ∃ w, s.hashes[i]? = some (x, w) := by
  rw [← congrArg (fun cs : List Chunk => cs[i]?) s.hashes_eq, List.getElem?_map,
    Option.map_eq_some_iff] at hx
  obtain ⟨p, hp, rfl⟩ := hx
  exact ⟨p.2, hp⟩

theorem ChunkListShape.buffer_at {i : Nat} {x : Chunk} (hx : chunks[i]? = some x) :
    ∃ w, s.buffers[i]? = some (x, w) := by
  rw [← congrArg (fun cs : List Chunk => cs[i]?) s.buffers_eq, List.getElem?_map,
    Option.map_eq_some_iff] at hx
  obtain ⟨p, hp, rfl⟩ := hx
  exact ⟨p.2, hp⟩

open ChunkListShape in
theorem parseChunk_safe {x : Chunk} {i : Nat}
    {post : Except NetError NetChunk → Option String → Multiset (Block Cell) → Prop}
    (hmem : s.blocks P a ⊆ S + own) (hx : chunks[i]? = some x) (h : post (toNetChunk x) l own) :
    Safe (answerNative P) S post (NetChunkEngine.parseChunk s.infosAt s.dataAt i) l own := by
  obtain ⟨w, hw⟩ := s.hash_at hx
  obtain ⟨b, hb⟩ := s.buffer_at hx
  have hinfoSlice : sliceBlocks .chunkInfos (s.hashes.map infoOf) s.infosAt ⊆ S + own := by
    intro c hc
    refine hmem ?_
    simp only [ChunkListShape.blocks, Multiset.mem_add]
    exact .inl (.inl (.inl (.inr hc)))
  have hdataSlice : sliceBlocks .dataBuffers (s.buffers.map bufferOf) s.dataAt ⊆ S + own := by
    intro c hc
    refine hmem ?_
    simp only [ChunkListShape.blocks, Multiset.mem_add]
    exact .inl (.inl (.inr hc))
  have hhash : (w, Cell.cstring x.hash) ∈ S + own := by
    refine hmem ?_
    have hown :=
      subset_sum_of_mem hashBlocks (List.mem_of_getElem? hw) (Multiset.mem_singleton_self _)
    simp only [ChunkListShape.blocks, Multiset.mem_add]
    exact .inl (.inr hown)
  have hdata : bufferBlocks P x.data b.1 b.2 ⊆ S + own := fun c hc => by
    refine hmem ?_
    have hown := subset_sum_of_mem (dataBlocks P) (List.mem_of_getElem? hb) hc
    simp only [ChunkListShape.blocks, Multiset.mem_add]
    exact .inr hown
  have hinfo : (s.hashes.map infoOf)[i]? = some ⟨w, x.size, x.offset⟩ := by
    rw [List.getElem?_map, hw]
    rfl
  have hbuffer : (s.buffers.map bufferOf)[i]? = some b.1 := by
    rw [List.getElem?_map, hb]
    rfl
  refine native_safe (elementAt_spec rfl hinfo hinfoSlice ?_)
  refine native_safe
    (elementAt_spec rfl hbuffer hdataSlice (Safe.bind (bufferToByteArray_safe hdata ?_)))
  rw [toNetChunk] at h
  cases htoArray : toArray x.data with
  | error e =>
    rw [htoArray] at h
    exact h
  | ok bytes =>
    rw [htoArray] at h
    exact native_safe (ptrToStringAnsi_spec (s.hash_ne_null _ (List.mem_of_getElem? hw)) hhash h)

theorem parseChunks_safe {post : Except NetError (List NetChunk) → Option String →
      Multiset (Block Cell) → Prop}
    (hmem : s.blocks P a ⊆ S + own) (h : post (toNetChunks chunks) l own) :
    Safe (answerNative P) S post
      (NetChunkEngine.parseChunks s.infosAt s.dataAt (List.range chunks.length)) l own := by
  have hfrom : ∀ (rest : List Chunk) (k : Nat)
      (post : Except NetError (List NetChunk) → Option String → Multiset (Block Cell) → Prop),
      (∀ j, rest[j]? = chunks[k + j]?) → post (toNetChunks rest) l own →
      Safe (answerNative P) S post
        (NetChunkEngine.parseChunks s.infosAt s.dataAt (List.range' k rest.length)) l own := by
    intro rest
    induction rest with
    | nil => exact fun _ _ _ h => h
    | cons x rest ih =>
      intro k post hrest h
      rw [toNetChunks] at h
      refine Safe.bind (parseChunk_safe s hmem (hrest 0).symm ?_)
      cases hx : toNetChunk x with
      | error e =>
        rw [hx] at h
        exact h
      | ok chunk =>
        rw [hx] at h
        have hnext : ∀ j, rest[j]? = chunks[k + 1 + j]? := fun j => by
          have hj := hrest (j + 1)
          rwa [List.getElem?_cons_succ, show k + (j + 1) = k + 1 + j by omega] at hj
        refine Safe.bind (ih (k + 1) _ hnext ?_)
        cases hparsed : toNetChunks rest with
        | error e =>
          rw [hparsed] at h
          exact h
        | ok parsed =>
          rw [hparsed] at h
          exact h
  have hall := hfrom chunks 0 post (fun j => by rw [Nat.zero_add]) h
  rwa [← List.range_eq_range'] at hall

theorem chunk_safe {data : NetBytes}
    {post : Except NetError (List NetChunk) → Option String → Multiset (Block Cell) →
      Prop} (ha : a ≠ 0)
    (he : (a, Cell.chunkEngine (c.engine P)) ∈ S + own)
    (h : ∀ l', post (chunkedFrom P c data) l' own) :
    Safe (answerNative P) S post (NetChunkEngine.chunk (some ⟨a, false⟩) (some data)) l own := by
  by_cases hnil : data.bytes = []
  · have hlen : data.length = 0 := by rw [NetBytes.length, hnil, List.length_nil]
    rw [chunkedFrom, if_pos hnil] at h
    show Safe (answerNative P) S post (if data.length = 0 then _ else _) l own
    rw [if_pos hlen]
    exact h l
  · have hread : chunkResult P (c.engine P) data.pinned data.length =
        toMessage ((c.engine P).chunkData P.hashes data.bytes (data.bytes.length + 1)) := by
      rw [chunkResult, if_neg fun hnull => hnil (NetBytes.pinned_eq_none.mp hnull.1),
        data.bytesAt_pinned]
    rw [chunkedFrom, if_neg hnil] at h
    show Safe (answerNative P) S post (if data.length = 0 then _ else _) l own
    rw [if_neg (NetBytes.length_ne_zero hnil)]
    refine native_safe (chunk_spec ha he data.readable_pinned c.chunkData_named ?_)
    rw [hread]
    cases hr : toMessage ((c.engine P).chunkData P.hashes data.bytes (data.bytes.length + 1)) with
    | error msg =>
      rw [hr] at h
      exact throwLastError_safe h
    | ok chunks =>
      rw [hr] at h
      rintro listPtr new hptr ⟨s, rfl⟩
      have hmem : s.blocks P listPtr ⊆ S + (s.blocks P listPtr + own) := fun b hb =>
        Multiset.mem_add.mpr (.inr (Multiset.mem_add.mpr (.inl hb)))
      have hlist : (listPtr, Cell.chunkList s.infosAt chunks.length s.dataAt) ∈
          S + (s.blocks P listPtr + own) := hmem (by simp [ChunkListShape.blocks])
      have hfree : ∀ r, r = toChunkList chunks → Safe (answerNative P) S
          (leaving (answerNative P) S (fun _ => Prog.ofExcept r) post)
          (native (.chunkListFree listPtr)) none (s.blocks P listPtr + own) := by
        rintro _ rfl
        exact Safe.call (chunkListFree_spec hptr ⟨s, rfl⟩ rfl (ofExcept_safe (h none)))
      rw [if_neg hptr]
      refine tryFinally_safe (native_safe (Spec.loadAs hlist rfl ?_))
      show Safe (answerNative P) S _ (if toInt32 chunks.length < 0 then _ else _) _ _
      by_cases hcount : toInt32 chunks.length < 0
      · rw [if_pos hcount]
        exact hfree _ (by rw [toChunkList, if_pos hcount])
      · rw [if_neg hcount]
        exact parseChunks_safe s hmem (hfree _ (by rw [toChunkList, if_neg hcount]))

theorem computeHash_safe {data : NetBytes}
    {post : Except NetError String → Option String → Multiset (Block Cell) → Prop}
    (h : ∀ l', post (.ok (computeHash P.hashes data.bytes)) l' own) :
    Safe (answerNative P) S post (NetChunkEngine.computeHash (some data)) l own := by
  have hread : hashResult P data.pinned data.length = .ok (computeHash P.hashes data.bytes) := by
    rw [hashResult, data.bytesAt_pinned]
    refine if_neg fun hnull => ?_
    have hpos := hnull.2
    rw [NetBytes.length, NetBytes.pinned_eq_none.mp hnull.1] at hpos
    exact Nat.lt_irrefl 0 hpos
  refine native_safe (computeHash_spec data.readable_pinned ?_)
  rw [hread]
  rintro hashPtr new hptr rfl
  have hmem : (hashPtr, Cell.cstring (computeHash P.hashes data.bytes)) ∈
      S + ({(hashPtr, Cell.cstring (computeHash P.hashes data.bytes))} + own) :=
    Multiset.mem_add.mpr (.inr (Multiset.mem_add.mpr (.inl (Multiset.mem_singleton_self _))))
  rw [if_neg hptr]
  refine Safe.bind (tryFinally_safe (Safe.call (ptrToStringAnsi_spec hptr hmem ?_)))
  exact Safe.call (vaultErrorFree_spec hptr rfl (h none))

end

end GitCellar
