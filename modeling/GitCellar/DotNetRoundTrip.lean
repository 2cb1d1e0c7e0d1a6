import GitCellar.DotNetRuns

/-! What goes through the .NET bindings and back: `Decrypt` after `Encrypt`, and
`Reassemble` after `Chunk`. -/

namespace GitCellar

open Effects Ownership Loops AuthEnc

theorem toInt32_of_lt {n : Nat} (h : n < 2 ^ 31) : toInt32 n = n := by
  rw [toInt32]
  split
  · omega
  · omega

theorem checkArrayLength_of_le {n : Nat} (h : n ≤ arrayMaxLength) :
    checkArrayLength n = .ok ⟨n, h⟩ := by
  have hnat : ¬ (n : Int) < 0 := by omega
  rw [checkArrayLength, if_neg hnat]
  exact dif_pos h

theorem toArray_of_le {v : Bytes} (h : v.length ≤ arrayMaxLength) :
    ∃ b : NetBytes, toArray v = .ok b ∧ b.bytes = v := by
  have hlt : v.length < 2 ^ 31 := by
    simp only [arrayMaxLength] at h
    omega
  refine ⟨.ofPrefix v ⟨v.length, h⟩, ?_, List.take_length⟩
  rw [toArray, toInt32_of_lt hlt, checkArrayLength_of_le h]
  rfl

theorem netBytes_ext {b b' : NetBytes} (h : b.bytes = b'.bytes) : b = b' := by
  cases b
  cases b'
  simp only [NetBytes.mk.injEq]
  exact h

namespace NetChunkEngine

theorem addInt32_of_lt {n b : Nat} (h : n + b < 2 ^ 31) : addInt32 n b = (n + b : Nat) := by
  have hmod : (((n : Int) % 2 ^ 32).toNat + b) = n + b := by omega
  rw [addInt32, hmod, toInt32_of_lt h]

/-- The sizes of the chunks, as `Reassemble` adds them up. -/
def sizeSum (chunks : List NetChunk) : Nat := (chunks.map fun c => c.data.length).sum

theorem totalSize_eq (chunks : List NetChunk) (n : Nat) (h : n + sizeSum chunks < 2 ^ 31) :
    chunks.foldl (fun total c => addInt32 total c.data.length) (n : Int) =
    (n + sizeSum chunks : Nat) := by
  induction chunks generalizing n with
  | nil => rfl
  | cons c chunks ih =>
    simp only [sizeSum, List.map_cons, List.sum_cons] at h ⊢
    rw [List.foldl_cons,
      addInt32_of_lt (by omega), ih _ (by simp only [sizeSum]; omega), sizeSum, Nat.add_assoc]

theorem blockCopy_of_fits {source result : Bytes} {n : Nat}
    (h : n + source.length ≤ result.length) :
    blockCopy source result n =
    .ok (result.take n ++ source ++ result.drop (n + source.length)) := by
  have hnat : ¬ (n : Int) < 0 := by omega
  have hfits : ¬ result.length < n + source.length := by omega
  rw [blockCopy, if_neg hnat, Int.toNat_natCast, if_neg hfits]

/-- Each chunk lands behind the ones before it; nothing else changes. -/
theorem copyChunks_eq (chunks : List NetChunk) (result : Bytes) (n : Nat)
    (h : n + sizeSum chunks ≤ result.length) (hlen : result.length < 2 ^ 31) :
    copyChunks chunks result n = .ok (result.take n ++ (chunks.map fun c => c.data.bytes).flatten ++
      result.drop (n + sizeSum chunks)) := by
  induction chunks generalizing result n with
  | nil => simp [copyChunks, sizeSum]
  | cons c chunks ih =>
    simp only [sizeSum, List.map_cons, List.sum_cons] at h ⊢
    have hc : n + c.data.bytes.length ≤ result.length := by
      rw [NetBytes.length] at h
      omega
    have htake : (result.take n ++ c.data.bytes).length = n + c.data.length := by
      rw [List.length_append, List.length_take, NetBytes.length]
      omega
    have hcopied : (result.take n ++ c.data.bytes ++ result.drop (n + c.data.length)).length =
        result.length := by
      rw [List.length_append, htake, List.length_drop, NetBytes.length]
      omega
    have hnext :=
      ih (result.take n ++ c.data.bytes ++ result.drop (n + c.data.length)) (n + c.data.length)
      (by rw [hcopied, sizeSum]; omega) (by rw [hcopied]; exact hlen)
    rw [copyChunks, blockCopy_of_fits hc]
    show copyChunks chunks (result.take n ++ c.data.bytes ++ result.drop (n + c.data.length))
      (addInt32 n c.data.length) = _
    rw [addInt32_of_lt (by omega), hnext, List.take_left' htake, List.flatten_cons]
    have hdrop : (result.take n ++ c.data.bytes ++ result.drop (n + c.data.length)).drop
        (n + c.data.length + sizeSum chunks) =
        result.drop (n + (c.data.length + sizeSum chunks)) := by
      rw [← htake, List.drop_length_add_append, htake, List.drop_drop, Nat.add_assoc]
    rw [hdrop]
    simp only [List.append_assoc, sizeSum]

theorem reassemble_eq {chunks : List NetChunk} (h : sizeSum chunks ≤ arrayMaxLength) :
    reassemble (some chunks) = .ok (chunks.map fun c => c.data.bytes).flatten := by
  have hlt : sizeSum chunks < 2 ^ 31 := by
    simp only [arrayMaxLength] at h
    omega
  have htotal := totalSize_eq chunks 0 (by omega)
  rw [Nat.zero_add] at htotal
  have hcopy := copyChunks_eq chunks (List.replicate (sizeSum chunks) 0) 0
    (by rw [List.length_replicate]; omega) (by rw [List.length_replicate]; exact hlt)
  simp only [List.take_zero, List.nil_append, Nat.zero_add, List.drop_replicate, Nat.sub_self,
    List.replicate_zero, List.append_nil] at hcopy
  rw [reassemble]
  show (checkArrayLength (chunks.foldl (fun total c => addInt32 total c.data.length) (0 : Nat)) >>=
    _) = _
  rw [htotal, checkArrayLength_of_le h]
  exact hcopy

end NetChunkEngine

variable {P : NativePlatform} {S own : Multiset (Block Cell)} {l : Option String}

/-- Chunks no longer than an array come over unchanged. -/
theorem toNetChunks_of_le (chunks : List Chunk) (h : ∀ c ∈ chunks, c.data.length ≤ arrayMaxLength) :
    ∃ parsed, toNetChunks chunks = .ok parsed ∧
      parsed.map (fun x => x.data.bytes) = chunks.map Chunk.data ∧
      ∀ x ∈ parsed, ∃ c ∈ chunks, x.hash = c.hash ∧ x.data.bytes = c.data := by
  induction chunks with
  | nil => exact ⟨[], rfl, rfl, List.forall_mem_nil _⟩
  | cons c chunks ih =>
    obtain ⟨b, hb, hbytes⟩ := toArray_of_le (h c List.mem_cons_self)
    obtain ⟨parsed, hparsed, hdata, hfrom⟩ := ih fun x hx => h x (List.mem_cons_of_mem _ hx)
    refine ⟨⟨c.hash, b, c.offset⟩ :: parsed, ?_, ?_, fun x hx => ?_⟩
    · rw [toNetChunks, toNetChunk, hb, hparsed]
      rfl
    · rw [List.map_cons, List.map_cons, hdata, hbytes]
    · rcases List.mem_cons.mp hx with rfl | hx
      · exact ⟨c, List.mem_cons_self, rfl, hbytes⟩
      · obtain ⟨c', hc', hsame⟩ := hfrom x hx
        exact ⟨c', List.mem_cons_of_mem _ hc', hsame⟩

/-- Alone on the heap the method ends with `r` and leaves the heap as it was. -/
def Runs {α : Type} (P : NativePlatform) (l : Option String) (h : Heap Cell) (p : Net α)
    (r : Except NetError α) :
    Prop :=
  ∃ l' h', runAlone (answerNative P) p (l, h) = .ok (r, l', h') ∧
    (h' : Multiset (Block Cell)) = (h : Multiset (Block Cell))

theorem runs_of_safe {α : Type} {h : Heap Cell} {p : Net α} {r : Except NetError α}
    (hvalid : Valid h)
    (hp : Safe (answerNative P) (h : Multiset (Block Cell))
      (fun r' _ own => r' = r ∧ own = 0) p l 0) :
    Runs P l h p r := by
  obtain ⟨_, l', h', _, hrun, _, hheap, rfl, rfl⟩ := hp.runAlone h 0 hvalid (by simp)
  exact ⟨l', h', hrun, by simpa using hheap⟩

theorem encrypted_opens
    (hA : P.aes.Lawful AesEncryptionEngine.tagSize AesEncryptionEngine.maxPlaintext)
    (e : AesEncryptionEngine) (drawn : AesNonce) {data : NetBytes} (hne : data.bytes ≠ [])
    (hlen : data.length + 28 ≤ arrayMaxLength) :
    ∃ blob : NetBytes, appliedTo "Encrypt" (fun v => e.encrypt P.aes v drawn) data = .ok blob ∧
      appliedTo "Decrypt" (e.decrypt P.aes) blob = .ok data := by
  have hbound := data.length_lt
  obtain ⟨ct, hct⟩ := hA.seals e.key drawn [] data.bytes (by
    simp only [AesEncryptionEngine.maxPlaintext]
    omega)
  have hseal : e.encrypt P.aes data.bytes drawn = .ok (drawn.toList ++ ct) :=
    AesEncryptionEngine.sealBound_ok_iff.mpr ⟨ct, hct, rfl⟩
  have hsealed := AesEncryptionEngine.sealBound_length hA hseal
  have hopen := (AesEncryptionEngine.decrypt_ok_iff hA).mpr ⟨drawn, hseal⟩
  simp only [AesEncryptionEngine.nonceSize, AesEncryptionEngine.tagSize] at hsealed
  rw [NetBytes.length] at hlen
  obtain ⟨blob, hblob, hbytes⟩ := toArray_of_le (v := drawn.toList ++ ct) (by omega)
  obtain ⟨back, hback, hsame⟩ := toArray_of_le (v := data.bytes) (by omega)
  have hblobNe : blob.bytes ≠ [] := by
    intro hnil
    rw [hbytes] at hnil
    rw [hnil] at hsealed
    simp at hsealed
  refine ⟨blob, ?_, ?_⟩
  · rw [appliedTo, if_neg hne, hseal]
    exact hblob
  · rw [appliedTo, if_neg hblobNe, hbytes, hopen]
    exact hback.trans (congrArg Except.ok (netBytes_ext hsame))

theorem chunked_reassembles (c : SizedConfig) {data : NetBytes}
    (hlen : data.length ≤ arrayMaxLength) :
    ∃ chunks, chunkedFrom P c data = .ok chunks ∧
      NetChunkEngine.reassemble (some chunks) = .ok data.bytes ∧
      ∀ x ∈ chunks, x.hash = computeHash P.hashes x.data.bytes := by
  by_cases hnil : data.bytes = []
  · refine ⟨[], if_pos hnil, ?_, List.forall_mem_nil _⟩
    rw [NetChunkEngine.reassemble_eq (Nat.zero_le _), hnil]
    rfl
  · obtain ⟨ps, hchunks, hflat, hne⟩ := c.chunkData_eq (P := P) data.bytes
    have hlong := data.length_lt
    have hpiece : ∀ p ∈ ps, p.length ≤ data.bytes.length := fun p hp => by
      rw [← hflat]
      exact (List.sublist_flatten_of_mem hp).length_le
    have hcount : ps.length ≤ data.bytes.length := by
      have hsum := List.length_le_sum_of_one_le (ps.map List.length) fun n hn => by
        obtain ⟨p, hp, rfl⟩ := List.mem_map.mp hn
        exact List.length_pos_iff.mpr (hne p hp)
      rwa [List.length_map, ← List.length_flatten, hflat] at hsum
    obtain ⟨parsed, hparsed, hdata, hfrom⟩ := toNetChunks_of_le
      (chunksFrom P.hashes none 0 ps) fun x hx => (hpiece _ (mem_chunksFrom hx).1).trans hlen
    rw [map_data_chunksFrom] at hdata
    have hlength : (chunksFrom P.hashes none 0 ps).length = ps.length := by
      rw [← congrArg List.length (map_data_chunksFrom P.hashes none 0 ps), List.length_map]
    have hlist : ¬ toInt32 (chunksFrom P.hashes none 0 ps).length < 0 := by
      rw [hlength, toInt32_of_lt (by omega)]
      omega
    have hsize : NetChunkEngine.sizeSum parsed = data.length := by
      have hmap : parsed.map (fun x => x.data.length) =
          (parsed.map fun x => x.data.bytes).map List.length := by
        rw [List.map_map]
        rfl
      rw [NetChunkEngine.sizeSum, hmap, hdata, ← List.length_flatten, hflat]
      rfl
    refine ⟨parsed, ?_, ?_, fun x hx => ?_⟩
    · rw [chunkedFrom, if_neg hnil, hchunks]
      show toChunkList (chunksFrom P.hashes none 0 ps) = _
      rw [toChunkList, if_neg hlist, hparsed]
    · rw [NetChunkEngine.reassemble_eq (by rw [hsize]; exact hlen), hdata, hflat]
    · obtain ⟨y, hy, hhash, hbytes⟩ := hfrom x hx
      rw [hhash, hbytes, (mem_chunksFrom hy).2.1]
      rfl

/-- `Encrypt` refuses no bytes; what it makes of others opens to them again; chunks carry
the hash of their bytes and reassemble to the data. No method leaves anything behind. -/
theorem bindings_round_trip (P : NativePlatform)
    (hA : P.aes.Lawful AesEncryptionEngine.tagSize AesEncryptionEngine.maxPlaintext)
    (e : AesEncryptionEngine) (c : SizedConfig) (a b : Addr) (ha : a ≠ 0) (hb : b ≠ 0)
    (h : Heap Cell) (hvalid : Valid h) (hae : (a, .aesEngine e) ∈ h)
    (hbc : (b, .chunkEngine (c.engine P)) ∈ h) (l : Option String) (data : NetBytes) :
    (data.bytes = [] → ∀ drawn, Runs P l h (AesEngine.encrypt (some ⟨a, false⟩) (some data) drawn)
      (.error (.vault "Encrypt failed: Null pointer argument"))) ∧
    (data.bytes ≠ [] → data.length + 28 ≤ arrayMaxLength → ∀ drawn, Runs P l h
      (do
        let blob ← AesEngine.encrypt (some ⟨a, false⟩) (some data) drawn
        AesEngine.decrypt (some ⟨a, false⟩) (some blob)) (.ok data)) ∧
    (data.length ≤ arrayMaxLength → ∃ chunks,
      Runs P l h (NetChunkEngine.chunk (some ⟨b, false⟩) (some data)) (.ok chunks) ∧
      NetChunkEngine.reassemble (some chunks) = .ok data.bytes ∧
      ∀ x ∈ chunks, Runs P l h (NetChunkEngine.computeHash (some x.data)) (.ok x.hash)) := by
  have hmemA : (a, Cell.aesEngine e) ∈ (h : Multiset (Block Cell)) + 0 := by simpa using hae
  have hmemC : (b, Cell.chunkEngine (c.engine P)) ∈ (h : Multiset (Block Cell)) + 0 := by
    simpa using hbc
  refine ⟨fun hnil drawn => ?_, fun hne hlen drawn => ?_, fun hlen => ?_⟩
  · refine runs_of_safe hvalid (encrypt_safe ha hmemA fun _ => ⟨?_, rfl⟩)
    have hmessage : vaultFailure "Encrypt" nullArgument =
        .vault "Encrypt failed: Null pointer argument" := by
      decide +kernel
    rw [appliedTo, if_pos hnil, netResult, hmessage]
  · obtain ⟨blob, hseal, hopen⟩ := encrypted_opens hA e drawn hne hlen
    refine runs_of_safe hvalid (Safe.bind (encrypt_safe ha hmemA fun _ => ?_))
    rw [hseal]
    exact decrypt_safe ha hmemA fun _ => ⟨hopen, rfl⟩
  · obtain ⟨chunks, hchunks, hback, hhash⟩ := chunked_reassembles (P := P) c hlen
    refine ⟨chunks, runs_of_safe hvalid (chunk_safe hb hmemC fun _ => ⟨hchunks, rfl⟩), hback,
      fun x hx => ?_⟩
    rw [hhash x hx]
    exact runs_of_safe hvalid (computeHash_safe fun _ => ⟨rfl, rfl⟩)

theorem Runs.unique {α : Type} {h : Heap Cell} {p : Net α} {r r' : Except NetError α}
    (hr : Runs P l h p r) (hr' : Runs P l h p r') : r = r' := by
  obtain ⟨_, _, hrun, _⟩ := hr
  obtain ⟨_, _, hrun', _⟩ := hr'
  rw [hrun] at hrun'
  cases hrun'
  rfl

def smallConfig : SizedConfig := ⟨⟨1, 2, 4⟩, by decide, by decide, by decide⟩

def sampleEngines : Heap Cell :=
  [(5, .aesEngine .sampleAesEngine), (6, .chunkEngine (smallConfig.engine samplePlatform))]

def sampleBytes : NetBytes := ⟨[104, 105, 7, 8, 9], by decide⟩

theorem bindings_round_trip_sample :
    Runs samplePlatform none sampleEngines
      (do
        let blob ← AesEngine.encrypt (some ⟨5, false⟩) (some sampleBytes)
            AesEncryptionEngine.sampleAesNonce
        AesEngine.decrypt (some ⟨5, false⟩) (some blob)) (.ok sampleBytes) ∧
    ∃ chunks, Runs samplePlatform none sampleEngines
        (NetChunkEngine.chunk (some ⟨6, false⟩) (some sampleBytes)) (.ok chunks) ∧
      chunks.map (fun x => x.data.bytes) = [[104, 105], [7, 8], [9]] ∧
      NetChunkEngine.reassemble (some chunks) = .ok sampleBytes.bytes := by
  have hvalid : Valid sampleEngines := show [5, 6].Nodup by decide
  have hchunker : (6, Cell.chunkEngine (smallConfig.engine samplePlatform)) ∈ sampleEngines :=
    List.mem_cons_of_mem _ List.mem_cons_self
  obtain ⟨_, hcipher, hchunks⟩ := bindings_round_trip samplePlatform
    (Aead.tagOnce_ideal (by decide) _ _ _ _).toLawful .sampleAesEngine smallConfig 5 6 (by decide)
    (by decide) sampleEngines hvalid List.mem_cons_self hchunker none sampleBytes
  obtain ⟨chunks, hruns, hback, _⟩ := hchunks (by decide)
  refine ⟨hcipher (by decide) (by decide) _, chunks, hruns, ?_, hback⟩
  have hmem : (6, Cell.chunkEngine (smallConfig.engine samplePlatform)) ∈
      (sampleEngines : Multiset (Block Cell)) + 0 := by simpa using hchunker
  have hsafe : Runs samplePlatform none sampleEngines
      (NetChunkEngine.chunk (some ⟨6, false⟩) (some sampleBytes))
      (chunkedFrom samplePlatform smallConfig sampleBytes) :=
    runs_of_safe hvalid (chunk_safe (by decide) hmem fun _ => ⟨rfl, rfl⟩)
  have hpieces : (chunkedFrom samplePlatform smallConfig sampleBytes).toOption.map
      (fun chunks => chunks.map fun x => x.data.bytes) = some [[104, 105], [7, 8], [9]] := by
    decide +kernel
  rw [← hruns.unique hsafe] at hpieces
  exact Option.some.inj hpieces

end GitCellar
