import GitCellar.FfiSpecs
import GitCellar.HexText

/-! Each function of the C interface that hands something out: NULL and an error text,
or a pointer to what it owns from then on and the function that takes it back. -/

namespace GitCellar

open Loops Ownership

/-- Where a chunk list keeps its chunks. -/
structure ChunkListShape (chunks : List Chunk) where
  hashes : List (Chunk × Addr)
  buffers : List (Chunk × Addr × Addr)
  infosAt : Addr
  dataAt : Addr
  hashes_eq : hashes.map Prod.fst = chunks
  buffers_eq : buffers.map Prod.fst = chunks
  hash_ne_null : ∀ p ∈ hashes, p.2 ≠ 0
  buffer_ne_null : ∀ p ∈ buffers, p.2.1 ≠ 0

namespace ChunkListShape

def infoOf (p : Chunk × Addr) : VaultChunkInfo := ⟨p.2, p.1.size, p.1.offset⟩

def bufferOf (p : Chunk × Addr × Addr) : Addr := p.2.1

def hashBlocks (p : Chunk × Addr) : Multiset (Block Cell) := {(p.2, .cstring p.1.hash)}

def dataBlocks (P : NativePlatform) (p : Chunk × Addr × Addr) : Multiset (Block Cell) :=
  bufferBlocks P p.1.data p.2.1 p.2.2

variable {chunks : List Chunk} (s : ChunkListShape chunks)

def infoSlice : Multiset (Block Cell) := sliceBlocks .chunkInfos (s.hashes.map infoOf) s.infosAt

def dataSlice : Multiset (Block Cell) := sliceBlocks .dataBuffers (s.buffers.map bufferOf) s.dataAt

def blocks (P : NativePlatform) (list : Addr) : Multiset (Block Cell) :=
  {(list, .chunkList s.infosAt chunks.length s.dataAt)} + s.infoSlice + s.dataSlice +
    (s.hashes.map hashBlocks).sum + (s.buffers.map (dataBlocks P)).sum

theorem length_hashes : s.hashes.length = chunks.length := by
  rw [← congrArg List.length s.hashes_eq, List.length_map]

theorem length_buffers : s.buffers.length = chunks.length := by
  rw [← congrArg List.length s.buffers_eq, List.length_map]

end ChunkListShape

/-- What stands at an address that a call answered. -/
def BufferAt (P : NativePlatform) (v : Bytes) (a : Addr) (new : Multiset (Block Cell)) : Prop :=
  ∃ d, new = bufferBlocks P v a d

def TextAt (text : String) (a : Addr) (new : Multiset (Block Cell)) : Prop :=
  new = {(a, .cstring text)}

def AesAt (e : AesEncryptionEngine) (a : Addr) (new : Multiset (Block Cell)) : Prop :=
  new = {(a, .aesEngine e)}

def ChunkerAt (e : ChunkEngine) (a : Addr) (new : Multiset (Block Cell)) : Prop :=
  new = {(a, .chunkEngine e)}

def ChunkListAt (P : NativePlatform) (chunks : List Chunk) (a : Addr)
    (new : Multiset (Block Cell)) : Prop :=
  ∃ s : ChunkListShape chunks, new = s.blocks P a

/-- A call that succeeds clears the error and leaves its result; one that fails answers
NULL, sets the error and leaves nothing. -/
def Gives {α : Type} (holds : α → Addr → Multiset (Block Cell) → Prop) (own : Multiset (Block Cell))
    (post : Addr → Option String → Multiset (Block Cell) → Prop) : Except String α → Prop
  | .ok x => ∀ a new, a ≠ 0 → holds x a new → post a none (new + own)
  | .error msg => post 0 (some msg) own

/-- The result or the text of its error. A panic is neither: the process aborts. -/
def toMessage {α : Type} : Run VaultError α → Except String α
  | .ok x => .ok x
  | .error (.error e) => .error e.toString
  | .error .panic => .error "panic"
  | .error .outOfFuel => .error "out of fuel"

def nullArgument : String := "Null pointer argument"

/-- The documented precondition on a pointer and its length. -/
def Readable (ptr : CallerPtr) (len : Nat) : Prop := ∀ bytes, ptr = some bytes → len ≤ bytes.length

def bytesAt (ptr : CallerPtr) (len : Nat) : Bytes := (ptr.getD []).take len

section

variable (P : NativePlatform)

def deriveKeyResult (passphrase : CallerPtr) (passphraseLen : Nat) (salt : CallerPtr)
    (saltLen : Nat) :
    Except String Bytes :=
  if passphrase = none ∨ salt = none then .error nullArgument
  else toMessage (Vector.toList <$> AesEncryptionEngine.deriveKey P.argon2id
    (bytesAt passphrase passphraseLen) (bytesAt salt saltLen))

def createResult (key : CallerPtr) (keyLen : Nat) : Except String AesEncryptionEngine :=
  if key = none then .error "Null key pointer"
  else toMessage (AesEncryptionEngine.new P.hashes (bytesAt key keyLen))

def applyResult (cipher : Bytes → Run VaultError Bytes) (input : CallerPtr) (len : Nat) :
    Except String Bytes :=
  if input = none then .error nullArgument else toMessage (cipher (bytesAt input len))

def chunkResult (e : ChunkEngine) (data : CallerPtr) (len : Nat) : Except String (List Chunk) :=
  if data = none ∧ 0 < len then .error nullArgument
  else toMessage (e.chunkData P.hashes (bytesAt data len) ((bytesAt data len).length + 1))

def hashResult (data : CallerPtr) (len : Nat) : Except String String :=
  if data = none ∧ 0 < len then .error nullArgument
  else .ok (computeHash P.hashes (bytesAt data len))

end

variable {P : NativePlatform} {S own own' : Multiset (Block Cell)} {l : Option String} {a : Addr}

section

variable {post : Addr → Option String → Multiset (Block Cell) → Prop}

theorem slice_eq {ptr : CallerPtr} {len : Nat} (hread : Readable ptr len) (hne : ptr ≠ none) :
    (sliceFromRawParts ptr len : Ffi Bytes) = pure (bytesAt ptr len) := by
  cases ptr with
  | none => exact absurd rfl hne
  | some bytes =>
    rw [sliceFromRawParts, if_pos (hread bytes rfl)]
    rfl

theorem optionalSlice_eq {ptr : CallerPtr} {len : Nat} (hread : Readable ptr len)
    (hne : ¬ (ptr = none ∧ 0 < len)) : optionalSlice ptr len = pure (bytesAt ptr len) := by
  by_cases hlen : 0 < len
  · rw [optionalSlice, if_pos hlen, slice_eq hread fun hnull => hne ⟨hnull, hlen⟩]
  · rw [optionalSlice, if_neg hlen, bytesAt, Nat.eq_zero_of_not_pos hlen, List.take_zero]

theorem answered_gives {α β : Type} {holds : β → Addr → Multiset (Block Cell) → Prop}
    {r : Run VaultError α} {f : α → β} {ok : α → Ffi Addr} (hr : Loops.Answers r)
    (h : Gives holds own post (toMessage (f <$> r)))
    (hok : ∀ x, Gives holds own post (.ok (f x)) → Spec S none own (ok x) post) :
    Spec S none own (answered r ok) post := by
  refine answered_spec hr (fun x hx => hok x ?_) fun e he => ?_
  · rw [hx] at h
    exact h
  · rw [he] at h
    exact h

theorem generateKey_spec {key : Digest} (h : Gives (BufferAt P) own post (.ok key.toList)) :
    Spec S l own (vaultAesGenerateKey P key) post :=
  Spec.bind (Spec.setLocal (fromVec_spec fun a d ha => h a _ ha ⟨d, rfl⟩))

theorem generateSalt_spec {salt : Vector UInt8 16}
    (h : Gives (BufferAt P) own post (.ok salt.toList)) :
    Spec S l own (vaultAesGenerateSalt P salt) post :=
  Spec.bind (Spec.setLocal (fromVec_spec fun a d ha => h a _ ha ⟨d, rfl⟩))

theorem deriveKey_answers (passphrase salt : Bytes) :
    Loops.Answers (AesEncryptionEngine.deriveKey P.argon2id passphrase salt) := by
  rw [AesEncryptionEngine.deriveKey]
  cases P.argon2id passphrase salt with
  | ok key => exact answers_ok key
  | error e => exact answers_fail _

theorem deriveKey_spec {passphrase salt : CallerPtr} {n m : Nat} (hp : Readable passphrase n)
    (hs : Readable salt m)
    (h : Gives (BufferAt P) own post (deriveKeyResult P passphrase n salt m)) :
    Spec S l own (vaultAesDeriveKey P passphrase n salt m) post := by
  refine Spec.bind (Spec.setLocal ?_)
  by_cases hnull : passphrase = none ∨ salt = none
  · rw [deriveKeyResult, if_pos hnull] at h
    rw [if_pos hnull]
    exact refusedWith_spec h
  · rw [deriveKeyResult, if_neg hnull] at h
    obtain ⟨hpass, hsalt⟩ := not_or.mp hnull
    rw [if_neg hnull, slice_eq hp hpass, slice_eq hs hsalt, pure_bind, pure_bind]
    exact answered_gives (deriveKey_answers _ _) h fun key hkey =>
      fromVec_spec fun a d ha => hkey a _ ha ⟨d, rfl⟩

theorem new_answers (key : Bytes) : Loops.Answers (AesEncryptionEngine.new P.hashes key) := by
  by_cases hlen : key.length = AesEncryptionEngine.keySize
  · rw [AesEncryptionEngine.new, dif_pos hlen]
    exact answers_ok _
  · rw [AesEncryptionEngine.new, dif_neg hlen]
    exact answers_fail _

theorem aesCreate_spec {key : CallerPtr} {n : Nat} (hk : Readable key n)
    (h : Gives AesAt own post (createResult P key n)) :
    Spec S l own (vaultAesCreate P key n) post := by
  refine Spec.bind (Spec.setLocal ?_)
  by_cases hnull : key = none
  · rw [createResult, if_pos hnull] at h
    rw [if_pos hnull]
    exact refusedWith_spec h
  · rw [createResult, if_neg hnull] at h
    rw [if_neg hnull, slice_eq hk hnull, pure_bind]
    refine answered_gives (f := id) (new_answers _) (by rwa [id_map]) fun e he => ?_
    exact Spec.alloc fun a ha => he a _ ha rfl

theorem aesApply_spec {cipher : AesEncryptionEngine → Bytes → Run VaultError Bytes}
    {e : AesEncryptionEngine} {input : CallerPtr} {n : Nat} (ha : a ≠ 0)
    (he : (a, Cell.aesEngine e) ∈ S + own) (hi : Readable input n)
    (hc : ∀ v, Loops.Answers (cipher e v))
    (h : Gives (BufferAt P) own post (applyResult (cipher e) input n)) :
    Spec S l own (vaultAesApply P cipher a input n) post := by
  refine Spec.bind (Spec.setLocal ?_)
  by_cases hnull : input = none
  · rw [applyResult, if_pos hnull] at h
    rw [if_pos (.inr hnull)]
    exact refusedWith_spec h
  · rw [applyResult, if_neg hnull] at h
    rw [if_neg (not_or.mpr ⟨ha, hnull⟩)]
    refine Spec.bind (Spec.loadAs he rfl ?_)
    rw [slice_eq hi hnull, pure_bind]
    refine answered_gives (f := id) (hc _) (by rwa [id_map]) fun v hv => ?_
    exact fromVec_spec fun b d hb => hv b _ hb ⟨d, rfl⟩

theorem chunkerCreate_spec
    (h : Gives ChunkerAt own post (.ok (.new P.hashes .default))) :
    Spec S l own (vaultChunkerCreate P) post :=
  Spec.bind (Spec.setLocal (Spec.alloc fun a ha => h a _ ha rfl))

theorem chunkerCreateCustom_spec {lo avg hi : Nat} (h1 : lo ≤ avg) (h2 : avg ≤ hi)
    (h : Gives ChunkerAt own post (.ok (.new P.hashes ⟨lo, avg, hi⟩))) :
    Spec S l own (vaultChunkerCreateCustomHandle P lo avg hi) post := by
  refine Spec.bind (Spec.setLocal ?_)
  rw [create_accepts h1 h2]
  exact Spec.alloc fun a ha => h a _ ha rfl

theorem nul_notMem_hexEncode (bytes : Bytes) : '\x00' ∉ (hexEncode bytes).toList :=
  notMem_of_hexDigits rfl (hexDigits_hexEncode bytes).2

open ChunkListShape in
theorem chunkInfo_spec {c : Chunk}
    {post : VaultChunkInfo → Option String → Multiset (Block Cell) → Prop}
    (hnul : '\x00' ∉ c.hash.toList)
    (h : ∀ w, w ≠ 0 → post (infoOf (c, w)) l (hashBlocks (c, w) + own)) :
    Spec S l own (chunkInfo P c) post :=
  Spec.bind (intoCString_spec hnul fun a ha => Spec.pure (h a ha))

open ChunkListShape in
theorem chunk_spec {e : ChunkEngine} {data : CallerPtr} {n : Nat} (ha : a ≠ 0)
    (he : (a, Cell.chunkEngine e) ∈ S + own) (hd : Readable data n)
    (hc : ∀ v : Bytes, ∃ chunks, e.chunkData P.hashes v (v.length + 1) = .ok chunks ∧
      ∀ c ∈ chunks, '\x00' ∉ c.hash.toList)
    (h : Gives (ChunkListAt P) own post (chunkResult P e data n)) :
    Spec S l own (vaultChunkerChunk P a data n) post := by
  refine Spec.bind (Spec.setLocal ?_)
  by_cases hnull : data = none ∧ 0 < n
  · rw [chunkResult, if_pos hnull] at h
    rw [if_pos (.inr hnull)]
    exact refusedWith_spec h
  · rw [chunkResult, if_neg hnull] at h
    rw [if_neg (not_or.mpr ⟨ha, hnull⟩)]
    refine Spec.bind (Spec.loadAs he rfl ?_)
    rw [optionalSlice_eq hd hnull, pure_bind]
    obtain ⟨chunks, hchunks, hname⟩ := hc (bytesAt data n)
    rw [hchunks] at h ⊢
    refine Spec.bind (collect_spec infoOf hashBlocks (fun p => p.2 ≠ 0)
      (fun c hmem _ _ => chunkInfo_spec (hname c hmem)) fun hs hhs hhash => ?_)
    refine Spec.bind (collect_spec bufferOf (dataBlocks P) (fun p => p.2.1 ≠ 0)
      (fun c _ _ _ hpost => fromVec_spec fun a d ha => hpost (a, d) ha) fun bs hbs hbuffer => ?_)
    refine Spec.bind (boxSlice_spec fun infosAt => Spec.bind (boxSlice_spec fun dataAt => ?_))
    refine Spec.alloc fun list hlist => ?_
    have hlisted := h list _ hlist ⟨⟨hs, bs, infosAt, dataAt, hhs, hbs, hhash, hbuffer⟩, rfl⟩
    convert hlisted using 1
    simp only [ChunkListShape.blocks, ChunkListShape.infoSlice, ChunkListShape.dataSlice]
    abel

theorem computeHash_spec {data : CallerPtr} {n : Nat} (hd : Readable data n)
    (h : Gives TextAt own post (hashResult P data n)) :
    Spec S l own (vaultComputeHash P data n) post := by
  refine Spec.bind (Spec.setLocal ?_)
  by_cases hnull : data = none ∧ 0 < n
  · rw [hashResult, if_pos hnull] at h
    rw [if_pos hnull]
    exact refusedWith_spec h
  · rw [hashResult, if_neg hnull] at h
    rw [if_neg hnull, optionalSlice_eq hd hnull, pure_bind]
    exact Spec.bind (intoCString_spec (nul_notMem_hexEncode _) fun a ha => Spec.pure (h a _ ha rfl))

end

section

variable {post : Unit → Option String → Multiset (Block Cell) → Prop}

theorem bufferFree_spec {v : Bytes} {new : Multiset (Block Cell)} (ha : a ≠ 0)
    (hv : BufferAt P v a new) (hown : own = new + own') (h : post () l own') :
    Spec S l own (vaultBufferFree a) post := by
  obtain ⟨d, rfl⟩ := hv
  exact vaultBufferFree_spec ha hown h

open ChunkListShape in
theorem chunkListFree_spec {chunks : List Chunk} {new : Multiset (Block Cell)} (ha : a ≠ 0)
    (hlist : ChunkListAt P chunks a new) (hown : own = new + own') (h : post () l own') :
    Spec S l own (vaultChunkListFree a) post := by
  obtain ⟨s, rfl⟩ := hlist
  have hmem : (a, Cell.chunkList s.infosAt chunks.length s.dataAt) ∈ S + own := by
    simp [hown, ChunkListShape.blocks]
  have hhashes : own = (s.hashes.map hashBlocks).sum + ((s.buffers.map (dataBlocks P)).sum +
      (s.infoSlice +
        (s.dataSlice + ({(a, Cell.chunkList s.infosAt chunks.length s.dataAt)} + own')))) := by
    rw [hown, ChunkListShape.blocks]
    abel
  have hinfos : ∀ i w, s.hashes[i]? = some w → (s.hashes.map infoOf)[i]? = some (infoOf w) :=
    fun i w hw => by rw [List.getElem?_map, hw, Option.map_some]
  have hdatas : ∀ i w, s.buffers[i]? = some w → (s.buffers.map bufferOf)[i]? = some (bufferOf w) :=
    fun i w hw => by rw [List.getElem?_map, hw, Option.map_some]
  rw [vaultChunkListFree, if_neg ha]
  refine Spec.bind (Spec.loadAs hmem rfl (Spec.bind ?_))
  rw [← s.length_hashes]
  refine eachOf_spec s.infoSlice (fun i w own own' hw hown hkeep post hpost => ?_) hhashes
    (fun b hb => by simp only [Multiset.mem_add]; exact .inr (.inl hb)) (Spec.bind ?_)
  · have hslice : sliceBlocks .chunkInfos (s.hashes.map infoOf) s.infosAt ⊆ S + own :=
      fun b hb => by
      rw [hown]
      exact Multiset.mem_add.mpr (.inr (Multiset.mem_add.mpr (.inr (hkeep hb))))
    exact Spec.bind (elementAt_spec rfl (hinfos i w hw) hslice
      (vaultErrorFree_spec (s.hash_ne_null w (List.mem_of_getElem? hw)) hown hpost))
  rw [s.length_hashes, ← s.length_buffers]
  refine eachOf_spec s.dataSlice (fun i w own own' hw hown hkeep post hpost => ?_) rfl
    (fun b hb => by simp only [Multiset.mem_add]; exact .inr (.inl hb)) (Spec.bind ?_)
  · have hslice : sliceBlocks .dataBuffers (s.buffers.map bufferOf) s.dataAt ⊆ S + own :=
      fun b hb => by
      rw [hown]
      exact Multiset.mem_add.mpr (.inr (Multiset.mem_add.mpr (.inr (hkeep hb))))
    exact Spec.bind (elementAt_spec rfl (hdatas i w hw) hslice
      (vaultBufferFree_spec (s.buffer_ne_null w (List.mem_of_getElem? hw)) hown hpost))
  have hinfoCount : s.buffers.length = (s.hashes.map infoOf).length := by
    rw [List.length_map, s.length_buffers, s.length_hashes]
  have hdataCount : s.buffers.length = (s.buffers.map bufferOf).length := by rw [List.length_map]
  refine dropSlice_spec rfl hinfoCount rfl (Spec.bind (dropSlice_spec rfl hdataCount rfl ?_))
  exact Spec.freeAs rfl rfl h

end

end GitCellar
