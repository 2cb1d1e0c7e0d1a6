import GitCellar.ChunkNames
import GitCellar.ChunkSeal
import GitCellar.PackInvariant
import GitCellar.Streaming

/-! Push and pull end to end: cut, seal and pack, then locate, slice, open and
verify. What comes back is what went in, or the reader is told. -/

namespace GitCellar

open Loops AuthEnc Splitting Utf8
open XChaChaChunkEngine (tagSize maxPlaintext overhead)

/-- What both ends of a repository agree on. -/
structure RepoContext where
  hashes : Hashes
  keying : Option ChunkKeying
  cipher : XChaCha20Poly1305
  engine : XChaChaChunkEngine
  repoUid : String
  keyVersion : UInt32

def RepoContext.sealChunk (r : RepoContext) (nonce : XNonce) (c : Chunk) :
    Run VaultError (String × Bytes) := do
  let aad ← ChunkAad.content r.repoUid c.hash r.keyVersion (UInt64.ofNat c.size)
  let blob ← r.engine.encryptWithNonce r.cipher c.data nonce aad
  return (c.hash, blob)

def RepoContext.push {σ : Type} (r : RepoContext) (rng : Rng σ) (nonces : Nat → XNonce)
    (targetPackSize : UInt64) (chunks : List Chunk) (s : σ) : Run VaultError (PackSet × σ) := do
  let batch ← chunks.zipIdx.mapM fun c => r.sealChunk (nonces c.2) c.1
  packChunks rng batch targetPackSize s

/-- One chunk of a manifest: `none` when it has no entry or no pack, or when
`verify_name` answers false. -/
def RepoContext.pullChunk (r : RepoContext) (index : List (String × PackLocation))
    (served : String → Option Bytes) (entry : String × Nat) : Run VaultError (Option Bytes) :=
  match index.lookup entry.1 with
  | none => .ok none
  | some loc =>
    match served loc.packId with
    | none => .ok none
    | some packBytes => do
      let blob ← sliceChunk packBytes loc
      let aad ← ChunkAad.content r.repoUid entry.1 r.keyVersion (UInt64.ofNat entry.2)
      let plaintext ← r.engine.decryptWithAad r.cipher blob aad
      return if verifyName r.hashes r.keying entry.1 plaintext then some plaintext else none

def RepoContext.pull (r : RepoContext) (index : List (String × PackLocation))
    (served : String → Option Bytes) (manifest : List (String × Nat)) :
    Run VaultError (Option Bytes) := do
  let parts ← manifest.mapM (r.pullChunk index served)
  return (parts.mapM id).map List.flatten

def manifestOf (chunks : List Chunk) : List (String × Nat) := chunks.map fun c => (c.hash, c.size)

def storedIn (packs : List BuiltPack) (packId : String) : Option Bytes :=
  (packs.find? fun p => p.packId = packId).map BuiltPack.bytes

variable {r : RepoContext}

/-- The records the chunkers make: named by their content, sized by its length. -/
def Chunk.Named (h : Hashes) (keying : Option ChunkKeying) (c : Chunk) : Prop :=
  c.hash = chunkName h keying c.data ∧ c.size = c.data.length

def RepoContext.aadOf (r : RepoContext) (c : Chunk) : ChunkAad :=
  ⟨r.repoUid, c.hash, r.keyVersion, 0, UInt64.ofNat c.size⟩

theorem content_ok (hrepo : (0 : UInt8) ∉ utf8 r.repoUid) {c : Chunk}
    (hc : c.Named r.hashes r.keying) :
    ChunkAad.content r.repoUid c.hash r.keyVersion (UInt64.ofNat c.size) = .ok (r.aadOf c) ∧
      (r.aadOf c).Clean := by
  have hclean : (r.aadOf c).Clean := by
    refine ⟨hrepo, ?_⟩
    rw [RepoContext.aadOf, hc.1]
    exact zero_notMem_hexEncode _
  refine ⟨?_, hclean⟩
  have hcheck := ChunkAad.check_of_clean hclean
  rw [RepoContext.aadOf] at hcheck
  simp only [ChunkAad.content, ChunkAad.new, hcheck]
  rfl

theorem lookup_of_mem_keys {α : Type} {index : List (String × α)} {name : String}
    (h : name ∈ index.map Prod.fst) : ∃ a, index.lookup name = some a ∧ (name, a) ∈ index := by
  induction index with
  | nil => simp at h
  | cons e index ih =>
    obtain ⟨key, a⟩ := e
    by_cases hkey : name = key
    · subst hkey
      exact ⟨a, by simp, List.mem_cons_self⟩
    · have hrest : name ∈ index.map Prod.fst := by simpa [hkey] using h
      obtain ⟨b, hb, hmem⟩ := ih hrest
      refine ⟨b, ?_, List.mem_cons_of_mem _ hmem⟩
      rw [List.lookup_cons, beq_false_of_ne hkey]
      exact hb

theorem sealChunk_ok (hA : r.cipher.Lawful tagSize maxPlaintext)
    (hrepo : (0 : UInt8) ∉ utf8 r.repoUid) {c : Chunk} (hc : c.Named r.hashes r.keying)
    (hlen : c.data.length < maxPlaintext) (nonce : XNonce) :
    ∃ blob, r.sealChunk nonce c = .ok (c.hash, blob) := by
  obtain ⟨hcontent, hclean⟩ := content_ok hrepo hc
  obtain ⟨ct, hct⟩ := hA.seals r.engine.contentKey nonce
    (v3RepoUidKeyVersion :: (r.aadOf c).canonicalAadBytes) c.data hlen
  have hseal := encryptWithNonce_ok_iff.mpr ⟨hclean, ct, hct, rfl⟩
  refine ⟨v3RepoUidKeyVersion :: (nonce.toList ++ ct), ?_⟩
  simp only [RepoContext.sealChunk, hcontent, bind, Except.bind, hseal]
  rfl

theorem sealChunk_spec (hA : r.cipher.Lawful tagSize maxPlaintext)
    (hrepo : (0 : UInt8) ∉ utf8 r.repoUid) {c : Chunk} (hc : c.Named r.hashes r.keying)
    {nonce : XNonce} {name : String} {blob : Bytes} (h : r.sealChunk nonce c = .ok (name, blob)) :
    name = c.hash ∧ blob.length = c.data.length + overhead ∧
      r.engine.decryptWithAad r.cipher blob (r.aadOf c) = .ok c.data := by
  obtain ⟨hcontent, hclean⟩ := content_ok hrepo hc
  simp only [RepoContext.sealChunk, hcontent, bind, Except.bind] at h
  cases hseal : r.engine.encryptWithNonce r.cipher c.data nonce (r.aadOf c) with
  | error stop => simp [hseal] at h
  | ok sealedBlob =>
    simp only [hseal, pure, Except.pure, Except.ok.injEq, Prod.mk.injEq] at h
    obtain ⟨rfl, rfl⟩ := h
    refine ⟨rfl, encryptWithNonce_length hA hseal, ?_⟩
    exact (decryptWithAad_ok_iff hA).mpr ⟨ChunkAad.check_ok_iff.mpr hclean, nonce, hseal⟩

theorem sliceChunk_answers (bytes : Bytes) (loc : PackLocation) :
    (∃ blob, sliceChunk bytes loc = .ok blob) ∨ Refused (sliceChunk bytes loc) := by
  simp only [sliceChunk]
  split
  · exact .inr ⟨_, rfl⟩
  · split
    · exact .inr ⟨_, rfl⟩
    · split
      · exact .inr ⟨_, rfl⟩
      · have hin : loc.offset.toNat ≤ loc.offset.toNat + loc.length.toNat ∧
            loc.offset.toNat + loc.length.toNat ≤ bytes.length := by omega
        exact .inl ⟨_, if_pos hin⟩

/-- Whatever the storage serves, a chunk is refused, not vouched for, or a
plaintext of its name. -/
theorem pullChunk_answers (hrepo : (0 : UInt8) ∉ utf8 r.repoUid) {c : Chunk}
    (hc : c.Named r.hashes r.keying) (index : List (String × PackLocation))
    (served : String → Option Bytes) :
    (∃ part, r.pullChunk index served (c.hash, c.size) = .ok part ∧
      ∀ x, part = some x →
        nameDigest r.hashes r.keying x = nameDigest r.hashes r.keying c.data) ∨
      Refused (r.pullChunk index served (c.hash, c.size)) := by
  obtain ⟨hcontent, _⟩ := content_ok hrepo hc
  simp only [RepoContext.pullChunk]
  cases index.lookup c.hash with
  | none => exact .inl ⟨none, rfl, by simp⟩
  | some loc =>
    cases hserved : served loc.packId with
    | none => exact .inl ⟨none, by simp only [hserved], by simp⟩
    | some packBytes =>
      simp only [hserved]
      rcases sliceChunk_answers packBytes loc with ⟨blob, hblob⟩ | href
      · rcases decryptWithAad_answers (A := r.cipher) (e := r.engine) blob (r.aadOf c) with
          ⟨p, hp⟩ | href
        · refine .inl ⟨if verifyName r.hashes r.keying c.hash p then some p else none, ?_, ?_⟩
          · simp only [hblob, hcontent, bind, Except.bind, hp]
            rfl
          · intro x hx
            by_cases hverify : verifyName r.hashes r.keying c.hash p = true
            · rw [if_pos hverify] at hx
              obtain rfl := Option.some.inj hx
              rw [hc.1] at hverify
              exact verifyName_iff.mp hverify
            · rw [if_neg hverify] at hx
              cases hx
        · refine .inr ?_
          simp only [hblob, hcontent, bind, Except.bind]
          exact href.bind _
      · exact .inr (href.bind _)

def RepoContext.stream (r : RepoContext) (config : ChunkConfig) (gear : GearTable)
    (feeds : List Bytes) : Nat → Run VaultError (List Chunk) :=
  (StreamChunker.start config gear r.keying).chunkStream r.hashes feeds

/-- Pushing the chunks of the stream succeeds, and with distinct pack ids pulling
them gives the stream back. -/
def RepoContext.RoundTrips {σ : Type} (r : RepoContext) (config : ChunkConfig) (gear : GearTable)
    (feeds : List Bytes) (rng : Rng σ) (s : σ) (nonces : Nat → XNonce) (size : UInt64) : Prop :=
  ∃ chunks, Returns (r.stream config gear feeds) chunks ∧
    ∃ set s', r.push rng nonces size chunks s = .ok (set, s') ∧
      ((set.packs.map BuiltPack.packId).Nodup →
        r.pull set.index (storedIn set.packs) (manifestOf chunks) = .ok (some feeds.flatten))

/-- Whatever the storage serves, the reader is told or gets the stream. -/
def RepoContext.NeverMisread (r : RepoContext) (config : ChunkConfig) (gear : GearTable)
    (feeds : List Bytes) : Prop :=
  ∀ chunks, Returns (r.stream config gear feeds) chunks → ∀ index served,
    Refused (r.pull index served (manifestOf chunks)) ∨
      r.pull index served (manifestOf chunks) = .ok none ∨
      r.pull index served (manifestOf chunks) = .ok (some feeds.flatten)

/-- Different chunks of the stream have different names. -/
def RepoContext.ChunksApart (r : RepoContext) (config : ChunkConfig) (gear : GearTable)
    (feeds : List Bytes) : Prop :=
  ∀ chunks, Returns (r.stream config gear feeds) chunks →
    ∀ c ∈ chunks, ∀ c' ∈ chunks, c.hash = c'.hash → c.data = c'.data

/-- No other byte string has the name of a stretch of `data`. -/
def NamesApart (h : Hashes) (keying : Option ChunkKeying) (data : Bytes) : Prop :=
  ∀ x, x <:+: data → ∀ y, nameDigest h keying y = nameDigest h keying x → y = x

/-- The chunks of a stream: named, stretches of it, and all of it in order. -/
theorem stream_chunks (r : RepoContext) {config : ChunkConfig} (gear : GearTable)
    (feeds : List Bytes) (hpos : 1 ≤ config.minSize)
    (h1 : config.minSize ≤ config.avgSize) (h2 : config.avgSize ≤ config.maxSize) :
    ∃ chunks, Returns (r.stream config gear feeds) chunks ∧
      (∀ c ∈ chunks, c.Named r.hashes r.keying ∧ c.data <:+: feeds.flatten ∧
        c.data.length ≤ config.maxSize) ∧
      (chunks.map Chunk.data).flatten = feeds.flatten := by
  let p := CutProfile.ofPositive config gear hpos h1 h2
  refine ⟨_, chunkStream_returns r.hashes p r.keying feeds, ?_, ?_⟩
  · intro c hc
    obtain ⟨hpiece, hnamed⟩ := mem_chunksFrom hc
    refine ⟨hnamed, p.cutter.mem_pieces_infix hpiece, ?_⟩
    obtain ⟨e, _, _, he⟩ := p.cutter.mem_pieces_eq_take hpiece
    have hcut : p.cutter.cut e ≤ config.maxSize := p.cutLength_le_max e
    rw [he, List.length_take]
    omega
  · rw [map_data_chunksFrom, p.cutter.pieces_flatten]

theorem NamesApart.chunksApart {config : ChunkConfig} {gear : GearTable} {feeds : List Bytes}
    (hpos : 1 ≤ config.minSize) (h1 : config.minSize ≤ config.avgSize)
    (h2 : config.avgSize ≤ config.maxSize) (h : NamesApart r.hashes r.keying feeds.flatten) :
    r.ChunksApart config gear feeds := by
  obtain ⟨chunks, hstream, hchunks, _⟩ := stream_chunks r gear feeds hpos h1 h2
  intro chunks' hstream' c hc c' hc' hhash
  obtain rfl := hstream'.unique hstream
  obtain ⟨hnamed, hinfix, _⟩ := hchunks c hc
  obtain ⟨hnamed', _, _⟩ := hchunks c' hc'
  rw [hnamed.1, hnamed'.1] at hhash
  exact (h c.data hinfix c'.data (Vector.toList_inj.mp (hexEncode_injective hhash)).symm).symm

theorem parts_flatten {chunks : List Chunk} {parts : List (Option Bytes)}
    (h : List.Forall₂ (fun c part => ∀ x, part = some x → x = c.data) chunks parts) :
    (parts.mapM id).map List.flatten = none ∨
      (parts.mapM id).map List.flatten = some (chunks.map Chunk.data).flatten := by
  induction h with
  | nil => exact .inr rfl
  | @cons c part chunks parts hc _ ih =>
    rw [List.mapM_cons]
    cases part with
    | none => exact .inl rfl
    | some x =>
      obtain rfl := hc x rfl
      cases hparts : parts.mapM id with
      | none =>
        refine .inl ?_
        simp
      | some xs =>
        rw [hparts] at ih
        simp only [Option.map_some, reduceCtorEq, Option.some.injEq, false_or] at ih
        refine .inr ?_
        simp [ih]

theorem pull_never_misread {chunks : List Chunk} {data : Bytes}
    (hrepo : (0 : UInt8) ∉ utf8 r.repoUid) (hname : NamesApart r.hashes r.keying data)
    (hchunks : ∀ c ∈ chunks, c.Named r.hashes r.keying ∧ c.data <:+: data)
    (hall : (chunks.map Chunk.data).flatten = data) (index : List (String × PackLocation))
    (served : String → Option Bytes) :
    Refused (r.pull index served (manifestOf chunks)) ∨
      r.pull index served (manifestOf chunks) = .ok none ∨
      r.pull index served (manifestOf chunks) = .ok (some data) := by
  have hpull : ∀ entry ∈ manifestOf chunks, (∃ part, r.pullChunk index served entry = .ok part) ∨
      Refused (r.pullChunk index served entry) := by
    intro entry hentry
    obtain ⟨c, hc, rfl⟩ := List.mem_map.mp hentry
    rcases pullChunk_answers hrepo (hchunks c hc).1 index served with ⟨part, hpart, _⟩ | href
    · exact .inl ⟨part, hpart⟩
    · exact .inr href
  rcases mapM_answers hpull with ⟨parts, hparts, hrel⟩ | ⟨href, _⟩
  · have hres : r.pull index served (manifestOf chunks) =
        .ok ((parts.mapM id).map List.flatten) := by
      simp only [RepoContext.pull, hparts, bind, Except.bind]
      rfl
    have hvouched : List.Forall₂ (fun c part => ∀ x, part = some x → x = c.data) chunks parts := by
      rw [manifestOf, List.forall₂_map_left_iff] at hrel
      have hboth := (List.forall₂_and_left _ _).mpr ⟨hchunks, hrel⟩
      refine hboth.imp fun c part hcp x hx => ?_
      obtain ⟨⟨hnamed, hinfix⟩, hpart⟩ := hcp
      rcases pullChunk_answers hrepo hnamed index served with ⟨part', hpart', hdigest⟩ | href
      · obtain rfl := Except.ok.inj (hpart'.symm.trans hpart)
        exact hname c.data hinfix x (hdigest x hx)
      · exact absurd hpart (href.ne_ok part)
    rw [hres]
    rcases parts_flatten hvouched with hnone | hsome
    · exact .inr (.inl (by rw [hnone]))
    · exact .inr (.inr (by rw [hsome, hall]))
  · exact .inl (href.bind _)

theorem storedIn_only {packs : List BuiltPack} {p : BuiltPack} {packId : String} (hp : p ∈ packs)
    (hid : p.packId = packId) (honly : ∀ q ∈ packs, q.packId = packId → q = p) :
    storedIn packs packId = some p.bytes := by
  cases hfind : packs.find? fun q => q.packId = packId with
  | none =>
    have hno := List.find?_eq_none.mp hfind p hp
    simp [hid] at hno
  | some q =>
    have hq : q.packId = packId := by simpa using List.find?_some hfind
    obtain rfl := honly q (List.mem_of_find?_eq_some hfind) hq
    simp only [storedIn, hfind, Option.map_some]

theorem pullChunk_stored (hA : r.cipher.Lawful tagSize maxPlaintext)
    (hrepo : (0 : UInt8) ∉ utf8 r.repoUid) {chunks : List Chunk}
    (hapart : ∀ c ∈ chunks, ∀ c' ∈ chunks, c.hash = c'.hash → c.data = c'.data)
    (hchunks : ∀ c ∈ chunks, c.Named r.hashes r.keying)
    {target : Nat} {batch : List (String × Bytes)} {set : PackSet}
    (hbatch : ∀ b ∈ batch, ∃ c ∈ chunks, ∃ nonce, r.sealChunk nonce c = .ok b)
    (hwell : WellPacked target batch set) {c : Chunk} (hc : c ∈ chunks)
    (hin : c.hash ∈ batch.map Prod.fst) :
    r.pullChunk set.index (storedIn set.packs) (c.hash, c.size) = .ok (some c.data) := by
  have hnamed := hchunks c hc
  obtain ⟨hcontent, _⟩ := content_ok hrepo hnamed
  obtain ⟨loc, hlookup, hloc⟩ := lookup_of_mem_keys ((hwell.names_iff c.hash).mpr hin)
  obtain ⟨p, hp, hid, honly, blob, hblob, hslice⟩ := hwell.located c.hash loc hloc
  have hserved := storedIn_only hp hid honly
  obtain ⟨c', hc', nonce, hseal⟩ := hbatch _ hblob
  have hnamed' := hchunks c' hc'
  obtain ⟨hhash, _, hopen⟩ := sealChunk_spec hA hrepo hnamed' hseal
  have hdata : c'.data = c.data := (hapart c hc c' hc' hhash).symm
  have haad : r.aadOf c' = r.aadOf c := by
    simp only [RepoContext.aadOf, hhash, hnamed.2, hnamed'.2, hdata]
  rw [haad, hdata] at hopen
  have hverify : verifyName r.hashes r.keying c.hash c.data = true := by
    rw [hnamed.1]
    exact verifyName_iff.mpr rfl
  simp only [RepoContext.pullChunk, hlookup, hserved, hslice, hcontent, bind, Except.bind, hopen,
    hverify, if_true]
  rfl

theorem push_returns (hA : r.cipher.Lawful tagSize maxPlaintext)
    (hrepo : (0 : UInt8) ∉ utf8 r.repoUid) {σ : Type} (rng : Rng σ) (s : σ)
    (nonces : Nat → XNonce) (size : UInt64) {chunks : List Chunk}
    (hchunks : ∀ c ∈ chunks, c.Named r.hashes r.keying)
    (hshort : ∀ c ∈ chunks, c.data.length + overhead < 2 ^ 32) :
    ∃ batch set s', r.push rng nonces size chunks s = .ok (set, s') ∧
      (∀ c ∈ chunks, c.hash ∈ batch.map Prod.fst) ∧
      (∀ b ∈ batch, ∃ c ∈ chunks, ∃ nonce, r.sealChunk nonce c = .ok b) ∧
      ((set.packs.map BuiltPack.packId).Nodup → WellPacked (max size.toNat 1) batch set) := by
  have hseals : ∀ c ∈ chunks.zipIdx, ∃ b, r.sealChunk (nonces c.2) c.1 = .ok b := by
    intro c hc
    have hmem := List.fst_mem_of_mem_zipIdx hc
    have hlen := hshort c.1 hmem
    obtain ⟨blob, hblob⟩ := sealChunk_ok hA hrepo (hchunks c.1 hmem)
      (by simp only [overhead, maxPlaintext] at hlen ⊢; omega) (nonces c.2)
    exact ⟨_, hblob⟩
  obtain ⟨batch, hbatch, hrel⟩ := mapM_returns hseals
  have hsource : ∀ b ∈ batch, ∃ c ∈ chunks, ∃ nonce, r.sealChunk nonce c = .ok b := by
    intro b hb
    obtain ⟨c, hc, hseal⟩ := (forall₂_covers hrel).2 b hb
    exact ⟨c.1, List.fst_mem_of_mem_zipIdx hc, nonces c.2, hseal⟩
  have hblobs : ∀ b ∈ batch, b.2 ≠ [] ∧ b.2.length < 2 ^ 32 := by
    intro b hb
    obtain ⟨c, hc, nonce, hseal⟩ := hsource b hb
    obtain ⟨_, hlen, _⟩ := sealChunk_spec hA hrepo (hchunks c hc) hseal
    refine ⟨List.ne_nil_of_length_pos ?_, ?_⟩
    · rw [hlen]
      exact Nat.succ_pos _
    · rw [hlen]
      exact hshort c hc
  obtain ⟨set, s', plans, hpack, hfits, hplans, hindex, hstored⟩ :=
    packChunks_plans rng s batch size hblobs
  have hwell :=
    wellPacked_of_plans (target_lt size) (rng.shuffle_perm s batch) hfits hplans hindex hstored
  refine ⟨batch, set, s', ?_, ?_, hsource, hwell⟩
  · simp only [RepoContext.push, hbatch, bind, Except.bind, hpack]
  · intro c hc
    obtain ⟨i, hi⟩ := List.getElem?_of_mem hc
    obtain ⟨b, hb, hseal⟩ := (forall₂_covers hrel).1 (c, i) (List.mk_mem_zipIdx_iff_getElem?.mpr hi)
    obtain ⟨hname, _, _⟩ := sealChunk_spec hA hrepo (hchunks c hc) hseal
    exact hname ▸ List.mem_map_of_mem hb

/-- Push and pull give every stream back whose chunks have names of their own and seal to less
than `2^32` bytes; where no other bytes have such a name, no storage makes the reader accept
anything else. -/
theorem push_pull_roundTrips (r : RepoContext) (hA : r.cipher.Lawful tagSize maxPlaintext)
    (hrepo : (0 : UInt8) ∉ utf8 r.repoUid) (config : ChunkConfig) (gear : GearTable)
    (hpos : 1 ≤ config.minSize) (h1 : config.minSize ≤ config.avgSize)
    (h2 : config.avgSize ≤ config.maxSize) (feeds : List Bytes)
    (hshort : ∀ chunks, Returns (r.stream config gear feeds) chunks →
      ∀ c ∈ chunks, c.data.length + overhead < 2 ^ 32)
    {σ : Type} (rng : Rng σ) (s : σ) (nonces : Nat → XNonce) (size : UInt64) :
    (r.ChunksApart config gear feeds → r.RoundTrips config gear feeds rng s nonces size) ∧
      (NamesApart r.hashes r.keying feeds.flatten → r.NeverMisread config gear feeds) := by
  obtain ⟨chunks, hstream, hchunks, hall⟩ := stream_chunks r gear feeds hpos h1 h2
  have hnamed : ∀ c ∈ chunks, c.Named r.hashes r.keying := fun c hc => (hchunks c hc).1
  constructor
  · intro hapart
    obtain ⟨batch, set, s', hpush, hcover, hsource, hwell⟩ :=
      push_returns hA hrepo rng s nonces size hnamed (hshort chunks hstream)
    refine ⟨chunks, hstream, set, s', hpush, fun hids => ?_⟩
    have hparts : (manifestOf chunks).mapM (r.pullChunk set.index (storedIn set.packs)) =
        .ok ((chunks.map Chunk.data).map some) := by
      rw [manifestOf, List.mapM_map, List.map_map]
      exact mapM_ok fun c hc => pullChunk_stored hA hrepo (hapart chunks hstream) hnamed hsource
        (hwell hids) hc (hcover c hc)
    have hjoin : ∀ xs : List Bytes, (xs.map some).mapM id = some xs := by
      intro xs
      induction xs with
      | nil => rfl
      | cons x xs ih => simp [ih]
    simp only [RepoContext.pull, hparts, bind, Except.bind, hjoin, Option.map_some, hall]
    rfl
  · intro hname chunks' hstream' index served
    obtain rfl := hstream'.unique hstream
    exact pull_never_misread hrepo hname (fun c hc => ⟨hnamed c hc, (hchunks c hc).2.1⟩) hall
      index served

theorem stream_short {config : ChunkConfig} {gear : GearTable} {feeds : List Bytes}
    (hpos : 1 ≤ config.minSize) (h1 : config.minSize ≤ config.avgSize)
    (h2 : config.avgSize ≤ config.maxSize) (hmax : config.maxSize + overhead < 2 ^ 32) :
    ∀ chunks, Returns (r.stream config gear feeds) chunks →
      ∀ c ∈ chunks, c.data.length + overhead < 2 ^ 32 := by
  intro chunks hstream c hc
  obtain ⟨chunks', hstream', hchunks, _⟩ := stream_chunks r gear feeds hpos h1 h2
  obtain rfl := hstream.unique hstream'
  have hlen := (hchunks c hc).2.2
  omega

theorem inlineDigest_apart {x y : Bytes} (hx : x.length ≤ 31)
    (h : inlineDigest y = inlineDigest x) : y = x := by
  have hlist := congrArg Vector.toList h
  by_cases hy : y.length ≤ 31
  · simp only [inlineDigest, hx, hy, dite_true, Vector.toList_mk, List.cons_append,
      List.cons.injEq] at hlist
    obtain ⟨hhead, htail⟩ := hlist
    have hlen : y.length = x.length := by
      have hnat := congrArg UInt8.toNat hhead
      simp only [UInt8.toNat_ofNat'] at hnat
      omega
    exact (List.append_inj htail hlen).1
  · simp only [inlineDigest, hx, hy, dite_true, dite_false, Vector.toList_mk, List.cons_append,
      Vector.toList_replicate, List.replicate_succ, List.cons.injEq] at hlist
    have hnat := congrArg UInt8.toNat hlist.1
    have hmax : (255 : UInt8).toNat = 255 := rfl
    simp only [UInt8.toNat_ofNat', hmax] at hnat
    omega

def sampleRepo : RepoContext where
  hashes := inlineHashes
  keying := none
  cipher := Aead.ofTag maxPlaintext tagSize fun _ _ _ _ => List.replicate 16 0
  engine := sampleEngine
  repoUid := "repo"
  keyVersion := 2

theorem sampleRepo_lawful : sampleRepo.cipher.Lawful tagSize maxPlaintext :=
  Aead.ofTag_lawful fun _ _ _ _ => List.length_replicate

theorem push_pull_roundTrips_sample :
    sampleRepo.RoundTrips ⟨1, 2, 4⟩ (Vector.replicate 256 3) [[7, 8], [], [7, 8, 9]] countingRng 0
        (fun _ => sampleNonce) 50 ∧
      sampleRepo.NeverMisread ⟨1, 2, 4⟩ (Vector.replicate 256 3) [[7, 8], [], [7, 8, 9]] := by
  have hname : NamesApart sampleRepo.hashes sampleRepo.keying [[7, 8], [], [7, 8, 9]].flatten := by
    intro x hx y hdigest
    have hlen : x.length ≤ 5 := hx.length_le
    exact inlineDigest_apart (by omega) hdigest
  obtain ⟨hroundTrips, hnever⟩ := push_pull_roundTrips sampleRepo sampleRepo_lawful (by decide)
    ⟨1, 2, 4⟩ (Vector.replicate 256 3) (by decide) (by decide) (by decide) [[7, 8], [], [7, 8, 9]]
    (stream_short (by decide) (by decide) (by decide) (by decide)) countingRng 0
    (fun _ => sampleNonce) 50
  exact ⟨hroundTrips (hname.chunksApart (by decide) (by decide) (by decide)), hnever hname⟩

theorem pullChunk_short (hA : r.cipher.Lawful tagSize maxPlaintext)
    {index : List (String × PackLocation)} {served : String → Option Bytes} {entry : String × Nat}
    {x : Bytes} (h : r.pullChunk index served entry = .ok (some x)) :
    x.length + overhead < 2 ^ 32 := by
  simp only [RepoContext.pullChunk] at h
  cases hlookup : index.lookup entry.1 with
  | none => simp [hlookup] at h
  | some loc =>
    cases hserved : served loc.packId with
    | none => simp [hlookup, hserved] at h
    | some packBytes =>
      simp only [hlookup, hserved] at h
      cases hslice : sliceChunk packBytes loc with
      | error stop => simp [hslice, bind, Except.bind] at h
      | ok blob =>
        cases haad : ChunkAad.content r.repoUid entry.1 r.keyVersion (UInt64.ofNat entry.2) with
        | error stop => simp [hslice, haad, bind, Except.bind] at h
        | ok aad =>
          cases hopen : r.engine.decryptWithAad r.cipher blob aad with
          | error stop => simp [hslice, haad, hopen, bind, Except.bind] at h
          | ok plaintext =>
            simp only [hslice, haad, hopen, bind, Except.bind, pure, Except.pure, Except.ok.injEq,
              Option.ite_none_right_eq_some, Option.some.injEq] at h
            obtain ⟨_, rfl⟩ := h
            obtain ⟨_, nonce, hseal⟩ := (decryptWithAad_ok_iff hA).mp hopen
            have hlen := encryptWithNonce_length hA hseal
            have hloc := sliceChunk_length hslice
            have hbound := loc.length.toNat_lt
            omega

theorem packChunks_one {σ : Type} (rng : Rng σ) (s : σ) (name : String) (blob : Bytes)
    (size : UInt64) (set : PackSet) (s' : σ)
    (h : packChunks rng [(name, blob)] size s = .ok (set, s')) :
    (set.packs.map BuiltPack.packId).Nodup := by
  have hshuffle : (rng.shuffle s [(name, blob)]).1 = [(name, blob)] :=
    List.perm_singleton.mp (rng.shuffle_perm s _)
  simp only [packChunks, hshuffle, Packing.add, Packing.start, List.foldlM_cons, List.foldlM_nil,
    bind, Except.bind, pure, Except.pure, List.not_mem_nil, if_false, ne_eq, not_true_eq_false,
    false_and, Except.ok.injEq, Prod.mk.injEq] at h
  obtain ⟨rfl, _⟩ := h
  by_cases hblob : blob = []
  · simp [Packing.flush, Packing.place, hblob]
  · simp [Packing.flush, Packing.place, Packing.push, hblob]

/-- The push of one chunk stores one pack. -/
theorem push_one {r : RepoContext} {σ : Type} {rng : Rng σ} {nonces : Nat → XNonce} {size : UInt64}
    {c : Chunk} {s s' : σ} {set : PackSet} (hpush : r.push rng nonces size [c] s = .ok (set, s')) :
    (set.packs.map BuiltPack.packId).Nodup := by
  simp only [RepoContext.push, List.zipIdx_cons, List.zipIdx_nil, List.mapM_cons,
    List.mapM_nil] at hpush
  cases hseal : r.sealChunk (nonces 0) c with
  | error stop => simp [hseal, bind, Except.bind] at hpush
  | ok b =>
    simp only [hseal, bind, Except.bind, pure, Except.pure] at hpush
    exact packChunks_one rng s b.1 b.2 size set s' hpush

/-- The `u32` length of an entry wraps for a chunk sealed to `2^32` bytes or
more, so what is read back is never that chunk. -/
theorem huge_stream_lost (r : RepoContext) (hA : r.cipher.Lawful tagSize maxPlaintext)
    (config : ChunkConfig) (gear : GearTable) (h1 : config.minSize ≤ config.avgSize)
    (h2 : config.avgSize ≤ config.maxSize) (feeds : List Bytes)
    (hhuge : 2 ^ 32 ≤ feeds.flatten.length + overhead)
    (hmin : feeds.flatten.length ≤ config.minSize) {σ : Type} (rng : Rng σ) (s : σ)
    (nonces : Nat → XNonce) (size : UInt64) :
    ¬ r.RoundTrips config gear feeds rng s nonces size := by
  rintro ⟨chunks, hstream, set, s', hpush, hpull⟩
  have hover : overhead = 41 := rfl
  have hne : feeds.flatten ≠ [] := by
    apply List.ne_nil_of_length_pos
    omega
  have hpos : 1 ≤ config.minSize := by
    have hlen := List.length_pos_iff.mpr hne
    omega
  let p := CutProfile.ofPositive config gear hpos h1 h2
  have hpieces : p.cutter.pieces feeds.flatten = [feeds.flatten] :=
    p.cutter.pieces_of_whole hne (p.cutLength_short hmin)
  have hcut := chunkStream_returns r.hashes p r.keying feeds
  rw [hpieces] at hcut
  obtain rfl := hstream.unique hcut
  simp only [chunksFrom] at hpush hpull
  obtain ⟨c, hc, hdata⟩ : ∃ c : Chunk,
      c = ⟨chunkName r.hashes r.keying feeds.flatten, feeds.flatten, feeds.flatten.length, 0⟩ ∧
      c.data = feeds.flatten := ⟨_, rfl, rfl⟩
  rw [← hc] at hpush hpull
  have hread := hpull (push_one hpush)
  simp only [RepoContext.pull, manifestOf, List.map_cons, List.map_nil, List.mapM_cons,
    List.mapM_nil] at hread
  cases hchunk : r.pullChunk set.index (storedIn set.packs) (c.hash, c.size) with
  | error stop => simp [hchunk, bind, Except.bind] at hread
  | ok part =>
    cases part with
    | none => simp [hchunk, bind, Except.bind, pure, Except.pure] at hread
    | some x =>
      have hx : x = feeds.flatten := by
        simpa [hchunk, bind, Except.bind, pure, Except.pure] using hread
      have hshort := pullChunk_short hA hchunk
      rw [hx] at hshort
      omega

theorem huge_stream_lost_sample :
    ¬ sampleRepo.RoundTrips ⟨2 ^ 32, 2 ^ 32, 2 ^ 32⟩ (Vector.replicate 256 3)
      [List.replicate (2 ^ 32) 7] countingRng 0 (fun _ => sampleNonce) 4194304 := by
  have hlen : [List.replicate (2 ^ 32) (7 : UInt8)].flatten.length = 2 ^ 32 := by
    rw [List.flatten_singleton, List.length_replicate]
  refine huge_stream_lost sampleRepo sampleRepo_lawful ⟨2 ^ 32, 2 ^ 32, 2 ^ 32⟩ _ (Nat.le_refl _)
    (Nat.le_refl _) _ ?_ ?_ countingRng 0 _ _
  · rw [hlen]
    exact Nat.le_add_right _ _
  · rw [hlen]

end GitCellar
