import GitCellar.Boundary
import GitCellar.Splitting

/-! The one-shot engine and the streaming chunker both cut the stream into the
pieces of one abstract cutter. -/

namespace GitCellar

open Loops Splitting

/-- Sizes in order, and a gear table that never cuts in front of the first byte. -/
structure CutProfile where
  config : ChunkConfig
  gear : GearTable
  min_le_avg : config.minSize ≤ config.avgSize
  avg_le_max : config.avgSize ≤ config.maxSize
  noEmptyCut : NoEmptyCut gear config.minSize config.avgSize

/-- The profile every configuration with `1 ≤ min ≤ avg ≤ max` has, whatever its gear table. -/
def CutProfile.ofPositive (config : ChunkConfig) (gear : GearTable) (hpos : 1 ≤ config.minSize)
    (h1 : config.minSize ≤ config.avgSize) (h2 : config.avgSize ≤ config.maxSize) : CutProfile :=
  ⟨config, gear, h1, h2, .inl hpos⟩

def CutProfile.cutLength (p : CutProfile) (data : Bytes) : Nat :=
  match fastcdcBoundary p.gear data p.config.minSize p.config.avgSize p.config.maxSize with
  | .ok k => k
  | .error _ => 0

theorem CutProfile.boundary_eq (p : CutProfile) (data : Bytes) :
    fastcdcBoundary p.gear data p.config.minSize p.config.avgSize p.config.maxSize =
      .ok (p.cutLength data) := by
  obtain ⟨k, hk⟩ := fastcdcBoundary_returns p.gear p.min_le_avg p.avg_le_max data
  simp only [CutProfile.cutLength, hk]

theorem CutProfile.cutLength_short (p : CutProfile) {data : Bytes}
    (h : data.length ≤ p.config.minSize) : p.cutLength data = data.length := by
  simp only [CutProfile.cutLength, fastcdcBoundary_short h]

theorem CutProfile.cutLength_bounds (p : CutProfile) {data : Bytes}
    (h : p.config.minSize < data.length) :
    p.config.minSize ≤ p.cutLength data ∧ p.cutLength data ≤ min p.config.maxSize data.length := by
  obtain ⟨k, hk, hlo, hhi⟩ := fastcdcBoundary_bounds p.gear p.min_le_avg p.avg_le_max h
  simp only [CutProfile.cutLength, hk]
  exact ⟨hlo, hhi⟩

theorem CutProfile.cutLength_le (p : CutProfile) (data : Bytes) :
    p.cutLength data ≤ data.length := by
  by_cases h : data.length ≤ p.config.minSize
  · exact (p.cutLength_short h).le
  · exact (p.cutLength_bounds (by omega)).2.trans (min_le_right _ _)

/-- A piece below `min` is the whole rest of the stream; no piece is above `max`. -/
theorem CutProfile.cutLength_le_max (p : CutProfile) (data : Bytes) :
    p.cutLength data ≤ p.config.maxSize := by
  have h1 := p.min_le_avg
  have h2 := p.avg_le_max
  by_cases h : data.length ≤ p.config.minSize
  · rw [p.cutLength_short h]
    omega
  · exact (p.cutLength_bounds (by omega)).2.trans (min_le_left _ _)

def CutProfile.cutter (p : CutProfile) : Cutter UInt8 where
  cut := p.cutLength
  settled d := p.cutLength d < d.length ∨ p.config.maxSize ≤ d.length
  cut_pos d hd := fastcdcBoundary_pos p.min_le_avg p.avg_le_max p.noEmptyCut hd (p.boundary_eq d)
  cut_le := p.cutLength_le
  cut_append d e hs := Except.ok.inj ((p.boundary_eq (d ++ e)).symm.trans
    (fastcdcBoundary_append p.min_le_avg p.avg_le_max e (p.boundary_eq d) hs))

/-- The chunk records of consecutive pieces, the first at `offset`. -/
def chunksFrom (h : Hashes) (keying : Option ChunkKeying) : Nat → List Bytes → List Chunk
  | _, [] => []
  | offset, p :: ps =>
    ⟨chunkName h keying p, p, p.length, offset⟩ :: chunksFrom h keying (offset + p.length) ps

theorem chunksFrom_append (h : Hashes) (keying : Option ChunkKeying) (offset : Nat)
    (ps qs : List Bytes) :
    chunksFrom h keying offset (ps ++ qs) =
      chunksFrom h keying offset ps ++ chunksFrom h keying (offset + ps.flatten.length) qs := by
  induction ps generalizing offset with
  | nil => rfl
  | cons p ps ih =>
    simp only [List.cons_append, chunksFrom, ih, List.flatten_cons, List.length_append,
      Nat.add_assoc]

theorem map_data_chunksFrom (h : Hashes) (keying : Option ChunkKeying) (offset : Nat)
    (ps : List Bytes) : (chunksFrom h keying offset ps).map Chunk.data = ps := by
  induction ps generalizing offset with
  | nil => rfl
  | cons p ps ih => simp only [chunksFrom, List.map_cons, ih]

theorem mem_chunksFrom {h : Hashes} {keying : Option ChunkKeying} {offset : Nat}
    {ps : List Bytes} {c : Chunk} (hc : c ∈ chunksFrom h keying offset ps) :
    c.data ∈ ps ∧ c.hash = chunkName h keying c.data ∧ c.size = c.data.length := by
  induction ps generalizing offset with
  | nil => simp [chunksFrom] at hc
  | cons p ps ih =>
    rcases List.mem_cons.mp hc with rfl | hc
    · exact ⟨List.mem_cons_self, rfl, rfl⟩
    · obtain ⟨hm, hrest⟩ := ih hc
      exact ⟨List.mem_cons_of_mem _ hm, hrest⟩

theorem byteRange_chunk {ε : Type} {data : Bytes} {offset size : Nat}
    (h : offset + size ≤ data.length) :
    (byteRange data offset (min (offset + size) data.length) : Run ε Bytes) =
      .ok ((data.drop offset).take size) := by
  rw [min_eq_left h, byteRange, if_pos ⟨Nat.le_add_right offset size, h⟩, List.drop_take,
    Nat.add_sub_cancel_left]

theorem chunkLoop_eq (h : Hashes) (p : CutProfile) (keying : Option ChunkKeying) (data : Bytes)
    (fuel offset : Nat) (chunks : List Chunk) (hoff : offset ≤ data.length)
    (hfuel : data.length - offset < fuel) :
    (ChunkEngine.mk p.config p.gear keying).chunkLoop h data fuel offset chunks =
      .ok (chunks ++ chunksFrom h keying offset (p.cutter.pieces (data.drop offset))) := by
  induction fuel generalizing offset chunks with
  | zero => omega
  | succ fuel ih =>
    by_cases hlt : offset < data.length
    · have hd : data.drop offset ≠ [] := by simp only [ne_eq, List.drop_eq_nil_iff]; omega
      have hpos := p.cutter.cut_pos (data.drop offset) hd
      have hle := p.cutter.cut_le (data.drop offset)
      change 0 < p.cutLength (data.drop offset) at hpos
      change p.cutLength (data.drop offset) ≤ _ at hle
      rw [List.length_drop] at hle
      have hrange := byteRange_chunk (ε := VaultError)
        (show offset + p.cutLength (data.drop offset) ≤ data.length by omega)
      have hlen : ((data.drop offset).take (p.cutLength (data.drop offset))).length =
          p.cutLength (data.drop offset) := by
        simp only [List.length_take, List.length_drop]
        omega
      simp only [ChunkEngine.chunkLoop, hlt, if_true, ChunkEngine.findChunkBoundary, p.boundary_eq,
        Bind.bind, Except.bind, hrange]
      rw [ih (offset + p.cutLength (data.drop offset)) _ (by omega) (by omega),
        p.cutter.pieces_of_ne_nil hd]
      simp only [chunksFrom, List.append_assoc, List.singleton_append, hlen, List.drop_drop,
        CutProfile.cutter]
    · have hnil : data.drop offset = [] := by simp only [List.drop_eq_nil_iff]; omega
      simp only [ChunkEngine.chunkLoop, hlt, if_false, hnil, p.cutter.pieces_nil, chunksFrom,
        List.append_nil]

theorem chunkData_returns (h : Hashes) (p : CutProfile) (keying : Option ChunkKeying)
    (data : Bytes) :
    Returns ((ChunkEngine.mk p.config p.gear keying).chunkData h data)
      (chunksFrom h keying 0 (p.cutter.pieces data)) := by
  refine ⟨data.length + 1, fun fuel hfuel => ?_⟩
  by_cases hd : data = []
  · simp only [ChunkEngine.chunkData, hd, if_true, p.cutter.pieces_nil, chunksFrom]
  · simp only [ChunkEngine.chunkData, hd, if_false]
    simpa using chunkLoop_eq h p keying data fuel 0 [] (Nat.zero_le _) (by omega)

/-- The chunker waits for more bytes: too few to search, or no cut yet and room left. -/
def CutProfile.Waits (p : CutProfile) (buffer : Bytes) : Prop :=
  buffer.length ≤ p.config.minSize ∨
    (buffer.length ≤ p.cutLength buffer ∧ buffer.length < p.config.maxSize)

theorem CutProfile.Waits.cut_eq {p : CutProfile} {buffer : Bytes} (h : p.Waits buffer) :
    p.cutLength buffer = buffer.length := by
  rcases h with hshort | ⟨hall, _⟩
  · exact p.cutLength_short hshort
  · exact le_antisymm (p.cutLength_le buffer) hall

theorem CutProfile.settled_of_not_waits {p : CutProfile} {buffer : Bytes} (h : ¬ p.Waits buffer) :
    p.cutter.settled buffer := by
  change p.cutLength buffer < buffer.length ∨ p.config.maxSize ≤ buffer.length
  rw [Waits, not_or, not_and_or] at h
  omega

/-- The chunker after a chunk of `size` bytes left its buffer. -/
def StreamChunker.emitted (h : Hashes) (s : StreamChunker) (size : Nat) : StreamChunker :=
  { s with
    buffer := s.buffer.drop size
    chunks := s.chunks ++ chunksFrom h s.keying s.offset [s.buffer.take size]
    offset := s.offset + (s.buffer.take size).length }

section

variable {p : CutProfile} {s : StreamChunker}

theorem findBoundary_eq (hcfg : s.config = p.config) (hgear : s.gear = p.gear) :
    s.findBoundary = .ok (p.cutLength s.buffer) := by
  rw [StreamChunker.findBoundary, hcfg, hgear]
  exact p.boundary_eq s.buffer

theorem emitChunks_waits (h : Hashes) (fuel : Nat) (hcfg : s.config = p.config)
    (hgear : s.gear = p.gear) (hwaits : p.Waits s.buffer) :
    s.emitChunks h (fuel + 1) = .ok s := by
  by_cases hshort : s.buffer.length ≤ s.config.minSize
  · simp only [StreamChunker.emitChunks, hshort, if_true]
  · have hwait : s.buffer.length ≤ p.cutLength s.buffer ∧ s.buffer.length < s.config.maxSize := by
      rw [hcfg] at hshort ⊢
      exact hwaits.resolve_left hshort
    simp only [StreamChunker.emitChunks, hshort, if_false, findBoundary_eq hcfg hgear, Bind.bind,
      Except.bind, hwait, and_self, if_true, Pure.pure, Except.pure]

theorem emitChunks_emits (h : Hashes) (fuel : Nat) (hcfg : s.config = p.config)
    (hgear : s.gear = p.gear) (hgo : ¬ p.Waits s.buffer) :
    s.emitChunks h (fuel + 1) = (s.emitted h (p.cutLength s.buffer)).emitChunks h fuel := by
  rw [CutProfile.Waits, ← hcfg, not_or] at hgo
  obtain ⟨hlong, hwait⟩ := hgo
  have hmin : min (p.cutLength s.buffer) s.buffer.length = p.cutLength s.buffer :=
    min_eq_left (p.cutLength_le s.buffer)
  simp only [StreamChunker.emitChunks, hlong, if_false, findBoundary_eq hcfg hgear, Bind.bind,
    Except.bind, hwait, hmin]
  rfl

end

theorem emitChunks_returns (h : Hashes) (p : CutProfile) (s : StreamChunker)
    (hcfg : s.config = p.config) (hgear : s.gear = p.gear) :
    ∃ ps r, p.cutter.Emits s.buffer ps r ∧ (r ≠ [] → p.cutter.cut r = r.length) ∧
      Returns (fun fuel => StreamChunker.emitChunks h fuel s)
        { s with
          buffer := r
          chunks := s.chunks ++ chunksFrom h s.keying s.offset ps
          offset := s.offset + ps.flatten.length } := by
  induction hn : s.buffer.length using Nat.strongRecOn generalizing s with
  | ind n ih =>
    by_cases hwaits : p.Waits s.buffer
    · have hstop : { s with
          buffer := s.buffer
          chunks := s.chunks ++ chunksFrom h s.keying s.offset []
          offset := s.offset + ([] : List Bytes).flatten.length } = s := by simp [chunksFrom]
      refine ⟨[], s.buffer, .stop _, fun _ => hwaits.cut_eq, 1, fun fuel hf => ?_⟩
      obtain ⟨f, rfl⟩ : ∃ f, fuel = f + 1 := ⟨fuel - 1, by omega⟩
      rw [hstop]
      exact emitChunks_waits h f hcfg hgear hwaits
    · have hne : s.buffer ≠ [] := by
        intro hnil
        rw [CutProfile.Waits, hnil] at hwaits
        exact hwaits (.inl (Nat.zero_le _))
      have hpos : 0 < p.cutLength s.buffer := p.cutter.cut_pos s.buffer hne
      have hcutle := p.cutLength_le s.buffer
      obtain ⟨ps, r, hemits, hheld, enough, hrun⟩ := ih _
        (by simp only [StreamChunker.emitted, ← hn, List.length_drop]; omega)
        (s.emitted h (p.cutLength s.buffer)) hcfg hgear rfl
      refine ⟨s.buffer.take (p.cutLength s.buffer) :: ps, r,
        .emit hne (p.settled_of_not_waits hwaits) hemits, hheld, enough + 1, fun fuel hf => ?_⟩
      obtain ⟨f, rfl⟩ : ∃ f, fuel = f + 1 := ⟨fuel - 1, by omega⟩
      have hrest := hrun f (by omega)
      dsimp only at hrest ⊢
      rw [emitChunks_emits h f hcfg hgear hwaits, hrest]
      simp only [StreamChunker.emitted, chunksFrom, List.append_assoc, List.singleton_append,
        List.flatten_cons, List.length_append, Nat.add_assoc]

/-- What a stream chunker holds after the bytes `fed`: the pieces emitted so far
are the first pieces of every continuation, and the buffer is one piece. -/
structure Fed (h : Hashes) (p : CutProfile) (keying : Option ChunkKeying) (s : StreamChunker)
    (fed : Bytes) (ps : List Bytes) : Prop where
  config_eq : s.config = p.config
  gear_eq : s.gear = p.gear
  keying_eq : s.keying = keying
  chunks_eq : s.chunks = chunksFrom h keying 0 ps
  offset_eq : s.offset = ps.flatten.length
  pieces_eq : ∀ more, p.cutter.pieces (fed ++ more) = ps ++ p.cutter.pieces (s.buffer ++ more)
  held : s.buffer ≠ [] → p.cutter.cut s.buffer = s.buffer.length

theorem Fed.start (h : Hashes) (p : CutProfile) (keying : Option ChunkKeying) :
    Fed h p keying (.start p.config p.gear keying) [] [] :=
  ⟨rfl, rfl, rfl, rfl, rfl, fun _ => rfl, fun hne => absurd rfl hne⟩

theorem Fed.feed {h : Hashes} {p : CutProfile} {keying : Option ChunkKeying} {s : StreamChunker}
    {fed : Bytes} {ps : List Bytes} (hs : Fed h p keying s fed ps) (data : Bytes) :
    ∃ t, Returns (fun fuel => s.feed h fuel data) t ∧ ∃ qs, Fed h p keying t (fed ++ data) qs := by
  obtain ⟨qs, r, hemits, hheld, hrun⟩ := emitChunks_returns h p
    { s with buffer := s.buffer ++ data } hs.config_eq hs.gear_eq
  refine ⟨_, hrun, ps ++ qs, hs.config_eq, hs.gear_eq, hs.keying_eq, ?_, ?_, fun more => ?_, hheld⟩
  · simp only [chunksFrom_append, hs.chunks_eq, hs.keying_eq, hs.offset_eq, Nat.zero_add]
  · simp only [List.flatten_append, List.length_append, hs.offset_eq]
  · rw [List.append_assoc, hs.pieces_eq (data ++ more), ← List.append_assoc s.buffer,
      hemits.pieces_append more, List.append_assoc]

theorem Fed.finalize {h : Hashes} {p : CutProfile} {keying : Option ChunkKeying} {s : StreamChunker}
    {fed : Bytes} {ps : List Bytes} (hs : Fed h p keying s fed ps) :
    s.finalize h = chunksFrom h keying 0 (p.cutter.pieces fed) := by
  have hp := hs.pieces_eq []
  simp only [List.append_nil] at hp
  rw [Cutter.pieces_of_emitted hp hs.held, chunksFrom_append, StreamChunker.finalize]
  by_cases hb : s.buffer = []
  · simp only [hb, if_true, hs.chunks_eq, chunksFrom, List.append_nil]
  · simp only [hb, if_false, hs.chunks_eq, hs.keying_eq, hs.offset_eq, chunksFrom, Nat.zero_add]

/-- Every split of a stream into feeds yields the chunks of its pieces. -/
theorem chunkStream_returns (h : Hashes) (p : CutProfile) (keying : Option ChunkKeying)
    (feeds : List Bytes) :
    Returns ((StreamChunker.start p.config p.gear keying).chunkStream h feeds)
      (chunksFrom h keying 0 (p.cutter.pieces feeds.flatten)) := by
  obtain ⟨t, ht, ps, hfed⟩ := Returns.foldlM
    (fun fuel s data => StreamChunker.feed h fuel s data)
    (fun s done => ∃ ps, Fed h p keying s done.flatten ps)
    (fun s done data ⟨ps, hs⟩ => by
      obtain ⟨t, ht, qs, hq⟩ := hs.feed data
      exact ⟨t, ht, qs, by simpa using hq⟩)
    feeds (.start p.config p.gear keying) [] ⟨[], by simpa using Fed.start h p keying⟩
  have hmap := ht.map (fun t => t.finalize h)
  simp only [List.nil_append] at hfed
  rw [hfed.finalize] at hmap
  exact hmap

/-- The streaming and the one-shot chunker agree on every split into feeds. -/
theorem chunkStream_eq_chunkData (h : Hashes) (config : ChunkConfig) (gear : GearTable)
    (keying : Option ChunkKeying) (hpos : 1 ≤ config.minSize) (h1 : config.minSize ≤ config.avgSize)
    (h2 : config.avgSize ≤ config.maxSize) (data : Bytes) (feeds : List Bytes)
    (hsplit : feeds.flatten = data) :
    ∃ chunks, Returns ((StreamChunker.start config gear keying).chunkStream h feeds) chunks ∧
      Returns ((ChunkEngine.mk config gear keying).chunkData h data) chunks := by
  let p := CutProfile.ofPositive config gear hpos h1 h2
  refine ⟨chunksFrom h keying 0 (p.cutter.pieces data), ?_, chunkData_returns h p keying data⟩
  rw [← hsplit]
  exact chunkStream_returns h p keying feeds

theorem chunkStream_eq_chunkData_split :
    ∃ chunks, Returns ((StreamChunker.start ⟨1, 2, 4⟩ (Vector.replicate 256 3) none).chunkStream
        inlineHashes [[7], [], [8, 9]]) chunks ∧
      Returns ((ChunkEngine.mk ⟨1, 2, 4⟩ (Vector.replicate 256 3) none).chunkData
        inlineHashes [7, 8, 9]) chunks :=
  chunkStream_eq_chunkData inlineHashes ⟨1, 2, 4⟩ (Vector.replicate 256 3) none
    (by decide) (by decide) (by decide) [7, 8, 9] [[7], [], [8, 9]] rfl

end GitCellar
