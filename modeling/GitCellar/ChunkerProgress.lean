import GitCellar.Streaming

/-! When the chunkers come back: exactly the configurations in order whose
boundary search never cuts in front of the first byte. -/

namespace GitCellar

open Loops

/-- `vault_chunker_create_custom`: a panic here crosses the C boundary. -/
def vaultChunkerCreateCustom (h : Hashes) (minSize avgSize maxSize : Nat) :
    Run VaultError (Option ChunkEngine) := do
  let config ← ChunkConfig.new minSize avgSize maxSize
  return some (.new h config)

def ChunkEngine.Serves (h : Hashes) (e : ChunkEngine) : Prop :=
  ∀ data, ∃ chunks, Returns (e.chunkData h data) chunks ∧ ∀ c ∈ chunks, c.data ≠ []

def StreamChunker.Serves (h : Hashes) (s : StreamChunker) : Prop :=
  ∀ feeds, ∃ chunks, Returns (s.chunkStream h feeds) chunks ∧ ∀ c ∈ chunks, c.data ≠ []

/-- Creation answers NULL, or an engine that serves every byte string. -/
def CreateCustomSafe (h : Hashes) (minSize avgSize maxSize : Nat) : Prop :=
  vaultChunkerCreateCustom h minSize avgSize maxSize = .ok none ∨
    ∃ e, vaultChunkerCreateCustom h minSize avgSize maxSize = .ok (some e) ∧ e.Serves h

/-- A stream chunker over a configuration `ChunkConfig::new` accepts serves every split. -/
def StreamSafe (h : Hashes) (minSize avgSize maxSize : Nat) (gear : GearTable)
    (keying : Option ChunkKeying) : Prop :=
  ∀ config, ChunkConfig.new minSize avgSize maxSize = .ok config →
    (StreamChunker.start config gear keying).Serves h

theorem chunksFrom_data_ne_nil {h : Hashes} {p : CutProfile} {keying : Option ChunkKeying}
    {data : Bytes} {c : Chunk} (hc : c ∈ chunksFrom h keying 0 (p.cutter.pieces data)) :
    c.data ≠ [] :=
  p.cutter.mem_pieces_ne_nil (mem_chunksFrom hc).1

theorem CutProfile.engine_serves (h : Hashes) (p : CutProfile) (keying : Option ChunkKeying) :
    (ChunkEngine.mk p.config p.gear keying).Serves h :=
  fun data => ⟨_, chunkData_returns h p keying data, fun _ hc => chunksFrom_data_ne_nil hc⟩

theorem CutProfile.stream_serves (h : Hashes) (p : CutProfile) (keying : Option ChunkKeying) :
    (StreamChunker.start p.config p.gear keying).Serves h :=
  fun feeds => ⟨_, chunkStream_returns h p keying feeds, fun _ hc => chunksFrom_data_ne_nil hc⟩

/-- An empty cut leaves the offset where it is, so the loop never ends. -/
theorem chunkLoop_stuck (h : Hashes) (e : ChunkEngine) {b : UInt8}
    (hb : e.findChunkBoundary [b] = .ok 0) (fuel : Nat) (chunks : List Chunk) :
    e.chunkLoop h [b] fuel 0 chunks = .error .outOfFuel := by
  induction fuel generalizing chunks with
  | zero => rfl
  | succ fuel ih =>
    have hrange : (byteRange [b] 0 (min (0 + 0) [b].length) : Run VaultError Bytes) = .ok [] := by
      simp [byteRange]
    simp only [ChunkEngine.chunkLoop, List.length_singleton, Nat.zero_lt_one, if_true,
      List.drop_zero, hb, Bind.bind, Except.bind]
    simp only [List.length_singleton] at hrange
    rw [hrange]
    exact ih _

theorem chunkData_diverges (h : Hashes) (e : ChunkEngine) {b : UInt8}
    (hb : e.findChunkBoundary [b] = .ok 0) : Diverges (e.chunkData h [b]) :=
  fun fuel => by simpa [ChunkEngine.chunkData] using chunkLoop_stuck h e hb fuel []

theorem emitChunks_stuck (h : Hashes) (fuel : Nat) (s : StreamChunker) {b : UInt8}
    (hbuf : s.buffer = [b]) (hmin : s.config.minSize = 0) (hb : s.findBoundary = .ok 0) :
    StreamChunker.emitChunks h fuel s = .error .outOfFuel := by
  induction fuel generalizing s with
  | zero => rfl
  | succ fuel ih =>
    simp only [StreamChunker.emitChunks, hbuf, hmin, List.length_singleton, Nat.le_zero,
      Nat.one_ne_zero, if_false, hb, Bind.bind, Except.bind, false_and, Nat.zero_min,
      List.take_zero, List.drop_zero]
    refine ih _ rfl hmin ?_
    simpa only [StreamChunker.findBoundary, hbuf] using hb

theorem chunkStream_diverges (h : Hashes) (s : StreamChunker) {b : UInt8}
    (hbuf : s.buffer = []) (hmin : s.config.minSize = 0)
    (hb : fastcdcBoundary s.gear [b] s.config.minSize s.config.avgSize s.config.maxSize = .ok 0) :
    Diverges (s.chunkStream h [[b]]) := by
  intro fuel
  have hfeed : s.feed h fuel [b] = .error .outOfFuel :=
    emitChunks_stuck (b := b) h fuel { s with buffer := s.buffer ++ [b] } (by simp [hbuf]) hmin
      (by simpa [StreamChunker.findBoundary, hbuf] using hb)
  simp only [StreamChunker.chunkStream, List.foldlM_cons, hfeed]
  rfl

theorem create_accepts {h : Hashes} {lo avg hi : Nat} (h1 : lo ≤ avg) (h2 : avg ≤ hi) :
    vaultChunkerCreateCustom h lo avg hi = .ok (some (.new h ⟨lo, avg, hi⟩)) := by
  simp [vaultChunkerCreateCustom, ChunkConfig.new, h1, h2, Bind.bind, Except.bind, Pure.pure,
    Except.pure]

theorem create_panics {h : Hashes} {lo avg hi : Nat} (hord : ¬ (lo ≤ avg ∧ avg ≤ hi)) :
    vaultChunkerCreateCustom h lo avg hi = .error .panic := by
  by_cases h1 : lo ≤ avg
  · have h2 : ¬ avg ≤ hi := fun h2 => hord ⟨h1, h2⟩
    simp [vaultChunkerCreateCustom, ChunkConfig.new, h1, h2, Bind.bind, Except.bind]
  · simp [vaultChunkerCreateCustom, ChunkConfig.new, h1, Bind.bind, Except.bind]

theorem createCustomSafe_iff (h : Hashes) (lo avg hi : Nat) :
    CreateCustomSafe h lo avg hi ↔
      lo ≤ avg ∧ avg ≤ hi ∧ NoEmptyCut (deriveGearTable h unkeyedGearKey) lo avg := by
  generalize hg : deriveGearTable h unkeyedGearKey = gear
  have hnew : ChunkEngine.new h ⟨lo, avg, hi⟩ = ⟨⟨lo, avg, hi⟩, gear, none⟩ := by
    rw [ChunkEngine.new, hg]
  constructor
  · intro hsafe
    have hord : lo ≤ avg ∧ avg ≤ hi := by
      by_contra hn
      have hp := create_panics (h := h) hn
      rcases hsafe with hnull | ⟨e, he, _⟩
      · rw [hp] at hnull
        cases hnull
      · rw [hp] at he
        cases he
    refine ⟨hord.1, hord.2, ?_⟩
    by_contra hcut
    have hacc := create_accepts (h := h) hord.1 hord.2
    rw [hnew] at hacc
    obtain ⟨rfl, b, hb⟩ := fastcdcBoundary_zero hord.1 hord.2 hcut
    rcases hsafe with hnull | ⟨e, he, hserves⟩
    · rw [hacc] at hnull
      cases hnull
    · rw [hacc] at he
      obtain rfl := Option.some.inj (Except.ok.inj he)
      obtain ⟨chunks, hret, _⟩ := hserves [b]
      exact (chunkData_diverges h ⟨⟨0, avg, hi⟩, gear, none⟩ hb).not_returns hret
  · rintro ⟨h1, h2, hcut⟩
    have hacc := create_accepts (h := h) h1 h2
    rw [hnew] at hacc
    exact .inr ⟨_, hacc, CutProfile.engine_serves h ⟨⟨lo, avg, hi⟩, gear, h1, h2, hcut⟩ none⟩

theorem ChunkConfig.new_eq_ok_iff {lo avg hi : Nat} {config : ChunkConfig} :
    ChunkConfig.new lo avg hi = .ok config ↔ (lo ≤ avg ∧ avg ≤ hi) ∧ config = ⟨lo, avg, hi⟩ := by
  unfold ChunkConfig.new
  split
  · split
    · simp_all [eq_comm]
    · simp_all
  · simp_all

theorem streamSafe_iff (h : Hashes) (lo avg hi : Nat) (gear : GearTable)
    (keying : Option ChunkKeying) :
    StreamSafe h lo avg hi gear keying ↔ (lo ≤ avg → avg ≤ hi → NoEmptyCut gear lo avg) := by
  constructor
  · intro hsafe h1 h2
    by_contra hcut
    obtain ⟨rfl, b, hb⟩ := fastcdcBoundary_zero h1 h2 hcut
    obtain ⟨chunks, hret, _⟩ := hsafe _ (ChunkConfig.new_eq_ok_iff.mpr ⟨⟨h1, h2⟩, rfl⟩) [[b]]
    exact (chunkStream_diverges h _ rfl rfl hb).not_returns hret
  · intro hcut config hconfig
    obtain ⟨⟨h1, h2⟩, rfl⟩ := ChunkConfig.new_eq_ok_iff.mp hconfig
    exact CutProfile.stream_serves h ⟨⟨lo, avg, hi⟩, gear, h1, h2, hcut h1 h2⟩ keying

/-- Creation panics on sizes out of order and its engine hangs on an empty cut;
the stream chunker hangs on the same configurations. -/
theorem chunkers_serve_iff (h : Hashes) (lo avg hi : Nat) (gear : GearTable)
    (keying : Option ChunkKeying) :
    (CreateCustomSafe h lo avg hi ↔
      lo ≤ avg ∧ avg ≤ hi ∧ NoEmptyCut (deriveGearTable h unkeyedGearKey) lo avg) ∧
    (StreamSafe h lo avg hi gear keying ↔ (lo ≤ avg → avg ≤ hi → NoEmptyCut gear lo avg)) :=
  ⟨createCustomSafe_iff h lo avg hi, streamSafe_iff h lo avg hi gear keying⟩

/-- `(2, 1, 1)` panics, and `(0, 0, 1)` gives an engine that never returns. -/
theorem createCustom_unsafe :
    vaultChunkerCreateCustom inlineHashes 2 1 1 = .error .panic ∧
      ¬ CreateCustomSafe inlineHashes 2 1 1 ∧ ¬ CreateCustomSafe inlineHashes 0 0 1 := by
  refine ⟨create_panics (by decide), ?_, ?_⟩
  · rw [createCustomSafe_iff]
    omega
  · rw [createCustomSafe_iff, NoEmptyCut]
    omega

end GitCellar
