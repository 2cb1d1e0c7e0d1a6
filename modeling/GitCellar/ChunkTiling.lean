import GitCellar.ChunkNames
import GitCellar.Streaming

/-! What the one-shot engine makes of a byte string: chunks that tile it, and
that stay the same wherever the bytes ahead of a cut stay the same. -/

namespace GitCellar

open Loops Splitting

def reassembleChunks (chunks : List Chunk) : Run VaultError Bytes :=
  if chunks = [] then .ok [] else .ok (chunks.foldl (fun data c => data ++ c.data) [])

def ChunkEngine.verifyChunk (h : Hashes) (e : ChunkEngine) (c : Chunk) : Bool :=
  e.verifyName h c.hash c.data

def ChunkEngine.verifyAll (h : Hashes) (e : ChunkEngine) (chunks : List Chunk) : Bool :=
  chunks.all (e.verifyChunk h)

/-- The chunks lie end to end over `data`, within the sizes of `e`, under its names. -/
structure TiledBy (h : Hashes) (e : ChunkEngine) (data : Bytes) (chunks : List Chunk) : Prop where
  reassembled : reassembleChunks chunks = .ok data
  offset_eq : ∀ before c after, chunks = before ++ c :: after →
    c.offset = (before.map Chunk.size).sum
  sized : ∀ c ∈ chunks, c.size = c.data.length ∧ 0 < c.size
  inner : ∀ c ∈ chunks.dropLast, e.config.minSize ≤ c.size ∧ c.size ≤ e.config.maxSize
  last : ∀ c ∈ chunks, c.size ≤ e.config.maxSize
  verified : e.verifyAll h chunks = true

def CutAt (chunks : List Chunk) (pos : Nat) : Prop :=
  ∃ before after, chunks = before ++ after ∧ (before.map Chunk.size).sum = pos

def chunksPast (chunks : List Chunk) (pos : Nat) : List Chunk :=
  chunks.filter fun c => pos ≤ c.offset

section

variable {h : Hashes} {keying : Option ChunkKeying} {offset : Nat} {ps : List Bytes}

theorem foldl_append_data (chunks : List Chunk) (data : Bytes) :
    chunks.foldl (fun data c => data ++ c.data) data = data ++ (chunks.map Chunk.data).flatten := by
  induction chunks generalizing data with
  | nil => simp
  | cons c chunks ih =>
    rw [List.foldl_cons, ih, List.map_cons, List.flatten_cons, List.append_assoc]

theorem reassembleChunks_eq (chunks : List Chunk) :
    reassembleChunks chunks = .ok (chunks.map Chunk.data).flatten := by
  by_cases hnil : chunks = []
  · rw [reassembleChunks, if_pos hnil, hnil]
    rfl
  · rw [reassembleChunks, if_neg hnil, foldl_append_data, List.nil_append]

theorem map_size_chunksFrom (h : Hashes) (keying : Option ChunkKeying) (offset : Nat)
    (ps : List Bytes) : (chunksFrom h keying offset ps).map Chunk.size = ps.map List.length := by
  induction ps generalizing offset with
  | nil => rfl
  | cons p ps ih => simp only [chunksFrom, List.map_cons, ih]

theorem offset_chunksFrom {before after : List Chunk} {c : Chunk}
    (hsplit : chunksFrom h keying offset ps = before ++ c :: after) :
    c.offset = offset + (before.map Chunk.size).sum := by
  induction ps generalizing offset before with
  | nil =>
    cases before with
    | nil => cases hsplit
    | cons b before => cases hsplit
  | cons p ps ih =>
    cases before with
    | nil =>
      obtain ⟨rfl, _⟩ := List.cons.inj hsplit
      simp
    | cons b before =>
      obtain ⟨rfl, hrest⟩ := List.cons.inj hsplit
      rw [ih hrest, List.map_cons, List.sum_cons, Nat.add_assoc]

theorem dropLast_chunksFrom (h : Hashes) (keying : Option ChunkKeying) (offset : Nat)
    (ps : List Bytes) :
    (chunksFrom h keying offset ps).dropLast = chunksFrom h keying offset ps.dropLast := by
  induction ps generalizing offset with
  | nil => rfl
  | cons p ps ih =>
    cases ps with
    | nil => rfl
    | cons q ps =>
      have hrest := ih (offset + p.length)
      simp only [chunksFrom, List.dropLast_cons_cons] at hrest ⊢
      rw [hrest]

theorem chunksFrom_prefix {qs : List Bytes} (hp : ps <+: qs) :
    chunksFrom h keying offset ps <+: chunksFrom h keying offset qs := by
  obtain ⟨rest, rfl⟩ := hp
  rw [chunksFrom_append]
  exact List.prefix_append _ _

theorem chunksFrom_split {before after : List Chunk}
    (hsplit : chunksFrom h keying offset ps = before ++ after) :
    ∃ qs rs, ps = qs ++ rs ∧ before = chunksFrom h keying offset qs ∧
      after = chunksFrom h keying (offset + qs.flatten.length) rs := by
  induction before generalizing offset ps with
  | nil => exact ⟨[], ps, rfl, rfl, hsplit.symm⟩
  | cons b before ih =>
    cases ps with
    | nil => cases hsplit
    | cons p ps =>
      obtain ⟨rfl, hrest⟩ := List.cons.inj hsplit
      obtain ⟨qs, rs, rfl, hbefore, hafter⟩ := ih hrest
      refine ⟨p :: qs, rs, rfl, ?_, ?_⟩
      · rw [chunksFrom, hbefore]
      · rw [hafter, List.flatten_cons, List.length_append, Nat.add_assoc]

theorem offset_range {c : Chunk} (hc : c ∈ chunksFrom h keying offset ps) :
    offset ≤ c.offset ∧ c.offset + c.size ≤ offset + ps.flatten.length := by
  induction ps generalizing offset with
  | nil => cases hc
  | cons p ps ih =>
    rw [List.flatten_cons, List.length_append]
    rcases List.mem_cons.mp hc with rfl | hc
    · simp only
      omega
    · obtain ⟨hlo, hhi⟩ := ih hc
      omega

theorem chunksPast_append {qs : List Bytes} (hne : ∀ p ∈ ps, p ≠ []) :
    chunksPast (chunksFrom h keying 0 ps ++ chunksFrom h keying ps.flatten.length qs)
      ps.flatten.length = chunksFrom h keying ps.flatten.length qs := by
  rw [chunksPast, List.filter_append, List.filter_eq_nil_iff.mpr, List.nil_append,
    List.filter_eq_self]
  · intro c hc
    exact decide_eq_true (offset_range hc).1
  · intro c hc
    obtain ⟨hdata, _, hsize⟩ := mem_chunksFrom hc
    have hpos := List.length_pos_iff.mpr (hne c.data hdata)
    have hend := (offset_range hc).2
    rw [decide_eq_true_iff]
    omega

theorem chunksFrom_shifted (h : Hashes) (keying : Option ChunkKeying) (a b k : Nat)
    (ps : List Bytes) :
    List.Forall₂ (fun c d => c.hash = d.hash ∧ c.data = d.data ∧ c.size = d.size ∧
      c.offset + b = d.offset + a) (chunksFrom h keying (a + k) ps)
        (chunksFrom h keying (b + k) ps) := by
  induction ps generalizing k with
  | nil => exact .nil
  | cons p ps ih =>
    rw [chunksFrom, chunksFrom, Nat.add_assoc a, Nat.add_assoc b]
    refine .cons ⟨rfl, rfl, rfl, ?_⟩ (ih (k + p.length))
    show a + k + b = b + k + a
    omega

end

section

variable {e : ChunkEngine}

theorem chunkData_tiles (h : Hashes) (e : ChunkEngine) (hpos : 1 ≤ e.config.minSize)
    (h1 : e.config.minSize ≤ e.config.avgSize) (h2 : e.config.avgSize ≤ e.config.maxSize)
    (data : Bytes) :
    ∃ chunks, Returns (e.chunkData h data) chunks ∧ TiledBy h e data chunks := by
  let p := CutProfile.ofPositive e.config e.gear hpos h1 h2
  have hmem : ∀ c ∈ chunksFrom h e.keying 0 (p.cutter.pieces data),
      c.data ∈ p.cutter.pieces data ∧ c.hash = chunkName h e.keying c.data ∧
        c.size = c.data.length := fun c hc => mem_chunksFrom hc
  refine ⟨chunksFrom h e.keying 0 (p.cutter.pieces data), chunkData_returns h p e.keying data, ?_⟩
  constructor
  · rw [reassembleChunks_eq, map_data_chunksFrom, p.cutter.pieces_flatten]
  · intro before c after hsplit
    rw [offset_chunksFrom hsplit, Nat.zero_add]
  · intro c hc
    obtain ⟨hdata, _, hsize⟩ := hmem c hc
    refine ⟨hsize, ?_⟩
    rw [hsize]
    exact List.length_pos_iff.mpr (p.cutter.mem_pieces_ne_nil hdata)
  · intro c hc
    rw [dropLast_chunksFrom] at hc
    obtain ⟨hdata, _, hsize⟩ := mem_chunksFrom hc
    obtain ⟨d, _, heq, hinside⟩ := p.cutter.mem_dropLast_pieces hdata
    change p.cutLength d < d.length at hinside
    change c.data = d.take (p.cutLength d) at heq
    have hlong : e.config.minSize < d.length := by
      by_contra hshort
      have hwhole := p.cutLength_short (Nat.le_of_not_lt hshort)
      omega
    obtain ⟨hlo, hhi⟩ := p.cutLength_bounds hlong
    rw [hsize, heq, List.length_take_of_le hinside.le]
    exact ⟨hlo, hhi.trans (min_le_left _ _)⟩
  · intro c hc
    obtain ⟨hdata, _, hsize⟩ := hmem c hc
    obtain ⟨d, _, _, heq⟩ := p.cutter.mem_pieces_eq_take hdata
    rw [hsize, heq]
    exact (List.length_take_le _ _).trans (p.cutLength_le_max d)
  · rw [ChunkEngine.verifyAll, List.all_eq_true]
    intro c hc
    obtain ⟨_, hname, _⟩ := hmem c hc
    rw [ChunkEngine.verifyChunk, ChunkEngine.verifyName_eq, hname]
    exact verifyName_iff.mpr rfl

theorem chunkData_tiles_sample :
    ∃ chunks, Returns (unkeyedEngine.chunkData inlineHashes [7, 8, 9]) chunks ∧
      TiledBy inlineHashes unkeyedEngine [7, 8, 9] chunks :=
  chunkData_tiles inlineHashes unkeyedEngine (by decide) (by decide) (by decide) [7, 8, 9]

theorem settled_of_inside (p : CutProfile) (d : Bytes) (h : p.cutter.cut d < d.length) :
    p.cutter.settled d := .inl h

theorem chunksPast_of_cut {p : CutProfile} {h : Hashes} {keying : Option ChunkKeying}
    {front s : Bytes}
    (hcut : CutAt (chunksFrom h keying 0 (p.cutter.pieces (front ++ s))) front.length) :
    chunksPast (chunksFrom h keying 0 (p.cutter.pieces (front ++ s))) front.length =
      chunksFrom h keying front.length (p.cutter.pieces s) := by
  obtain ⟨before, after, hsplit, hsum⟩ := hcut
  obtain ⟨qs, rs, hpieces, hbefore, _⟩ := chunksFrom_split hsplit
  have hlength : qs.flatten.length = front.length := by
    rw [← hsum, hbefore, map_size_chunksFrom, List.length_flatten]
  have hflat : qs.flatten ++ rs.flatten = front ++ s := by
    rw [← p.cutter.pieces_flatten (front ++ s), hpieces, List.flatten_append]
  obtain ⟨hfront, hs⟩ := List.append_inj hflat hlength
  have hrest : p.cutter.pieces s = rs := by
    rw [← hs]
    exact p.cutter.pieces_rest hpieces
  have hne : ∀ q ∈ qs, q ≠ [] := by
    intro q hq
    apply p.cutter.mem_pieces_ne_nil
    rw [hpieces]
    exact List.mem_append_left _ hq
  rw [hpieces, chunksFrom_append, Nat.zero_add, ← hlength, chunksPast_append hne, hrest]

/-- Appended bytes change the last chunk only, and two inputs that are cut at
the start of a common end have the same chunks from there on. -/
theorem chunkData_resynchronises (h : Hashes) (e : ChunkEngine) (hpos : 1 ≤ e.config.minSize)
    (h1 : e.config.minSize ≤ e.config.avgSize) (h2 : e.config.avgSize ≤ e.config.maxSize) :
    (∀ data more, ∃ chunks chunks', Returns (e.chunkData h data) chunks ∧
      Returns (e.chunkData h (data ++ more)) chunks' ∧ chunks.dropLast <+: chunks') ∧
    ∀ front front' s, ∃ chunks chunks', Returns (e.chunkData h (front ++ s)) chunks ∧
      Returns (e.chunkData h (front' ++ s)) chunks' ∧
      (CutAt chunks front.length → CutAt chunks' front'.length →
        ((chunksPast chunks front.length).map Chunk.data).flatten = s ∧
        List.Forall₂ (fun c d => c.hash = d.hash ∧ c.data = d.data ∧ c.size = d.size ∧
            c.offset + front'.length = d.offset + front.length)
          (chunksPast chunks front.length) (chunksPast chunks' front'.length)) := by
  let p := CutProfile.ofPositive e.config e.gear hpos h1 h2
  have hreturns : ∀ data, Returns (e.chunkData h data)
      (chunksFrom h e.keying 0 (p.cutter.pieces data)) := chunkData_returns h p e.keying
  constructor
  · intro data more
    refine ⟨_, _, hreturns data, hreturns (data ++ more), ?_⟩
    rw [dropLast_chunksFrom]
    exact chunksFrom_prefix (p.cutter.dropLast_pieces_prefix (settled_of_inside p) data more)
  · intro front front' s
    refine ⟨_, _, hreturns (front ++ s), hreturns (front' ++ s), ?_⟩
    intro hcut hcut'
    rw [chunksPast_of_cut hcut, chunksPast_of_cut hcut']
    constructor
    · rw [map_data_chunksFrom, p.cutter.pieces_flatten]
    · exact chunksFrom_shifted h e.keying front.length front'.length 0 (p.cutter.pieces s)

def variedEngine : ChunkEngine where
  config := ⟨1, 2, 4⟩
  gear := Vector.ofFn fun i : Fin 256 => UInt64.ofNat (i.val * 0x9E3779B97F4A7C15)
  keying := none

/-- An appended byte, and two fronts that are both cut off before `[9, 10, 11, 12]`. -/
theorem chunkData_resynchronises_sample :
    (∃ chunks chunks', Returns (unkeyedEngine.chunkData inlineHashes [7, 8, 9]) chunks ∧
      Returns (unkeyedEngine.chunkData inlineHashes ([7, 8, 9] ++ [10])) chunks' ∧
      chunks.dropLast <+: chunks') ∧
    ∃ chunks chunks',
      Returns (variedEngine.chunkData inlineHashes [7, 8, 9, 10, 11, 12]) chunks ∧
      Returns (variedEngine.chunkData inlineHashes [1, 2, 3, 9, 10, 11, 12]) chunks' ∧
      ((chunksPast chunks 2).map Chunk.data).flatten = [9, 10, 11, 12] ∧
      List.Forall₂ (fun c d => c.hash = d.hash ∧ c.data = d.data ∧ c.size = d.size ∧
          c.offset + 3 = d.offset + 2) (chunksPast chunks 2) (chunksPast chunks' 3) := by
  refine ⟨(chunkData_resynchronises inlineHashes unkeyedEngine (by decide) (by decide)
    (by decide)).1 [7, 8, 9] [10], ?_⟩
  obtain ⟨chunks, chunks', hchunks, hchunks', hsame⟩ := (chunkData_resynchronises inlineHashes
    variedEngine (by decide) (by decide) (by decide)).2 [7, 8] [1, 2, 3] [9, 10, 11, 12]
  let p := CutProfile.ofPositive variedEngine.config variedEngine.gear (by decide) (by decide)
    (by decide)
  have hcut : p.cutter.cut [7, 8, 9, 10, 11, 12] = 2 := by decide +kernel
  have hcut₁ : p.cutter.cut [1, 2, 3, 9, 10, 11, 12] = 1 := by decide +kernel
  have hcut₂ : p.cutter.cut [2, 3, 9, 10, 11, 12] = 2 := by decide +kernel
  have hpieces : p.cutter.pieces [7, 8, 9, 10, 11, 12] =
      [7, 8] :: p.cutter.pieces [9, 10, 11, 12] := by
    rw [p.cutter.pieces_of_ne_nil (List.cons_ne_nil _ _), hcut]
    rfl
  have hpieces' : p.cutter.pieces [1, 2, 3, 9, 10, 11, 12] =
      [1] :: [2, 3] :: p.cutter.pieces [9, 10, 11, 12] := by
    rw [p.cutter.pieces_of_ne_nil (List.cons_ne_nil _ _), hcut₁]
    show [1] :: p.cutter.pieces [2, 3, 9, 10, 11, 12] = _
    rw [p.cutter.pieces_of_ne_nil (List.cons_ne_nil _ _), hcut₂]
    rfl
  have hreturned := hchunks.unique (chunkData_returns inlineHashes p variedEngine.keying
    [7, 8, 9, 10, 11, 12])
  have hreturned' := hchunks'.unique (chunkData_returns inlineHashes p variedEngine.keying
    [1, 2, 3, 9, 10, 11, 12])
  rw [hpieces] at hreturned
  rw [hpieces'] at hreturned'
  have hcutAt : CutAt chunks 2 := by
    rw [hreturned]
    exact ⟨[_], _, rfl, rfl⟩
  have hcutAt' : CutAt chunks' 3 := by
    rw [hreturned']
    exact ⟨[_, _], _, rfl, rfl⟩
  obtain ⟨hdata, hshifted⟩ := hsame hcutAt hcutAt'
  exact ⟨chunks, chunks', hchunks, hchunks', hdata, hshifted⟩

end

end GitCellar
