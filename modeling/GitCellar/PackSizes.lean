import GitCellar.PackInvariant
import Mathlib.Algebra.Order.BigOperators.Group.List

/-! What object sizes tell the storage provider about a batch: a ladder step for
each pack, and one pack for a batch that fits the target. -/

namespace GitCellar

open Loops

def PadLadder.steps (ladder : PadLadder) : Nat → Nat
  | 0 => max ladder.floor 1
  | n + 1 => ladder.grow (ladder.steps n)

def PadLadder.IsStep (ladder : PadLadder) (size : Nat) : Prop := ∃ n, ladder.steps n = size

theorem PadLadder.stepFrom_isStep (ladder : PadLadder) (len step : Nat) (h : ladder.IsStep step) :
    ladder.IsStep (ladder.stepFrom len step) := by
  induction step using PadLadder.stepFrom.induct ladder len with
  | case1 step hlt ih =>
    rw [stepFrom, if_pos hlt]
    obtain ⟨n, rfl⟩ := h
    exact ih ⟨n + 1, rfl⟩
  | case2 step hge =>
    rw [stepFrom, if_neg hge]
    exact h

theorem padPack_isStep {σ : Type} (rng : Rng σ) (bytes : Bytes) (ladder : PadLadder) (s : σ) :
    ladder.IsStep (padPack rng bytes ladder s).1.length := by
  rw [(padPack_spec rng bytes ladder s).1, PadLadder.stepFor]
  exact ladder.stepFrom_isStep _ _ ⟨0, rfl⟩

/-- The length of a batch, each name counted once. -/
def dedupLength (batch : List (String × Bytes)) : Nat :=
  ((firsts batch).map fun c => c.2.length).sum

theorem dedupLength_append_one (done : List (String × Bytes)) (c : String × Bytes) :
    dedupLength (done ++ [c]) =
      if c.1 ∈ done.map Prod.fst then dedupLength done else dedupLength done + c.2.length := by
  by_cases hold : c.1 ∈ done.map Prod.fst
  · rw [dedupLength, firsts_append_one, if_pos ((keys_firsts done c.1).mpr hold), if_pos hold,
      dedupLength]
  · have hnew : c.1 ∉ (firsts done).map Prod.fst := fun h => hold ((keys_firsts done c.1).mp h)
    rw [dedupLength, firsts_append_one, if_neg hnew, if_neg hold]
    simp [dedupLength]

theorem dedupLength_le_append (done rest : List (String × Bytes)) :
    dedupLength done ≤ dedupLength (done ++ rest) := by
  induction rest using List.reverseRecOn with
  | nil => simp
  | append_singleton rest c ih =>
    have hstep : dedupLength (done ++ rest) ≤ dedupLength (done ++ rest ++ [c]) := by
      rw [dedupLength_append_one]
      by_cases hold : c.1 ∈ (done ++ rest).map Prod.fst
      · rw [if_pos hold]
      · rw [if_neg hold]
        omega
    rw [← List.append_assoc]
    exact ih.trans hstep

/-- A batch whose sizes its names determine: no blob is empty, and blobs of one name are of
one length. -/
structure Uniform (batch : List (String × Bytes)) : Prop where
  nonempty : ∀ c ∈ batch, c.2 ≠ []
  lengths : ∀ c ∈ batch, ∀ d ∈ batch, c.1 = d.1 → c.2.length = d.2.length

theorem Uniform.perm {batch batch' : List (String × Bytes)} (h : Uniform batch)
    (hperm : batch.Perm batch') : Uniform batch' where
  nonempty c hc := h.nonempty c (hperm.mem_iff.mpr hc)
  lengths c hc d hd := h.lengths c (hperm.mem_iff.mpr hc) d (hperm.mem_iff.mpr hd)

theorem Uniform.sized_mem {batch : List (String × Bytes)} (h : Uniform batch) (x : String × Nat) :
    x ∈ (firsts batch).map (fun c => (c.1, c.2.length)) ↔
      x ∈ batch.map fun c => (c.1, c.2.length) := by
  constructor
  · intro hx
    obtain ⟨c, hc, rfl⟩ := List.mem_map.mp hx
    exact List.mem_map.mpr ⟨c, mem_of_mem_firsts hc, rfl⟩
  · intro hx
    obtain ⟨c, hc, rfl⟩ := List.mem_map.mp hx
    have hkey : c.1 ∈ (firsts batch).map Prod.fst :=
      (keys_firsts batch c.1).mpr (List.mem_map_of_mem hc)
    obtain ⟨d, hd, hname⟩ := List.mem_map.mp hkey
    have hlength := h.lengths d (mem_of_mem_firsts hd) c hc hname
    exact List.mem_map.mpr ⟨d, hd, by rw [hname, hlength]⟩

theorem nodup_sized_firsts (batch : List (String × Bytes)) :
    ((firsts batch).map fun c => (c.1, c.2.length)).Nodup := by
  have hkeys := nodup_keys_firsts batch
  apply List.Nodup.of_map Prod.fst
  rw [List.map_map]
  exact hkeys

theorem Uniform.dedupLength_perm {batch batch' : List (String × Bytes)} (h : Uniform batch)
    (hperm : batch.Perm batch') : dedupLength batch = dedupLength batch' := by
  have hsized : ((firsts batch).map fun c => (c.1, c.2.length)).Perm
      ((firsts batch').map fun c => (c.1, c.2.length)) := by
    apply (List.perm_ext_iff_of_nodup (nodup_sized_firsts batch) (nodup_sized_firsts batch')).mpr
    intro x
    rw [h.sized_mem, (h.perm hperm).sized_mem]
    exact (hperm.map _).mem_iff
  have hsum := (hsized.map Prod.snd).sum_eq
  rw [List.map_map, List.map_map] at hsum
  exact hsum

variable {σ : Type} {rng : Rng σ} {target : Nat} {t : Packing σ}

/-- The packs built are padded, and an open pack has an id. -/
structure Packing.Padded (t : Packing σ) : Prop where
  steps : ∀ b ∈ t.packs, PadLadder.default.IsStep b.bytes.length
  opened : t.curBytes ≠ [] → ∃ packId, t.curId = some packId

theorem Packing.padded_start (s : σ) : (Packing.start s).Padded where
  steps := by simp [Packing.start]
  opened h := absurd rfl h

theorem Packing.Padded.push (h : t.Padded) (packId : String) {padded : Bytes × σ}
    (hpadded : PadLadder.default.IsStep padded.1.length) : (t.push packId padded).Padded where
  steps := by
    intro b hb
    rcases List.mem_append.mp hb with hb | hb
    · exact h.steps b hb
    · obtain rfl := List.mem_singleton.mp hb
      exact hpadded
  opened hne := absurd rfl hne

theorem Packing.Padded.place (h : t.Padded) (rng : Rng σ) (name : String) (blob : Bytes) :
    (t.place rng name blob).Padded where
  steps := h.steps
  opened _ := ⟨_, rfl⟩

theorem Packing.Padded.add (h : t.Padded) (rng : Rng σ) (target : Nat) (c : String × Bytes) :
    ∃ u, Packing.add rng target t c = .ok u ∧ u.Padded := by
  obtain ⟨name, blob⟩ := c
  by_cases hold : name ∈ t.seen
  · exact ⟨t, by simp only [Packing.add, hold, if_true], h⟩
  · have hseen : Packing.Padded { t with seen := name :: t.seen } := ⟨h.steps, h.opened⟩
    by_cases hover : t.curBytes ≠ [] ∧ target < t.curBytes.length + blob.length
    · obtain ⟨packId, hid⟩ := h.opened hover.1
      have hpush := hseen.push packId (padPack_isStep rng t.curBytes .default t.rng)
      refine ⟨_, ?_, hpush.place rng name blob⟩
      simp only [Packing.add, hold, if_false, if_pos hover, Packing.sealOpen, hid]
      rfl
    · refine ⟨_, ?_, hseen.place rng name blob⟩
      simp only [Packing.add, hold, if_false, if_neg hover]
      rfl

theorem Packing.Padded.run (h : t.Padded) (rng : Rng σ) (target : Nat)
    (chunks : List (String × Bytes)) :
    ∃ u, chunks.foldlM (Packing.add rng target) t = .ok u ∧ u.Padded := by
  induction chunks generalizing t with
  | nil => exact ⟨t, rfl, h⟩
  | cons c chunks ih =>
    obtain ⟨u, hadd, hu⟩ := h.add rng target c
    obtain ⟨v, hrun, hv⟩ := ih hu
    refine ⟨v, ?_, hv⟩
    rw [List.foldlM_cons, hadd]
    exact hrun

theorem Packing.Padded.flush (h : t.Padded) (rng : Rng σ) : (t.flush rng).Padded := by
  cases hid : t.curId with
  | none =>
    rw [Packing.flush, hid]
    exact h
  | some packId =>
    by_cases hempty : t.curBytes = []
    · simp only [Packing.flush, hid, hempty, if_true]
      exact ⟨h.steps, fun hne => absurd rfl hne⟩
    · simp only [Packing.flush, hid, hempty, if_false]
      exact h.push packId (padPack_isStep rng t.curBytes .default t.rng)

/-- After the chunks `done` nothing has been sealed. -/
structure Packing.Unsealed (done : List (String × Bytes)) (t : Packing σ) : Prop where
  packs_eq : t.packs = []
  length_eq : t.curBytes.length = dedupLength done
  seen_iff : ∀ name, name ∈ t.seen ↔ name ∈ done.map Prod.fst
  opened : t.curBytes ≠ [] → ∃ packId, t.curId = some packId

theorem Packing.unsealed_start (s : σ) : (Packing.start s).Unsealed [] where
  packs_eq := rfl
  length_eq := rfl
  seen_iff := by simp [Packing.start]
  opened h := absurd rfl h

theorem Packing.Unsealed.add {done : List (String × Bytes)} (h : t.Unsealed done) (rng : Rng σ)
    {c : String × Bytes} (hroom : dedupLength (done ++ [c]) ≤ target) :
    ∃ u, Packing.add rng target t c = .ok u ∧ u.Unsealed (done ++ [c]) := by
  obtain ⟨name, blob⟩ := c
  have hlength := dedupLength_append_one done (name, blob)
  by_cases hold : name ∈ t.seen
  · have hdone : name ∈ done.map Prod.fst := (h.seen_iff name).mp hold
    rw [if_pos hdone] at hlength
    refine ⟨t, by simp only [Packing.add, hold, if_true], h.packs_eq, ?_, ?_, h.opened⟩
    · rw [hlength, h.length_eq]
    · intro n
      simp only [h.seen_iff, List.map_append, List.map_cons, List.map_nil, List.mem_append,
        List.mem_singleton]
      exact ⟨.inl, fun hn => hn.elim id fun he => he ▸ hdone⟩
  · have hnew : name ∉ done.map Prod.fst := fun hd => hold ((h.seen_iff name).mpr hd)
    rw [if_neg hnew] at hlength
    rw [hlength] at hroom
    have hover : ¬ (t.curBytes ≠ [] ∧ target < t.curBytes.length + blob.length) := by
      rintro ⟨_, hlt⟩
      rw [h.length_eq] at hlt
      exact absurd hroom (Nat.not_le.mpr hlt)
    refine ⟨{ t with seen := name :: t.seen }.place rng name blob, ?_, h.packs_eq, ?_, ?_, ?_⟩
    · simp only [Packing.add, hold, if_false, if_neg hover]
      rfl
    · rw [hlength, ← h.length_eq]
      exact List.length_append
    · intro n
      have hn := h.seen_iff n
      simp only [Packing.place, List.mem_cons, hn, List.map_append, List.map_cons, List.map_nil,
        List.mem_append, List.not_mem_nil, or_false]
      exact or_comm
    · exact fun _ => ⟨_, rfl⟩

theorem Packing.Unsealed.run {done : List (String × Bytes)} (h : t.Unsealed done) (rng : Rng σ)
    (chunks : List (String × Bytes)) (hroom : dedupLength (done ++ chunks) ≤ target) :
    ∃ u, chunks.foldlM (Packing.add rng target) t = .ok u ∧ u.Unsealed (done ++ chunks) := by
  induction chunks generalizing t done with
  | nil => exact ⟨t, rfl, by simpa using h⟩
  | cons c chunks ih =>
    have hsplit : done ++ c :: chunks = done ++ [c] ++ chunks := by simp
    rw [hsplit] at hroom ⊢
    obtain ⟨u, hadd, hu⟩ := h.add rng ((dedupLength_le_append _ _).trans hroom)
    obtain ⟨v, hrun, hv⟩ := ih hu hroom
    refine ⟨v, ?_, hv⟩
    rw [List.foldlM_cons, hadd]
    exact hrun

theorem packChunks_padded (rng : Rng σ) (s : σ) (batch : List (String × Bytes)) (size : UInt64) :
    ∃ set s', packChunks rng batch size s = .ok (set, s') ∧
      ∀ b ∈ set.packs, PadLadder.default.IsStep b.bytes.length := by
  obtain ⟨u, hrun, hu⟩ := (Packing.padded_start (rng.shuffle s batch).2).run rng
    (max size.toNat 1) (rng.shuffle s batch).1
  refine ⟨⟨(u.flush rng).packs, (u.flush rng).index⟩, (u.flush rng).rng, ?_, (hu.flush rng).steps⟩
  simp only [packChunks, hrun]
  rfl

theorem packChunks_one_object (rng : Rng σ) (s : σ) {batch : List (String × Bytes)} {size : UInt64}
    (huniform : Uniform batch) (hne : batch ≠ []) (hfits : dedupLength batch ≤ max size.toNat 1) :
    ∃ set s', packChunks rng batch size s = .ok (set, s') ∧
      set.packs.map (fun b => b.bytes.length) =
      [PadLadder.default.stepFor (dedupLength batch)] := by
  have hperm := (rng.shuffle_perm s batch).symm
  have hlength := huniform.dedupLength_perm hperm
  rw [hlength] at hfits
  obtain ⟨u, hrun, hu⟩ := (Packing.unsealed_start (rng.shuffle s batch).2).run rng
    (rng.shuffle s batch).1 hfits
  simp only [List.nil_append] at hu
  obtain ⟨c, hc⟩ := List.exists_mem_of_ne_nil _ hne
  have hpos : 0 < dedupLength (rng.shuffle s batch).1 := by
    have hkey := (keys_firsts (rng.shuffle s batch).1 c.1).mpr
      (List.mem_map_of_mem (hperm.mem_iff.mp hc))
    obtain ⟨d, hd, _⟩ := List.mem_map.mp hkey
    have hle : d.2.length ≤ dedupLength (rng.shuffle s batch).1 :=
      List.single_le_sum (fun _ _ => Nat.zero_le _) _ (List.mem_map.mpr ⟨d, hd, rfl⟩)
    have hblob := (huniform.perm hperm).nonempty d (mem_of_mem_firsts hd)
    exact (List.length_pos_iff.mpr hblob).trans_le hle
  have hbytes : u.curBytes ≠ [] := by
    apply List.ne_nil_of_length_pos
    rw [hu.length_eq]
    exact hpos
  obtain ⟨packId, hid⟩ := hu.opened hbytes
  obtain ⟨padded, hpad⟩ : ∃ padded, padPack rng u.curBytes .default u.rng = padded := ⟨_, rfl⟩
  have hstep := (padPack_spec rng u.curBytes .default u.rng).1
  rw [hpad, hu.length_eq, ← hlength] at hstep
  have hflush : u.flush rng = u.push packId padded := by
    simp only [Packing.flush, hid, hbytes, if_false, hpad]
  refine ⟨⟨(u.flush rng).packs, (u.flush rng).index⟩, (u.flush rng).rng, ?_, ?_⟩
  · simp only [packChunks, hrun]
    rfl
  · rw [hflush, ← hstep]
    simp only [Packing.push, hu.packs_eq, List.nil_append, List.map_cons, List.map_nil]

/-- Two batches that pad to one step look alike, and every object is a step. -/
theorem packs_hide_lengths {σ σ' : Type} (rng : Rng σ) (rng' : Rng σ') (s : σ) (s' : σ')
    (batch batch' : List (String × Bytes)) (size size' : UInt64) (step : Nat) :
    (Uniform batch → batch ≠ [] → dedupLength batch ≤ max size.toNat 1 →
      PadLadder.default.stepFor (dedupLength batch) = step →
      Uniform batch' → batch' ≠ [] → dedupLength batch' ≤ max size'.toNat 1 →
      PadLadder.default.stepFor (dedupLength batch') = step →
      ∃ set r set' r', packChunks rng batch size s = .ok (set, r) ∧
        packChunks rng' batch' size' s' = .ok (set', r') ∧
        set.packs.map (fun b => b.bytes.length) = [step] ∧
        set'.packs.map (fun b => b.bytes.length) = [step]) ∧
    ∃ set r, packChunks rng batch size s = .ok (set, r) ∧
      ∀ b ∈ set.packs, PadLadder.default.IsStep b.bytes.length := by
  refine ⟨?_, packChunks_padded rng s batch size⟩
  intro huniform hne hfits hstep huniform' hne' hfits' hstep'
  obtain ⟨set, r, hrun, hsizes⟩ := packChunks_one_object rng s huniform hne hfits
  obtain ⟨set', r', hrun', hsizes'⟩ := packChunks_one_object rng' s' huniform' hne' hfits'
  exact ⟨set, r, set', r', hrun, hrun', hstep ▸ hsizes, hstep' ▸ hsizes'⟩

theorem packs_hide_lengths_sample :
    ∃ set r set' r',
      packChunks countingRng [("a", [1]), ("b", [2, 3]), ("a", [4])] 4 0 = .ok (set, r) ∧
      packChunks countingRng [("c", [5, 6, 7, 8])] 4 9 = .ok (set', r') ∧
      set.packs.map (fun b => b.bytes.length) = [padLadderFloor] ∧
      set'.packs.map (fun b => b.bytes.length) = [padLadderFloor] := by
  apply (packs_hide_lengths countingRng countingRng 0 9
    [("a", [1]), ("b", [2, 3]), ("a", [4])] [("c", [5, 6, 7, 8])] 4 4 padLadderFloor).1
  · exact ⟨by decide, by decide⟩
  · decide
  · decide
  · exact stepFor_below_floor (by decide)
  · exact ⟨by decide, by decide⟩
  · decide
  · decide
  · exact stepFor_below_floor (by decide)

end GitCellar
