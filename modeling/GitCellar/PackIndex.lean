import GitCellar.PackInvariant

/-! When the index of a packed batch resolves: a batch may hold empty blobs, and
blobs too long for the length of an index entry. -/

namespace GitCellar

open Loops Tiling

variable {σ : Type} {target : Nat} {kept : List (String × Bytes)} {ids : List String}
variable {plans : List PackPlan} {set : PackSet}

/-- Every entry names one returned pack, and its slice there is the whole blob
`kept` under its name. -/
def Resolves (kept : List (String × Bytes)) (set : PackSet) : Prop :=
  ∀ name loc, (name, loc) ∈ set.index →
    ∃ p ∈ set.packs, p.packId = loc.packId ∧ (∀ q ∈ set.packs, q.packId = loc.packId → q = p) ∧
      ∃ blob, (name, blob) ∈ kept ∧ sliceChunk p.bytes loc = .ok blob

/-- The kept chunks end in empty blobs, before them nothing or a blob over the target. -/
def Dangles (target : Nat) (kept : List (String × Bytes)) : Prop :=
  ∃ pre tail, kept = pre ++ tail ∧ tail ≠ [] ∧ (∀ c ∈ tail, c.2 = []) ∧
    ∀ c ∈ pre.getLast?, target < c.2.length

theorem PackPlan.content_eq_nil_iff {p : PackPlan} : p.content = [] ↔ ∀ c ∈ p.chunks, c.2 = [] := by
  rw [PackPlan.content, PackPlan.blobs, List.flatten_eq_nil_iff]
  exact List.forall_mem_map

theorem PackPlan.le_content {p : PackPlan} {c : String × Bytes} (h : c ∈ p.chunks) :
    c.2.length ≤ p.content.length :=
  (List.sublist_flatten_of_mem (List.mem_map_of_mem h)).length_le

theorem PackedBy.last_of_empty (h : PackedBy target kept ids plans set) {p : PackPlan}
    (hp : p ∈ plans) (hempty : p.content = []) : ∃ init, plans = init ++ [p] := by
  obtain ⟨init, q, rfl⟩ := (List.eq_nil_or_concat' plans).resolve_left (List.ne_nil_of_mem hp)
  have hfilled := h.filled
  rw [List.dropLast_concat] at hfilled
  rcases List.mem_append.mp hp with hinit | hlast
  · exact absurd hempty (hfilled p hinit)
  · obtain rfl := List.mem_singleton.mp hlast
    exact ⟨init, rfl⟩

theorem PackedBy.dangles_of_empty (h : PackedBy target kept ids plans set) {p : PackPlan}
    (hp : p ∈ plans) (hempty : p.content = []) : Dangles target kept := by
  obtain ⟨init, rfl⟩ := h.last_of_empty hp hempty
  have hall := PackPlan.content_eq_nil_iff.mp hempty
  refine ⟨init.flatMap PackPlan.chunks, p.chunks, ?_, (h.held p hp).chunks_ne, hall, ?_⟩
  · rw [← h.chunks_eq, List.flatMap_append, List.flatMap_singleton]
  · intro c hc
    rcases List.eq_nil_or_concat' init with rfl | ⟨before, q, rfl⟩
    · simp at hc
    · obtain ⟨_, _, hlink⟩ := List.isChain_append.mp h.chained
      obtain ⟨d, rest, hchunks, hover⟩ := hlink q (by simp) p (by simp)
      have hd : d.2 = [] := hall d (by simp [hchunks])
      have hlong : target < q.content.length := by simpa [hd] using hover
      obtain ⟨pre, last, hlast, hcontent⟩ := (h.held q (by simp)).alone hlong
      have hcl : last = c := by simpa [hlast] using hc
      rw [← hcl, ← hcontent]
      exact hlong

theorem PackedBy.empty_of_dangles (h : PackedBy target kept ids plans set)
    (hdangles : Dangles target kept) : ∃ p ∈ plans, p.content = [] := by
  obtain ⟨pre, tail, hkept, hne, hempty, hlast⟩ := hdangles
  have hplans : plans ≠ [] := by
    rintro rfl
    have hnil := h.chunks_eq.trans hkept
    exact hne (List.append_eq_nil_iff.mp hnil.symm).2
  obtain ⟨init, p, rfl⟩ := (List.eq_nil_or_concat' plans).resolve_left hplans
  refine ⟨p, by simp, ?_⟩
  have hsplit : init.flatMap PackPlan.chunks ++ p.chunks = pre ++ tail := by
    rw [← hkept, ← h.chunks_eq, List.flatMap_append, List.flatMap_singleton]
  rcases List.append_eq_append_iff.mp hsplit with ⟨a, hpre, hchunks⟩ | ⟨a, _, htail⟩
  · rcases List.eq_nil_or_concat' a with rfl | ⟨before, c, rfl⟩
    · exact PackPlan.content_eq_nil_iff.mpr (by simpa [hchunks] using hempty)
    · -- the plan would hold a blob over the target and an empty one behind it
      have hlong : target < c.2.length := hlast c (by simp [hpre])
      have hle := PackPlan.le_content (p := p) (c := c) (by simp [hchunks])
      obtain ⟨_, d, hd, hcontent⟩ := (h.held p (by simp)).alone (by omega)
      obtain ⟨_, e, rfl⟩ := (List.eq_nil_or_concat' tail).resolve_left hne
      have hde : e = d := by
        have heq := congrArg List.getLast? (hchunks.symm.trans hd)
        simpa [← List.append_assoc] using heq
      rw [hcontent]
      exact hempty d (by simp [hde])
  · refine PackPlan.content_eq_nil_iff.mpr fun c hc => hempty c ?_
    rw [htail]
    exact List.mem_append_right a hc

theorem PackPlan.entry_of_mem {p : PackPlan} {c : String × Bytes} (h : c ∈ p.chunks) :
    ∃ loc, (c.1, loc) ∈ p.entries ∧ loc.packId = p.packId ∧
      loc.length = UInt32.ofNat c.2.length := by
  have hfst : (p.chunks.zip (rangesFrom 0 p.blobs)).map Prod.fst = p.chunks :=
    List.map_fst_zip (by simp [PackPlan.blobs])
  rw [← hfst] at h
  obtain ⟨⟨_, range⟩, hmem, rfl⟩ := List.mem_map.mp h
  obtain ⟨hlen, _, _⟩ := slice_of_mem_zip [] [] (PackPlan.mem_zip_blobs hmem)
  refine ⟨_, List.mem_map.mpr ⟨_, hmem, rfl⟩, rfl, ?_⟩
  exact congrArg UInt32.ofNat hlen

theorem PackedBy.mem_kept (h : PackedBy target kept ids plans set) {p : PackPlan}
    {c : String × Bytes} (hp : p ∈ plans) (hc : c ∈ p.chunks) : c ∈ kept :=
  h.chunks_eq ▸ List.mem_flatMap.mpr ⟨p, hp, hc⟩

theorem PackedBy.chunk_of_resolves (h : PackedBy target kept ids plans set)
    (hkeys : (kept.map Prod.fst).Nodup) (hids : ids.Nodup) (hres : Resolves kept set) {p : PackPlan}
    {c : String × Bytes} (hp : p ∈ plans) (hc : c ∈ p.chunks) :
    p.content ≠ [] ∧ c.2.length < 2 ^ 32 := by
  obtain ⟨loc, hloc, hid, hlen⟩ := PackPlan.entry_of_mem hc
  have hin : (c.1, loc) ∈ set.index := h.index_eq ▸ List.mem_flatMap.mpr ⟨p, hp, hloc⟩
  obtain ⟨b, hb, hbid, _, blob, hblob, hslice⟩ := hres c.1 loc hin
  obtain ⟨q, hq, hstores⟩ := (forall₂_covers h.stored).2 b hb
  obtain ⟨hq, hqne⟩ := List.mem_filter.mp hq
  have hplanIds : (plans.map PackPlan.packId).Nodup := h.ids_eq ▸ hids
  have hqp : q = p := by
    refine List.inj_on_of_nodup_map hplanIds hq hp ?_
    rw [← hstores.packId_eq, hbid, hid]
  have hsame : (c.1, blob) = c := List.inj_on_of_nodup_map hkeys hblob (h.mem_kept hp hc) rfl
  have hwhole : blob = c.2 := congrArg Prod.snd hsame
  have hshort := sliceChunk_length hslice
  rw [hlen, UInt32.toNat_ofNat'] at hshort
  refine ⟨hqp ▸ of_decide_eq_true hqne, ?_⟩
  rw [← hwhole, hshort]
  exact Nat.mod_lt _ (by decide)

theorem PackedBy.resolves (h : PackedBy target kept ids plans set) (ht : target < 2 ^ 64)
    (hids : ids.Nodup) (hlens : ∀ c ∈ kept, c.2.length < 2 ^ 32)
    (hfilled : ∀ p ∈ plans, p.content ≠ []) : Resolves kept set := by
  have hstored := h.stored
  have hall : plans.filter (fun p => decide (p.content ≠ [])) = plans :=
    List.filter_eq_self.mpr fun p hp => decide_eq_true (hfilled p hp)
  rw [hall] at hstored
  have hpackIds : (set.packs.map BuiltPack.packId).Nodup := stored_ids hstored ▸ h.ids_eq ▸ hids
  intro name loc hloc
  obtain ⟨p, hp, hentry⟩ := List.mem_flatMap.mp (h.index_eq ▸ hloc)
  obtain ⟨blob, range, hmem, hzip, rfl⟩ := PackPlan.mem_entries hentry
  obtain ⟨b, hb, hstores⟩ := (forall₂_covers hstored).1 p hp
  have hshort : ∀ c ∈ p.chunks, c.2.length < 2 ^ 32 := fun c hc => hlens c (h.mem_kept hp hc)
  have hslice := sliceChunk_stored hshort ((h.held p hp).content_lt ht hshort) hstores hzip
  refine ⟨b, hb, hstores.packId_eq, ?_, blob, h.mem_kept hp hmem, hslice⟩
  intro q hq heq
  exact List.inj_on_of_nodup_map hpackIds hq hb (heq.trans hstores.packId_eq.symm)

theorem PackedBy.resolves_iff (h : PackedBy target kept ids plans set) (ht : target < 2 ^ 64)
    (hkeys : (kept.map Prod.fst).Nodup) (hids : ids.Nodup) :
    Resolves kept set ↔
      (∀ c ∈ kept, c.2.length < 2 ^ 32) ∧ ∀ p ∈ plans, p.content ≠ [] := by
  constructor
  · intro hres
    constructor
    · intro c hc
      obtain ⟨p, hp, hcp⟩ := List.mem_flatMap.mp (h.chunks_eq ▸ hc)
      exact (h.chunk_of_resolves hkeys hids hres hp hcp).2
    · intro p hp
      obtain ⟨c, hc⟩ := List.exists_mem_of_ne_nil _ (h.held p hp).chunks_ne
      exact (h.chunk_of_resolves hkeys hids hres hp hc).1
  · rintro ⟨hlens, hfilled⟩
    exact h.resolves ht hids hlens hfilled

theorem packChunks_resolves_iff (rng : Rng σ) (s : σ) (batch : List (String × Bytes))
    (size : UInt64) (hids : (packIdsDrawn rng batch size s).Nodup) :
    ∃ set s', packChunks rng batch size s = .ok (set, s') ∧
      (Resolves (firsts (rng.shuffle s batch).1) set ↔
        (∀ c ∈ firsts (rng.shuffle s batch).1, c.2.length < 2 ^ 32) ∧
          ¬ Dangles (max size.toNat 1) (firsts (rng.shuffle s batch).1)) := by
  obtain ⟨set, s', plans, hrun, hpacked⟩ := packChunks_packedBy rng s batch size
  refine ⟨set, s', hrun, ?_⟩
  rw [hpacked.resolves_iff (target_lt size) (nodup_keys_firsts _) hids]
  refine and_congr_right fun _ => ?_
  constructor
  · intro hfilled hdangles
    obtain ⟨p, hp, hempty⟩ := hpacked.empty_of_dangles hdangles
    exact hfilled p hp hempty
  · intro hnone p hp hempty
    exact hnone (hpacked.dangles_of_empty hp hempty)

theorem packChunks_resolves_sample :
    ∃ set s', packChunks countingRng [("a", []), ("b", [1])] 2 0 = .ok (set, s') ∧
      Resolves [("b", [1]), ("a", [])] set := by
  have hids : (packIdsDrawn countingRng [("a", []), ("b", [1])] 2 0).Nodup := by decide +kernel
  obtain ⟨set, s', hrun, hiff⟩ :=
    packChunks_resolves_iff countingRng 0 [("a", []), ("b", [1])] 2 hids
  have hkept : firsts (countingRng.shuffle 0 [("a", []), ("b", [1])]).1 =
      ([("b", [1]), ("a", [])] : List (String × Bytes)) := by decide +kernel
  have htarget : max (2 : UInt64).toNat 1 = 2 := rfl
  rw [hkept, htarget] at hiff
  refine ⟨set, s', hrun, hiff.mpr ⟨by decide, ?_⟩⟩
  rintro ⟨pre, tail, hsplit, hne, hempty, hlast⟩
  match pre, hsplit with
  | [], hsplit =>
    have hb : ("b", [1]) ∈ tail := by simp [← List.nil_append tail ▸ hsplit]
    cases hempty _ hb
  | [c], hsplit =>
    have hc : ("b", [1]) = c := (List.cons.inj hsplit).1
    have hlong := hlast c rfl
    rw [← hc] at hlong
    exact absurd hlong (by decide)
  | _ :: _ :: _, hsplit =>
    have htail := (List.cons.inj (List.cons.inj hsplit).2).2
    exact hne (List.append_eq_nil_iff.mp htail.symm).2

theorem packChunks_dangling_entry :
    ∃ set s', packChunks countingRng [("a", [])] 1 0 = .ok (set, s') ∧
      (packIdsDrawn countingRng [("a", [])] 1 0).Nodup ∧
      ¬ Resolves (firsts (countingRng.shuffle 0 [("a", [])]).1) set := by
  refine ⟨⟨[], [("a", ⟨hexEncode (List.replicate 32 1), 0, 0⟩)]⟩,
    2, by decide +kernel, by decide +kernel, ?_⟩
  intro hres
  obtain ⟨p, hp, _⟩ := hres "a" _ (List.mem_singleton_self _)
  cases hp

end GitCellar
