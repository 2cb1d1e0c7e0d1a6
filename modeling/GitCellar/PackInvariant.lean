import GitCellar.PackPlan
import Mathlib.Data.List.Chain
import Mathlib.Data.List.Forall2
import Mathlib.Data.List.Nodup

/-! The pack loop follows its plans whatever the blobs are, so a batch of sealed chunks
comes out well packed. -/

namespace GitCellar

open Loops Tiling

variable {σ : Type} {rng : Rng σ} {target : Nat} {t : Packing σ}
variable {done : List (String × Bytes)} {shut : List PackPlan} {filling : Option PackPlan}

/-- The step draws a pack id: no pack is open, or the open one is sealed first. -/
def Packing.opens (target : Nat) (t : Packing σ) (c : String × Bytes) : Bool :=
  c.1 ∉ t.seen ∧ (t.curId = none ∨ t.curBytes ≠ [] ∧ target < t.curBytes.length + c.2.length)

/-- The pack ids the loop draws, in order, also one no returned pack carries. -/
def Packing.drawnIds (rng : Rng σ) (target : Nat) (t : Packing σ) :
    List (String × Bytes) → List String
  | [] => []
  | c :: chunks =>
    match Packing.add rng target t c with
    | .error _ => []
    | .ok u => (if t.opens target c then u.curId.toList else []) ++ u.drawnIds rng target chunks

/-- `p` was opened because its first blob no longer fitted into `q`. -/
def PackPlan.Overflows (target : Nat) (q p : PackPlan) : Prop :=
  ∃ c rest, p.chunks = c :: rest ∧ target < q.content.length + c.2.length

/-- After the chunks `done`: the plans `shut` are packed, `filling` is being filled. -/
structure Packing.Follows (target : Nat) (done : List (String × Bytes)) (shut : List PackPlan)
    (filling : Option PackPlan) (t : Packing σ) : Prop where
  held : ∀ p ∈ shut ++ filling.toList, p.Held target
  filled : ∀ p ∈ shut, p.content ≠ []
  chained : (shut ++ filling.toList).IsChain (PackPlan.Overflows target)
  chunks_eq : (shut ++ filling.toList).flatMap PackPlan.chunks = firsts done
  index_eq : t.index = (shut ++ filling.toList).flatMap PackPlan.entries
  stored : List.Forall₂ PackPlan.Stores shut t.packs
  curId_eq : t.curId = filling.map PackPlan.packId
  curBytes_eq : t.curBytes = (filling.map PackPlan.content).getD []
  seen_iff : ∀ name, name ∈ t.seen ↔ name ∈ done.map Prod.fst

theorem Packing.follows_start (target : Nat) (s : σ) :
    (Packing.start s).Follows target [] [] none where
  held := by simp
  filled := by simp
  chained := .nil
  chunks_eq := rfl
  index_eq := rfl
  stored := .nil
  curId_eq := rfl
  curBytes_eq := rfl
  seen_iff := by simp [Packing.start]

theorem stores_padPack (rng : Rng σ) (p : PackPlan) (s : σ) :
    p.Stores ⟨p.packId, (padPack rng p.content .default s).1⟩ :=
  PackPlan.stores_of_bytes (padPack_spec rng p.content .default s)

theorem Packing.Follows.push {p : PackPlan} {padded : Bytes × σ}
    (h : t.Follows target done shut (some p)) (hne : p.content ≠ [])
    (hstores : p.Stores ⟨p.packId, padded.1⟩) :
    (t.push p.packId padded).Follows target done (shut ++ [p]) none where
  held := by simpa using h.held
  filled := by
    intro q hq
    rcases List.mem_append.mp hq with hq | hq
    · exact h.filled q hq
    · obtain rfl := List.mem_singleton.mp hq
      exact hne
  chained := by simpa using h.chained
  chunks_eq := by simpa using h.chunks_eq
  index_eq := by simpa [Packing.push] using h.index_eq
  stored := List.rel_append h.stored (.cons hstores .nil)
  curId_eq := rfl
  curBytes_eq := rfl
  seen_iff := h.seen_iff

theorem Packing.Follows.sealOpen (rng : Rng σ) {p : PackPlan}
    (h : t.Follows target done shut (some p)) (hne : p.content ≠ []) :
    ∃ u : Packing σ, u.Follows target done (shut ++ [p]) none ∧ u.seen = t.seen ∧
      ∀ names, Packing.sealOpen rng { t with seen := names } = .ok { u with seen := names } := by
  have hid : t.curId = some p.packId := h.curId_eq
  have hbytes : t.curBytes = p.content := h.curBytes_eq
  obtain ⟨padded, hpad⟩ : ∃ padded, padPack rng t.curBytes .default t.rng = padded := ⟨_, rfl⟩
  have hstores := stores_padPack rng p t.rng
  rw [← hbytes, hpad] at hstores
  have hseal : ∀ names, Packing.sealOpen rng { t with seen := names } =
      .ok (Packing.push { t with seen := names } p.packId padded) := by
    intro names
    simp only [Packing.sealOpen, hid, hpad]
  exact ⟨t.push p.packId padded, h.push hne hstores, rfl, hseal⟩

theorem Packing.Follows.flush (rng : Rng σ) (h : t.Follows target done shut filling) :
    (t.flush rng).index = t.index ∧
      List.Forall₂ PackPlan.Stores ((shut ++ filling.toList).filter fun p => p.content ≠ [])
        (t.flush rng).packs := by
  have hshut : shut.filter (fun p => decide (p.content ≠ [])) = shut :=
    List.filter_eq_self.mpr fun p hp => decide_eq_true (h.filled p hp)
  rw [List.filter_append, hshut]
  cases filling with
  | none =>
    have hid : t.curId = none := h.curId_eq
    simpa [Packing.flush, hid] using h.stored
  | some p =>
    have hid : t.curId = some p.packId := h.curId_eq
    have hbytes : t.curBytes = p.content := h.curBytes_eq
    by_cases hempty : p.content = []
    · simpa [Packing.flush, hid, hbytes, hempty] using h.stored
    · have hpushed := h.push hempty (stores_padPack rng p t.rng)
      simp only [Packing.flush, hid, hbytes, hempty, if_false]
      refine ⟨rfl, ?_⟩
      simpa [hempty] using hpushed.stored

theorem Packing.Follows.seen_cons {name : String} {blob : Bytes}
    (h : t.Follows target done shut filling) (n : String) :
    n ∈ name :: t.seen ↔ n ∈ (done ++ [(name, blob)]).map Prod.fst := by
  have hn := h.seen_iff n
  simp only [List.mem_cons, hn, List.map_append, List.map_cons, List.map_nil, List.mem_append,
    List.not_mem_nil, or_false]
  exact or_comm

theorem Packing.Follows.place_open (rng : Rng σ) {name : String} {blob : Bytes}
    (h : t.Follows target done shut none) (hnew : name ∉ done.map Prod.fst)
    (hlink : ∀ q ∈ shut.getLast?, target < q.content.length + blob.length) :
    Packing.Follows target (done ++ [(name, blob)]) shut
      (some ⟨(randomPackId rng t.rng).1, [(name, blob)]⟩)
      ({ t with seen := name :: t.seen }.place rng name blob) := by
  have hid : t.curId = none := h.curId_eq
  have hbytes : t.curBytes = [] := h.curBytes_eq
  have hkept : firsts (done ++ [(name, blob)]) = firsts done ++ [(name, blob)] :=
    firsts_append_new fun hk => hnew ((keys_firsts done name).mp hk)
  exact {
    held := by
      intro p hp
      rcases List.mem_append.mp hp with hp | hp
      · exact h.held p (by simp [hp])
      · obtain rfl := List.mem_singleton.mp hp
        exact PackPlan.held_one
    filled := h.filled
    chained := by
      have hchain := h.chained
      rw [Option.toList_none, List.append_nil] at hchain
      refine hchain.append (List.isChain_singleton _) fun q hq p hp => ?_
      obtain rfl : _ = p := by simpa using hp
      exact ⟨(name, blob), [], rfl, hlink q hq⟩
    chunks_eq := by
      have hc := h.chunks_eq
      simp only [Option.toList_none, List.append_nil] at hc
      simp [hkept, hc]
    index_eq := by
      have hi := h.index_eq
      simp only [Option.toList_none, List.append_nil] at hi
      simp [Packing.place, hid, hbytes, hi, PackPlan.entries, PackPlan.entry, PackPlan.blobs,
        rangesFrom]
    stored := h.stored
    curId_eq := by simp [Packing.place, hid]
    curBytes_eq := by simp [Packing.place, hbytes, PackPlan.content, PackPlan.blobs]
    seen_iff := h.seen_cons }

theorem Packing.Follows.place_onto (rng : Rng σ) {name : String} {blob : Bytes} {p : PackPlan}
    (h : t.Follows target done shut (some p)) (hnew : name ∉ done.map Prod.fst)
    (hroom : p.content ≠ [] → p.content.length + blob.length ≤ target) :
    Packing.Follows target (done ++ [(name, blob)]) shut (some (p.snoc (name, blob)))
      ({ t with seen := name :: t.seen }.place rng name blob) := by
  have hid : t.curId = some p.packId := h.curId_eq
  have hbytes : t.curBytes = p.content := h.curBytes_eq
  have hkept : firsts (done ++ [(name, blob)]) = firsts done ++ [(name, blob)] :=
    firsts_append_new fun hk => hnew ((keys_firsts done name).mp hk)
  exact {
    held := by
      intro q hq
      rcases List.mem_append.mp hq with hq | hq
      · exact h.held q (by simp [hq])
      · obtain rfl := List.mem_singleton.mp hq
        exact PackPlan.held_snoc hroom
    filled := h.filled
    chained := by
      obtain ⟨hshut, _, hlink⟩ := List.isChain_append.mp h.chained
      refine hshut.append (List.isChain_singleton _) fun q hq r hr => ?_
      obtain rfl : p.snoc (name, blob) = r := by simpa using hr
      obtain ⟨c, rest, hchunks, hover⟩ := hlink q hq p (by simp)
      exact ⟨c, rest ++ [(name, blob)], by simp [PackPlan.snoc, hchunks], hover⟩
    chunks_eq := by
      have hc := h.chunks_eq
      simp only [Option.toList_some, List.flatMap_append, List.flatMap_singleton] at hc ⊢
      rw [hkept, ← hc, List.append_assoc]
      rfl
    index_eq := by
      have hi := h.index_eq
      simp only [Option.toList_some, List.flatMap_append, List.flatMap_singleton] at hi ⊢
      simp only [Packing.place, hid, hbytes, hi, PackPlan.entries_snoc, List.append_assoc]
    stored := h.stored
    curId_eq := by simp [Packing.place, hid, PackPlan.snoc]
    curBytes_eq := by simp [Packing.place, hbytes]
    seen_iff := h.seen_cons }

section

variable {name : String} {blob : Bytes}

theorem Packing.Follows.add_seen (rng : Rng σ) (h : t.Follows target done shut filling)
    (blob : Bytes) (hold : name ∈ t.seen) : Packing.add rng target t (name, blob) = .ok t ∧
      t.Follows target (done ++ [(name, blob)]) shut filling := by
  have hdone : name ∈ done.map Prod.fst := (h.seen_iff name).mp hold
  constructor
  · simp only [Packing.add, hold, if_true]
  · exact { h with
      chunks_eq := by
        rw [h.chunks_eq, firsts_append_one, if_pos ((keys_firsts done name).mpr hdone)]
      seen_iff := by
        intro n
        simp only [h.seen_iff, List.map_append, List.map_cons, List.map_nil, List.mem_append,
          List.mem_singleton]
        exact ⟨.inl, fun hn => hn.elim id fun he => he ▸ hdone⟩ }

theorem Packing.Follows.add_first (rng : Rng σ) (h : t.Follows target done [] none)
    (hnew : name ∉ t.seen) : ∃ u p, Packing.add rng target t (name, blob) = .ok u ∧
      u.Follows target (done ++ [(name, blob)]) [] (some p) := by
  have hbytes : t.curBytes = [] := h.curBytes_eq
  have hlink : ∀ q ∈ ([] : List PackPlan).getLast?, target < q.content.length + blob.length := by
    simp
  refine ⟨_, _, ?_, h.place_open rng (fun hd => hnew ((h.seen_iff name).mpr hd)) hlink⟩
  simp only [Packing.add, hnew, hbytes, if_false, ne_eq, not_true_eq_false, false_and]
  rfl

theorem Packing.Follows.add_over (rng : Rng σ) {p : PackPlan}
    (h : t.Follows target done shut (some p)) (hnew : name ∉ t.seen)
    (hover : t.curBytes ≠ [] ∧ target < t.curBytes.length + blob.length) :
    ∃ u q, Packing.add rng target t (name, blob) = .ok u ∧
      u.Follows target (done ++ [(name, blob)]) (shut ++ [p]) (some q) := by
  have hbytes : t.curBytes = p.content := h.curBytes_eq
  obtain ⟨u, hfol, hseen, hseal⟩ := h.sealOpen rng (hbytes ▸ hover.1)
  have hlink : ∀ q ∈ (shut ++ [p]).getLast?, target < q.content.length + blob.length := by
    intro q hq
    obtain rfl : p = q := by simpa using hq
    exact hbytes ▸ hover.2
  refine ⟨_, _, ?_, hfol.place_open rng (fun hd => hnew ((h.seen_iff name).mpr hd)) hlink⟩
  simp only [Packing.add, hnew, if_false, if_pos hover, hseal, hseen]
  rfl

theorem Packing.Follows.add_onto (rng : Rng σ) {p : PackPlan}
    (h : t.Follows target done shut (some p)) (hnew : name ∉ t.seen)
    (hroom : ¬ (t.curBytes ≠ [] ∧ target < t.curBytes.length + blob.length)) :
    ∃ u, Packing.add rng target t (name, blob) = .ok u ∧
      u.Follows target (done ++ [(name, blob)]) shut (some (p.snoc (name, blob))) := by
  have hbytes : t.curBytes = p.content := h.curBytes_eq
  have hfits : p.content ≠ [] → p.content.length + blob.length ≤ target := by
    intro hne
    by_contra hlt
    rw [hbytes] at hroom
    exact hroom ⟨hne, by omega⟩
  refine ⟨_, ?_, h.place_onto rng (fun hd => hnew ((h.seen_iff name).mpr hd)) hfits⟩
  simp only [Packing.add, hnew, if_false, hroom]
  rfl

end

theorem Packing.Follows.add (rng : Rng σ) (h : t.Follows target done shut filling)
    (hstart : filling = none → shut = []) (c : String × Bytes) :
    ∃ u shut' filling', Packing.add rng target t c = .ok u ∧
      u.Follows target (done ++ [c]) shut' filling' ∧ (filling' = none → shut' = []) ∧
      (shut' ++ filling'.toList).map PackPlan.packId =
      (shut ++ filling.toList).map PackPlan.packId ++
        (if t.opens target c then u.curId.toList else []) := by
  obtain ⟨name, blob⟩ := c
  by_cases hold : name ∈ t.seen
  · obtain ⟨hadd, hu⟩ := h.add_seen rng blob hold
    exact ⟨t, shut, filling, hadd, hu, hstart, by simp [Packing.opens, hold]⟩
  · cases filling with
    | none =>
      obtain rfl := hstart rfl
      obtain ⟨u, p, hadd, hu⟩ := h.add_first rng hold
      have hopens : t.opens target (name, blob) = true := decide_eq_true ⟨hold, .inl h.curId_eq⟩
      refine ⟨u, [], some p, hadd, hu, by simp, ?_⟩
      rw [if_pos hopens, hu.curId_eq]
      rfl
    | some p =>
      by_cases hover : t.curBytes ≠ [] ∧ target < t.curBytes.length + blob.length
      · obtain ⟨u, q, hadd, hu⟩ := h.add_over rng hold hover
        have hopens : t.opens target (name, blob) = true := decide_eq_true ⟨hold, .inr hover⟩
        refine ⟨u, shut ++ [p], some q, hadd, hu, by simp, ?_⟩
        rw [if_pos hopens, hu.curId_eq]
        simp
      · obtain ⟨u, hadd, hu⟩ := h.add_onto rng hold hover
        have hopens : ¬ t.opens target (name, blob) = true := by
          intro ho
          have hid : t.curId = some p.packId := h.curId_eq
          rcases (of_decide_eq_true ho).2 with hnone | hseal
          · rw [hid] at hnone
            cases hnone
          · exact hover hseal
        refine ⟨u, shut, some (p.snoc (name, blob)), hadd, hu, by simp, ?_⟩
        rw [if_neg hopens]
        simp [PackPlan.snoc]

theorem Packing.Follows.run (rng : Rng σ) (h : t.Follows target done shut filling)
    (hstart : filling = none → shut = []) (chunks : List (String × Bytes)) :
    ∃ u shut' filling', chunks.foldlM (Packing.add rng target) t = .ok u ∧
      u.Follows target (done ++ chunks) shut' filling' ∧
      (shut' ++ filling'.toList).map PackPlan.packId =
        (shut ++ filling.toList).map PackPlan.packId ++ t.drawnIds rng target chunks := by
  induction chunks generalizing t done shut filling with
  | nil => exact ⟨t, shut, filling, rfl, by simpa using h, by simp [Packing.drawnIds]⟩
  | cons c chunks ih =>
    obtain ⟨u, shut', filling', hadd, hu, hstart', hids⟩ := h.add rng hstart c
    obtain ⟨v, shut'', filling'', hrun, hv, hids'⟩ := ih hu hstart'
    refine ⟨v, shut'', filling'', ?_, by simpa using hv, ?_⟩
    · rw [List.foldlM_cons, hadd]
      exact hrun
    · rw [hids', hids, Packing.drawnIds, hadd, List.append_assoc]

/-- The plans a batch is packed by. The last one may have no content: its chunks are
in the index, and no pack is returned for it. -/
structure PackedBy (target : Nat) (kept : List (String × Bytes)) (ids : List String)
    (plans : List PackPlan) (set : PackSet) : Prop where
  held : ∀ p ∈ plans, p.Held target
  filled : ∀ p ∈ plans.dropLast, p.content ≠ []
  chained : plans.IsChain (PackPlan.Overflows target)
  chunks_eq : plans.flatMap PackPlan.chunks = kept
  ids_eq : plans.map PackPlan.packId = ids
  index_eq : set.index = plans.flatMap PackPlan.entries
  stored : List.Forall₂ PackPlan.Stores (plans.filter fun p => p.content ≠ []) set.packs

def packIdsDrawn (rng : Rng σ) (chunks : List (String × Bytes)) (targetPackSize : UInt64) (s : σ) :
    List String :=
  let (chunks, s) := rng.shuffle s chunks
  (Packing.start s).drawnIds rng (max targetPackSize.toNat 1) chunks

theorem packChunks_packedBy (rng : Rng σ) (s : σ) (batch : List (String × Bytes)) (size : UInt64) :
    ∃ set s' plans, packChunks rng batch size s = .ok (set, s') ∧
      PackedBy (max size.toNat 1) (firsts (rng.shuffle s batch).1) (packIdsDrawn rng batch size s)
        plans set := by
  obtain ⟨u, shut, filling, hrun, hu, hids⟩ :=
    (Packing.follows_start (max size.toNat 1) (rng.shuffle s batch).2).run rng (fun _ => rfl)
      (rng.shuffle s batch).1
  obtain ⟨hindex, hstored⟩ := hu.flush rng
  refine ⟨⟨(u.flush rng).packs, (u.flush rng).index⟩, (u.flush rng).rng,
    shut ++ filling.toList, ?_, ?_⟩
  · simp only [packChunks, hrun]
    rfl
  · exact {
      held := hu.held
      filled := by
        intro p hp
        refine hu.filled p ?_
        cases filling with
        | none => exact List.dropLast_subset shut (by simpa using hp)
        | some q => simpa using hp
      chained := hu.chained
      chunks_eq := by simpa using hu.chunks_eq
      ids_eq := hids
      index_eq := hindex.trans hu.index_eq
      stored := hstored }

theorem packChunks_plans (rng : Rng σ) (s : σ) (batch : List (String × Bytes)) (size : UInt64)
    (hblobs : ∀ c ∈ batch, c.2 ≠ [] ∧ c.2.length < 2 ^ 32) :
    ∃ set s' plans, packChunks rng batch size s = .ok (set, s') ∧
      (∀ p ∈ plans, p.Fits (max size.toNat 1)) ∧
      plans.flatMap PackPlan.chunks = firsts (rng.shuffle s batch).1 ∧
      set.index = plans.flatMap PackPlan.entries ∧
      List.Forall₂ PackPlan.Stores plans set.packs := by
  obtain ⟨set, s', plans, hrun, hpacked⟩ := packChunks_packedBy rng s batch size
  have hfits : ∀ p ∈ plans, p.Fits (max size.toNat 1) := by
    intro p hp
    refine (hpacked.held p hp).fits fun c hc => hblobs c ?_
    have hkept : c ∈ firsts (rng.shuffle s batch).1 :=
      hpacked.chunks_eq ▸ List.mem_flatMap.mpr ⟨p, hp, hc⟩
    exact (rng.shuffle_perm s batch).mem_iff.mp (mem_of_mem_firsts hkept)
  have hfilled : plans.filter (fun p => decide (p.content ≠ [])) = plans :=
    List.filter_eq_self.mpr fun p hp => decide_eq_true (hfits p hp).content_ne
  exact ⟨set, s', plans, hrun, hfits, hpacked.chunks_eq, hpacked.index_eq, hfilled ▸ hpacked.stored⟩

def PackSet.entriesOf (set : PackSet) (p : BuiltPack) : List (String × PackLocation) :=
  set.index.filter fun e => e.2.packId = p.packId

def PackLocation.range (loc : PackLocation) : Nat × Nat := (loc.offset.toNat, loc.length.toNat)

def PackSet.rangesOf (set : PackSet) (p : BuiltPack) : List (Nat × Nat) :=
  (set.entriesOf p).map fun e => e.2.range

def PackSet.contentLength (set : PackSet) (p : BuiltPack) : Nat :=
  ((set.rangesOf p).map Prod.snd).sum

structure WellPacked (target : Nat) (batch : List (String × Bytes)) (set : PackSet) : Prop where
  names_nodup : (set.index.map Prod.fst).Nodup
  names_iff : ∀ name, name ∈ set.index.map Prod.fst ↔ name ∈ batch.map Prod.fst
  located : ∀ name loc, (name, loc) ∈ set.index →
    ∃ p ∈ set.packs, p.packId = loc.packId ∧ (∀ q ∈ set.packs, q.packId = loc.packId → q = p) ∧
      ∃ blob, (name, blob) ∈ batch ∧ sliceChunk p.bytes loc = .ok blob
  tiles : ∀ p ∈ set.packs, Tiles 0 (set.rangesOf p) (set.contentLength p)
  padded : ∀ p ∈ set.packs, p.bytes.length = PadLadder.default.stepFor (set.contentLength p)
  nonempty : ∀ p ∈ set.packs, 0 < set.contentLength p
  single : ∀ p ∈ set.packs, target < set.contentLength p → (set.entriesOf p).length = 1

theorem entriesOf_plan {plans : List PackPlan} (hids : (plans.map PackPlan.packId).Nodup)
    {p : PackPlan} (hp : p ∈ plans) :
    (plans.flatMap PackPlan.entries).filter (fun e => e.2.packId = p.packId) = p.entries := by
  induction plans with
  | nil => cases hp
  | cons q plans ih =>
    have hall : ∀ {r : PackPlan}, r.entries.filter (fun e => e.2.packId = r.packId) =
        r.entries := by
      intro r
      refine List.filter_eq_self.mpr fun e he => ?_
      exact decide_eq_true (PackPlan.mem_entries_packId he)
    have hnone : ∀ {r : PackPlan}, r.packId ≠ p.packId →
        r.entries.filter (fun e => e.2.packId = p.packId) = [] := by
      intro r hne
      refine List.filter_eq_nil_iff.mpr fun e he => ?_
      rw [PackPlan.mem_entries_packId he]
      simpa using hne
    obtain ⟨hfresh, hrest⟩ := List.nodup_cons.mp hids
    rw [List.flatMap_cons, List.filter_append]
    rcases List.mem_cons.mp hp with rfl | hmem
    · have htail : (plans.flatMap PackPlan.entries).filter (fun e => e.2.packId = p.packId) =
          [] := by
        refine List.filter_eq_nil_iff.mpr fun e he => ?_
        obtain ⟨r, hr, her⟩ := List.mem_flatMap.mp he
        rw [PackPlan.mem_entries_packId her]
        have hne : r.packId ≠ p.packId := fun heq => hfresh (heq ▸ List.mem_map_of_mem hr)
        simpa using hne
      rw [hall, htail, List.append_nil]
    · have hne : q.packId ≠ p.packId := fun heq => hfresh (heq ▸ List.mem_map_of_mem hmem)
      rw [hnone hne, List.nil_append, ih hrest hmem]

theorem ranges_plan {p : PackPlan} (hp : p.Fits target) (ht : target < 2 ^ 64) :
    p.entries.map (fun e => e.2.range) = rangesFrom 0 p.blobs := by
  have hkeep : ∀ placed ∈ p.chunks.zip (rangesFrom 0 p.blobs),
      (p.entry placed).2.range = placed.2 := by
    intro placed h
    obtain ⟨_, hoff, hlen⟩ := PackPlan.range_bounds (fun c hc => (hp.blob_ok c hc).2)
      (hp.content_lt ht) (PackPlan.mem_zip_blobs h)
    simp only [PackPlan.entry, PackLocation.range, UInt64.toNat_ofNat', UInt32.toNat_ofNat',
      Nat.mod_eq_of_lt hoff, Nat.mod_eq_of_lt hlen]
  rw [PackPlan.entries, List.map_map]
  calc (p.chunks.zip (rangesFrom 0 p.blobs)).map ((fun e => e.2.range) ∘ p.entry)
      = (p.chunks.zip (rangesFrom 0 p.blobs)).map Prod.snd := List.map_congr_left hkeep
    _ = rangesFrom 0 p.blobs := List.map_snd_zip (by simp [PackPlan.blobs])

theorem sliceChunk_inside {bytes : Bytes} {loc : PackLocation}
    (hbytes : loc.offset.toNat + loc.length.toNat ≤ bytes.length)
    (hmax : loc.offset.toNat + loc.length.toNat ≤ usizeMax) :
    sliceChunk bytes loc =
      .ok ((bytes.take (loc.offset.toNat + loc.length.toNat)).drop loc.offset.toNat) := by
  simp only [sliceChunk, byteRange]
  rw [if_neg (by omega), if_neg (by omega), if_neg (by omega), if_pos (by omega)]

theorem sliceChunk_length {bytes blob : Bytes} {loc : PackLocation}
    (h : sliceChunk bytes loc = .ok blob) : blob.length = loc.length.toNat := by
  simp only [sliceChunk] at h
  obtain ⟨_, h⟩ := of_ite_error h
  obtain ⟨_, h⟩ := of_ite_error h
  obtain ⟨hbytes, h⟩ := of_ite_error h
  rw [byteRange, if_pos ⟨by omega, by omega⟩] at h
  rw [← Except.ok.inj h, List.length_drop, List.length_take]
  omega

theorem sliceChunk_stored {p : PackPlan} {b : BuiltPack}
    (hlens : ∀ c ∈ p.chunks, c.2.length < 2 ^ 32) (hcontent : p.content.length < 2 ^ 64)
    (hb : p.Stores b) {blob : Bytes} {range : Nat × Nat}
    (h : (blob, range) ∈ p.blobs.zip (rangesFrom 0 p.blobs)) :
    sliceChunk b.bytes ⟨p.packId, UInt64.ofNat range.1, UInt32.ofNat range.2⟩ = .ok blob := by
  obtain ⟨filler, hfiller⟩ := hb.content_prefix
  obtain ⟨_, hle, hcut⟩ := slice_of_mem_zip [] filler h
  obtain ⟨hstop, hoff, hlen⟩ := PackPlan.range_bounds hlens hcontent h
  have hoff' : (UInt64.ofNat range.1).toNat = range.1 := by
    rw [UInt64.toNat_ofNat', Nat.mod_eq_of_lt hoff]
  have hlen' : (UInt32.ofNat range.2).toNat = range.2 := by
    rw [UInt32.toNat_ofNat', Nat.mod_eq_of_lt hlen]
  have hbytes : range.1 + range.2 ≤ b.bytes.length := by
    rw [← hfiller, List.length_append]
    omega
  rw [sliceChunk_inside (by simpa only [hoff', hlen'] using hbytes)
    (by simp only [hoff', hlen', usizeMax]; omega)]
  simp only [hoff', hlen', ← hfiller]
  exact congrArg Except.ok hcut

theorem stored_ids {plans : List PackPlan} {packs : List BuiltPack}
    (h : List.Forall₂ PackPlan.Stores plans packs) :
    packs.map BuiltPack.packId = plans.map PackPlan.packId := by
  induction h with
  | nil => rfl
  | cons hb _ ih => rw [List.map_cons, List.map_cons, hb.packId_eq, ih]

section

variable {set : PackSet} {plans : List PackPlan} {p : PackPlan} {b : BuiltPack}

/-- Distinct pack ids tell the plans apart: a pack's entries are its plan's. -/
theorem entriesOf_stored (hindex : set.index = plans.flatMap PackPlan.entries)
    (hplanIds : (plans.map PackPlan.packId).Nodup) (hp : p ∈ plans) (hb : p.Stores b) :
    set.entriesOf b = p.entries := by
  rw [PackSet.entriesOf, hindex, hb.packId_eq]
  exact entriesOf_plan hplanIds hp

theorem rangesOf_stored (hindex : set.index = plans.flatMap PackPlan.entries)
    (hplanIds : (plans.map PackPlan.packId).Nodup) (ht : target < 2 ^ 64) (hfits : p.Fits target)
    (hp : p ∈ plans) (hb : p.Stores b) : set.rangesOf b = rangesFrom 0 p.blobs := by
  rw [PackSet.rangesOf, entriesOf_stored hindex hplanIds hp hb, ranges_plan hfits ht]

theorem contentLength_stored (hranges : set.rangesOf b = rangesFrom 0 p.blobs) :
    set.contentLength b = p.content.length := by
  have htiles := (tiles_rangesFrom 0 p.blobs).stop_eq
  rw [PackSet.contentLength, hranges, PackPlan.content]
  omega

theorem index_names {chunks : List (String × Bytes)}
    (hchunks : plans.flatMap PackPlan.chunks = firsts chunks)
    (hindex : set.index = plans.flatMap PackPlan.entries) :
    set.index.map Prod.fst = (firsts chunks).map Prod.fst := by
  rw [hindex, ← hchunks, List.map_flatMap, List.map_flatMap]
  exact List.flatMap_congr fun p _ => p.entries_names

theorem wellPacked_of_plans {batch chunks : List (String × Bytes)} (ht : target < 2 ^ 64)
    (hperm : chunks.Perm batch) (hfits : ∀ p ∈ plans, p.Fits target)
    (hchunks : plans.flatMap PackPlan.chunks = firsts chunks)
    (hindex : set.index = plans.flatMap PackPlan.entries)
    (hstored : List.Forall₂ PackPlan.Stores plans set.packs)
    (hids : (set.packs.map BuiltPack.packId).Nodup) : WellPacked target batch set := by
  have hplanIds : (plans.map PackPlan.packId).Nodup := stored_ids hstored ▸ hids
  have hnames := index_names hchunks hindex
  have hranges : ∀ {p b}, p ∈ plans → p.Stores b → set.rangesOf b = rangesFrom 0 p.blobs :=
    fun hp hb => rangesOf_stored hindex hplanIds ht (hfits _ hp) hp hb
  have hlength : ∀ {p b}, p ∈ plans → p.Stores b → set.contentLength b = p.content.length :=
    fun hp hb => contentLength_stored (hranges hp hb)
  exact {
    names_nodup := hnames ▸ nodup_keys_firsts chunks
    names_iff := by
      intro name
      rw [hnames, keys_firsts, (hperm.map Prod.fst).mem_iff]
    located := by
      intro name loc hloc
      obtain ⟨p, hp, hentry⟩ := List.mem_flatMap.mp (hindex ▸ hloc)
      obtain ⟨blob, range, hchunk, hzip, rfl⟩ := PackPlan.mem_entries hentry
      obtain ⟨b, hb, hs⟩ := (forall₂_covers hstored).1 p hp
      have hslice := sliceChunk_stored (fun c hc => ((hfits p hp).blob_ok c hc).2)
        ((hfits p hp).content_lt ht) hs hzip
      refine ⟨b, hb, hs.packId_eq, ?_, blob, ?_, hslice⟩
      · intro q hq heq
        exact List.inj_on_of_nodup_map hids hq hb (heq.trans hs.packId_eq.symm)
      · have hfirst : (name, blob) ∈ firsts chunks := hchunks ▸ List.mem_flatMap.mpr ⟨p, hp, hchunk⟩
        exact hperm.mem_iff.mp (mem_of_mem_firsts hfirst)
    tiles := by
      intro b hb
      obtain ⟨p, hp, hs⟩ := (forall₂_covers hstored).2 b hb
      have htiles := tiles_rangesFrom 0 p.blobs
      rw [hranges hp hs, hlength hp hs]
      rwa [Nat.zero_add] at htiles
    padded := by
      intro b hb
      obtain ⟨p, hp, hs⟩ := (forall₂_covers hstored).2 b hb
      rw [hlength hp hs, hs.length_eq]
    nonempty := by
      intro b hb
      obtain ⟨p, hp, hs⟩ := (forall₂_covers hstored).2 b hb
      rw [hlength hp hs]
      exact List.length_pos_iff.mpr (hfits p hp).content_ne
    single := by
      intro b hb hover
      obtain ⟨p, hp, hs⟩ := (forall₂_covers hstored).2 b hb
      rw [hlength hp hs] at hover
      rw [entriesOf_stored hindex hplanIds hp hs, PackPlan.entries, List.length_map,
        List.length_zip, length_rangesFrom]
      simpa [PackPlan.blobs] using (hfits p hp).single hover }

end

theorem target_lt (size : UInt64) : max size.toNat 1 < 2 ^ 64 := by
  have hsize := size.toNat_lt
  omega

theorem packChunks_wellPacked (rng : Rng σ) (s : σ) (batch : List (String × Bytes)) (size : UInt64)
    (hblobs : ∀ c ∈ batch, c.2 ≠ [] ∧ c.2.length < 2 ^ 32) :
    ∃ set s', packChunks rng batch size s = .ok (set, s') ∧
      ((set.packs.map BuiltPack.packId).Nodup → WellPacked (max size.toNat 1) batch set) := by
  obtain ⟨set, s', plans, hrun, hfits, hchunks, hindex, hstored⟩ :=
    packChunks_plans rng s batch size hblobs
  exact ⟨set, s', hrun,
    wellPacked_of_plans (target_lt size) (rng.shuffle_perm s batch) hfits hchunks
    hindex hstored⟩

/-- Fills with a counter and shuffles by reversing. -/
def countingRng : Rng Nat where
  fillBytes s n := (List.replicate n (UInt8.ofNat s), s + 1)
  length_fillBytes := by simp
  shuffle s xs := (xs.reverse, s + 1)
  shuffle_perm _ xs := List.reverse_perm xs

theorem stepFor_below_floor {n : Nat} (h : n ≤ padLadderFloor) :
    PadLadder.default.stepFor n = padLadderFloor := by
  have hfloor : max PadLadder.default.floor 1 = padLadderFloor := rfl
  rw [PadLadder.stepFor, hfloor, PadLadder.stepFrom, if_neg (by omega)]

theorem padPack_floor {b : Bytes} (h : b.length < padLadderFloor) (s : Nat) :
    padPack countingRng b .default s =
      (b ++ List.replicate (padLadderFloor - b.length) (UInt8.ofNat s), s + 1) := by
  have hstep := stepFor_below_floor h.le
  simp only [padPack, hstep, h, if_true, countingRng]

theorem packChunks_wellPacked_sample :
    ∃ set s', packChunks countingRng [("a", [1]), ("b", [2, 3]), ("a", [1])] 2 0 = .ok (set, s') ∧
      (set.packs.map BuiltPack.packId).Nodup ∧
      WellPacked 2 [("a", [1]), ("b", [2, 3]), ("a", [1])] set := by
  obtain ⟨set, s', hrun, hwell⟩ :=
    packChunks_wellPacked countingRng 0 [("a", [1]), ("b", [2, 3]), ("a", [1])] 2 (by decide)
  have hids : (set.packs.map BuiltPack.packId).Nodup := by
    have hfirst := padPack_floor (b := [1]) (by decide)
    have hsecond := padPack_floor (b := [2, 3]) (by decide)
    have hfill : ∀ s n, countingRng.fillBytes s n = (List.replicate n (UInt8.ofNat s), s + 1) :=
      fun _ _ => rfl
    have hshuffle : countingRng.shuffle 0 [("a", [1]), ("b", [2, 3]), ("a", [1])] =
      (([("a", [1]), ("b", [2, 3]), ("a", [1])] : List (String × Bytes)), 1) := rfl
    have heval := hrun
    simp [packChunks, Packing.add, Packing.start, Packing.place, Packing.sealOpen, Packing.flush,
      Packing.push, randomPackId, hfill, hshuffle, hfirst, hsecond, bind, Except.bind, pure,
      Except.pure] at heval
    obtain ⟨rfl, _⟩ := heval
    have hne : ∀ {x y : Bytes}, x ≠ y → [hexEncode x, hexEncode y].Nodup := by
      intro x y h
      simpa using fun he => h (hexEncode_injective he)
    exact hne (by decide)
  exact ⟨set, s', hrun, hids, hwell hids⟩

end GitCellar
