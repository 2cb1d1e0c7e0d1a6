import GitCellar.Pack
import GitCellar.Tiling
import Mathlib.Data.List.Induction

/-! What the pack loop builds. A plan lists the chunks of one pack in order; the
loop keeps a list of finished plans and at most one open plan, and the packs and
the index it holds are those of its plans. -/

namespace GitCellar

open Loops Tiling

/-- The first entry of each key, in order. -/
def firsts {κ α : Type} [DecidableEq κ] (xs : List (κ × α)) : List (κ × α) :=
  xs.foldl (fun kept x => if x.1 ∈ kept.map Prod.fst then kept else kept ++ [x]) []

section Firsts

variable {κ α : Type} [DecidableEq κ] {xs : List (κ × α)} {x : κ × α}

theorem firsts_append_one (xs : List (κ × α)) (x : κ × α) :
    firsts (xs ++ [x]) =
    if x.1 ∈ (firsts xs).map Prod.fst then firsts xs else firsts xs ++ [x] := by
  rw [firsts, List.foldl_append]
  rfl

theorem mem_of_mem_firsts (h : x ∈ firsts xs) : x ∈ xs := by
  induction xs using List.reverseRecOn with
  | nil => simp [firsts] at h
  | append_singleton xs y ih =>
    rw [firsts_append_one] at h
    split at h
    · exact List.mem_append_left _ (ih h)
    · rcases List.mem_append.mp h with hx | hy
      · exact List.mem_append_left _ (ih hx)
      · exact List.mem_append_right _ hy

theorem nodup_keys_firsts (xs : List (κ × α)) : ((firsts xs).map Prod.fst).Nodup := by
  induction xs using List.reverseRecOn with
  | nil => simp [firsts]
  | append_singleton xs y ih =>
    rw [firsts_append_one]
    by_cases hold : y.1 ∈ (firsts xs).map Prod.fst
    · rw [if_pos hold]
      exact ih
    · rw [if_neg hold, List.map_append, List.nodup_append]
      refine ⟨ih, by simp, ?_⟩
      rintro k hk _ hl rfl
      have hky : k = y.1 := by simpa using hl
      exact hold (hky ▸ hk)

theorem firsts_append_new (h : x.1 ∉ (firsts xs).map Prod.fst) :
    firsts (xs ++ [x]) = firsts xs ++ [x] := by
  rw [firsts_append_one, if_neg h]

theorem keys_firsts (xs : List (κ × α)) (k : κ) :
    k ∈ (firsts xs).map Prod.fst ↔ k ∈ xs.map Prod.fst := by
  induction xs using List.reverseRecOn with
  | nil => simp [firsts]
  | append_singleton xs y ih =>
    rw [firsts_append_one]
    by_cases hold : y.1 ∈ (firsts xs).map Prod.fst
    · rw [if_pos hold]
      simp only [List.map_append, List.mem_append, List.map_cons, List.map_nil, List.mem_singleton]
      constructor
      · intro hk
        exact .inl (ih.mp hk)
      · rintro (hk | rfl)
        · exact ih.mpr hk
        · exact hold
    · rw [if_neg hold]
      simp only [List.map_append, List.mem_append, ih]

end Firsts

structure PackPlan where
  packId : String
  chunks : List (String × Bytes)

namespace PackPlan

variable {p : PackPlan} {target : Nat}

def blobs (p : PackPlan) : List Bytes := p.chunks.map Prod.snd

def content (p : PackPlan) : Bytes := p.blobs.flatten

def entry (p : PackPlan) (placed : (String × Bytes) × (Nat × Nat)) : String × PackLocation :=
  (placed.1.1, ⟨p.packId, UInt64.ofNat placed.2.1, UInt32.ofNat placed.2.2⟩)

def entries (p : PackPlan) : List (String × PackLocation) :=
  (p.chunks.zip (rangesFrom 0 p.blobs)).map p.entry

def snoc (p : PackPlan) (c : String × Bytes) : PackPlan := { p with chunks := p.chunks ++ [c] }

@[simp] theorem content_snoc (p : PackPlan) (c : String × Bytes) :
    (p.snoc c).content = p.content ++ c.2 := by
  simp [content, blobs, snoc]

theorem entries_snoc (p : PackPlan) (c : String × Bytes) :
    (p.snoc c).entries = p.entries ++
      [(c.1, ⟨p.packId, UInt64.ofNat p.content.length, UInt32.ofNat c.2.length⟩)] := by
  have hranges := rangesFrom_append 0 p.blobs [c.2]
  simp only [entries, blobs, snoc, List.map_append, List.map_cons, List.map_nil] at hranges ⊢
  rw [hranges, List.zip_append (by simp), List.map_append]
  simp [rangesFrom, content, blobs, entry]

/-- A pack holds a chunk, and is over the target only when it holds just one. -/
structure Fits (p : PackPlan) (target : Nat) : Prop where
  chunks_ne : p.chunks ≠ []
  blob_ok : ∀ c ∈ p.chunks, c.2 ≠ [] ∧ c.2.length < 2 ^ 32
  single : target < p.content.length → p.chunks.length = 1

/-- A pack the loop fills: over the target only with its last blob alone. -/
structure Held (p : PackPlan) (target : Nat) : Prop where
  chunks_ne : p.chunks ≠ []
  alone : target < p.content.length → ∃ pre c, p.chunks = pre ++ [c] ∧ p.content = c.2

theorem held_one {packId : String} {c : String × Bytes} : Held ⟨packId, [c]⟩ target where
  chunks_ne := by simp
  alone _ := ⟨[], c, rfl, by simp [content, blobs]⟩

theorem held_snoc {c : String × Bytes}
    (hroom : p.content ≠ [] → p.content.length + c.2.length ≤ target) :
    (p.snoc c).Held target where
  chunks_ne := by simp [PackPlan.snoc]
  alone := by
    intro hover
    rw [content_snoc] at hover ⊢
    by_cases hempty : p.content = []
    · exact ⟨p.chunks, c, rfl, by rw [hempty, List.nil_append]⟩
    · have hle := hroom hempty
      rw [List.length_append] at hover
      omega

theorem Held.fits (hp : p.Held target) (hblobs : ∀ c ∈ p.chunks, c.2 ≠ [] ∧ c.2.length < 2 ^ 32) :
    p.Fits target where
  chunks_ne := hp.chunks_ne
  blob_ok := hblobs
  single := by
    intro hover
    obtain ⟨pre, c, hchunks, hcontent⟩ := hp.alone hover
    have hpre : (pre.map Prod.snd).flatten = [] := by
      have hsplit : p.content = (pre.map Prod.snd).flatten ++ c.2 := by
        simp [content, blobs, hchunks]
      exact List.self_eq_append_left.mp (hcontent.symm.trans hsplit)
    cases pre with
    | nil => simp [hchunks]
    | cons d pre =>
      have hd : d.2 = [] := List.flatten_eq_nil_iff.mp hpre d.2 (by simp)
      exact absurd hd (hblobs d (by simp [hchunks])).1

theorem Held.content_lt (hp : p.Held target) (ht : target < 2 ^ 64)
    (hlens : ∀ c ∈ p.chunks, c.2.length < 2 ^ 32) : p.content.length < 2 ^ 64 := by
  by_cases hover : target < p.content.length
  · obtain ⟨pre, c, hchunks, hcontent⟩ := hp.alone hover
    have hlen := hlens c (by simp [hchunks])
    rw [hcontent]
    omega
  · omega

theorem Fits.content_ne (hp : p.Fits target) : p.content ≠ [] := by
  obtain ⟨c, hc⟩ := List.exists_mem_of_ne_nil _ hp.chunks_ne
  intro h
  have hall := List.flatten_eq_nil_iff.mp h
  exact (hp.blob_ok c hc).1 (hall c.2 (List.mem_map_of_mem hc))

theorem Fits.content_lt (hp : p.Fits target) (ht : target < 2 ^ 64) :
    p.content.length < 2 ^ 64 := by
  by_cases hover : target < p.content.length
  · obtain ⟨c, hc⟩ := List.length_eq_one_iff.mp (hp.single hover)
    have hlen := (hp.blob_ok c (by simp [hc])).2
    have hcontent : p.content = c.2 := by simp [content, blobs, hc]
    rw [hcontent]
    omega
  · omega

theorem entries_names (p : PackPlan) : p.entries.map Prod.fst = p.chunks.map Prod.fst := by
  have hfst : Prod.fst ∘ p.entry = Prod.fst ∘ Prod.fst := rfl
  rw [entries, List.map_map, hfst, ← List.map_map, List.map_fst_zip (by simp [blobs])]

theorem mem_zip_blobs {placed : (String × Bytes) × (Nat × Nat)}
    (h : placed ∈ p.chunks.zip (rangesFrom 0 p.blobs)) :
    (placed.1.2, placed.2) ∈ p.blobs.zip (rangesFrom 0 p.blobs) := by
  have hmap : p.blobs.zip (rangesFrom 0 p.blobs) =
      (p.chunks.zip (rangesFrom 0 p.blobs)).map (Prod.map Prod.snd id) := List.zip_map_left
  rw [hmap]
  exact List.mem_map.mpr ⟨placed, h, rfl⟩

theorem mem_entries {name : String} {loc : PackLocation} (h : (name, loc) ∈ p.entries) :
    ∃ blob range, (name, blob) ∈ p.chunks ∧ (blob, range) ∈ p.blobs.zip (rangesFrom 0 p.blobs) ∧
      loc = ⟨p.packId, UInt64.ofNat range.1, UInt32.ofNat range.2⟩ := by
  obtain ⟨⟨⟨name', blob⟩, range⟩, hmem, heq⟩ := List.mem_map.mp h
  obtain ⟨rfl, rfl⟩ := Prod.mk.inj heq
  exact ⟨blob, range, (List.of_mem_zip hmem).1, mem_zip_blobs hmem, rfl⟩

theorem mem_entries_packId {e : String × PackLocation} (h : e ∈ p.entries) :
    e.2.packId = p.packId := by
  obtain ⟨_, _, _, _, hloc⟩ := mem_entries (p := p) (Prod.mk.eta.symm ▸ h : (e.1, e.2) ∈ p.entries)
  rw [hloc]

theorem range_bounds (hlens : ∀ c ∈ p.chunks, c.2.length < 2 ^ 32)
    (hcontent : p.content.length < 2 ^ 64) {blob : Bytes} {range : Nat × Nat}
    (h : (blob, range) ∈ p.blobs.zip (rangesFrom 0 p.blobs)) :
    range.1 + range.2 ≤ p.content.length ∧ range.1 < 2 ^ 64 ∧ range.2 < 2 ^ 32 := by
  obtain ⟨hlen, hle, _⟩ := slice_of_mem_zip [] [] h
  obtain ⟨c, hc, rfl⟩ := List.mem_map.mp (List.of_mem_zip h).1
  have hblob := hlens c hc
  have hstop : range.1 + range.2 ≤ p.content.length := by simpa [content] using hle
  exact ⟨hstop, by omega, by omega⟩

/-- The pack stored for a plan: its content, then filler up to the ladder step. -/
structure Stores (p : PackPlan) (b : BuiltPack) : Prop where
  packId_eq : b.packId = p.packId
  length_eq : b.bytes.length = PadLadder.default.stepFor p.content.length
  content_prefix : p.content <+: b.bytes

theorem stores_of_bytes {bytes : Bytes}
    (h : bytes.length = PadLadder.default.stepFor p.content.length ∧ p.content <+: bytes) :
    p.Stores ⟨p.packId, bytes⟩ :=
  ⟨rfl, h.1, h.2⟩

end PackPlan

theorem PadLadder.le_stepFrom (ladder : PadLadder) (len step : Nat) :
    len ≤ ladder.stepFrom len step := by
  induction step using PadLadder.stepFrom.induct ladder len with
  | case1 step h ih =>
    rw [stepFrom, if_pos h]
    exact ih
  | case2 step h =>
    rw [stepFrom, if_neg h]
    omega

theorem padPack_spec {σ : Type} (rng : Rng σ) (bytes : Bytes) (ladder : PadLadder) (s : σ) :
    (padPack rng bytes ladder s).1.length = ladder.stepFor bytes.length ∧
      bytes <+: (padPack rng bytes ladder s).1 := by
  have hle : bytes.length ≤ ladder.stepFor bytes.length := ladder.le_stepFrom _ _
  simp only [padPack]
  split
  · refine ⟨?_, List.prefix_append _ _⟩
    rw [List.length_append, rng.length_fillBytes]
    omega
  · refine ⟨?_, List.prefix_refl _⟩
    simp only
    omega

end GitCellar
