import Mathlib.Algebra.Order.Ring.Nat
import Mathlib.Tactic.Common

/-! Cutting a list into pieces with a search that looks at a prefix, and the
incremental cutter that only emits a piece no later input can move. -/

namespace Splitting

variable {α : Type*}

/-- A cut search. `settled d` says the cut of `d` is also the cut of every
continuation of `d`. -/
structure Cutter (α : Type*) where
  cut : List α → Nat
  settled : List α → Prop
  cut_pos : ∀ d, d ≠ [] → 0 < cut d
  cut_le : ∀ d, cut d ≤ d.length
  cut_append : ∀ d e, settled d → cut (d ++ e) = cut d

theorem Cutter.drop_length_lt (c : Cutter α) {d : List α} (hd : d ≠ []) :
    (d.drop (c.cut d)).length < d.length := by
  have hpos := c.cut_pos d hd
  have hlen := List.length_pos_iff.mpr hd
  simp only [List.length_drop]
  omega

/-- The pieces of `d`, each the cut of what is left. -/
def Cutter.pieces (c : Cutter α) (d : List α) : List (List α) :=
  if _hd : d = [] then [] else d.take (c.cut d) :: c.pieces (d.drop (c.cut d))
termination_by d.length
decreasing_by exact c.drop_length_lt _hd

theorem Cutter.pieces_nil (c : Cutter α) : c.pieces [] = [] := by
  rw [Cutter.pieces]
  simp

theorem Cutter.pieces_of_ne_nil (c : Cutter α) {d : List α} (hd : d ≠ []) :
    c.pieces d = d.take (c.cut d) :: c.pieces (d.drop (c.cut d)) := by
  rw [Cutter.pieces]
  simp only [hd, dite_false]

/-- What holds of the empty list and of `d` whenever it holds after the first
cut of `d` holds of every list. -/
theorem Cutter.pieces_induction (c : Cutter α) {motive : List α → Prop}
    (nil : motive [])
    (step : ∀ d, d ≠ [] → motive (d.drop (c.cut d)) → motive d) (d : List α) : motive d := by
  induction hn : d.length using Nat.strongRecOn generalizing d with
  | ind n ih =>
    by_cases hd : d = []
    · subst hd
      exact nil
    · exact step d hd (ih _ (hn ▸ c.drop_length_lt hd) _ rfl)

theorem Cutter.pieces_flatten (c : Cutter α) (d : List α) : (c.pieces d).flatten = d := by
  induction d using c.pieces_induction with
  | nil => simp [c.pieces_nil]
  | step d hd ih => simp [c.pieces_of_ne_nil hd, ih]

theorem Cutter.mem_pieces_ne_nil (c : Cutter α) {d p : List α} (hp : p ∈ c.pieces d) : p ≠ [] := by
  induction d using c.pieces_induction with
  | nil => simp [c.pieces_nil] at hp
  | step d hd ih =>
    rw [c.pieces_of_ne_nil hd] at hp
    rcases List.mem_cons.mp hp with rfl | hp
    · have hpos := c.cut_pos d hd
      have hlen := List.length_pos_iff.mpr hd
      apply List.ne_nil_of_length_pos
      simp only [List.length_take]
      omega
    · exact ih hp

theorem Cutter.mem_pieces_eq_take (c : Cutter α) {d p : List α} (hp : p ∈ c.pieces d) :
    ∃ e, e <:+ d ∧ e ≠ [] ∧ p = e.take (c.cut e) := by
  induction d using c.pieces_induction with
  | nil => simp [c.pieces_nil] at hp
  | step d hd ih =>
    rw [c.pieces_of_ne_nil hd] at hp
    rcases List.mem_cons.mp hp with rfl | hp
    · exact ⟨d, List.suffix_refl d, hd, rfl⟩
    · obtain ⟨e, he, hne, rfl⟩ := ih hp
      exact ⟨e, he.trans (List.drop_suffix _ d), hne, rfl⟩

theorem Cutter.mem_pieces_infix (c : Cutter α) {d p : List α} (hp : p ∈ c.pieces d) : p <:+: d := by
  obtain ⟨e, he, _, rfl⟩ := c.mem_pieces_eq_take hp
  exact (List.take_prefix _ e).isInfix.trans he.isInfix

theorem Cutter.pieces_of_whole (c : Cutter α) {d : List α} (hd : d ≠ [])
    (hw : c.cut d = d.length) : c.pieces d = [d] := by
  rw [c.pieces_of_ne_nil hd, hw, List.take_length, List.drop_length, c.pieces_nil]

theorem Cutter.mem_dropLast_pieces (c : Cutter α) {d p : List α} (hp : p ∈ (c.pieces d).dropLast) :
    ∃ e, e <:+ d ∧ p = e.take (c.cut e) ∧ c.cut e < e.length := by
  induction d using c.pieces_induction with
  | nil => simp [c.pieces_nil] at hp
  | step d hd ih =>
    by_cases hrest : d.drop (c.cut d) = []
    · rw [c.pieces_of_ne_nil hd, hrest, c.pieces_nil] at hp
      cases hp
    · have hmore : c.pieces (d.drop (c.cut d)) ≠ [] := by
        rw [c.pieces_of_ne_nil hrest]
        exact List.cons_ne_nil _ _
      rw [c.pieces_of_ne_nil hd, List.dropLast_cons_of_ne_nil hmore] at hp
      rcases List.mem_cons.mp hp with rfl | hp
      · refine ⟨d, List.suffix_refl d, rfl, ?_⟩
        simpa using hrest
      · obtain ⟨e, he, heq, hlt⟩ := ih hp
        exact ⟨e, he.trans (List.drop_suffix _ d), heq, hlt⟩

/-- The pieces after a cut are the pieces of what they cover, whatever came before. -/
theorem Cutter.pieces_rest (c : Cutter α) {d : List α} {before after : List (List α)}
    (h : c.pieces d = before ++ after) : c.pieces after.flatten = after := by
  induction before generalizing d with
  | nil =>
    have hd : after.flatten = d := by
      rw [← c.pieces_flatten d, h, List.nil_append]
    rw [hd, h, List.nil_append]
  | cons p before ih =>
    by_cases hd : d = []
    · rw [hd, c.pieces_nil] at h
      cases h
    · rw [c.pieces_of_ne_nil hd] at h
      exact ih (List.cons.inj h).2

/-- The first cut of a settled buffer survives any continuation. -/
theorem Cutter.pieces_append_of_settled (c : Cutter α) {d : List α} (hd : d ≠ [])
    (hs : c.settled d) (e : List α) :
    c.pieces (d ++ e) = d.take (c.cut d) :: c.pieces (d.drop (c.cut d) ++ e) := by
  have hle := c.cut_le d
  rw [c.pieces_of_ne_nil (by simp [hd]), c.cut_append d e hs,
    List.take_append_of_le_length hle, List.drop_append_of_le_length hle]

/-- A cut inside the data being settled, only the last piece can change when
more is appended. -/
theorem Cutter.dropLast_pieces_prefix (c : Cutter α)
    (hs : ∀ d, c.cut d < d.length → c.settled d) (d e : List α) :
    (c.pieces d).dropLast <+: c.pieces (d ++ e) := by
  induction d using c.pieces_induction with
  | nil => simp [c.pieces_nil]
  | step d hd ih =>
    by_cases hrest : d.drop (c.cut d) = []
    · rw [c.pieces_of_ne_nil hd, hrest, c.pieces_nil]
      exact List.nil_prefix
    · have hinside : c.cut d < d.length := by simpa using hrest
      have hmore : c.pieces (d.drop (c.cut d)) ≠ [] := by
        rw [c.pieces_of_ne_nil hrest]
        exact List.cons_ne_nil _ _
      rw [c.pieces_append_of_settled hd (hs d hinside), c.pieces_of_ne_nil hd,
        List.dropLast_cons_of_ne_nil hmore]
      exact List.cons_prefix_cons.mpr ⟨rfl, ih⟩

/-- From buffer `d` the incremental cutter emits `ps` and holds back `r`,
cutting settled buffers only. -/
inductive Cutter.Emits (c : Cutter α) : List α → List (List α) → List α → Prop
  | stop (d : List α) : c.Emits d [] d
  | emit {d r : List α} {ps : List (List α)} (hd : d ≠ []) (hs : c.settled d)
      (h : c.Emits (d.drop (c.cut d)) ps r) : c.Emits d (d.take (c.cut d) :: ps) r

theorem Cutter.Emits.pieces_append {c : Cutter α} {d r : List α} {ps : List (List α)}
    (h : c.Emits d ps r) (e : List α) : c.pieces (d ++ e) = ps ++ c.pieces (r ++ e) := by
  induction h with
  | stop d => rfl
  | emit hd hs _ ih => rw [c.pieces_append_of_settled hd hs, ih, List.cons_append]

/-- What is held back at the end of the input is one piece, if anything. -/
theorem Cutter.pieces_of_emitted {c : Cutter α} {d r : List α} {ps : List (List α)}
    (h : c.pieces d = ps ++ c.pieces r) (hw : r ≠ [] → c.cut r = r.length) :
    c.pieces d = ps ++ (if r = [] then [] else [r]) := by
  rw [h]
  by_cases hr : r = []
  · simp [hr, c.pieces_nil]
  · simp only [hr, if_false, c.pieces_of_whole hr (hw hr)]

end Splitting
