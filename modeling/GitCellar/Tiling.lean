import Mathlib.Algebra.Order.Ring.Nat
import Mathlib.Tactic.Common

/-! Ranges that follow one another without gap or overlap, and the slices of a
concatenation they cut out. -/

namespace Tiling

variable {α : Type*}

/-- The ranges `(offset, length)` lie end to end from `start` to `stop`. -/
def Tiles : Nat → List (Nat × Nat) → Nat → Prop
  | start, [], stop => start = stop
  | start, range :: ranges, stop => range.1 = start ∧ Tiles (start + range.2) ranges stop

def rangesFrom : Nat → List (List α) → List (Nat × Nat)
  | _, [] => []
  | start, piece :: pieces => (start, piece.length) :: rangesFrom (start + piece.length) pieces

@[simp] theorem length_rangesFrom (start : Nat) (pieces : List (List α)) :
    (rangesFrom start pieces).length = pieces.length := by
  induction pieces generalizing start with
  | nil => rfl
  | cons piece pieces ih => simp [rangesFrom, ih]

theorem rangesFrom_append (start : Nat) (xs ys : List (List α)) :
    rangesFrom start (xs ++ ys) =
    rangesFrom start xs ++ rangesFrom (start + xs.flatten.length) ys := by
  induction xs generalizing start with
  | nil => simp [rangesFrom]
  | cons x xs ih => simp [rangesFrom, ih, Nat.add_assoc]

theorem tiles_rangesFrom (start : Nat) (pieces : List (List α)) :
    Tiles start (rangesFrom start pieces) (start + pieces.flatten.length) := by
  induction pieces generalizing start with
  | nil => simp [rangesFrom, Tiles]
  | cons piece pieces ih =>
    have hrest := ih (start + piece.length)
    simp only [rangesFrom, Tiles, true_and, List.flatten_cons, List.length_append]
    rwa [← Nat.add_assoc]

theorem Tiles.stop_eq {start stop : Nat} {ranges : List (Nat × Nat)} (h : Tiles start ranges stop) :
    stop = start + (ranges.map Prod.snd).sum := by
  induction ranges generalizing start with
  | nil =>
    simp only [Tiles] at h
    simp [h]
  | cons range ranges ih =>
    have hrest := ih h.2
    simp only [List.map_cons, List.sum_cons]
    omega

/-- A range stays within the concatenation and cuts its own piece out of it. -/
theorem slice_of_mem_zip (before after : List α) {pieces : List (List α)} {piece : List α}
    {range : Nat × Nat} (h : (piece, range) ∈ pieces.zip (rangesFrom before.length pieces)) :
    range.2 = piece.length ∧ range.1 + range.2 ≤ before.length + pieces.flatten.length ∧
      ((before ++ (pieces.flatten ++ after)).take (range.1 + range.2)).drop range.1 = piece := by
  induction pieces generalizing before with
  | nil => simp at h
  | cons p pieces ih =>
    simp only [rangesFrom, List.zip_cons_cons, List.mem_cons] at h
    rcases h with heq | hrest
    · obtain ⟨rfl, rfl⟩ := Prod.mk.inj heq
      refine ⟨rfl, by simp, ?_⟩
      simp only [List.flatten_cons, List.append_assoc]
      rw [← List.length_append, ← List.append_assoc, List.take_left, List.drop_left]
    · have hlen : before.length + p.length = (before ++ p).length := by simp
      rw [hlen] at hrest
      obtain ⟨hl, hle, hs⟩ := ih (before ++ p) hrest
      refine ⟨hl, ?_, ?_⟩
      · simp only [List.flatten_cons, List.length_append] at hle ⊢
        omega
      · simpa only [List.flatten_cons, List.append_assoc] using hs

end Tiling
