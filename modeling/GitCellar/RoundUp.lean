import Mathlib.Order.Bounds.Basic
import Mathlib.Order.Interval.Set.Defs

/-! Rounding up into a set of allowed values: the least member not below the
value. A strictly increasing sequence reaches it at the first term that far. -/

namespace RoundUp

section Order

variable {α : Type} [Preorder α] {S : Set α} {a b m x y : α}

def RoundsUp (S : Set α) (a x : α) : Prop := IsLeast {s | s ∈ S ∧ a ≤ s} x

theorem RoundsUp.mem (h : RoundsUp S a x) : x ∈ S := h.1.1

theorem RoundsUp.le (h : RoundsUp S a x) : a ≤ x := h.1.2

theorem RoundsUp.mono (hx : RoundsUp S a x) (hy : RoundsUp S b y) (hab : a ≤ b) : x ≤ y :=
  hx.2 ⟨hy.mem, hab.trans hy.le⟩

theorem RoundsUp.self (h : RoundsUp S a x) : RoundsUp S x x :=
  ⟨⟨h.mem, le_rfl⟩, fun _ hs => hs.2⟩

theorem RoundsUp.capped (h : RoundsUp S a x) (hx : x ≤ m) : RoundsUp (S ∩ Set.Iic m) a x :=
  ⟨⟨⟨h.mem, hx⟩, h.le⟩, fun _ hs => h.2 ⟨hs.1.1, hs.2⟩⟩

end Order

theorem RoundsUp.unique {α : Type} [PartialOrder α] {S : Set α} {a x y : α} (hx : RoundsUp S a x)
    (hy : RoundsUp S a y) : x = y :=
  IsLeast.unique hx hy

section Sequence

variable {α : Type} [LinearOrder α] {f : Nat → α} {a : α}

theorem RoundsUp.of_first (hf : StrictMono f) {n : Nat} (hbelow : ∀ m < n, f m < a)
    (h : a ≤ f n) : RoundsUp (Set.range f) a (f n) := by
  refine ⟨⟨⟨n, rfl⟩, h⟩, ?_⟩
  rintro s ⟨⟨m, rfl⟩, hm⟩
  have hnm : n ≤ m := by
    by_contra hlt
    exact absurd hm (not_le.mpr (hbelow m (not_le.mp hlt)))
  exact hf.monotone hnm

theorem exists_pred_of_first {n : Nat} (hbelow : ∀ m < n, f m < a) (h : a ≤ f n) (h0 : f 0 < a) :
    ∃ k, n = k + 1 ∧ f k < a := by
  cases n with
  | zero => exact absurd h (not_le.mpr h0)
  | succ k => exact ⟨k, rfl, hbelow k (Nat.lt_succ_self k)⟩

end Sequence

end RoundUp
