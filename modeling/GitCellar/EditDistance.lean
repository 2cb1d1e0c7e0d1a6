import Mathlib.Data.List.Basic
import Mathlib.Order.MinMax
import Mathlib.Tactic.Common

/-! The edit distance of two lists by its recursion, the edits it counts, and the table of the
distances of all prefixes. -/

namespace EditDistance

variable {α : Type} [DecidableEq α]

def cost (x y : α) : Nat := if x = y then 0 else 1

theorem cost_self (x : α) : cost x x = 0 := if_pos rfl

theorem eq_of_cost {x y : α} (h : cost x y = 0) : x = y := by
  by_contra hne
  rw [cost, if_neg hne] at h
  omega

theorem cost_comm (x y : α) : cost x y = cost y x := by
  by_cases h : x = y
  · rw [h]
  · rw [cost, cost, if_neg h, if_neg (fun he => h he.symm)]

theorem cost_le_one (x y : α) : cost x y ≤ 1 := by
  rw [cost]
  split <;> omega

theorem cost_triangle (x y z : α) : cost x z ≤ cost x y + cost y z := by
  by_cases h : x = y
  · rw [h]
    omega
  · have hone : cost x y = 1 := if_neg h
    have := cost_le_one x z
    omega

def editDistance : List α → List α → Nat
  | [], ys => ys.length
  | xs, [] => xs.length
  | x :: xs, y :: ys =>
    min (min (editDistance xs (y :: ys) + 1) (editDistance (x :: xs) ys + 1))
      (editDistance xs ys + cost x y)
termination_by xs ys => xs.length + ys.length

theorem editDistance_nil_left (ys : List α) : editDistance [] ys = ys.length := by
  rw [editDistance]

theorem editDistance_nil_right (xs : List α) : editDistance xs [] = xs.length := by
  cases xs with
  | nil => rw [editDistance]
  | cons x xs =>
    rw [editDistance]
    intro h
    cases h

theorem editDistance_cons (x y : α) (xs ys : List α) :
    editDistance (x :: xs) (y :: ys) =
      min (min (editDistance xs (y :: ys) + 1) (editDistance (x :: xs) ys + 1))
        (editDistance xs ys + cost x y) := by
  rw [editDistance]

/-- `n` edits turn the first list into the second. -/
inductive Edits : Nat → List α → List α → Prop
  | nil : Edits 0 [] []
  | delete {n xs ys} (x) : Edits n xs ys → Edits (n + 1) (x :: xs) ys
  | insert {n xs ys} (y) : Edits n xs ys → Edits (n + 1) xs (y :: ys)
  | replace {n xs ys} (x y) : Edits n xs ys → Edits (n + cost x y) (x :: xs) (y :: ys)

section

variable {m n : Nat} {xs ys : List α}

theorem Edits.symm (h : Edits n xs ys) : Edits n ys xs := by
  induction h with
  | nil => exact nil
  | delete x _ ih => exact ih.insert x
  | insert y _ ih => exact ih.delete y
  | replace x y _ ih =>
    rw [cost_comm]
    exact ih.replace y x

theorem Edits.append {us vs : List α} (h : Edits m xs ys) (h' : Edits n us vs) :
    Edits (m + n) (xs ++ us) (ys ++ vs) := by
  induction h with
  | nil =>
    rw [Nat.zero_add]
    exact h'
  | delete x _ ih =>
    rw [Nat.add_right_comm]
    exact ih.delete x
  | insert y _ ih =>
    rw [Nat.add_right_comm]
    exact ih.insert y
  | replace x y _ ih =>
    rw [Nat.add_right_comm]
    exact ih.replace x y

theorem Edits.reverse (h : Edits n xs ys) : Edits n xs.reverse ys.reverse := by
  induction h with
  | nil => exact nil
  | delete x _ ih =>
    have hlast := ih.append (nil.delete x)
    rw [List.append_nil] at hlast
    rw [List.reverse_cons]
    exact hlast
  | insert y _ ih =>
    have hlast := ih.append (nil.insert y)
    rw [List.append_nil] at hlast
    rw [List.reverse_cons]
    exact hlast
  | replace x y _ ih =>
    have hlast := ih.append (nil.replace x y)
    rw [Nat.zero_add] at hlast
    rw [List.reverse_cons, List.reverse_cons]
    exact hlast

theorem Edits.eq_of_zero (h : Edits n xs ys) (hn : n = 0) : xs = ys := by
  induction h with
  | nil => rfl
  | delete => omega
  | insert => omega
  | @replace n xs ys x y _ ih =>
    rw [ih (by omega), eq_of_cost (show cost x y = 0 by omega)]

theorem editDistance_delete_le (x : α) (xs ys : List α) :
    editDistance (x :: xs) ys ≤ editDistance xs ys + 1 := by
  cases ys with
  | nil =>
    rw [editDistance_nil_right, editDistance_nil_right, List.length_cons]
  | cons y ys =>
    rw [editDistance_cons]
    omega

theorem editDistance_insert_le (y : α) (xs ys : List α) :
    editDistance xs (y :: ys) ≤ editDistance xs ys + 1 := by
  cases xs with
  | nil =>
    rw [editDistance_nil_left, editDistance_nil_left, List.length_cons]
  | cons x xs =>
    rw [editDistance_cons]
    omega

theorem editDistance_replace_le (x y : α) (xs ys : List α) :
    editDistance (x :: xs) (y :: ys) ≤ editDistance xs ys + cost x y := by
  rw [editDistance_cons]
  omega

/-- No edits are fewer. -/
theorem Edits.editDistance_le (h : Edits n xs ys) : editDistance xs ys ≤ n := by
  induction h with
  | nil => rw [editDistance_nil_left, List.length_nil]
  | @delete n xs ys x _ ih =>
    have := editDistance_delete_le x xs ys
    omega
  | @insert n xs ys y _ ih =>
    have := editDistance_insert_le y xs ys
    omega
  | @replace n xs ys x y _ ih =>
    have := editDistance_replace_le x y xs ys
    omega

theorem edits_nil_left (ys : List α) : Edits ys.length [] ys := by
  induction ys with
  | nil => exact .nil
  | cons y ys ih => exact ih.insert y

/-- The distance counts edits that exist. -/
theorem edits_editDistance (xs ys : List α) : Edits (editDistance xs ys) xs ys := by
  induction xs, ys using editDistance.induct with
  | case1 ys =>
    rw [editDistance_nil_left]
    exact edits_nil_left ys
  | case2 xs =>
    rw [editDistance_nil_right]
    exact (edits_nil_left xs).symm
  | case3 x xs y ys hdelete hinsert hreplace =>
    rw [editDistance_cons]
    rcases min_choice (min (editDistance xs (y :: ys) + 1) (editDistance (x :: xs) ys + 1))
      (editDistance xs ys + cost x y) with hmin | hmin
    · rw [hmin]
      rcases min_choice (editDistance xs (y :: ys) + 1) (editDistance (x :: xs) ys + 1)
        with hfirst | hfirst
      · rw [hfirst]
        exact hdelete.delete x
      · rw [hfirst]
        exact hinsert.insert y
    · rw [hmin]
      exact hreplace.replace x y

end

section

variable (xs ys zs : List α)

theorem editDistance_comm : editDistance xs ys = editDistance ys xs := by
  have hle := (edits_editDistance ys xs).symm.editDistance_le
  have hge := (edits_editDistance xs ys).symm.editDistance_le
  omega

theorem editDistance_reverse : editDistance xs.reverse ys.reverse = editDistance xs ys := by
  have hle := (edits_editDistance xs ys).reverse.editDistance_le
  have hge := (edits_editDistance xs.reverse ys.reverse).reverse.editDistance_le
  rw [List.reverse_reverse, List.reverse_reverse] at hge
  omega

theorem editDistance_eq_zero_iff : editDistance xs ys = 0 ↔ xs = ys := by
  constructor
  · exact (edits_editDistance xs ys).eq_of_zero
  · rintro rfl
    induction xs with
    | nil => rw [editDistance_nil_left, List.length_nil]
    | cons x xs ih =>
      have := editDistance_replace_le x x xs xs
      rw [cost_self] at this
      omega

theorem editDistance_tail_le (y : α) : editDistance ys zs ≤ editDistance (y :: ys) zs + 1 := by
  induction zs with
  | nil =>
    rw [editDistance_nil_right, editDistance_nil_right, List.length_cons]
    omega
  | cons z zs ih =>
    have hinsert := editDistance_insert_le z ys zs
    rw [editDistance_cons]
    omega

/-- Edits in front of a comparison cost at most their number. -/
theorem Edits.editDistance_le_add {m : Nat} {xs ys : List α} (h : Edits m xs ys) (zs : List α) :
    editDistance xs zs ≤ m + editDistance ys zs := by
  induction h generalizing zs with
  | nil => omega
  | @delete m xs ys x _ ih =>
    have := editDistance_delete_le x xs zs
    have := ih zs
    omega
  | @insert m xs ys y _ ih =>
    have := editDistance_tail_le ys zs y
    have := ih zs
    omega
  | @replace m xs ys x y _ ih =>
    induction zs with
    | nil =>
      have hrest := ih []
      rw [editDistance_nil_right, editDistance_nil_right] at hrest
      rw [editDistance_nil_right, editDistance_nil_right, List.length_cons, List.length_cons]
      omega
    | cons z zs ihz =>
      -- the best edits of `y :: ys` into `z :: zs` begin in one of three ways
      have hdelete := editDistance_delete_le x xs (z :: zs)
      have hinsert := editDistance_insert_le z (x :: xs) zs
      have hreplace := editDistance_replace_le x z xs zs
      have hcost := cost_triangle x y z
      have hwhole := ih (z :: zs)
      have hrest := ih zs
      rw [editDistance_cons y z ys zs]
      omega

theorem editDistance_triangle :
    editDistance xs zs ≤ editDistance xs ys + editDistance ys zs :=
  (edits_editDistance xs ys).editDistance_le_add zs

end

/-- The cell of the table in row `i` and column `j`: the last elements of the two prefixes
come first in the recursion. -/
def prefixDistance (xs ys : List α) (i j : Nat) : Nat :=
  editDistance (xs.take i).reverse (ys.take j).reverse

section

variable {xs ys : List α} {i j : Nat}

theorem prefixDistance_zero_left (hj : j ≤ ys.length) : prefixDistance xs ys 0 j = j := by
  rw [prefixDistance, List.take_zero, List.reverse_nil, editDistance_nil_left, List.length_reverse,
    List.length_take, Nat.min_eq_left hj]

theorem prefixDistance_zero_right (hi : i ≤ xs.length) : prefixDistance xs ys i 0 = i := by
  rw [prefixDistance, List.take_zero, List.reverse_nil, editDistance_nil_right, List.length_reverse,
    List.length_take, Nat.min_eq_left hi]

theorem prefixDistance_succ (hi : i < xs.length) (hj : j < ys.length) :
    prefixDistance xs ys (i + 1) (j + 1) =
      min (min (prefixDistance xs ys i (j + 1) + 1) (prefixDistance xs ys (i + 1) j + 1))
        (prefixDistance xs ys i j + cost xs[i] ys[j]) := by
  have hx : (xs.take (i + 1)).reverse = xs[i] :: (xs.take i).reverse := by
    rw [List.take_succ_eq_append_getElem hi, List.reverse_append]
    rfl
  have hy : (ys.take (j + 1)).reverse = ys[j] :: (ys.take j).reverse := by
    rw [List.take_succ_eq_append_getElem hj, List.reverse_append]
    rfl
  simp only [prefixDistance]
  rw [hx, hy, editDistance_cons]

theorem prefixDistance_length (xs ys : List α) :
    prefixDistance xs ys xs.length ys.length = editDistance xs ys := by
  rw [prefixDistance, List.take_length, List.take_length, editDistance_reverse]

end

end EditDistance
