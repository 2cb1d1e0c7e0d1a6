import Mathlib.Algebra.Order.Ring.Nat
import Mathlib.Tactic.Common

/-! Lists joined by a separator that none of the pieces contains: what is a
beginning of the whole in terms of the pieces. -/

namespace Joined

variable {α : Type*} {sep : α} {a b s t : List α} {x : List α} {dir pieces : List (List α)}

theorem prefix_of_append_sep (ha : sep ∉ a) : a <+: b ++ sep :: t ↔ a <+: b := by
  constructor
  · intro h
    rcases List.prefix_or_prefix_of_prefix h (List.prefix_append b _) with hb | ⟨rest, rfl⟩
    · exact hb
    · cases rest with
      | nil => simp
      | cons y rest =>
        rw [List.prefix_append_right_inj] at h
        obtain ⟨rfl, _⟩ := List.cons_prefix_cons.mp h
        exact absurd (List.mem_append_right b List.mem_cons_self) ha
  · intro h
    exact h.trans (List.prefix_append b _)

theorem not_prefix_of_notMem (hb : sep ∉ b) : ¬ a ++ sep :: s <+: b := by
  intro h
  exact hb (h.subset (List.mem_append_right a List.mem_cons_self))

theorem append_sep_prefix_iff (ha : sep ∉ a) (hb : sep ∉ b) :
    a ++ sep :: s <+: b ++ sep :: t ↔ a = b ∧ s <+: t := by
  constructor
  · intro h
    have hab : a <+: b :=
      (prefix_of_append_sep ha).mp ((List.prefix_append a _).trans h)
    obtain ⟨rest, rfl⟩ := hab
    rw [List.append_assoc, List.prefix_append_right_inj] at h
    cases rest with
    | nil =>
      rw [List.append_nil]
      exact ⟨rfl, (List.cons_prefix_cons.mp h).2⟩
    | cons y rest =>
      obtain ⟨rfl, _⟩ := List.cons_prefix_cons.mp h
      exact absurd (List.mem_append_right a List.mem_cons_self) hb
  · rintro ⟨rfl, h⟩
    rw [List.prefix_append_right_inj]
    exact List.cons_prefix_cons.mpr ⟨rfl, h⟩

theorem append_sep_inj (ha : sep ∉ a) (hb : sep ∉ b) (h : a ++ sep :: s = b ++ sep :: t) :
    a = b ∧ s = t := by
  have hpre : a ++ sep :: s <+: b ++ sep :: t := h ▸ List.prefix_refl _
  obtain ⟨rfl, _⟩ := (append_sep_prefix_iff ha hb).mp hpre
  exact ⟨rfl, (List.cons.inj (List.append_cancel_left h)).2⟩

theorem singleton_prefix_iff (hx : sep ∉ x) {p : List α} :
    [sep].intercalate [x] <+: [sep].intercalate (p :: pieces) ↔ x <+: p := by
  cases pieces with
  | nil => simp
  | cons q pieces =>
    rw [List.intercalate_singleton, List.intercalate_cons_cons, List.append_assoc,
      List.singleton_append]
    exact prefix_of_append_sep hx

theorem intercalate_cons_append (d : List α) :
    [sep].intercalate (d :: (dir ++ [x])) = d ++ sep :: [sep].intercalate (dir ++ [x]) := by
  rw [List.intercalate_cons_of_ne_nil (by simp), List.append_assoc, List.singleton_append]

/-- A joined text begins with `dir`, joined, and a last piece exactly when its
pieces begin with `dir` and the next one begins with that piece. -/
theorem joined_prefix_iff (hdir : ∀ d ∈ dir, sep ∉ d) (hx : sep ∉ x)
    (hpieces : ∀ p ∈ pieces, sep ∉ p) (hne : pieces ≠ []) :
    [sep].intercalate (dir ++ [x]) <+: [sep].intercalate pieces ↔
      ∃ y rest, pieces = dir ++ y :: rest ∧ x <+: y := by
  induction dir generalizing pieces with
  | nil =>
    cases pieces with
    | nil => exact absurd rfl hne
    | cons p pieces =>
      rw [List.nil_append, singleton_prefix_iff hx]
      constructor
      · intro h
        exact ⟨p, pieces, rfl, h⟩
      · rintro ⟨y, rest, heq, h⟩
        obtain ⟨rfl, rfl⟩ := List.cons.inj heq
        exact h
  | cons d dir ih =>
    have hd := hdir d List.mem_cons_self
    cases pieces with
    | nil => exact absurd rfl hne
    | cons p pieces =>
      have hp := hpieces p List.mem_cons_self
      rw [List.cons_append, intercalate_cons_append]
      cases pieces with
      | nil =>
        rw [List.intercalate_singleton]
        refine iff_of_false (not_prefix_of_notMem hp) ?_
        rintro ⟨y, rest, heq, _⟩
        have hlen := congrArg List.length heq
        simp at hlen
      | cons q pieces =>
        rw [List.intercalate_cons_cons, List.append_assoc, List.singleton_append,
          append_sep_prefix_iff hd hp,
          ih (fun d' h' => hdir d' (List.mem_cons_of_mem d h'))
            (fun p' h' => hpieces p' (List.mem_cons_of_mem p h')) (List.cons_ne_nil q pieces)]
        constructor
        · rintro ⟨rfl, y, rest, heq, h⟩
          exact ⟨y, rest, by rw [heq, List.cons_append], h⟩
        · rintro ⟨y, rest, heq, h⟩
          obtain ⟨rfl, hrest⟩ := List.cons.inj heq
          exact ⟨rfl, y, rest, hrest, h⟩

theorem mem_joined {c : α} (h : c ∈ [sep].intercalate pieces) : c = sep ∨ ∃ p ∈ pieces, c ∈ p := by
  induction pieces with
  | nil => cases h
  | cons p pieces ih =>
    cases pieces with
    | nil =>
      rw [List.intercalate_singleton] at h
      exact .inr ⟨p, List.mem_cons_self, h⟩
    | cons q pieces =>
      rw [List.intercalate_cons_cons, List.append_assoc, List.singleton_append] at h
      rcases List.mem_append.mp h with hp | hrest
      · exact .inr ⟨p, List.mem_cons_self, hp⟩
      · rcases List.mem_cons.mp hrest with hsep | hrest
        · exact .inl hsep
        · rcases ih hrest with hsep | ⟨r, hr, hc⟩
          · exact .inl hsep
          · exact .inr ⟨r, List.mem_cons_of_mem p hr, hc⟩

theorem joined_injective [DecidableEq α] {other : List (List α)} (hpieces : ∀ p ∈ pieces, sep ∉ p)
    (hother : ∀ p ∈ other, sep ∉ p) (hne : pieces ≠ []) (hne' : other ≠ [])
    (h : [sep].intercalate pieces = [sep].intercalate other) : pieces = other := by
  rw [← List.splitOn_intercalate sep hpieces hne, h, List.splitOn_intercalate sep hother hne']

/-- The non-empty pieces between the elements that satisfy `p`. -/
def fields (p : α → Bool) (xs : List α) : List (List α) :=
  (xs.splitOnP p).filter fun piece => !piece.isEmpty

def IsField (p : α → Bool) (piece : List α) : Prop := piece ≠ [] ∧ ∀ c ∈ piece, p c = false

theorem splitOnP_free (p : α → Bool) (xs : List α) :
    ∀ piece ∈ xs.splitOnP p, ∀ c ∈ piece, p c = false := by
  induction xs with
  | nil => simp
  | cons y xs ih =>
    intro piece hpiece c hc
    rw [List.splitOnP_cons_eq_if_modifyHead] at hpiece
    by_cases hy : p y = true
    · rw [if_pos hy] at hpiece
      rcases List.mem_cons.mp hpiece with rfl | hrest
      · cases hc
      · exact ih piece hrest c hc
    · rw [if_neg hy] at hpiece
      obtain ⟨front, tail, hsplit⟩ := List.exists_cons_of_ne_nil (List.splitOnP_ne_nil p xs)
      rw [hsplit] at hpiece ih
      rcases List.mem_cons.mp hpiece with rfl | hrest
      · rcases List.mem_cons.mp hc with rfl | hc
        · exact Bool.eq_false_iff.mpr hy
        · exact ih front List.mem_cons_self c hc
      · exact ih piece (List.mem_cons_of_mem front hrest) c hc

/-- Two pieces: one separator, and none in either. -/
theorem splitOn_eq_pair_iff [DecidableEq α] {xs : List α} :
    xs.splitOn sep = [a, b] ↔ xs = a ++ sep :: b ∧ sep ∉ a ∧ sep ∉ b := by
  constructor
  · intro h
    have hfree : ∀ piece ∈ xs.splitOn sep, sep ∉ piece := by
      intro piece hpiece hmem
      have hkeep := splitOnP_free (· == sep) xs piece hpiece sep hmem
      simp at hkeep
    have hjoin : [sep].intercalate (xs.splitOn sep) = xs := List.intercalate_splitOn sep
    rw [h] at hfree hjoin
    refine ⟨?_, hfree a (by simp), hfree b (by simp)⟩
    rw [← hjoin, List.intercalate_cons_cons, List.intercalate_singleton, List.append_assoc,
      List.singleton_append]
  · rintro ⟨rfl, ha, hb⟩
    have hfree : ∀ piece ∈ [a, b], sep ∉ piece := by simp [ha, hb]
    have hsplit := List.splitOn_intercalate sep hfree (List.cons_ne_nil a [b])
    rwa [List.intercalate_cons_cons, List.intercalate_singleton, List.append_assoc,
      List.singleton_append] at hsplit

theorem isField_of_mem {p : α → Bool} {xs piece : List α} (h : piece ∈ fields p xs) :
    IsField p piece := by
  obtain ⟨hpiece, hne⟩ := List.mem_filter.mp h
  refine ⟨?_, splitOnP_free p xs piece hpiece⟩
  rintro rfl
  cases hne

theorem fields_intercalate {p : α → Bool} (hsep : p sep = true)
    (hpieces : ∀ piece ∈ pieces, IsField p piece) :
    fields p ([sep].intercalate pieces) = pieces := by
  induction pieces with
  | nil => simp [fields, List.intercalate]
  | cons piece pieces ih =>
    obtain ⟨hne, hfree⟩ := hpieces piece List.mem_cons_self
    have hkeep : ∀ rest : List (List α), (piece :: rest).filter (fun q => !q.isEmpty) =
        piece :: rest.filter fun q => !q.isEmpty :=
      fun rest => List.filter_cons_of_pos (by simpa using hne)
    cases pieces with
    | nil =>
      rw [List.intercalate_singleton, fields, List.splitOnP_eq_singleton hfree,
        hkeep, List.filter_nil]
    | cons next pieces =>
      have hrest := ih fun q hq => hpieces q (List.mem_cons_of_mem piece hq)
      rw [List.intercalate_cons_cons, List.append_assoc, List.singleton_append, fields,
        List.splitOnP_append_cons_of_forall_mem hfree sep hsep, hkeep]
      exact congrArg (piece :: ·) hrest

end Joined
