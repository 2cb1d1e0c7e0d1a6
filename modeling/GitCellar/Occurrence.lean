import Mathlib.Algebra.Order.Ring.Nat
import Mathlib.Data.List.Basic
import Mathlib.Data.Nat.Find
import Mathlib.Tactic.Common

/-! The first occurrence of a word in a text: in a text joined by an element the
word does not have, and in a text rewritten element by element. -/

namespace Occurrence

variable {α : Type} {part xs a b before after : List α} {s : α} {f : α → List α}

theorem infix_append_sep_iff (hs : s ∉ part) (hne : part ≠ []) :
    part <:+: a ++ s :: b ↔ part <:+: a ∨ part <:+: b := by
  have hhead : ∀ l, l <+: s :: b → (∀ c ∈ l, c ∈ part) → l = [] := by
    intro l hl hsub
    rcases List.prefix_cons_iff.mp hl with rfl | ⟨t, rfl, _⟩
    · rfl
    · exact absurd (hsub s List.mem_cons_self) hs
  rw [List.infix_append_iff]
  constructor
  · rintro (h | h | ⟨l, r, hsplit, hl, hr⟩)
    · exact .inl h
    · rcases List.infix_cons_iff.mp h with h | h
      · exact absurd (hhead part h fun _ hc => hc) hne
      · exact .inr h
    · have hnil := hhead r hr fun c hc => hsplit ▸ List.mem_append_right l hc
      rw [hsplit, hnil, List.append_nil]
      exact .inl hl.isInfix
  · rintro (h | h)
    · exact .inl h
    · exact .inr (.inl (List.infix_cons h))

section

variable [DecidableEq α]

theorem dropInfix_eq_some : xs.dropInfix? part = some (before, after) ↔
    xs = before ++ part ++ after ∧ ∀ p q, xs = p ++ part ++ q → before.length ≤ p.length := by
  rw [List.dropInfix?_eq_some_iff]
  constructor
  · rintro ⟨⟨i, hsplit, hi⟩, hfirst⟩
    obtain rfl := eq_of_beq hi
    exact ⟨hsplit, fun p q hpq => hfirst p _ q hpq (beq_self_eq_true _)⟩
  · rintro ⟨hsplit, hfirst⟩
    refine ⟨⟨part, hsplit, beq_self_eq_true _⟩, ?_⟩
    intro p i q hpq hi
    obtain rfl := eq_of_beq hi
    exact hfirst p q hpq

theorem exists_dropInfix (h : part <:+: xs) :
    ∃ before after, xs.dropInfix? part = some (before, after) := by
  have hlength : ∃ n, ∃ p q, xs = p ++ part ++ q ∧ p.length = n := by
    obtain ⟨p, q, hpq⟩ := h
    exact ⟨p.length, p, q, hpq.symm, rfl⟩
  classical
  obtain ⟨p, q, hsplit, hp⟩ := Nat.find_spec hlength
  refine ⟨p, q, dropInfix_eq_some.mpr ⟨hsplit, ?_⟩⟩
  intro p' q' hsplit'
  rw [hp]
  exact Nat.find_min' hlength ⟨p', q', hsplit', rfl⟩

theorem dropInfix_eq_none : xs.dropInfix? part = none ↔ ¬ part <:+: xs := by
  constructor
  · intro hnone h
    obtain ⟨before, after, hsome⟩ := exists_dropInfix h
    rw [hsome] at hnone
    cases hnone
  · intro h
    cases hdrop : xs.dropInfix? part with
    | none => rfl
    | some found =>
      obtain ⟨before, after⟩ := found
      exact absurd ⟨before, after, (dropInfix_eq_some.mp hdrop).1.symm⟩ h

theorem dropInfix_append_sep (hs : s ∉ part) (hne : part ≠ []) (ha : ¬ part <:+: a) :
    (a ++ s :: b).dropInfix? part =
      (b.dropInfix? part).map fun found => (a ++ s :: found.1, found.2) := by
  cases hb : b.dropInfix? part with
  | none =>
    rw [Option.map_none, dropInfix_eq_none, infix_append_sep_iff hs hne]
    rintro (h | h)
    · exact ha h
    · exact dropInfix_eq_none.mp hb h
  | some found =>
    obtain ⟨before, after⟩ := found
    obtain ⟨hsplit, hfirst⟩ := dropInfix_eq_some.mp hb
    rw [Option.map_some, dropInfix_eq_some]
    refine ⟨by simp [hsplit], ?_⟩
    intro p q hpq
    rw [List.append_assoc] at hpq
    -- the occurrence starts in `a`, at `s`, or past it
    rcases List.append_eq_append_iff.mp hpq with ⟨c, hp, hrest⟩ | ⟨c, hac, hrest⟩
    · cases c with
      | nil =>
        cases part with
        | nil => exact absurd rfl hne
        | cons y ys => exact absurd ((List.cons.inj hrest).1 ▸ List.mem_cons_self) hs
      | cons y c =>
        have hrest' : b = c ++ part ++ q := by
          rw [List.append_assoc]
          exact (List.cons.inj hrest).2
        have hle := hfirst c q hrest'
        rw [hp]
        simp only [List.length_append, List.length_cons]
        omega
    · rcases List.append_eq_append_iff.mp hrest with ⟨d, hc, _⟩ | ⟨d, hpart, hd⟩
      · exact absurd ⟨p, d, by rw [hac, hc, List.append_assoc]⟩ ha
      · cases d with
        | nil => exact absurd ⟨p, [], by rw [hac, hpart]; simp⟩ ha
        | cons y d =>
          have hmem : y ∈ part := hpart ▸ List.mem_append_right c List.mem_cons_self
          exact absurd ((List.cons.inj hd).1 ▸ hmem) hs

theorem dropInfix_append_of_infix (b : List α) (h : part <:+: a) :
    ∃ p q, a = p ++ part ++ q ∧ (a ++ b).dropInfix? part = some (p, q ++ b) := by
  obtain ⟨p, q, hdrop⟩ := exists_dropInfix h
  obtain ⟨hsplit, hfirst⟩ := dropInfix_eq_some.mp hdrop
  refine ⟨p, q, hsplit, dropInfix_eq_some.mpr ⟨by rw [hsplit, List.append_assoc], ?_⟩⟩
  intro p' q' hsplit'
  by_contra hlt
  have hlong : (p' ++ part).length ≤ a.length := by
    rw [hsplit]
    simp only [List.length_append]
    omega
  have hprefix : p' ++ part <+: a :=
    List.prefix_of_prefix_length_le ⟨q', hsplit'.symm⟩ (List.prefix_append a b) hlong
  obtain ⟨t, ht⟩ := hprefix
  exact hlt (hfirst p' t ht.symm)

end

/-- `f` leaves the elements of the word alone, and writes none of them for any
other element. -/
structure Transparent (f : α → List α) (part : List α) : Prop where
  fixes : ∀ c ∈ part, f c = [c]
  avoids : ∀ c, f c ≠ [c] → ∀ d ∈ f c, d ∉ part
  writes : ∀ c, f c ≠ []

theorem Transparent.prefix_flatMap (h : Transparent f part) {p : List α} (hp : ∀ c ∈ p, c ∈ part)
    (heq : xs.flatMap f = p ++ after) : ∃ post, xs = p ++ post ∧ after = post.flatMap f := by
  induction p generalizing xs with
  | nil => exact ⟨xs, rfl, heq.symm⟩
  | cons y p ih =>
    have hy := hp y List.mem_cons_self
    cases xs with
    | nil => cases heq
    | cons x xs =>
      have hx : f x = [x] := by
        by_contra hne
        obtain ⟨z, zs, hz⟩ := List.exists_cons_of_ne_nil (h.writes x)
        rw [List.flatMap_cons, hz] at heq
        have hzy : z = y := (List.cons.inj heq).1
        exact h.avoids x hne z (hz ▸ List.mem_cons_self) (hzy ▸ hy)
      rw [List.flatMap_cons, hx] at heq
      obtain ⟨rfl, hrest⟩ := List.cons.inj heq
      obtain ⟨post, rfl, hafter⟩ := ih (fun c hc => hp c (List.mem_cons_of_mem x hc)) hrest
      exact ⟨post, rfl, hafter⟩

theorem Transparent.split_flatMap (h : Transparent f part) (hne : part ≠ [])
    (heq : xs.flatMap f = before ++ part ++ after) :
    ∃ pre post, xs = pre ++ part ++ post ∧ before = pre.flatMap f ∧ after = post.flatMap f := by
  induction xs generalizing before with
  | nil =>
    rw [List.flatMap_nil, List.append_assoc] at heq
    have hnil := (List.append_eq_nil_iff.mp heq.symm).2
    exact absurd (List.append_eq_nil_iff.mp hnil).1 hne
  | cons x xs ih =>
    by_cases hbefore : before = []
    · subst hbefore
      obtain ⟨post, hxs, hafter⟩ := h.prefix_flatMap (fun _ hc => hc) heq
      exact ⟨[], post, hxs, rfl, hafter⟩
    · rw [List.flatMap_cons, List.append_assoc] at heq
      have hlater : ∀ c, before = f x ++ c → xs.flatMap f = c ++ part ++ after →
          ∃ pre post, x :: xs = pre ++ part ++ post ∧ before = pre.flatMap f ∧
            after = post.flatMap f := by
        intro c hc hrest
        obtain ⟨pre, post, rfl, rfl, hafter⟩ := ih hrest
        exact ⟨x :: pre, post, rfl, by rw [hc, List.flatMap_cons], hafter⟩
      rcases List.append_eq_append_iff.mp heq with ⟨c, hc, hrest⟩ | ⟨c, hx, hrest⟩
      · exact hlater c hc (by rw [hrest, List.append_assoc])
      · cases c with
        | nil =>
          rw [List.append_nil] at hx
          exact hlater [] (by rw [hx, List.append_nil]) (by simpa using hrest.symm)
        | cons y c =>
          -- the word would start inside what is written for one element
          obtain ⟨z, zs, hz⟩ := List.exists_cons_of_ne_nil hbefore
          have hy : y ∈ part := by
            cases part with
            | nil => exact absurd rfl hne
            | cons w ws => exact (List.cons.inj hrest).1 ▸ List.mem_cons_self
          have hlong : f x ≠ [x] := by
            rw [hx, hz]
            intro hone
            have hlen := congrArg List.length hone
            simp at hlen
          exact absurd hy
            (h.avoids x hlong y (hx ▸ List.mem_append_right before List.mem_cons_self))

theorem Transparent.infix_flatMap_iff (h : Transparent f part) (hne : part ≠ []) :
    part <:+: xs.flatMap f ↔ part <:+: xs := by
  constructor
  · rintro ⟨before, after, heq⟩
    obtain ⟨pre, post, rfl, _, _⟩ := h.split_flatMap hne heq.symm
    exact List.infix_append pre part post
  · rintro ⟨pre, post, rfl⟩
    have hpart : part.flatMap f = part := by
      rw [List.flatMap_def, List.map_congr_left h.fixes, ← List.flatMap_def,
        List.flatMap_singleton']
    rw [List.flatMap_append, List.flatMap_append, hpart]
    exact List.infix_append _ part _

end Occurrence
