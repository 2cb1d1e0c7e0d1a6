import Mathlib.Algebra.Order.Ring.Nat
import Mathlib.Tactic.Common

/-! Self-delimiting encodings. An encoder is framed when the encoded value and
what follows it can be read back from their concatenation, so framed encoders
compose field by field. -/

namespace Framing

variable {α β γ : Type*}

def Framed (enc : α → List γ) : Prop :=
  ∀ x y r s, enc x ++ r = enc y ++ s → x = y ∧ r = s

/-- A reader that stops right after the encoding frames it. -/
theorem framed_of_reader {enc : α → List γ} (read : List γ → Option (α × List γ))
    (h : ∀ x r, read (enc x ++ r) = some (x, r)) : Framed enc := by
  intro x y r s he
  have hx := h x r
  rw [he, h y s] at hx
  obtain ⟨rfl, rfl⟩ := Prod.mk.inj (Option.some.inj hx)
  exact ⟨rfl, rfl⟩

/-- Frames in a row are read off one by one: a beginning of them is a beginning of the values. -/
theorem Framed.flatMap_prefix {enc : α → List γ} (h : Framed enc) (hne : ∀ x, enc x ≠ [])
    {xs ys : List α} (he : xs.flatMap enc <+: ys.flatMap enc) : xs <+: ys := by
  induction xs generalizing ys with
  | nil => exact List.nil_prefix
  | cons x xs ih =>
    obtain ⟨rest, hrest⟩ := he
    cases ys with
    | nil => simp [hne x] at hrest
    | cons y ys =>
      rw [List.flatMap_cons, List.flatMap_cons, List.append_assoc] at hrest
      obtain ⟨rfl, htail⟩ := h x y _ _ hrest
      exact List.cons_prefix_cons.mpr ⟨rfl, ih ⟨rest, htail⟩⟩

theorem Framed.flatMap_injective {enc : α → List γ} (h : Framed enc) (hne : ∀ x, enc x ≠ [])
    {xs ys : List α} (he : xs.flatMap enc = ys.flatMap enc) : xs = ys := by
  have hxy : xs <+: ys := h.flatMap_prefix hne (he ▸ List.prefix_rfl)
  have hyx : ys <+: xs := h.flatMap_prefix hne (he ▸ List.prefix_rfl)
  exact hxy.eq_of_length_le hyx.length_le

/-- Frames that never start with `t`, closed by `t`. -/
theorem Framed.delimited {enc : α → List γ} (h : Framed enc) {t : γ}
    (hhead : ∀ x, ∃ c rest, enc x = c :: rest ∧ c ≠ t) :
    Framed (fun xs : List α => xs.flatMap enc ++ [t]) := by
  intro xs ys r s he
  induction xs generalizing ys with
  | nil =>
    cases ys with
    | nil => simpa using he
    | cons y ys =>
      obtain ⟨c, rest, hc, hne⟩ := hhead y
      have hct : t = c := by simpa [hc] using congrArg List.head? he
      exact absurd hct.symm hne
  | cons x xs ih =>
    cases ys with
    | nil =>
      obtain ⟨c, rest, hc, hne⟩ := hhead x
      have hct : c = t := by simpa [hc] using congrArg List.head? he
      exact absurd hct hne
    | cons y ys =>
      simp only [List.flatMap_cons, List.append_assoc] at he
      obtain ⟨rfl, hrest⟩ := h x y _ _ he
      obtain ⟨rfl, hrs⟩ := ih ys (by simpa only [List.append_assoc] using hrest)
      exact ⟨rfl, hrs⟩

/-- A run of symbols satisfying `p` ends at the first one that does not. -/
theorem span_unique {p : γ → Bool} {xs ys r s : List γ} {t u : γ}
    (hx : ∀ a ∈ xs, p a = true) (hy : ∀ a ∈ ys, p a = true)
    (ht : p t = false) (hu : p u = false) (he : xs ++ t :: r = ys ++ u :: s) :
    xs = ys ∧ t = u ∧ r = s := by
  induction xs generalizing ys with
  | nil =>
    cases ys with
    | nil => simpa using he
    | cons y ys =>
      have hty : t = y := by simpa using congrArg List.head? he
      have hpy := hy y (by simp)
      rw [← hty, ht] at hpy
      cases hpy
  | cons x xs ih =>
    cases ys with
    | nil =>
      have hxu : x = u := by simpa using congrArg List.head? he
      have hpx := hx x (by simp)
      rw [hxu, hu] at hpx
      cases hpx
    | cons y ys =>
      simp only [List.cons_append, List.cons.injEq] at he
      obtain ⟨rfl, hrest⟩ := he
      obtain ⟨rfl, hh⟩ :=
        ih (fun a ha => hx a (by simp [ha])) (fun a ha => hy a (by simp [ha])) hrest
      exact ⟨rfl, hh⟩

def leBytes : Nat → Nat → List UInt8
  | 0, _ => []
  | w + 1, n => UInt8.ofNat n :: leBytes w (n / 256)

def beBytes (w n : Nat) : List UInt8 := (leBytes w n).reverse

def ofLeBytes : List UInt8 → Nat
  | [] => 0
  | b :: bytes => b.toNat + 256 * ofLeBytes bytes

@[simp] theorem length_leBytes (w n : Nat) : (leBytes w n).length = w := by
  induction w generalizing n with
  | zero => rfl
  | succ w ih => simp [leBytes, ih]

@[simp] theorem length_beBytes (w n : Nat) : (beBytes w n).length = w := by
  simp [beBytes]

theorem ofLeBytes_leBytes {w n : Nat} (hn : n < 256 ^ w) : ofLeBytes (leBytes w n) = n := by
  induction w generalizing n with
  | zero => simp only [Nat.pow_zero] at hn; simp only [leBytes, ofLeBytes]; omega
  | succ w ih =>
    have hq : n / 256 < 256 ^ w := by
      rw [Nat.pow_succ] at hn
      omega
    simp only [leBytes, ofLeBytes, ih hq, UInt8.toNat_ofNat']
    omega

theorem ofLeBytes_lt (bytes : List UInt8) : ofLeBytes bytes < 256 ^ bytes.length := by
  induction bytes with
  | nil => simp [ofLeBytes]
  | cons b bytes ih =>
    have hb := b.toNat_lt
    rw [ofLeBytes, List.length_cons, Nat.pow_succ]
    omega

theorem leBytes_ofLeBytes (bytes : List UInt8) :
    leBytes bytes.length (ofLeBytes bytes) = bytes := by
  induction bytes with
  | nil => rfl
  | cons b bytes ih =>
    have hb := b.toNat_lt
    have hquot : (b.toNat + 256 * ofLeBytes bytes) / 256 = ofLeBytes bytes := by omega
    have hbyte : UInt8.ofNat (b.toNat + 256 * ofLeBytes bytes) = b := by
      apply UInt8.toNat_inj.mp
      rw [UInt8.toNat_ofNat']
      omega
    rw [ofLeBytes, List.length_cons, leBytes, hquot, ih, hbyte]

theorem leBytes_inj {w m n : Nat} (hm : m < 256 ^ w) (hn : n < 256 ^ w)
    (h : leBytes w m = leBytes w n) : m = n := by
  have hh := congrArg ofLeBytes h
  rwa [ofLeBytes_leBytes hm, ofLeBytes_leBytes hn] at hh

theorem beBytes_inj {w m n : Nat} (hm : m < 256 ^ w) (hn : n < 256 ^ w)
    (h : beBytes w m = beBytes w n) : m = n :=
  leBytes_inj hm hn (List.reverse_inj.mp h)

end Framing
