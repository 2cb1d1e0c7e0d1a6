import GitCellar.Framing

/-! Decimal numerals as ASCII bytes. -/

namespace Decimal

open Framing

def asciiBytes (cs : List Char) : List UInt8 := cs.map fun c => c.val.toUInt8

def isDigit (b : UInt8) : Bool := 48 ≤ b && b ≤ 57

def natDigits (n : Nat) : List UInt8 := asciiBytes (Nat.toDigits 10 n)

def intDigits : Int → List UInt8
  | .ofNat n => natDigits n
  | .negSucc n => 45 :: natDigits (n + 1)

theorem ascii_of_digit {c : Char} (h : c.isDigit = true) : 48 ≤ c.val.toNat ∧ c.val.toNat ≤ 57 := by
  simp only [Char.isDigit, Bool.and_eq_true, decide_eq_true_eq] at h
  obtain ⟨hlo, hhi⟩ := h
  exact ⟨UInt32.le_iff_toNat_le.mp hlo, UInt32.le_iff_toNat_le.mp hhi⟩

theorem digit_of_mem_toDigits {n : Nat} {c : Char} (hc : c ∈ Nat.toDigits 10 n) :
    48 ≤ c.val.toNat ∧ c.val.toNat ≤ 57 :=
  ascii_of_digit (Nat.isDigit_of_mem_toDigits (by decide) (by decide) hc)

theorem isDigit_natDigits (n : Nat) : ∀ b ∈ natDigits n, isDigit b = true := by
  intro b hb
  obtain ⟨c, hc, rfl⟩ := List.mem_map.mp hb
  obtain ⟨hlo, hhi⟩ := digit_of_mem_toDigits hc
  have hval : c.val.toUInt8.toNat = c.val.toNat := by
    rw [UInt32.toNat_toUInt8]
    omega
  simp only [isDigit, Bool.and_eq_true, decide_eq_true_eq, UInt8.le_iff_toNat_le, hval]
  exact ⟨hlo, hhi⟩

theorem natDigits_ne_nil (n : Nat) : natDigits n ≠ [] := by
  intro h
  exact Nat.toDigits_ne_nil (List.map_eq_nil_iff.mp h)

theorem chars_natDigits (n : Nat) :
    (natDigits n).map (fun b => Char.ofNat b.toNat) = Nat.toDigits 10 n := by
  rw [natDigits, asciiBytes, List.map_map]
  refine (List.map_congr_left fun c hc => ?_).trans (List.map_id _)
  obtain ⟨_, hhi⟩ := digit_of_mem_toDigits hc
  have hval : c.val.toUInt8.toNat = c.toNat := by
    rw [UInt32.toNat_toUInt8]
    exact Nat.mod_eq_of_lt (by omega)
  simp only [Function.comp_apply, hval, Char.ofNat_toNat, id_eq]

theorem natDigits_injective {m n : Nat} (h : natDigits m = natDigits n) : m = n := by
  have hchars : Nat.toDigits 10 m = Nat.toDigits 10 n := by
    rw [← chars_natDigits m, ← chars_natDigits n, h]
  calc m = Nat.ofDigitChars 10 (Nat.toDigits 10 m) 0 := Nat.ofDigitChars_ten_toDigits.symm
    _ = Nat.ofDigitChars 10 (Nat.toDigits 10 n) 0 := by rw [hchars]
    _ = n := Nat.ofDigitChars_ten_toDigits

def isNumeral (b : UInt8) : Bool := isDigit b || b == 45

theorem isNumeral_intDigits (z : Int) : ∀ b ∈ intDigits z, isNumeral b = true := by
  intro b hb
  cases z with
  | ofNat n => simp [isNumeral, isDigit_natDigits n b hb]
  | negSucc n =>
    rcases List.mem_cons.mp hb with rfl | hb
    · rfl
    · simp [isNumeral, isDigit_natDigits (n + 1) b hb]

theorem intDigits_ne_nil (z : Int) : intDigits z ≠ [] := by
  cases z with
  | ofNat n => exact natDigits_ne_nil n
  | negSucc n => simp [intDigits]

theorem intDigits_injective {y z : Int} (h : intDigits y = intDigits z) : y = z := by
  have hminus : ∀ m n, natDigits m ≠ 45 :: natDigits n := by
    intro m n he
    have hdigit := isDigit_natDigits m 45 (by rw [he]; exact List.mem_cons_self)
    exact absurd hdigit (by decide)
  cases y with
  | ofNat m =>
    cases z with
    | ofNat n => exact congrArg Int.ofNat (natDigits_injective h)
    | negSucc n => exact absurd h (hminus m (n + 1))
  | negSucc m =>
    cases z with
    | ofNat n => exact absurd h.symm (hminus n (m + 1))
    | negSucc n =>
      have hsucc := natDigits_injective (List.cons.inj h).2
      exact congrArg Int.negSucc (by omega)

end Decimal
