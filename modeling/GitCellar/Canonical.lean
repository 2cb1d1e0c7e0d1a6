import GitCellar.Bytes
import GitCellar.Decimal

/-! The length-prefix encoder shared by the signed canonicals: a field is
`<decimal byte length>:<bytes>\n`, a canonical is its fields in order. -/

namespace GitCellar

open Framing Decimal Utf8

def lpPush (out : Bytes) (s : String) : Bytes :=
  out ++ utf8 (toString (utf8 s).length) ++ [58] ++ utf8 s ++ [10]

theorem utf8_toString_nat (n : Nat) : utf8 (toString n) = natDigits n := by
  have hrepr : toString n = String.ofList (Nat.toDigits 10 n) := Nat.repr_eq_ofList_toDigits
  rw [hrepr, utf8_ascii, natDigits, asciiBytes]
  intro c hc
  have hdigit := (digit_of_mem_toDigits hc).2
  rw [UInt32.le_iff_toNat_le]
  exact Nat.le_trans hdigit (by decide)

theorem utf8_toString_int (z : Int) : utf8 (toString z) = intDigits z := by
  cases z with
  | ofNat n => exact utf8_toString_nat n
  | negSucc n =>
    have hrepr : toString (Int.negSucc n) = "-" ++ toString (n + 1) := rfl
    have hminus : utf8 "-" = [45] := by decide
    rw [hrepr, utf8_append, hminus, utf8_toString_nat, intDigits, List.singleton_append]

theorem toString_int_injective {y z : Int} (h : toString y = toString z) : y = z := by
  apply intDigits_injective
  rw [← utf8_toString_int, ← utf8_toString_int, h]

theorem toString_uint32_injective {m n : UInt32} (h : toString m = toString n) : m = n := by
  have hint : toString (m.toNat : Int) = toString (n.toNat : Int) := h
  exact UInt32.toNat_inj.mp (Int.ofNat_inj.mp (toString_int_injective hint))

theorem toString_int32_injective {m n : Int32} (h : toString m = toString n) : m = n :=
  Int32.toInt_inj.mp (toString_int_injective h)

theorem toString_int64_injective {m n : Int64} (h : toString m = toString n) : m = n :=
  Int64.toInt_inj.mp (toString_int_injective h)

theorem lpPush_eq (out : Bytes) (s : String) : lpPush out s = out ++ lpPush [] s := by
  simp only [lpPush, List.nil_append, List.append_assoc]

theorem framed_lpPush : Framed (lpPush []) := by
  intro x y r s he
  simp only [lpPush, List.nil_append, List.append_assoc, utf8_toString_nat,
    List.cons_append] at he
  obtain ⟨hdigits, _, hbody⟩ := span_unique (isDigit_natDigits _) (isDigit_natDigits _)
    (by decide) (by decide) he
  obtain ⟨hxy, hrest⟩ := List.append_inj hbody (natDigits_injective hdigits)
  exact ⟨utf8_injective hxy, (List.cons.inj hrest).2⟩

theorem lpPush_head (s : String) : ∃ c rest, lpPush [] s = c :: rest ∧ isDigit c = true := by
  obtain ⟨c, rest, hc⟩ := List.exists_cons_of_ne_nil (natDigits_ne_nil (utf8 s).length)
  refine ⟨c, rest ++ [58] ++ utf8 s ++ [10], ?_, ?_⟩
  · simp only [lpPush, utf8_toString_nat, hc, List.nil_append, List.cons_append]
  · exact isDigit_natDigits (utf8 s).length c (by rw [hc]; exact List.mem_cons_self)

theorem lpPush_ne_nil (s : String) : lpPush [] s ≠ [] := by
  obtain ⟨c, rest, hc, _⟩ := lpPush_head s
  simp [hc]

def lpFields (fields : List String) : Bytes := fields.foldl lpPush []

theorem lpFields_eq (fields : List String) : lpFields fields = fields.flatMap (lpPush []) := by
  have happ : ∀ out : Bytes, fields.foldl lpPush out = out ++ fields.flatMap (lpPush []) := by
    induction fields with
    | nil => simp
    | cons s fields ih =>
      intro out
      rw [List.foldl_cons, ih, lpPush_eq, List.flatMap_cons, List.append_assoc]
  exact happ []

theorem lpFields_prefix {xs ys : List String} (h : lpFields xs <+: lpFields ys) : xs <+: ys := by
  rw [lpFields_eq, lpFields_eq] at h
  exact framed_lpPush.flatMap_prefix lpPush_ne_nil h

theorem lpFields_injective {xs ys : List String} (h : lpFields xs = lpFields ys) : xs = ys := by
  rw [lpFields_eq, lpFields_eq] at h
  exact framed_lpPush.flatMap_injective lpPush_ne_nil h

theorem lpFields_tagged {tag tag' : String} {xs ys : List String}
    (h : lpFields (tag :: xs) = lpFields (tag' :: ys)) : tag = tag' ∧ xs = ys :=
  List.cons.inj (lpFields_injective h)

theorem lpFields_head (tag : String) (fields : List String) :
    ∃ c rest, lpFields (tag :: fields) = c :: rest ∧ isDigit c = true := by
  obtain ⟨c, rest, hc, hdigit⟩ := lpPush_head tag
  refine ⟨c, rest ++ fields.flatMap (lpPush []), ?_, hdigit⟩
  rw [lpFields_eq, List.flatMap_cons, hc, List.cons_append]

end GitCellar
