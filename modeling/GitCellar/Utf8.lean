import Mathlib.Algebra.Order.Ring.Nat
import Mathlib.Tactic.Common

/-! Strings as their UTF-8 bytes. -/

namespace Utf8

def utf8 (s : String) : List UInt8 := s.toByteArray.data.toList

theorem utf8_injective {s t : String} (h : utf8 s = utf8 t) : s = t := by
  apply String.toByteArray_inj.mp
  exact ByteArray.ext (Array.toList_inj.mp h)

theorem utf8_ofList (cs : List Char) :
    utf8 (String.ofList cs) = cs.flatMap String.utf8EncodeChar := by
  simp [utf8, List.utf8Encode, List.data_toByteArray]

theorem utf8_append (s t : String) : utf8 (s ++ t) = utf8 s ++ utf8 t := by
  simp [utf8, String.toByteArray_append]

theorem utf8EncodeChar_ascii {c : Char} (h : c.val ≤ 127) :
    String.utf8EncodeChar c = [c.val.toUInt8] :=
  String.utf8EncodeChar_eq_singleton (by simp [Char.utf8Size, h])

theorem utf8_ascii {cs : List Char} (h : ∀ c ∈ cs, c.val ≤ 127) :
    utf8 (String.ofList cs) = cs.map (fun c => c.val.toUInt8) := by
  rw [utf8_ofList]
  induction cs with
  | nil => rfl
  | cons c cs ih =>
    have hc := utf8EncodeChar_ascii (h c List.mem_cons_self)
    have hcs := ih fun d hd => h d (List.mem_cons_of_mem c hd)
    rw [List.flatMap_cons, hc, hcs, List.map_cons, List.singleton_append]

theorem length_utf8_ascii {s : String} (h : ∀ c ∈ s.toList, c.toNat < 128) :
    (utf8 s).length = s.toList.length := by
  have hascii : ∀ c ∈ s.toList, c.val ≤ 127 := by
    intro c hc
    exact UInt32.le_iff_toNat_le.mpr (Nat.le_of_lt_succ (h c hc))
  have hbytes := utf8_ascii hascii
  rw [String.ofList_toList] at hbytes
  rw [hbytes, List.length_map]

/-- The bytes of some string. -/
def IsText (b : List UInt8) : Prop := (ByteArray.mk b.toArray).IsValidUTF8

def toText (b : List UInt8) (h : IsText b) : String := String.fromUTF8 ⟨b.toArray⟩ h

theorem utf8_toText (b : List UInt8) (h : IsText b) : utf8 (toText b h) = b := rfl

theorem isText_utf8 (s : String) : IsText (utf8 s) := s.isValidUTF8

instance (b : List UInt8) : Decidable (IsText b) :=
  inferInstanceAs (Decidable (ByteArray.IsValidUTF8 _))

def replacement : Char := Char.ofNat 0xFFFD

/-- How many bytes follow a lead byte, and the range of the first of them. -/
def follow (b : UInt8) : Option (Nat × UInt8 × UInt8) :=
  if 0xC2 ≤ b ∧ b ≤ 0xDF then some (1, 0x80, 0xBF)
  else if b = 0xE0 then some (2, 0xA0, 0xBF)
  else if b = 0xED then some (2, 0x80, 0x9F)
  else if 0xE1 ≤ b ∧ b ≤ 0xEF then some (2, 0x80, 0xBF)
  else if b = 0xF0 then some (3, 0x90, 0xBF)
  else if 0xF1 ≤ b ∧ b ≤ 0xF3 then some (3, 0x80, 0xBF)
  else if b = 0xF4 then some (3, 0x80, 0x8F)
  else none

/-- The bytes after a lead byte that belong to its character. -/
def followers (count : Nat) (low high : UInt8) : List UInt8 → List UInt8
  | [] => []
  | b :: rest =>
    if 0 < count ∧ low ≤ b ∧ b ≤ high then b :: followers (count - 1) 0x80 0xBF rest else []

def codePoint (count : Nat) (lead : UInt8) (rest : List UInt8) : Nat :=
  rest.foldl (fun n b => n * 64 + b.toNat % 64) (lead.toNat % 2 ^ (6 - count))

/-- Each longest beginning of a character that is cut short becomes one
replacement character. -/
def lossyChars : Nat → List UInt8 → List Char
  | 0, _ => []
  | _, [] => []
  | fuel + 1, b :: rest =>
    if b < 128 then Char.ofNat b.toNat :: lossyChars fuel rest
    else
      match follow b with
      | none => replacement :: lossyChars fuel rest
      | some (count, low, high) =>
        let good := followers count low high rest
        if good.length = count then
          Char.ofNat (codePoint count b good) :: lossyChars fuel (rest.drop count)
        else replacement :: lossyChars fuel (rest.drop good.length)

/-- `String::from_utf8_lossy` -/
def fromUtf8Lossy (b : List UInt8) : String :=
  if h : IsText b then toText b h else String.ofList (lossyChars b.length b)

theorem fromUtf8Lossy_utf8 (s : String) : fromUtf8Lossy (utf8 s) = s := by
  rw [fromUtf8Lossy, dif_pos (isText_utf8 s)]
  apply utf8_injective
  rw [utf8_toText]

theorem IsText.append {a b : List UInt8} (ha : IsText a) (hb : IsText b) : IsText (a ++ b) := by
  have happ : utf8 (toText a ha ++ toText b hb) = a ++ b := by
    rw [utf8_append, utf8_toText, utf8_toText]
  rw [← happ]
  exact isText_utf8 _

theorem isText_ascii {b : List UInt8} (hall : b.all (fun x => x < 128) = true) : IsText b := by
  have h : ∀ x ∈ b, x < 128 := by simpa using hall
  have hcode : ∀ x ∈ b, (Char.ofNat x.toNat).val = x.toUInt32 := by
    intro x hx
    have hsmall := UInt8.lt_iff_toNat_lt.mp (h x hx)
    have hvalid : x.toNat.isValidChar := .inl (Nat.lt_trans hsmall (by decide))
    rw [Char.ofNat, dif_pos hvalid]
    rfl
  have hchars : utf8 (String.ofList (b.map fun x => Char.ofNat x.toNat)) = b := by
    rw [utf8_ascii, List.map_map]
    · refine (List.map_congr_left fun x hx => ?_).trans (List.map_id b)
      rw [Function.comp_apply, hcode x hx, UInt8.toUInt8_toUInt32]
      rfl
    · intro c hc
      obtain ⟨x, hx, rfl⟩ := List.mem_map.mp hc
      have hsmall := UInt8.lt_iff_toNat_lt.mp (h x hx)
      rw [hcode x hx, UInt32.le_iff_toNat_le, UInt8.toNat_toUInt32]
      exact Nat.le_of_lt_succ hsmall
  rw [← hchars]
  exact isText_utf8 _

theorem le_of_mem_utf8EncodeChar {c : Char} (hc : ¬ c.val ≤ 127) {b : UInt8}
    (hb : b ∈ String.utf8EncodeChar c) : 128 ≤ b := by
  have hlarge : ¬ c.val.toNat ≤ 127 := fun h => hc (UInt32.le_iff_toNat_le.mpr h)
  rw [UInt8.le_iff_toNat_le]
  simp only [String.utf8EncodeChar, hlarge, if_false] at hb
  split at hb
  · simp only [List.mem_cons, List.not_mem_nil, or_false] at hb
    rcases hb with rfl | rfl <;> simp only [UInt8.toNat_ofNat', UInt8.reduceToNat] <;> omega
  · split at hb
    · simp only [List.mem_cons, List.not_mem_nil, or_false] at hb
      rcases hb with rfl | rfl | rfl <;> simp only [UInt8.toNat_ofNat', UInt8.reduceToNat] <;> omega
    · have hmax := c.valid
      simp only [List.mem_cons, List.not_mem_nil, or_false] at hb
      rcases hb with rfl | rfl | rfl | rfl <;>
        simp only [UInt8.toNat_ofNat', UInt8.reduceToNat] <;> omega

end Utf8
