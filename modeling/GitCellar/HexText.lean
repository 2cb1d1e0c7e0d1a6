import GitCellar.ChunkNames
import GitCellar.Words

/-! Texts of hexadecimal digits in either letter case: what lowercasing and
decoding make of them. -/

namespace GitCellar

open Utf8 Unicode

/-- `char::is_ascii_hexdigit` -/
def isHexDigit (c : Char) : Bool :=
  (48 ≤ c.toNat && c.toNat ≤ 57) || (65 ≤ c.toNat && c.toNat ≤ 70) ||
  (97 ≤ c.toNat && c.toNat ≤ 102)

def HexDigits (n : Nat) (text : List Char) : Prop :=
  text.length = n ∧ ∀ c ∈ text, isHexDigit c = true

variable {c : Char} {text : List Char} {n : Nat} {bytes : Bytes}

theorem isHexDigit_lt (h : isHexDigit c = true) : c.toNat < 128 := by
  simp only [isHexDigit, Bool.or_eq_true, Bool.and_eq_true, decide_eq_true_eq] at h
  omega

theorem hexDigit_all : (List.range 128).all (fun n => isHexDigit (Char.ofNat n) ==
    (List.range 16).any fun v => asciiLower (Char.ofNat n) == Nat.digitChar v) = true := by
  decide +kernel

/-- A hexadecimal digit is one the encoder writes, up to letter case. -/
theorem isHexDigit_iff : isHexDigit c = true ↔ ∃ v < 16, asciiLower c = Nat.digitChar v := by
  by_cases hc : c.toNat < 128
  · have hall := List.all_eq_true.mp hexDigit_all c.toNat (List.mem_range.mpr hc)
    rw [Char.ofNat_toNat, beq_iff_eq] at hall
    simp only [hall, List.any_eq_true, List.mem_range, beq_iff_eq]
  · refine iff_of_false (fun h => hc (isHexDigit_lt h)) ?_
    rintro ⟨v, hv, heq⟩
    have hkeep : asciiLower c = c := if_neg fun h => hc (by omega)
    have hsmall := UInt32.le_iff_toNat_le.mp (digitChar_ascii v hv).1
    rw [← heq, hkeep] at hsmall
    exact hc (Nat.lt_of_le_of_lt hsmall (by decide))

theorem mem_hexByte {b : UInt8} (h : c ∈ hexByte b) : ∃ v < 16, c = Nat.digitChar v := by
  have hb := b.toNat_lt
  simp only [hexByte, List.mem_cons, List.not_mem_nil, or_false] at h
  rcases h with rfl | rfl
  · exact ⟨b.toNat / 16, by omega, rfl⟩
  · exact ⟨b.toNat % 16, by omega, rfl⟩

theorem toList_hexEncode (bytes : Bytes) : (hexEncode bytes).toList = bytes.flatMap hexByte :=
  String.toList_ofList

theorem length_hexEncode (bytes : Bytes) : (hexEncode bytes).toList.length = 2 * bytes.length := by
  rw [toList_hexEncode]
  induction bytes with
  | nil => rfl
  | cons b bytes ih =>
    rw [List.flatMap_cons, List.length_append, ih, List.length_cons]
    show 2 + 2 * bytes.length = 2 * (bytes.length + 1)
    omega

theorem hexDigits_of_lower (h : text.map asciiLower = (hexEncode bytes).toList) :
    HexDigits (2 * bytes.length) text := by
  constructor
  · rw [← length_hexEncode, ← h, List.length_map]
  · intro c hc
    have hmem : asciiLower c ∈ bytes.flatMap hexByte := by
      rw [← toList_hexEncode, ← h]
      exact List.mem_map_of_mem hc
    obtain ⟨b, _, hb⟩ := List.mem_flatMap.mp hmem
    exact isHexDigit_iff.mpr (mem_hexByte hb)

theorem exists_hexByte {hi lo : Char} (hhi : isHexDigit hi = true) (hlo : isHexDigit lo = true) :
    ∃ b, hexByte b = [asciiLower hi, asciiLower lo] := by
  obtain ⟨v, hv, hdigit⟩ := isHexDigit_iff.mp hhi
  obtain ⟨w, hw, hdigit'⟩ := isHexDigit_iff.mp hlo
  have hnat : (UInt8.ofNat (v * 16 + w)).toNat = v * 16 + w := by
    rw [UInt8.toNat_ofNat']
    omega
  refine ⟨UInt8.ofNat (v * 16 + w), ?_⟩
  rw [hexByte, hnat, hdigit, hdigit', show (v * 16 + w) / 16 = v by omega,
    show (v * 16 + w) % 16 = w by omega]

theorem exists_bytes_of_hexDigits (h : HexDigits (2 * n) text) :
    ∃ bytes : Bytes, bytes.length = n ∧ text.map asciiLower = (hexEncode bytes).toList := by
  induction n generalizing text with
  | zero =>
    obtain rfl := List.length_eq_zero_iff.mp h.1
    exact ⟨[], rfl, rfl⟩
  | succ n ih =>
    obtain ⟨hlen, hdigits⟩ := h
    cases text with
    | nil => simp at hlen
    | cons hi text =>
      cases text with
      | nil =>
        rw [List.length_singleton] at hlen
        omega
      | cons lo text =>
        have hrest : HexDigits (2 * n) text := by
          refine ⟨?_, fun c hc => hdigits c (by simp [hc])⟩
          simp only [List.length_cons] at hlen
          omega
        obtain ⟨bytes, hbytes, htext⟩ := ih hrest
        obtain ⟨b, hb⟩ := exists_hexByte (hdigits hi (by simp)) (hdigits lo (by simp))
        refine ⟨b :: bytes, by rw [List.length_cons, hbytes], ?_⟩
        rw [toList_hexEncode] at htext ⊢
        rw [List.map_cons, List.map_cons, List.flatMap_cons, hb, htext]
        rfl

theorem map_asciiLower_hexEncode (bytes : Bytes) :
    (hexEncode bytes).toList.map asciiLower = (hexEncode bytes).toList := by
  have hlower : toAsciiLowercase (hexEncode bytes) = hexEncode bytes :=
    hexDecode_eq_some_iff.mp (hexDecode_hexEncode bytes)
  have hchars := congrArg String.toList hlower
  rwa [toAsciiLowercase, String.toList_ofList] at hchars

theorem hexDigits_hexEncode (bytes : Bytes) :
    HexDigits (2 * bytes.length) (hexEncode bytes).toList :=
  hexDigits_of_lower (map_asciiLower_hexEncode bytes)

theorem toLower_ascii_all : (List.range 128).all (fun n =>
    toLower (Char.ofNat n) == [asciiLower (Char.ofNat n)]) = true := by
  decide +kernel

theorem toLower_of_hexDigit (h : isHexDigit c = true) : c ≠ 'Σ' ∧ toLower c = [asciiLower c] := by
  have hc := isHexDigit_lt h
  constructor
  · rintro rfl
    exact absurd hc (by decide)
  · have hall := List.all_eq_true.mp toLower_ascii_all c.toNat (List.mem_range.mpr hc)
    rw [Char.ofNat_toNat, beq_iff_eq] at hall
    exact hall

/-- `str::to_lowercase` changes the letters of such a text one by one. -/
theorem toLowercase_of_hexDigits {s : String} (h : ∀ c ∈ s.toList, isHexDigit c = true) :
    toLowercase s = toAsciiLowercase s := by
  rw [toLowercase, lowerFrom_of_single fun c hc => toLower_of_hexDigit (h c hc), toAsciiLowercase]

theorem notMem_of_hexDigits {sep : Char} (hsep : isHexDigit sep = false)
    (h : ∀ c ∈ text, isHexDigit c = true) : sep ∉ text := by
  intro hmem
  rw [h sep hmem] at hsep
  cases hsep

end GitCellar
