import GitCellar.Chunking
import GitCellar.Unicode

/-! Which names verification accepts. A name is decoded before it is compared,
so letter case does not show in the comparison. -/

namespace GitCellar

open Utf8 Unicode

def lowerByte (b : UInt8) : UInt8 := if 65 ≤ b ∧ b ≤ 90 then b + 32 else b

theorem utf8EncodeChar_asciiLower (c : Char) :
    String.utf8EncodeChar (asciiLower c) = (String.utf8EncodeChar c).map lowerByte := by
  by_cases hc : c.val ≤ 127
  · by_cases hupper : 65 ≤ c.toNat ∧ c.toNat ≤ 90
    · have hvalid : (c.toNat + 32).isValidChar := .inl (by omega)
      have hval : (Char.ofNat (c.toNat + 32)).val.toNat = c.toNat + 32 := by
        rw [Char.ofNat, dif_pos hvalid]
        rfl
      have hsmall : (Char.ofNat (c.toNat + 32)).val ≤ 127 := by
        rw [UInt32.le_iff_toNat_le, hval]
        show c.toNat + 32 ≤ 127
        omega
      have hbyte : c.val.toUInt8.toNat = c.toNat := by
        rw [UInt32.toNat_toUInt8]
        exact Nat.mod_eq_of_lt (by show c.toNat < 256; omega)
      rw [asciiLower, if_pos hupper, utf8EncodeChar_ascii hsmall, utf8EncodeChar_ascii hc,
        List.map_singleton, List.singleton_inj, lowerByte, if_pos]
      · apply UInt8.toNat_inj.mp
        rw [UInt32.toNat_toUInt8, hval, UInt8.toNat_add, hbyte]
        rfl
      · rw [UInt8.le_iff_toNat_le, UInt8.le_iff_toNat_le, hbyte]
        exact hupper
    · have hbyte : c.val.toUInt8.toNat = c.toNat := by
        rw [UInt32.toNat_toUInt8]
        have hsmall := UInt32.le_iff_toNat_le.mp hc
        exact Nat.mod_eq_of_lt (Nat.lt_of_le_of_lt hsmall (by decide))
      rw [asciiLower, if_neg hupper, utf8EncodeChar_ascii hc, List.map_singleton, lowerByte, if_neg]
      rw [UInt8.le_iff_toNat_le, UInt8.le_iff_toNat_le, hbyte]
      exact hupper
  · have hlarge : ¬ (65 ≤ c.toNat ∧ c.toNat ≤ 90) := by
      rintro ⟨_, hle⟩
      exact hc (UInt32.le_iff_toNat_le.mpr (Nat.le_trans hle (by decide)))
    rw [asciiLower, if_neg hlarge]
    refine ((List.map_congr_left fun b hb => ?_).trans (List.map_id _)).symm
    have hb128 := le_of_mem_utf8EncodeChar hc hb
    rw [lowerByte, if_neg]
    · rfl
    · rintro ⟨_, hle⟩
      exact absurd (UInt8.le_trans hb128 hle) (by decide)

theorem utf8_toAsciiLowercase (s : String) :
    utf8 (toAsciiLowercase s) = (utf8 s).map lowerByte := by
  have hs : utf8 s = s.toList.flatMap String.utf8EncodeChar := by
    rw [← utf8_ofList, String.ofList_toList]
  rw [toAsciiLowercase, utf8_ofList, List.flatMap_map, hs, List.map_flatMap]
  simp only [utf8EncodeChar_asciiLower]

def digitByte (n : UInt8) : UInt8 := (Nat.digitChar n.toNat).val.toUInt8

theorem hexVal_sound_all : (List.range 256).all (fun n => (hexVal (UInt8.ofNat n)).all fun v =>
    v < 16 && digitByte v == lowerByte (UInt8.ofNat n)) = true := by
  decide +kernel

theorem hexVal_complete_all : (List.range 256).all (fun n => (List.range 16).all fun v =>
    digitByte (UInt8.ofNat v) != lowerByte (UInt8.ofNat n) ||
      hexVal (UInt8.ofNat n) == some (UInt8.ofNat v)) = true := by
  decide +kernel

theorem hexVal_eq_some_iff {c v : UInt8} :
    hexVal c = some v ↔ v < 16 ∧ digitByte v = lowerByte c := by
  have hc : c.toNat ∈ List.range 256 := List.mem_range.mpr c.toNat_lt
  constructor
  · intro h
    have hall := List.all_eq_true.mp hexVal_sound_all c.toNat hc
    rw [UInt8.ofNat_toNat, h] at hall
    simpa using hall
  · rintro ⟨hv, hdigit⟩
    have hrange : v.toNat ∈ List.range 16 := List.mem_range.mpr (UInt8.lt_iff_toNat_lt.mp hv)
    have hall :=
      List.all_eq_true.mp (List.all_eq_true.mp hexVal_complete_all c.toNat hc) v.toNat hrange
    rw [UInt8.ofNat_toNat, UInt8.ofNat_toNat] at hall
    simpa [hdigit] using hall

theorem map_hexByte (b : UInt8) :
    (hexByte b).map (fun c => c.val.toUInt8) = [digitByte (b / 16), digitByte (b % 16)] := by
  simp only [hexByte, List.map_cons, List.map_nil, digitByte, UInt8.toNat_div, UInt8.toNat_mod]
  rfl

theorem nibbles {x y : UInt8} (hx : x < 16) (hy : y < 16) :
    (x * 16 + y) / 16 = x ∧ (x * 16 + y) % 16 = y := by
  have hx16 := UInt8.lt_iff_toNat_lt.mp hx
  have hy16 := UInt8.lt_iff_toNat_lt.mp hy
  have h16 : (16 : UInt8).toNat = 16 := rfl
  have hsum : (x * 16 + y).toNat = x.toNat * 16 + y.toNat := by
    rw [UInt8.toNat_add, UInt8.toNat_mul, h16]
    omega
  constructor
  · apply UInt8.toNat_inj.mp
    rw [UInt8.toNat_div, hsum, h16]
    omega
  · apply UInt8.toNat_inj.mp
    rw [UInt8.toNat_mod, hsum, h16]
    omega

theorem nibbles_of (b : UInt8) : b / 16 < 16 ∧ b % 16 < 16 ∧ b / 16 * 16 + b % 16 = b := by
  have hb := b.toNat_lt
  have h16 : (16 : UInt8).toNat = 16 := rfl
  refine ⟨?_, ?_, ?_⟩
  · rw [UInt8.lt_iff_toNat_lt, UInt8.toNat_div, h16]
    omega
  · rw [UInt8.lt_iff_toNat_lt, UInt8.toNat_mod, h16]
    omega
  · apply UInt8.toNat_inj.mp
    rw [UInt8.toNat_add, UInt8.toNat_mul, UInt8.toNat_div, UInt8.toNat_mod, h16]
    omega

/-- Decoding reads digits of either case: it finds `bytes` where the lower-case
text is their encoding. -/
theorem hexPairs_eq_some_iff {text bytes : Bytes} :
    hexPairs text = some bytes ↔
      text.map lowerByte = (bytes.flatMap hexByte).map (fun c => c.val.toUInt8) := by
  induction text using hexPairs.induct generalizing bytes with
  | case1 =>
    cases bytes with
    | nil => simp [hexPairs]
    | cons b bytes => simp [hexPairs, hexByte]
  | case2 c =>
    cases bytes with
    | nil => simp [hexPairs]
    | cons b bytes => simp [hexPairs, hexByte]
  | case3 hi lo rest ih =>
    cases bytes with
    | nil => simp [hexPairs, Option.bind_eq_some_iff]
    | cons b bytes =>
      rw [List.flatMap_cons, List.map_append, map_hexByte]
      simp only [List.map_cons, List.cons_append, List.nil_append, List.cons.injEq, ← ih]
      constructor
      · intro h
        simp only [hexPairs, Option.bind_eq_bind, Option.bind_eq_some_iff, pure, Option.some.injEq,
          List.cons.injEq] at h
        obtain ⟨x, hx, y, hy, tail, htail, rfl, rfl⟩ := h
        obtain ⟨hx16, hxdigit⟩ := hexVal_eq_some_iff.mp hx
        obtain ⟨hy16, hydigit⟩ := hexVal_eq_some_iff.mp hy
        obtain ⟨hdiv, hmod⟩ := nibbles hx16 hy16
        exact ⟨by rw [hdiv, hxdigit], by rw [hmod, hydigit], htail⟩
      · rintro ⟨hhi, hlo, htail⟩
        obtain ⟨hdiv, hmod, hb⟩ := nibbles_of b
        have hx := hexVal_eq_some_iff.mpr ⟨hdiv, hhi.symm⟩
        have hy := hexVal_eq_some_iff.mpr ⟨hmod, hlo.symm⟩
        simp only [hexPairs, hx, hy, htail, Option.bind_eq_bind, Option.bind_some, hb]
        rfl

theorem hexDecode_eq_some_iff {s : String} {bytes : Bytes} :
    hexDecode s = some bytes ↔ toAsciiLowercase s = hexEncode bytes := by
  rw [hexDecode, hexPairs_eq_some_iff, ← utf8_toAsciiLowercase, ← utf8_hexEncode]
  constructor
  · exact utf8_injective
  · intro h
    rw [h]

theorem decodeName_eq_some_iff {name : String} {digest : Digest} :
    decodeName name = some digest.toList ↔ toAsciiLowercase name = hexEncode digest.toList := by
  rw [← hexDecode_eq_some_iff, decodeName]
  by_cases hlen : (utf8 name).length ≠ 64
  · rw [if_pos hlen]
    constructor
    · intro h
      cases h
    · intro h
      have hbytes := congrArg List.length (congrArg utf8 (hexDecode_eq_some_iff.mp h))
      rw [utf8_toAsciiLowercase, List.length_map, length_utf8_hexEncode,
        Vector.length_toList] at hbytes
      exact absurd hbytes hlen
  · rw [if_neg hlen]

theorem verifyName_eq_true_iff {h : Hashes} {keying : Option ChunkKeying} {name : String}
    {plaintext : Bytes} : verifyName h keying name plaintext = true ↔
      toAsciiLowercase name = chunkName h keying plaintext := by
  rw [chunkName, ← decodeName_eq_some_iff, verifyName]
  cases hname : decodeName name with
  | none => simp
  | some expected => simp

theorem toAsciiLowercase_chunkName (h : Hashes) (keying : Option ChunkKeying) (data : Bytes) :
    toAsciiLowercase (chunkName h keying data) = chunkName h keying data := by
  rw [chunkName, ← hexDecode_eq_some_iff, hexDecode_hexEncode]

theorem verifyName_iff {h : Hashes} {keying : Option ChunkKeying} {x y : Bytes} :
    verifyName h keying (chunkName h keying x) y = true ↔
      nameDigest h keying y = nameDigest h keying x := by
  rw [verifyName_eq_true_iff, toAsciiLowercase_chunkName]
  constructor
  · intro hname
    exact (Vector.toList_inj.mp (hexEncode_injective hname)).symm
  · intro hdigest
    rw [chunkName, chunkName, hdigest]

/-- The comparison of an unkeyed engine: every difference is folded in before it decides. -/
def differences (expected actual : Bytes) : UInt8 :=
  (expected.zip actual).foldl (fun acc p => acc ||| (p.1 ^^^ p.2)) 0

def ChunkKeying.name (h : Hashes) (k : ChunkKeying) (data : Bytes) : String :=
  hexEncode (h.hmacSha256 k.idKey data).toList

def ChunkKeying.verifyName (h : Hashes) (k : ChunkKeying) (name : String) (plaintext : Bytes) :
    Bool :=
  match decodeName name with
  | none => false
  | some expected => expected == (h.hmacSha256 k.idKey plaintext).toList

def ChunkEngine.computeHash (h : Hashes) (data : Bytes) : String := hexEncode (h.sha256 data).toList

def ChunkEngine.name (h : Hashes) (e : ChunkEngine) (data : Bytes) : String :=
  match e.keying with
  | some k => k.name h data
  | none => ChunkEngine.computeHash h data

def ChunkEngine.verifyName (h : Hashes) (e : ChunkEngine) (name : String) (plaintext : Bytes) :
    Bool :=
  match e.keying with
  | some k => k.verifyName h name plaintext
  | none =>
    match decodeName name with
    | none => false
    | some expected => differences expected (h.sha256 plaintext).toList == 0

theorem foldl_differences_eq_zero_iff {xs ys : Bytes} (acc : UInt8) (hlen : xs.length = ys.length) :
    (xs.zip ys).foldl (fun acc p => acc ||| (p.1 ^^^ p.2)) acc = 0 ↔ acc = 0 ∧ xs = ys := by
  induction xs generalizing ys acc with
  | nil =>
    have hys : ys = [] := List.length_eq_zero_iff.mp hlen.symm
    simp [hys]
  | cons x xs ih =>
    cases ys with
    | nil => cases hlen
    | cons y ys =>
      have hrest : xs.length = ys.length := by simpa using hlen
      rw [List.zip_cons_cons, List.foldl_cons, ih _ hrest, UInt8.or_eq_zero_iff,
        UInt8.xor_eq_zero_iff, List.cons.injEq, and_assoc]

theorem differences_eq_zero_iff {xs ys : Bytes} (hlen : xs.length = ys.length) :
    differences xs ys = 0 ↔ xs = ys := by
  rw [differences, foldl_differences_eq_zero_iff 0 hlen]
  exact and_iff_right rfl

theorem decodeName_length {name : String} {bytes : Bytes} (h : decodeName name = some bytes) :
    bytes.length = 32 := by
  rw [decodeName] at h
  by_cases hlen : (utf8 name).length ≠ 64
  · rw [if_pos hlen] at h
    cases h
  · rw [if_neg hlen, hexDecode_eq_some_iff] at h
    have htext := congrArg List.length (congrArg utf8 h)
    rw [utf8_toAsciiLowercase, List.length_map, length_utf8_hexEncode] at htext
    omega

theorem ChunkEngine.name_eq (h : Hashes) (e : ChunkEngine) (data : Bytes) :
    e.name h data = chunkName h e.keying data := by
  cases hkeying : e.keying with
  | none => simp only [ChunkEngine.name, hkeying, computeHash, chunkName, nameDigest]
  | some k => simp only [ChunkEngine.name, hkeying, ChunkKeying.name, chunkName, nameDigest]

theorem ChunkEngine.verifyName_eq (h : Hashes) (e : ChunkEngine) (name : String)
    (plaintext : Bytes) :
    e.verifyName h name plaintext = GitCellar.verifyName h e.keying name plaintext := by
  cases hkeying : e.keying with
  | some k =>
    simp only [ChunkEngine.verifyName, hkeying]
    rfl
  | none =>
    simp only [ChunkEngine.verifyName, hkeying, GitCellar.verifyName, nameDigest]
    cases hname : decodeName name with
    | none => rfl
    | some expected =>
      have hlen : expected.length = (h.sha256 plaintext).toList.length := by
        rw [decodeName_length hname, Vector.length_toList]
      have hzero := differences_eq_zero_iff hlen
      rw [Bool.eq_iff_iff, beq_iff_eq, beq_iff_eq]
      exact hzero

/-- Verification accepts the spellings of the engine's name that differ from it
in letter case only. -/
theorem verifyName_spelling (h : Hashes) (e : ChunkEngine) (name : String) (plaintext : Bytes) :
    e.verifyName h name plaintext = true ↔ toAsciiLowercase name = e.name h plaintext := by
  rw [ChunkEngine.verifyName_eq, ChunkEngine.name_eq]
  exact verifyName_eq_true_iff

def abcDigest : Digest :=
  #v[0xba, 0x78, 0x16, 0xbf, 0x8f, 0x01, 0xcf, 0xea, 0x41, 0x41, 0x40, 0xde, 0x5d, 0xae, 0x22, 0x23,
    0xb0, 0x03, 0x61, 0xa3, 0x96, 0x17, 0x7a, 0x9c, 0xb4, 0x10, 0xff, 0x61, 0xf2, 0x00, 0x15, 0xad]

def abcHashes : Hashes := ⟨fun _ => abcDigest, fun _ _ => abcDigest, fun _ _ => abcDigest⟩

def upperAbcName : String := "BA7816BF8F01CFEA414140DE5DAE2223B00361A396177A9CB410FF61F20015AD"

def unkeyedEngine : ChunkEngine := ⟨⟨1, 2, 4⟩, Vector.replicate 256 3, none⟩

theorem verifyName_upper_sample :
    unkeyedEngine.verifyName abcHashes upperAbcName (utf8 "abc") = true ∧
      upperAbcName ≠ unkeyedEngine.name abcHashes (utf8 "abc") := by
  decide +kernel

end GitCellar
