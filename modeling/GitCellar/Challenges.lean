import GitCellar.HexText
import GitCellar.Joined

/-! Challenges that carry the time they were made at, and how long they are accepted. -/

namespace GitCellar

open Framing Joined Unicode

def generateTimestampedChallenge (timestamp : UInt64) (randomBytes : Vector UInt8 24) : String :=
  hexEncode (beBytes 8 timestamp.toNat) ++ ":" ++ hexEncode randomBytes.toList

/-- `u64::from_be_bytes` -/
def fromBeBytes (bytes : Bytes) : UInt64 := UInt64.ofNat (ofLeBytes bytes.reverse)

/-- `u64::saturating_sub` -/
def saturatingSub (a b : UInt64) : UInt64 := if b ≤ a then a - b else 0

/-- `currentTime` is the clock in seconds since the epoch, 0 where it stands before it. -/
def isChallengeValid (currentTime : UInt64) (challenge : String) (maxAgeSecs : UInt64) :
    Except String Bool :=
  match challenge.toList.splitOn ':' with
  | [stamp, _] =>
    match hexDecode (String.ofList stamp) with
    | none => .error "Invalid timestamp hex"
    | some timestampBytes =>
      if timestampBytes.length ≠ 8 then .error "Invalid timestamp length"
      else .ok (decide (saturatingSub currentTime (fromBeBytes timestampBytes) ≤ maxAgeSecs))
  | _ => .error "Invalid challenge format"

/-- Sixteen hexadecimal digits that spell `t`. -/
def Spells (stamp : List Char) (t : UInt64) : Prop :=
  stamp.map asciiLower = (hexEncode (beBytes 8 t.toNat)).toList

/-- One colon, the time `t` before it and `tail` behind. -/
def Stamped (challenge : String) (t : UInt64) (tail : List Char) : Prop :=
  ∃ stamp, challenge.toList = stamp ++ ':' :: tail ∧ Spells stamp t ∧ ':' ∉ tail

def HasShape (challenge : String) : Prop := ∃ stamp random,
  challenge.toList = stamp ++ ':' :: random ∧ HexDigits 16 stamp ∧ HexDigits 48 random

def Encodes (challenge : String) (t : UInt64) : Prop := ∃ stamp random,
  challenge.toList = stamp ++ ':' :: random ∧ Spells stamp t ∧ HexDigits 48 random

/-- One challenge at one time of the clock: only the generated shape is read, it is
accepted for `maxAge` seconds from its time on, and never after. -/
structure Expires (now maxAge : UInt64) (challenge : String) : Prop where
  shape : ∀ b, isChallengeValid now challenge maxAge = .ok b → HasShape challenge
  fresh : isChallengeValid now challenge maxAge = .ok true ↔
    ∃ t, Encodes challenge t ∧ t ≤ now ∧ now.toNat - t.toNat ≤ maxAge.toNat
  window : ∀ t random, challenge = generateTimestampedChallenge t random →
    (isChallengeValid now challenge maxAge = .ok true ↔
      t.toNat ≤ now.toNat ∧ now.toNat ≤ t.toNat + maxAge.toNat)
  stops : isChallengeValid now challenge maxAge = .ok true → ∀ later : UInt64,
    now.toNat + maxAge.toNat < later.toNat → isChallengeValid later challenge maxAge ≠ .ok true

variable {challenge : String} {now maxAge t u : UInt64} {stamp tail random : List Char} {b : Bool}

theorem saturatingSub_le_iff {a c : UInt64} :
    saturatingSub a t ≤ c ↔ a.toNat - t.toNat ≤ c.toNat := by
  by_cases h : t ≤ a
  · rw [saturatingSub, if_pos h, UInt64.le_iff_toNat_le, UInt64.toNat_sub_of_le a t h]
  · have hlt := UInt64.lt_iff_toNat_lt.mp (UInt64.not_le.mp h)
    rw [saturatingSub, if_neg h, UInt64.le_iff_toNat_le]
    show 0 ≤ c.toNat ↔ a.toNat - t.toNat ≤ c.toNat
    omega

theorem Spells.digits (h : Spells stamp t) : HexDigits 16 stamp := by
  have hdigits := hexDigits_of_lower h
  rwa [length_beBytes] at hdigits

theorem Spells.unique (h : Spells stamp t) (h' : Spells stamp u) : t = u := by
  have htext : hexEncode (beBytes 8 t.toNat) = hexEncode (beBytes 8 u.toNat) :=
    String.toList_inj.mp (h.symm.trans h')
  exact UInt64.toNat_inj.mp
    (beBytes_inj (UInt64.toNat_lt t) (UInt64.toNat_lt u) (hexEncode_injective htext))

theorem beBytes_fromBeBytes {bytes : Bytes} (h : bytes.length = 8) :
    beBytes 8 (fromBeBytes bytes).toNat = bytes := by
  have hlt := ofLeBytes_lt bytes.reverse
  rw [List.length_reverse, h] at hlt
  have hnat : (fromBeBytes bytes).toNat = ofLeBytes bytes.reverse := UInt64.toNat_ofNat_of_lt' hlt
  have hle := leBytes_ofLeBytes bytes.reverse
  rw [List.length_reverse, h] at hle
  rw [beBytes, hnat, hle, List.reverse_reverse]

theorem spells_iff : (∃ t, Spells stamp t) ↔ HexDigits 16 stamp := by
  constructor
  · rintro ⟨t, h⟩
    exact h.digits
  · intro h
    obtain ⟨bytes, hlen, htext⟩ := exists_bytes_of_hexDigits (n := 8) h
    refine ⟨fromBeBytes bytes, ?_⟩
    rw [Spells, beBytes_fromBeBytes hlen, htext]

theorem colon_notMem (h : ∀ c ∈ tail, isHexDigit c = true) : ':' ∉ tail := notMem_of_hexDigits rfl h

theorem Stamped.unique {tail' : List Char} (h : Stamped challenge t tail)
    (h' : Stamped challenge u tail') :
    t = u ∧ tail = tail' := by
  obtain ⟨stamp, htext, hspells, htail⟩ := h
  obtain ⟨stamp', htext', hspells', htail'⟩ := h'
  have hsplit := splitOn_eq_pair_iff.mpr ⟨htext, colon_notMem hspells.digits.2, htail⟩
  have hsplit' := splitOn_eq_pair_iff.mpr ⟨htext', colon_notMem hspells'.digits.2, htail'⟩
  rw [hsplit] at hsplit'
  obtain ⟨rfl, rfl⟩ : stamp = stamp' ∧ tail = tail' := by simpa using hsplit'
  exact ⟨hspells.unique hspells', rfl⟩

theorem hexDecode_stamp {bytes : Bytes} (h : hexDecode (String.ofList stamp) = some bytes)
    (hlen : bytes.length = 8) : Spells stamp (fromBeBytes bytes) := by
  rw [hexDecode_eq_some_iff, toAsciiLowercase, String.toList_ofList] at h
  have hchars := congrArg String.toList h
  rw [String.toList_ofList] at hchars
  rw [Spells, beBytes_fromBeBytes hlen, hchars]

/-- What the check reads: the time before the only colon, and nothing of what follows it. -/
theorem isChallengeValid_eq_ok_iff : isChallengeValid now challenge maxAge = .ok b ↔
    ∃ t tail, Stamped challenge t tail ∧ b = decide (now.toNat - t.toNat ≤ maxAge.toNat) := by
  constructor
  · intro h
    cases hsplit : challenge.toList.splitOn ':' with
    | nil => simp [isChallengeValid, hsplit] at h
    | cons stamp rest =>
      rcases rest with _ | ⟨tail, _ | ⟨next, rest⟩⟩
      · simp [isChallengeValid, hsplit] at h
      · obtain ⟨htext, _, htail⟩ := splitOn_eq_pair_iff.mp hsplit
        simp only [isChallengeValid, hsplit] at h
        cases hdecode : hexDecode (String.ofList stamp) with
        | none => simp [hdecode] at h
        | some bytes =>
          simp only [hdecode] at h
          by_cases hlen : bytes.length = 8
          · rw [if_neg (not_not_intro hlen)] at h
            refine ⟨fromBeBytes bytes, tail,
              ⟨stamp, htext, hexDecode_stamp hdecode hlen, htail⟩, ?_⟩
            rw [← Except.ok.inj h, decide_eq_decide, saturatingSub_le_iff]
          · rw [if_pos hlen] at h
            cases h
      · simp [isChallengeValid, hsplit] at h
  · rintro ⟨t, tail, ⟨stamp, htext, hspells, htail⟩, rfl⟩
    have hsplit := splitOn_eq_pair_iff.mpr ⟨htext, colon_notMem hspells.digits.2, htail⟩
    have hdecode : hexDecode (String.ofList stamp) = some (beBytes 8 t.toNat) := by
      rw [hexDecode_eq_some_iff, toAsciiLowercase, String.toList_ofList, hspells,
        String.ofList_toList]
    have htime : fromBeBytes (beBytes 8 t.toNat) = t := by
      rw [fromBeBytes, beBytes, List.reverse_reverse, ofLeBytes_leBytes (UInt64.toNat_lt t),
        UInt64.ofNat_toNat]
    simp only [isChallengeValid, hsplit, hdecode, length_beBytes, ne_eq,
      not_true_eq_false, if_false, htime, Except.ok.injEq, decide_eq_decide]
    exact saturatingSub_le_iff

theorem Stamped.eq_ok_true_iff (h : Stamped challenge t tail) :
    isChallengeValid now challenge maxAge = .ok true ↔ now.toNat - t.toNat ≤ maxAge.toNat := by
  rw [isChallengeValid_eq_ok_iff]
  constructor
  · rintro ⟨u, tail', h', hage⟩
    obtain ⟨rfl, rfl⟩ := h.unique h'
    exact of_decide_eq_true hage.symm
  · intro hage
    exact ⟨t, tail, h, (decide_eq_true hage).symm⟩

theorem encodes_iff :
    Encodes challenge t ↔ ∃ tail, Stamped challenge t tail ∧ HexDigits 48 tail := by
  constructor
  · rintro ⟨stamp, random, htext, hspells, hrandom⟩
    exact ⟨random, ⟨stamp, htext, hspells, colon_notMem hrandom.2⟩, hrandom⟩
  · rintro ⟨tail, ⟨stamp, htext, hspells, _⟩, htail⟩
    exact ⟨stamp, tail, htext, hspells, htail⟩

theorem hasShape_iff : HasShape challenge ↔ ∃ t, Encodes challenge t := by
  constructor
  · rintro ⟨stamp, random, htext, hstamp, hrandom⟩
    obtain ⟨t, hspells⟩ := spells_iff.mpr hstamp
    exact ⟨t, stamp, random, htext, hspells, hrandom⟩
  · rintro ⟨t, stamp, random, htext, hspells, hrandom⟩
    exact ⟨stamp, random, htext, hspells.digits, hrandom⟩

theorem encodes_generated (t : UInt64) (random : Vector UInt8 24) :
    Encodes (generateTimestampedChallenge t random) t := by
  have hrandom : HexDigits 48 (hexEncode random.toList).toList := by
    have hdigits := hexDigits_hexEncode random.toList
    rwa [Vector.length_toList] at hdigits
  refine ⟨(hexEncode (beBytes 8 t.toNat)).toList, _, ?_, map_asciiLower_hexEncode _, hrandom⟩
  rw [generateTimestampedChallenge, String.toList_append, String.toList_append, List.append_assoc]
  rfl

/-- The check does what it is for where the text behind the colon is what is generated
and the time before it has come. -/
theorem expires_iff (now maxAge : UInt64) (challenge : String) : Expires now maxAge challenge ↔
    ∀ t tail, Stamped challenge t tail → HexDigits 48 tail ∧ t ≤ now := by
  constructor
  · intro h t tail hstamped
    have hread : isChallengeValid now challenge maxAge =
        .ok (decide (now.toNat - t.toNat ≤ maxAge.toNat)) :=
      isChallengeValid_eq_ok_iff.mpr ⟨t, tail, hstamped, rfl⟩
    obtain ⟨u, hencodes⟩ := hasShape_iff.mp (h.shape _ hread)
    obtain ⟨tail', hstamped', htail⟩ := encodes_iff.mp hencodes
    obtain ⟨rfl, rfl⟩ := hstamped.unique hstamped'
    refine ⟨htail, ?_⟩
    by_contra hfuture
    have hlt := UInt64.lt_iff_toNat_lt.mp (UInt64.not_le.mp hfuture)
    have hage : now.toNat - t.toNat ≤ maxAge.toNat := by omega
    obtain ⟨u, hencodes', hpast, _⟩ := h.fresh.mp (hstamped.eq_ok_true_iff.mpr hage)
    obtain ⟨tail', hstamped', _⟩ := encodes_iff.mp hencodes'
    obtain ⟨rfl, _⟩ := hstamped.unique hstamped'
    exact hfuture hpast
  · intro h
    refine ⟨?_, ?_, ?_, ?_⟩
    · intro b hread
      obtain ⟨t, tail, hstamped, _⟩ := isChallengeValid_eq_ok_iff.mp hread
      exact hasShape_iff.mpr ⟨t, encodes_iff.mpr ⟨tail, hstamped, (h t tail hstamped).1⟩⟩
    · constructor
      · intro hread
        obtain ⟨t, tail, hstamped, _⟩ := isChallengeValid_eq_ok_iff.mp hread
        obtain ⟨htail, hpast⟩ := h t tail hstamped
        exact ⟨t, encodes_iff.mpr ⟨tail, hstamped, htail⟩, hpast, hstamped.eq_ok_true_iff.mp hread⟩
      · rintro ⟨t, hencodes, _, hage⟩
        obtain ⟨tail, hstamped, _⟩ := encodes_iff.mp hencodes
        exact hstamped.eq_ok_true_iff.mpr hage
    · rintro t random rfl
      obtain ⟨tail, hstamped, _⟩ := encodes_iff.mp (encodes_generated t random)
      have hpast := UInt64.le_iff_toNat_le.mp (h t tail hstamped).2
      rw [hstamped.eq_ok_true_iff]
      omega
    · intro hread later hlater haccepted
      obtain ⟨t, tail, hstamped, _⟩ := isChallengeValid_eq_ok_iff.mp hread
      have hpast := UInt64.le_iff_toNat_le.mp (h t tail hstamped).2
      have hage := hstamped.eq_ok_true_iff.mp haccepted
      omega

def farFuture : String := "ffffffffffffffff:000000000000000000000000000000000000000000000000"

theorem farFuture_not_expires : ¬ Expires 1000 300 farFuture := by
  intro h
  have hread : isChallengeValid 1000 farFuture 300 = .ok true := by decide +kernel
  exact h.stops hread 18446744073709551615 (by decide) (by decide +kernel)

end GitCellar
