import GitCellar.Framing

/-! Definite-length shortest-form CBOR items and the fact that a sequence of
them is read off its bytes. -/

namespace Cbor

open Framing

/-- A byte string whose length a 64-bit count can hold. -/
abbrev Sized := { b : List UInt8 // b.length < 2 ^ 64 }

/-- The argument of a head: its additional information and the bytes after it. -/
def argument (n : Nat) : Nat × List UInt8 :=
  if n < 24 then (n, [])
  else if n < 2 ^ 8 then (24, beBytes 1 n)
  else if n < 2 ^ 16 then (25, beBytes 2 n)
  else if n < 2 ^ 32 then (26, beBytes 4 n)
  else (27, beBytes 8 n)

def head (major n : Nat) : List UInt8 :=
  UInt8.ofNat (32 * major + (argument n).1) :: (argument n).2

def widthOf (info : Nat) : Nat := 2 ^ (info - 24)

theorem argument_cases {n : Nat} (hn : n < 2 ^ 64) : (n < 24 ∧ argument n = (n, [])) ∨
    ∃ info, 24 ≤ info ∧ info ≤ 27 ∧ argument n = (info, beBytes (widthOf info) n) ∧
      n < 256 ^ widthOf info := by
  by_cases h24 : n < 24
  · exact .inl ⟨h24, if_pos h24⟩
  · refine .inr ?_
    simp only [argument, h24, if_false]
    by_cases h8 : n < 2 ^ 8
    · exact ⟨24, by omega, by omega, if_pos h8, h8⟩
    · simp only [h8, if_false]
      by_cases h16 : n < 2 ^ 16
      · exact ⟨25, by omega, by omega, if_pos h16, h16⟩
      · simp only [h16, if_false]
        by_cases h32 : n < 2 ^ 32
        · exact ⟨26, by omega, by omega, if_pos h32, h32⟩
        · exact ⟨27, by omega, by omega, if_neg h32, hn⟩

theorem argument_unique {m n : Nat} {r s : List UInt8} (hm : m < 2 ^ 64) (hn : n < 2 ^ 64)
    (hinfo : (argument m).1 = (argument n).1)
    (h : (argument m).2 ++ r = (argument n).2 ++ s) : m = n ∧ r = s := by
  rcases argument_cases hm with ⟨hm24, hma⟩ | ⟨i, hi, _, hma, hmw⟩
  · rcases argument_cases hn with ⟨hn24, hna⟩ | ⟨j, hj, _, hna, hnw⟩
    · rw [hma, hna] at hinfo h
      exact ⟨hinfo, h⟩
    · rw [hma, hna] at hinfo
      simp only at hinfo
      omega
  · rcases argument_cases hn with ⟨hn24, hna⟩ | ⟨j, hj, _, hna, hnw⟩
    · rw [hma, hna] at hinfo
      simp only at hinfo
      omega
    · rw [hma, hna] at hinfo h
      obtain rfl : i = j := hinfo
      obtain ⟨hbytes, hrs⟩ := List.append_inj h (by simp)
      exact ⟨beBytes_inj hmw hnw hbytes, hrs⟩

theorem argument_info_le {n : Nat} (hn : n < 2 ^ 64) : (argument n).1 ≤ 27 := by
  rcases argument_cases hn with ⟨h, ha⟩ | ⟨i, _, hi, ha, _⟩
  · rw [ha]
    simp only
    omega
  · rw [ha]
    exact hi

theorem head_unique {major major' m n : Nat} {r s : List UInt8} (hmajor : major < 8)
    (hmajor' : major' < 8) (hm : m < 2 ^ 64) (hn : n < 2 ^ 64)
    (h : head major m ++ r = head major' n ++ s) : major = major' ∧ m = n ∧ r = s := by
  have hmi := argument_info_le hm
  have hni := argument_info_le hn
  obtain ⟨hfirst, hrest⟩ := List.cons.inj h
  have hbyte := congrArg UInt8.toNat hfirst
  simp only [UInt8.toNat_ofNat'] at hbyte
  obtain ⟨hmn, hrs⟩ := argument_unique hm hn (by omega) hrest
  exact ⟨by omega, hmn, hrs⟩

inductive Item where
  | uint (n : UInt64)
  | nint (n : UInt64)
  | bytes (b : Sized)
  | text (b : Sized)

def Item.encode : Item → List UInt8
  | .uint n => head 0 n.toNat
  | .nint n => head 1 n.toNat
  | .bytes b => head 2 b.val.length ++ b.val
  | .text b => head 3 b.val.length ++ b.val

def Item.major : Item → Nat
  | .uint _ => 0
  | .nint _ => 1
  | .bytes _ => 2
  | .text _ => 3

def Item.count : Item → Nat
  | .uint n => n.toNat
  | .nint n => n.toNat
  | .bytes b => b.val.length
  | .text b => b.val.length

def Item.body : Item → List UInt8
  | .uint _ => []
  | .nint _ => []
  | .bytes b => b.val
  | .text b => b.val

theorem Item.encode_eq (x : Item) : x.encode = head x.major x.count ++ x.body := by
  cases x <;> simp [encode, major, count, body]

theorem Item.count_lt (x : Item) : x.count < 2 ^ 64 := by
  cases x with
  | uint n => exact n.toNat_lt
  | nint n => exact n.toNat_lt
  | bytes b => exact b.property
  | text b => exact b.property

theorem Item.framed_encode : Framed Item.encode := by
  intro x y r s h
  simp only [encode_eq, List.append_assoc] at h
  obtain ⟨hmajor, hcount, hbody⟩ := head_unique (by cases x <;> simp [major])
    (by cases y <;> simp [major]) x.count_lt y.count_lt h
  cases x with
  | uint m =>
    cases y with
    | uint n => exact ⟨congrArg Item.uint (UInt64.toNat_inj.mp hcount), hbody⟩
    | _ => cases hmajor
  | nint m =>
    cases y with
    | nint n => exact ⟨congrArg Item.nint (UInt64.toNat_inj.mp hcount), hbody⟩
    | _ => cases hmajor
  | bytes a =>
    cases y with
    | bytes b =>
      obtain ⟨hab, hrs⟩ := List.append_inj hbody hcount
      exact ⟨congrArg Item.bytes (Subtype.ext hab), hrs⟩
    | _ => cases hmajor
  | text a =>
    cases y with
    | text b =>
      obtain ⟨hab, hrs⟩ := List.append_inj hbody hcount
      exact ⟨congrArg Item.text (Subtype.ext hab), hrs⟩
    | _ => cases hmajor

theorem Item.encode_ne_nil (x : Item) : x.encode ≠ [] := by
  rw [encode_eq, head]
  simp

/-- A map of `n` entries whose keys and values are `items`, in order. -/
def mapOf (n : Nat) (items : List Item) : List UInt8 := head 5 n ++ items.flatMap Item.encode

theorem mapOf_unique {m n : Nat} {xs ys : List Item} (hm : m < 2 ^ 64) (hn : n < 2 ^ 64)
    (h : mapOf m xs = mapOf n ys) : m = n ∧ xs = ys := by
  obtain ⟨_, hmn, hitems⟩ := head_unique (by decide) (by decide) hm hn h
  exact ⟨hmn, Item.framed_encode.flatMap_injective Item.encode_ne_nil hitems⟩

/-- A signed integer: itself, or its complement under the negative major type. -/
def int (n : Int64) : Item :=
  if 0 ≤ n then .uint n.toUInt64 else .nint (~~~n.toUInt64)

theorem int_injective {m n : Int64} (h : int m = int n) : m = n := by
  have hbits : m.toUInt64 = n.toUInt64 := by
    simp only [int] at h
    split at h <;> split at h
    · exact Item.uint.inj h
    · cases h
    · cases h
    · exact UInt64.not_inj.mp (Item.nint.inj h)
  cases m
  cases n
  simpa using hbits

end Cbor
