import GitCellar.Cbor

/-! Reading CBOR: an item is read off the front of its bytes, whatever follows. -/

namespace Cbor

open Framing

/-- An array's elements; a map's keys and values in turn. -/
inductive Value where
  | item (x : Item)
  | array (xs : List Value)
  | map (items : List Value)

mutual

def Value.encode : Value → List UInt8
  | .item x => x.encode
  | .array xs => head 4 xs.length ++ encodeAll xs
  | .map items => head 5 (items.length / 2) ++ encodeAll items

def encodeAll : List Value → List UInt8
  | [] => []
  | x :: xs => x.encode ++ encodeAll xs

end

/-- Nested no deeper than this, with counts that 64 bits hold. -/
def Value.fits : Nat → Value → Bool
  | 0, _ => false
  | _ + 1, .item _ => true
  | depth + 1, .array xs => decide (xs.length < 2 ^ 64) && xs.all (fits depth)
  | depth + 1, .map items =>
    decide (items.length % 2 = 0) && decide (items.length / 2 < 2 ^ 64) && items.all (fits depth)

/-- A reader of the front of its input: what it has read, and the rest. -/
abbrev Reader (α : Type) := List UInt8 → Option (α × List UInt8)

def readArgument (info : Nat) : Reader Nat := fun input =>
  if info < 24 then some (info, input)
  else if info ≤ 27 ∧ widthOf info ≤ input.length then
    some (ofLeBytes (input.take (widthOf info)).reverse, input.drop (widthOf info))
  else none

/-- The major type and the argument of a head. -/
def readHead : Reader (Nat × Nat)
  | [] => none
  | b :: input => (readArgument (b.toNat % 32) input).map fun r => ((b.toNat / 32, r.1), r.2)

def readString (n : Nat) : Reader Sized := fun input =>
  if h : n ≤ input.length ∧ n < 2 ^ 64 then
    some (⟨input.take n, lt_of_le_of_lt (List.length_take_le n input) h.2⟩, input.drop n)
  else none

def readMany {α : Type} (read : Reader α) : Nat → Reader (List α)
  | 0, input => some ([], input)
  | n + 1, input => (read input).bind fun r => (readMany read n r.2).map fun s => (r.1 :: s.1, s.2)

/-- What follows a head, with this reader of the items inside. -/
def readBody (read : Reader Value) : Nat × Nat → Reader Value
  | (0, n), input => some (.item (.uint (UInt64.ofNat n)), input)
  | (1, n), input => some (.item (.nint (UInt64.ofNat n)), input)
  | (2, n), input => (readString n input).map fun r => (.item (.bytes r.1), r.2)
  | (3, n), input => (readString n input).map fun r => (.item (.text r.1), r.2)
  | (4, n), input => (readMany read n input).map fun r => (.array r.1, r.2)
  | (5, n), input => (readMany read (2 * n) input).map fun r => (.map r.1, r.2)
  | _, _ => none

/-- Items of definite length: integers, strings, arrays and maps. -/
def read : Nat → Reader Value
  | 0, _ => none
  | depth + 1, input => (readHead input).bind fun r => readBody (read depth) r.1 r.2

/-- The reader looks no further than what it reads. -/
def Front {α : Type} (read : Reader α) : Prop :=
  ∀ input x rest, read input = some (x, rest) →
    ∃ used, input = used ++ rest ∧ ∀ more, read (used ++ more) = some (x, more)

section

variable {α β : Type} {f : Reader α} {g : α → Reader β}

theorem Front.bind (hf : Front f) (hg : ∀ x, Front (g x)) :
    Front fun input => (f input).bind fun r => g r.1 r.2 := by
  intro input y rest h
  obtain ⟨⟨x, middle⟩, hx, hy⟩ := Option.bind_eq_some_iff.mp h
  obtain ⟨used, rfl, hused⟩ := hf _ _ _ hx
  obtain ⟨used', rfl, hused'⟩ := hg x _ _ _ hy
  refine ⟨used ++ used', by rw [List.append_assoc], ?_⟩
  intro more
  show (f (used ++ used' ++ more)).bind _ = _
  rw [List.append_assoc, hused]
  exact hused' more

theorem Front.done (y : β) : Front fun input => some (y, input) := by
  intro input x rest h
  obtain ⟨rfl, rfl⟩ := Prod.mk.inj (Option.some.inj h)
  exact ⟨[], rfl, fun _ => rfl⟩

theorem Front.fail : Front fun _ => (none : Option (α × List UInt8)) := by
  intro input x rest h
  cases h

theorem Front.map (hf : Front f) (g : α → β) :
    Front fun input => (f input).map fun r => (g r.1, r.2) := by
  intro input y rest h
  obtain ⟨⟨x, middle⟩, hx, hy⟩ := Option.map_eq_some_iff.mp h
  obtain ⟨rfl, rfl⟩ := Prod.mk.inj hy
  obtain ⟨used, rfl, hused⟩ := hf _ _ _ hx
  refine ⟨used, rfl, ?_⟩
  intro more
  show (f (used ++ more)).map _ = _
  rw [hused]
  rfl

/-- A beginning that is not the whole cannot be read as a whole item. -/
theorem Front.prefix_eq_none (hf : Front f) {enc p : List UInt8} {x : α}
    (hread : ∀ more, f (enc ++ more) = some (x, more)) (hp : p <+: enc) (hne : p ≠ enc) :
    f p = none := by
  cases h : f p with
  | none => rfl
  | some found =>
    obtain ⟨y, rest⟩ := found
    obtain ⟨used, rfl, hused⟩ := hf _ _ _ h
    obtain ⟨tail, rfl⟩ := hp
    have hwhole := hread []
    rw [List.append_nil, List.append_assoc, hused] at hwhole
    obtain ⟨_, htail⟩ := Prod.mk.inj (Option.some.inj hwhole)
    obtain ⟨rfl, rfl⟩ := List.append_eq_nil_iff.mp htail
    exact absurd (by simp) hne

end

theorem front_readArgument (info : Nat) : Front (readArgument info) := by
  by_cases hsmall : info < 24
  · have hread : readArgument info = fun input => some (info, input) := by
      funext input
      rw [readArgument, if_pos hsmall]
    rw [hread]
    exact Front.done info
  · intro input n rest h
    rw [readArgument, if_neg hsmall, Option.ite_none_right_eq_some] at h
    obtain ⟨⟨hinfo, hlong⟩, h⟩ := h
    obtain ⟨rfl, rfl⟩ := Prod.mk.inj (Option.some.inj h)
    have htake : (input.take (widthOf info)).length = widthOf info := List.length_take_of_le hlong
    refine ⟨input.take (widthOf info), (List.take_append_drop _ _).symm, ?_⟩
    intro more
    have hmore : widthOf info ≤ (input.take (widthOf info) ++ more).length := by
      rw [List.length_append]
      omega
    rw [readArgument, if_neg hsmall, if_pos ⟨hinfo, hmore⟩, List.take_left' htake,
      List.drop_left' htake]

theorem front_readHead : Front readHead := by
  intro input x rest h
  cases input with
  | nil => cases h
  | cons b input =>
    obtain ⟨used, rfl, hused⟩ :=
      (front_readArgument (b.toNat % 32)).map (fun n => (b.toNat / 32, n)) _ _ _ h
    exact ⟨b :: used, rfl, hused⟩

theorem front_readString (n : Nat) : Front (readString n) := by
  intro input x rest h
  rw [readString, Option.dite_none_right_eq_some] at h
  obtain ⟨⟨hlong, hn⟩, h⟩ := h
  obtain ⟨rfl, rfl⟩ := Prod.mk.inj (Option.some.inj h)
  have htake : (input.take n).length = n := List.length_take_of_le hlong
  refine ⟨input.take n, (List.take_append_drop _ _).symm, ?_⟩
  intro more
  have hmore : n ≤ (input.take n ++ more).length := by
    rw [List.length_append]
    omega
  rw [readString, dif_pos ⟨hmore, hn⟩]
  simp only [List.take_left' htake, List.drop_left' htake]

theorem front_readMany {α : Type} {f : Reader α} (hf : Front f) (n : Nat) :
    Front (readMany f n) := by
  induction n with
  | zero => exact Front.done []
  | succ n ih => exact hf.bind fun x => ih.map fun xs => x :: xs

theorem front_readBody {f : Reader Value} (hf : Front f) (r : Nat × Nat) :
    Front (readBody f r) := by
  obtain ⟨major, n⟩ := r
  match major with
  | 0 => exact Front.done _
  | 1 => exact Front.done _
  | 2 => exact (front_readString n).map fun b => Value.item (.bytes b)
  | 3 => exact (front_readString n).map fun b => Value.item (.text b)
  | 4 => exact (front_readMany hf n).map Value.array
  | 5 => exact (front_readMany hf (2 * n)).map Value.map
  | _ + 6 => exact Front.fail

theorem front_read (depth : Nat) : Front (read depth) := by
  induction depth with
  | zero => exact Front.fail
  | succ depth ih => exact front_readHead.bind fun r => front_readBody ih r

theorem readArgument_argument {n : Nat} (hn : n < 2 ^ 64) (rest : List UInt8) :
    readArgument (argument n).1 ((argument n).2 ++ rest) = some (n, rest) := by
  rcases argument_cases hn with ⟨hsmall, hn⟩ | ⟨info, hlow, hinfo, hn, hwidth⟩
  · rw [hn, readArgument, if_pos hsmall]
    rfl
  · have hlength : (beBytes (widthOf info) n).length = widthOf info := length_beBytes _ _
    have hlong : widthOf info ≤ (beBytes (widthOf info) n ++ rest).length := by
      rw [List.length_append]
      omega
    have hbytes : ofLeBytes (beBytes (widthOf info) n).reverse = n := by
      rw [beBytes, List.reverse_reverse]
      exact ofLeBytes_leBytes hwidth
    rw [hn, readArgument, if_neg (by omega), if_pos ⟨hinfo, hlong⟩, List.take_left' hlength,
      List.drop_left' hlength, hbytes]

theorem readHead_head {major n : Nat} (hmajor : major < 8) (hn : n < 2 ^ 64) (rest : List UInt8) :
    readHead (head major n ++ rest) = some ((major, n), rest) := by
  have hinfo := argument_info_le hn
  have hbyte : (UInt8.ofNat (32 * major + (argument n).1)).toNat = 32 * major + (argument n).1 := by
    rw [UInt8.toNat_ofNat']
    omega
  have hlow : (32 * major + (argument n).1) % 32 = (argument n).1 := by omega
  have hhigh : (32 * major + (argument n).1) / 32 = major := by omega
  rw [head, List.cons_append, readHead, hbyte, hlow, hhigh, readArgument_argument hn]
  rfl

theorem readString_append (b : Sized) (rest : List UInt8) :
    readString b.val.length (b.val ++ rest) = some (b, rest) := by
  have hlong : b.val.length ≤ (b.val ++ rest).length := by
    rw [List.length_append]
    omega
  rw [readString, dif_pos ⟨hlong, b.property⟩]
  simp only [List.take_left, List.drop_left]

theorem readMany_encodeAll {read : Reader Value} {xs : List Value}
    (h : ∀ x ∈ xs, ∀ rest, read (x.encode ++ rest) = some (x, rest)) (rest : List UInt8) :
    readMany read xs.length (encodeAll xs ++ rest) = some (xs, rest) := by
  induction xs with
  | nil => rfl
  | cons x xs ih =>
    have hx := h x List.mem_cons_self
    have hxs := ih fun y hy => h y (List.mem_cons_of_mem x hy)
    rw [encodeAll, List.append_assoc, List.length_cons, readMany, hx, Option.bind_some]
    show (readMany read xs.length (encodeAll xs ++ rest)).map _ = _
    rw [hxs]
    rfl

/-- What was written is read back, to its last byte and no further. -/
theorem read_encode {depth : Nat} {v : Value} (h : v.fits depth = true) (rest : List UInt8) :
    read depth (v.encode ++ rest) = some (v, rest) := by
  induction depth generalizing v rest with
  | zero => cases v <;> cases h
  | succ depth ih =>
    cases v with
    | item x =>
      rw [Value.encode, Item.encode_eq, List.append_assoc, read,
        readHead_head (by cases x <;> simp [Item.major]) x.count_lt, Option.bind_some]
      cases x with
      | uint n =>
        show some (Value.item (.uint (UInt64.ofNat n.toNat)), rest) = _
        rw [UInt64.ofNat_toNat]
      | nint n =>
        show some (Value.item (.nint (UInt64.ofNat n.toNat)), rest) = _
        rw [UInt64.ofNat_toNat]
      | bytes b =>
        show (readString b.val.length (b.val ++ rest)).map _ = _
        rw [readString_append]
        rfl
      | text b =>
        show (readString b.val.length (b.val ++ rest)).map _ = _
        rw [readString_append]
        rfl
    | array xs =>
      simp only [Value.fits, Bool.and_eq_true, decide_eq_true_eq, List.all_eq_true] at h
      rw [Value.encode, List.append_assoc, read, readHead_head (by decide) h.1, Option.bind_some]
      show (readMany (read depth) xs.length (encodeAll xs ++ rest)).map _ = _
      rw [readMany_encodeAll fun x hx rest => ih (h.2 x hx) rest]
      rfl
    | map items =>
      simp only [Value.fits, Bool.and_eq_true, decide_eq_true_eq, List.all_eq_true] at h
      have heven : 2 * (items.length / 2) = items.length := by omega
      rw [Value.encode, List.append_assoc, read, readHead_head (by decide) h.1.2, Option.bind_some]
      show (readMany (read depth) (2 * (items.length / 2)) (encodeAll items ++ rest)).map _ = _
      rw [heven, readMany_encodeAll fun x hx rest => ih (h.2 x hx) rest]
      rfl

end Cbor
