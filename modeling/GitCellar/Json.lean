import GitCellar.Decimal
import GitCellar.Utf8
import Mathlib.Tactic.IntervalCases

/-! Compact JSON as a serializer writes it, and the fact that a printed value
and what follows it can be told apart. -/

namespace Json

open Framing Decimal Utf8

def hexDigit (n : UInt8) : UInt8 := if n < 10 then 48 + n else 87 + n

/-- The escapes of a compact serializer; every other byte stands for itself. -/
def escapeByte (b : UInt8) : List UInt8 :=
  if b = 34 then [92, 34]
  else if b = 92 then [92, 92]
  else if b = 8 then [92, 98]
  else if b = 9 then [92, 116]
  else if b = 10 then [92, 110]
  else if b = 12 then [92, 102]
  else if b = 13 then [92, 114]
  else if b < 32 then [92, 117, 48, 48, hexDigit (b / 16), hexDigit (b % 16)]
  else [b]

def unhexDigit (c : UInt8) : UInt8 := if c < 58 then c - 48 else c - 87

/-- What an escape letter stands for. -/
def unescapeLetter (c : UInt8) : UInt8 :=
  if c = 98 then 8
  else if c = 116 then 9
  else if c = 110 then 10
  else if c = 102 then 12
  else if c = 114 then 13
  else c

def unescape : List UInt8 → Option (UInt8 × List UInt8)
  | 92 :: c :: rest =>
    if c = 117 then
      match rest with
      | _ :: _ :: hi :: lo :: rest => some (unhexDigit hi * 16 + unhexDigit lo, rest)
      | _ => none
    else some (unescapeLetter c, rest)
  | b :: rest => some (b, rest)
  | [] => none

theorem of_control {p : UInt8 → Prop} (h : ∀ n < 32, p (UInt8.ofNat n)) {b : UInt8} (hb : b < 32) :
    p b := by
  have hnat : b.toNat < 32 := UInt8.lt_iff_toNat_lt.mp hb
  have hcode := h b.toNat hnat
  rw [UInt8.ofNat_toNat] at hcode
  exact hcode

theorem unescape_escapeByte (b : UInt8) (r : List UInt8) :
    unescape (escapeByte b ++ r) = some (b, r) := by
  by_cases hctl : b < 32
  · exact of_control (p := fun b => unescape (escapeByte b ++ r) = some (b, r))
      (fun n hn => by interval_cases n <;> rfl) hctl
  · by_cases hquote : b = 34
    · subst hquote
      rfl
    · by_cases hslash : b = 92
      · subst hslash
        rfl
      · have hne : ∀ k : UInt8, k < 32 → b ≠ k := by
          rintro k hk rfl
          exact hctl hk
        have hplain : escapeByte b = [b] := by
          simp only [escapeByte, hquote, hslash, hctl, hne 8 (by decide), hne 9 (by decide),
            hne 10 (by decide), hne 12 (by decide), hne 13 (by decide), if_false]
        rw [hplain, List.singleton_append, unescape]
        intro c rest heq
        exact absurd heq hslash

theorem escapeByte_head (b : UInt8) : ∃ c rest, escapeByte b = c :: rest ∧ c ≠ 34 := by
  by_cases hquote : b = 34
  · exact ⟨92, [34], by rw [hquote]; rfl, by decide⟩
  · simp only [escapeByte, hquote, if_false]
    repeat' split
    all_goals first | exact ⟨_, _, rfl, by decide⟩ | exact ⟨_, _, rfl, hquote⟩

def quote (s : String) : List UInt8 := 34 :: ((utf8 s).flatMap escapeByte ++ [34])

theorem framed_quote : Framed quote := by
  intro x y r s he
  have hbody : ((utf8 x).flatMap escapeByte ++ [34]) ++ r =
      ((utf8 y).flatMap escapeByte ++ [34]) ++ s :=
    (List.cons.inj he).2
  obtain ⟨hxy, hrs⟩ :=
    (framed_of_reader unescape unescape_escapeByte).delimited escapeByte_head _ _ r s hbody
  exact ⟨utf8_injective hxy, hrs⟩

mutual

inductive Value where
  | num (n : Int)
  | str (s : String)
  | bool (b : Bool)
  | arr (items : Items)
  | obj (members : Members)

inductive Items where
  | nil
  | cons (head : Value) (tail : Items)

inductive Members where
  | nil
  | cons (key : String) (value : Value) (tail : Members)

end

def separator (first : Bool) : List UInt8 := if first then [] else [44]

mutual

def Value.print : Value → List UInt8
  | .num n => intDigits n
  | .str s => quote s
  | .bool true => [116, 114, 117, 101]
  | .bool false => [102, 97, 108, 115, 101]
  | .arr items => 91 :: items.print true
  | .obj members => 123 :: members.print true

def Items.print : Items → Bool → List UInt8
  | .nil, _ => [93]
  | .cons head tail, first => separator first ++ (head.print ++ tail.print false)

def Members.print : Members → Bool → List UInt8
  | .nil, _ => [125]
  | .cons key value tail, first =>
    separator first ++ (quote key ++ 58 :: (value.print ++ tail.print false))

end

/-- What a value can be told from by its first byte. -/
inductive Kind where
  | num | str | bool | arr | obj
  deriving DecidableEq

def Value.kind : Value → Kind
  | .num _ => .num
  | .str _ => .str
  | .bool _ => .bool
  | .arr _ => .arr
  | .obj _ => .obj

def kindOf (c : UInt8) : Option Kind :=
  if isNumeral c then some .num
  else if c = 34 then some .str
  else if c = 116 ∨ c = 102 then some .bool
  else if c = 91 then some .arr
  else if c = 123 then some .obj
  else none

theorem Value.print_head (v : Value) :
    ∃ c rest, v.print = c :: rest ∧ kindOf c = some v.kind := by
  cases v with
  | num n =>
    obtain ⟨c, rest, hc⟩ := List.exists_cons_of_ne_nil (intDigits_ne_nil n)
    refine ⟨c, rest, by rw [Value.print, hc], ?_⟩
    have hnum := isNumeral_intDigits n c (by rw [hc]; exact List.mem_cons_self)
    simp only [kindOf, hnum, if_true, Value.kind]
  | str s => exact ⟨34, _, rfl, rfl⟩
  | bool b =>
    cases b with
    | true => exact ⟨116, _, rfl, rfl⟩
    | false => exact ⟨102, _, rfl, rfl⟩
  | arr items => exact ⟨91, _, rfl, rfl⟩
  | obj members => exact ⟨123, _, rfl, rfl⟩

/-- What may follow a value: a byte that does not continue a numeral. -/
def Stops (r : List UInt8) : Prop := ∃ c rest, r = c :: rest ∧ isNumeral c = false

theorem Items.print_stops (items : Items) (r : List UInt8) : Stops (items.print false ++ r) := by
  cases items with
  | nil => exact ⟨93, r, rfl, rfl⟩
  | cons head tail => exact ⟨44, _, rfl, rfl⟩

theorem Members.print_stops (members : Members) (r : List UInt8) :
    Stops (members.print false ++ r) := by
  cases members with
  | nil => exact ⟨125, r, rfl, rfl⟩
  | cons key value tail => exact ⟨44, _, rfl, rfl⟩

theorem Value.kind_unique {v w : Value} {r s : List UInt8} (h : v.print ++ r = w.print ++ s) :
    v.kind = w.kind := by
  obtain ⟨c, crest, hc, hkc⟩ := v.print_head
  obtain ⟨d, drest, hd, hkd⟩ := w.print_head
  rw [hc, hd] at h
  obtain rfl : c = d := (List.cons.inj h).1
  rw [hkc] at hkd
  exact Option.some.inj hkd

theorem Items.nil_ne_cons (head : Value) (tail : Items) (first : Bool) (r s : List UInt8) :
    Items.nil.print first ++ r ≠ (Items.cons head tail).print first ++ s := by
  intro h
  cases first with
  | false => cases (List.cons.inj h).1
  | true =>
    obtain ⟨c, rest, hc, hk⟩ := head.print_head
    simp only [Items.print, separator, if_true, List.nil_append, hc] at h
    obtain rfl : 93 = c := (List.cons.inj h).1
    cases hk

theorem Members.nil_ne_cons (key : String) (value : Value) (tail : Members) (first : Bool)
    (r s : List UInt8) :
    Members.nil.print first ++ r ≠ (Members.cons key value tail).print first ++ s := by
  intro h
  cases first with
  | false => cases (List.cons.inj h).1
  | true => cases (List.cons.inj h).1

mutual

theorem Value.print_unique (v w : Value) (r s : List UInt8) (hr : Stops r) (hs : Stops s)
    (h : v.print ++ r = w.print ++ s) : v = w ∧ r = s := by
  have hkind := Value.kind_unique h
  cases v with
  | num n =>
    cases w with
    | num m =>
      obtain ⟨c, crest, rfl, hc⟩ := hr
      obtain ⟨d, drest, rfl, hd⟩ := hs
      simp only [Value.print] at h
      obtain ⟨hdigits, rfl, rfl⟩ :=
        span_unique (isNumeral_intDigits n) (isNumeral_intDigits m) hc hd h
      exact ⟨congrArg Value.num (intDigits_injective hdigits), rfl⟩
    | _ => cases hkind
  | str x =>
    cases w with
    | str y =>
      obtain ⟨rfl, hrs⟩ := framed_quote x y r s h
      exact ⟨rfl, hrs⟩
    | _ => cases hkind
  | bool a =>
    cases w with
    | bool b =>
      cases a <;> cases b <;> simp_all [Value.print]
    | _ => cases hkind
  | arr items =>
    cases w with
    | arr items' =>
      simp only [Value.print, List.cons_append, List.cons.injEq, true_and] at h
      obtain ⟨rfl, hrs⟩ := Items.print_unique items items' true r s h
      exact ⟨rfl, hrs⟩
    | _ => cases hkind
  | obj members =>
    cases w with
    | obj members' =>
      simp only [Value.print, List.cons_append, List.cons.injEq, true_and] at h
      obtain ⟨rfl, hrs⟩ := Members.print_unique members members' true r s h
      exact ⟨rfl, hrs⟩
    | _ => cases hkind

theorem Items.print_unique (items items' : Items) (first : Bool) (r s : List UInt8)
    (h : items.print first ++ r = items'.print first ++ s) : items = items' ∧ r = s := by
  cases items with
  | nil =>
    cases items' with
    | nil => exact ⟨rfl, (List.cons.inj h).2⟩
    | cons head tail => exact absurd h (Items.nil_ne_cons head tail first r s)
  | cons head tail =>
    cases items' with
    | nil => exact absurd h.symm (Items.nil_ne_cons head tail first s r)
    | cons head' tail' =>
      simp only [Items.print, List.append_assoc, List.append_cancel_left_eq] at h
      obtain ⟨rfl, hrest⟩ := Value.print_unique head head' _ _ (tail.print_stops r)
        (tail'.print_stops s) h
      obtain ⟨rfl, hrs⟩ := Items.print_unique tail tail' false r s hrest
      exact ⟨rfl, hrs⟩

theorem Members.print_unique (members members' : Members) (first : Bool) (r s : List UInt8)
    (h : members.print first ++ r = members'.print first ++ s) : members = members' ∧ r = s := by
  cases members with
  | nil =>
    cases members' with
    | nil => exact ⟨rfl, (List.cons.inj h).2⟩
    | cons key value tail => exact absurd h (Members.nil_ne_cons key value tail first r s)
  | cons key value tail =>
    cases members' with
    | nil => exact absurd h.symm (Members.nil_ne_cons key value tail first s r)
    | cons key' value' tail' =>
      simp only [Members.print, List.append_assoc, List.cons_append,
        List.append_cancel_left_eq] at h
      obtain ⟨rfl, hvalue⟩ := framed_quote key key' _ _ h
      obtain ⟨rfl, hrest⟩ := Value.print_unique value value' _ _ (tail.print_stops r)
        (tail'.print_stops s) (List.cons.inj hvalue).2
      obtain ⟨rfl, hrs⟩ := Members.print_unique tail tail' false r s hrest
      exact ⟨rfl, hrs⟩

end

theorem Value.print_injective {v w : Value} (h : v.print = w.print) : v = w := by
  have hstop : Stops [0] := ⟨0, [], rfl, rfl⟩
  exact (Value.print_unique v w [0] [0] hstop hstop (by rw [h])).1

def Items.ofList : List Value → Items
  | [] => .nil
  | v :: vs => .cons v (ofList vs)

theorem Items.ofList_injective {xs ys : List Value} (h : Items.ofList xs = Items.ofList ys) :
    xs = ys := by
  induction xs generalizing ys with
  | nil =>
    cases ys with
    | nil => rfl
    | cons y ys => cases h
  | cons x xs ih =>
    cases ys with
    | nil => cases h
    | cons y ys =>
      simp only [Items.ofList, Items.cons.injEq] at h
      rw [h.1, ih h.2]

def Members.ofList : List (String × Value) → Members
  | [] => .nil
  | (key, value) :: rest => .cons key value (ofList rest)

theorem Members.ofList_injective {xs ys : List (String × Value)}
    (h : Members.ofList xs = Members.ofList ys) : xs = ys := by
  induction xs generalizing ys with
  | nil =>
    cases ys with
    | nil => rfl
    | cons y ys => cases h
  | cons x xs ih =>
    cases ys with
    | nil => cases h
    | cons y ys =>
      simp only [Members.ofList, Members.cons.injEq] at h
      obtain ⟨hkey, hvalue, hrest⟩ := h
      rw [ih hrest, Prod.ext hkey hvalue]

/-- A member that is left out when it has no value. -/
def optionalMember (key : String) (value : Option Value) : List (String × Value) :=
  (value.map fun v => (key, v)).toList

theorem lookup_optionalMember (k key : String) (value : Option Value) :
    (optionalMember key value).lookup k = if k == key then value else none := by
  cases value with
  | none => simp [optionalMember]
  | some v =>
    cases h : k == key with
    | true => simp [optionalMember, List.lookup_cons, h]
    | false => simp [optionalMember, List.lookup_cons, h]

theorem escapeByte_ascii {b : UInt8} (h : b < 128) :
    (escapeByte b).all (fun x => x < 128) = true := by
  by_cases hctl : b < 32
  · exact of_control (p := fun b => (escapeByte b).all (fun x => x < 128) = true)
      (fun n hn => by interval_cases n <;> decide) hctl
  · simp only [escapeByte, hctl, if_false]
    repeat' split
    all_goals first | decide | simpa using h

theorem escapeByte_of_le {b : UInt8} (h : 128 ≤ b) : escapeByte b = [b] := by
  have hne : ∀ k : UInt8, k < 128 → b ≠ k := by
    intro k hk hb
    rw [hb] at h
    exact UInt8.not_le.mpr hk h
  have hctl : ¬ b < 32 := by
    rw [UInt8.not_lt]
    exact UInt8.le_trans (by decide) h
  simp only [escapeByte, hne 34 (by decide), hne 92 (by decide), hne 8 (by decide),
    hne 9 (by decide), hne 10 (by decide), hne 12 (by decide), hne 13 (by decide), hctl, if_false]

theorem isText_escaped (cs : List Char) :
    IsText ((cs.flatMap String.utf8EncodeChar).flatMap escapeByte) := by
  induction cs with
  | nil => exact isText_ascii rfl
  | cons c cs ih =>
    rw [List.flatMap_cons, List.flatMap_append]
    apply IsText.append _ ih
    by_cases hc : c.val ≤ 127
    · rw [utf8EncodeChar_ascii hc, List.flatMap_singleton]
      apply isText_ascii
      apply escapeByte_ascii
      have hval := UInt32.le_iff_toNat_le.mp hc
      rw [UInt8.lt_iff_toNat_lt, UInt32.toNat_toUInt8]
      exact Nat.lt_of_le_of_lt (Nat.mod_le _ _) (Nat.lt_succ_of_le hval)
    · have hplain : (String.utf8EncodeChar c).flatMap escapeByte = String.utf8EncodeChar c := by
        have hone : ∀ b ∈ String.utf8EncodeChar c, escapeByte b = [b] := fun b hb =>
          escapeByte_of_le (le_of_mem_utf8EncodeChar hc hb)
        rw [List.flatMap_def, List.map_congr_left hone, ← List.flatMap_def, List.flatMap_singleton']
      have hchar : utf8 (String.ofList [c]) = String.utf8EncodeChar c := by
        rw [utf8_ofList, List.flatMap_singleton]
      rw [hplain, ← hchar]
      exact isText_utf8 _

theorem isText_quote (s : String) : IsText (quote s) := by
  have hbody : IsText ((utf8 s).flatMap escapeByte) := by
    rw [← String.ofList_toList (s := s), utf8_ofList]
    exact isText_escaped s.toList
  exact (isText_ascii (b := [34]) (by decide)).append (hbody.append (isText_ascii (by decide)))

theorem isText_separator (first : Bool) : IsText (separator first) := by
  cases first <;> exact isText_ascii (by decide)

theorem isText_intDigits (n : Int) : IsText (intDigits n) := by
  apply isText_ascii
  rw [List.all_eq_true]
  intro b hb
  have hnum := isNumeral_intDigits n b hb
  simp only [isNumeral, isDigit, Bool.or_eq_true, Bool.and_eq_true, decide_eq_true_eq,
    beq_iff_eq] at hnum
  rw [decide_eq_true_eq]
  rcases hnum with ⟨_, hhi⟩ | rfl
  · exact UInt8.lt_of_le_of_lt hhi (by decide)
  · decide

mutual

theorem Value.isText_print (v : Value) : IsText v.print := by
  cases v with
  | num n => exact isText_intDigits n
  | str s => exact isText_quote s
  | bool b => cases b <;> exact isText_ascii (by decide)
  | arr items => exact (isText_ascii (b := [91]) (by decide)).append (items.isText_print true)
  | obj members => exact (isText_ascii (b := [123]) (by decide)).append (members.isText_print true)

theorem Items.isText_print (items : Items) (first : Bool) : IsText (items.print first) := by
  cases items with
  | nil => exact isText_ascii (b := [93]) (by decide)
  | cons head tail =>
    exact (isText_separator first).append (head.isText_print.append (tail.isText_print false))

theorem Members.isText_print (members : Members) (first : Bool) : IsText (members.print first) := by
  cases members with
  | nil => exact isText_ascii (b := [125]) (by decide)
  | cons key value tail =>
    have hrest := value.isText_print.append (tail.isText_print false)
    have hcolon := (isText_ascii (b := [58]) (by decide)).append hrest
    exact (isText_separator first).append ((isText_quote key).append hcolon)

end

def Value.toText (v : Value) : String := Utf8.toText v.print v.isText_print

theorem Value.utf8_toText (v : Value) : utf8 v.toText = v.print := rfl

end Json
