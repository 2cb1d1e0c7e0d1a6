import Mathlib.Algebra.Order.Ring.Nat
import Mathlib.Tactic.Common
import Mathlib.Tactic.IntervalCases

/-! Base64 with the standard alphabet and canonical padding. -/

namespace Base64

def symbol (n : Nat) : Char :=
  if n < 26 then Char.ofNat (65 + n)
  else if n < 52 then Char.ofNat (71 + n)
  else if n < 62 then Char.ofNat (n - 4)
  else if n = 62 then '+'
  else '/'

def symbolValue (c : Char) : Option Nat :=
  if 65 ≤ c.toNat ∧ c.toNat ≤ 90 then some (c.toNat - 65)
  else if 97 ≤ c.toNat ∧ c.toNat ≤ 122 then some (c.toNat - 71)
  else if 48 ≤ c.toNat ∧ c.toNat ≤ 57 then some (c.toNat + 4)
  else if c = '+' then some 62
  else if c = '/' then some 63
  else none

def encodeChars : List UInt8 → List Char
  | a :: b :: c :: rest =>
    let n := a.toNat * 65536 + b.toNat * 256 + c.toNat
    symbol (n / 262144) :: symbol (n / 4096 % 64) :: symbol (n / 64 % 64) :: symbol (n % 64) ::
      encodeChars rest
  | [a, b] =>
    let n := a.toNat * 1024 + b.toNat * 4
    [symbol (n / 4096), symbol (n / 64 % 64), symbol (n % 64), '=']
  | [a] =>
    let n := a.toNat * 16
    [symbol (n / 64), symbol (n % 64), '=', '=']
  | [] => []

/-- The last group: one or two padding characters, the bits they stand for zero. -/
def decodePadded (a b c : Char) : Option (List UInt8) := do
  let x ← symbolValue a
  let y ← symbolValue b
  if c = '=' then
    if y % 16 = 0 then some [UInt8.ofNat ((x * 64 + y) / 16)] else none
  else
    let z ← symbolValue c
    let n := x * 4096 + y * 64 + z
    if z % 4 = 0 then some [UInt8.ofNat (n / 1024), UInt8.ofNat (n / 4)] else none

def decodeChars : List Char → Option (List UInt8)
  | [] => some []
  | a :: b :: c :: d :: rest =>
    if d = '=' ∧ rest = [] then decodePadded a b c
    else do
      let x ← symbolValue a
      let y ← symbolValue b
      let z ← symbolValue c
      let w ← symbolValue d
      let n := x * 262144 + y * 4096 + z * 64 + w
      let tail ← decodeChars rest
      return UInt8.ofNat (n / 65536) :: UInt8.ofNat (n / 256) :: UInt8.ofNat n :: tail
  | _ => none

def encode (b : List UInt8) : String := String.ofList (encodeChars b)

def decode (s : String) : Option (List UInt8) := decodeChars s.toList

theorem symbolValue_symbol {n : Nat} (h : n < 64) :
    symbolValue (symbol n) = some n ∧ symbol n ≠ '=' := by
  interval_cases n <;> decide

theorem decodeChars_encodeChars (b : List UInt8) : decodeChars (encodeChars b) = some b := by
  induction b using encodeChars.induct with
  | case1 a b c rest ih =>
    have ha := a.toNat_lt
    have hb := b.toNat_lt
    have hc := c.toNat_lt
    obtain ⟨n, hnat⟩ : ∃ n, n = a.toNat * 65536 + b.toNat * 256 + c.toNat := ⟨_, rfl⟩
    have hx := symbolValue_symbol (n := n / 262144) (by omega)
    have hy := symbolValue_symbol (n := n / 4096 % 64) (by omega)
    have hz := symbolValue_symbol (n := n / 64 % 64) (by omega)
    have hw := symbolValue_symbol (n := n % 64) (by omega)
    have hn : n / 262144 * 262144 + n / 4096 % 64 * 4096 + n / 64 % 64 * 64 + n % 64 = n := by omega
    have hfirst : UInt8.ofNat (n / 65536) = a :=
      UInt8.toNat_inj.mp (by rw [UInt8.toNat_ofNat']; omega)
    have hsecond : UInt8.ofNat (n / 256) = b :=
      UInt8.toNat_inj.mp (by rw [UInt8.toNat_ofNat']; omega)
    have hthird : UInt8.ofNat n = c := UInt8.toNat_inj.mp (by rw [UInt8.toNat_ofNat']; omega)
    rw [encodeChars, ← hnat, decodeChars, if_neg (fun h => hw.2 h.1), hx.1, hy.1, hz.1, hw.1]
    simp only [Option.bind_eq_bind, Option.bind_some, hn, ih, hfirst, hsecond, hthird]
    rfl
  | case2 a b =>
    have ha := a.toNat_lt
    have hb := b.toNat_lt
    obtain ⟨n, hnat⟩ : ∃ n, n = a.toNat * 1024 + b.toNat * 4 := ⟨_, rfl⟩
    have hx := symbolValue_symbol (n := n / 4096) (by omega)
    have hy := symbolValue_symbol (n := n / 64 % 64) (by omega)
    have hz := symbolValue_symbol (n := n % 64) (by omega)
    have hn : n / 4096 * 4096 + n / 64 % 64 * 64 + n % 64 = n := by omega
    have hfirst : UInt8.ofNat (n / 1024) = a :=
      UInt8.toNat_inj.mp (by rw [UInt8.toNat_ofNat']; omega)
    have hsecond : UInt8.ofNat (n / 4) = b := UInt8.toNat_inj.mp (by rw [UInt8.toNat_ofNat']; omega)
    have hzero : n % 64 % 4 = 0 := by omega
    rw [encodeChars, ← hnat, decodeChars, if_pos ⟨rfl, rfl⟩, decodePadded, hx.1, hy.1, hz.1]
    simp only [Option.bind_eq_bind, Option.bind_some, hz.2, hn, hzero, if_true, if_false,
      hfirst, hsecond]
  | case3 a =>
    have ha := a.toNat_lt
    obtain ⟨n, hnat⟩ : ∃ n, n = a.toNat * 16 := ⟨_, rfl⟩
    have hx := symbolValue_symbol (n := n / 64) (by omega)
    have hy := symbolValue_symbol (n := n % 64) (by omega)
    have hn : n / 64 * 64 + n % 64 = n := by omega
    have hfirst : UInt8.ofNat (n / 16) = a := UInt8.toNat_inj.mp (by rw [UInt8.toNat_ofNat']; omega)
    have hzero : n % 64 % 16 = 0 := by omega
    rw [encodeChars, ← hnat, decodeChars, if_pos ⟨rfl, rfl⟩, decodePadded, hx.1, hy.1]
    simp only [Option.bind_eq_bind, Option.bind_some, hn, hzero, if_true, hfirst]
  | case4 => rfl

theorem mem_encodeChars {b : List UInt8} {c : Char} (hc : c ∈ encodeChars b) :
    c = '=' ∨ ∃ n < 64, c = symbol n := by
  induction b using encodeChars.induct with
  | case1 x y z rest ih =>
    have hx := x.toNat_lt
    have hy := y.toNat_lt
    have hz := z.toNat_lt
    rw [encodeChars] at hc
    simp only [List.mem_cons] at hc
    rcases hc with rfl | rfl | rfl | rfl | hc
    · exact .inr ⟨_, by omega, rfl⟩
    · exact .inr ⟨_, by omega, rfl⟩
    · exact .inr ⟨_, by omega, rfl⟩
    · exact .inr ⟨_, by omega, rfl⟩
    · exact ih hc
  | case2 x y =>
    have hx := x.toNat_lt
    have hy := y.toNat_lt
    rw [encodeChars] at hc
    simp only [List.mem_cons, List.not_mem_nil, or_false] at hc
    rcases hc with rfl | rfl | rfl | rfl
    · exact .inr ⟨_, by omega, rfl⟩
    · exact .inr ⟨_, by omega, rfl⟩
    · exact .inr ⟨_, by omega, rfl⟩
    · exact .inl rfl
  | case3 x =>
    have hx := x.toNat_lt
    rw [encodeChars] at hc
    simp only [List.mem_cons, List.not_mem_nil, or_false] at hc
    rcases hc with rfl | rfl | rfl | rfl
    · exact .inr ⟨_, by omega, rfl⟩
    · exact .inr ⟨_, by omega, rfl⟩
    · exact .inl rfl
    · exact .inl rfl
  | case4 => cases hc

theorem decode_encode (b : List UInt8) : decode (encode b) = some b := by
  rw [decode, encode, String.toList_ofList, decodeChars_encodeChars]

theorem encode_ne_empty {b : List UInt8} (h : b ≠ []) : encode b ≠ "" := by
  intro he
  have hdecode := decode_encode b
  rw [he] at hdecode
  exact h (Option.some.inj hdecode).symm

example : encode [77, 97, 110, 77] = "TWFuTQ==" := by decide

end Base64
