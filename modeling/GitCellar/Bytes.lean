import GitCellar.Loops
import GitCellar.Utf8
import Mathlib.Tactic.Common
import Mathlib.Tactic.IntervalCases

/-! Byte strings, slices, UTF-8 and hex as the crates use them. -/

namespace GitCellar

open Loops Utf8

abbrev Bytes := List UInt8

/-- `usize::MAX` of a 64-bit target. -/
def usizeMax : Nat := 2 ^ 64 - 1

def byteRange {ε : Type} (data : Bytes) (start stop : Nat) : Run ε Bytes :=
  if start ≤ stop ∧ stop ≤ data.length then .ok ((data.take stop).drop start) else .error .panic

def byteAt {ε : Type} (data : Bytes) (i : Nat) : Run ε UInt8 :=
  match data[i]? with
  | some b => .ok b
  | none => .error .panic

/-- `vault_core::error::VaultError`, the variants this code raises. -/
inductive VaultError where
  | encryption (msg : String)
  | decryption (msg : String)
  | key (msg : String)
  | storage (msg : String)
  | network (msg : String)
  deriving DecidableEq, Repr

/-- `Display for VaultError`. -/
def VaultError.toString : VaultError → String
  | .encryption msg => "Encryption error: " ++ msg
  | .decryption msg => "Decryption error: " ++ msg
  | .key msg => "Key error: " ++ msg
  | .storage msg => "Storage error: " ++ msg
  | .network msg => "Network error: " ++ msg

/-- `passkey_core::error::PasskeyError`, the variants this code raises. -/
inductive PasskeyError where
  | identityNotFound
  | io (msg : String)
  | keyLoad (msg : String)
  | keySave (msg : String)
  | invalidChallenge
  | invalidRecoveryCode (msg : String)
  | credentialStore (msg : String)
  | other (msg : String)
  deriving DecidableEq, Repr

/-- `Display for PasskeyError`. -/
def PasskeyError.toString : PasskeyError → String
  | .identityNotFound => "Identity not found"
  | .keyLoad msg => "Failed to load key: " ++ msg
  | .io msg => "IO error: " ++ msg
  | .keySave msg => "Failed to save key: " ++ msg
  | .invalidChallenge => "Challenge is not a well-formed nonce"
  | .invalidRecoveryCode msg => "Invalid recovery code: " ++ msg
  | .credentialStore msg => "Credential store error: " ++ msg
  | .other msg => msg

def hexByte (b : UInt8) : List Char :=
  [Nat.digitChar (b.toNat / 16), Nat.digitChar (b.toNat % 16)]

/-- `hex::encode`, also `format!("{:x}")` of a digest. -/
def hexEncode (bytes : Bytes) : String := String.ofList (bytes.flatMap hexByte)

def hexVal (c : UInt8) : Option UInt8 :=
  if 48 ≤ c ∧ c ≤ 57 then some (c - 48)
  else if 97 ≤ c ∧ c ≤ 102 then some (c - 87)
  else if 65 ≤ c ∧ c ≤ 70 then some (c - 55)
  else none

def hexPairs : Bytes → Option Bytes
  | [] => some []
  | [_] => none
  | hi :: lo :: rest => do
    let h ← hexVal hi
    let l ← hexVal lo
    let tail ← hexPairs rest
    return (h * 16 + l) :: tail

def hexDecode (s : String) : Option Bytes := hexPairs (utf8 s)

theorem digitChar_ascii (n : Nat) (hn : n < 16) :
    (Nat.digitChar n).val ≤ 127 ∧ (Nat.digitChar n).val.toUInt8 ≠ 0 ∧
      hexVal (Nat.digitChar n).val.toUInt8 = some (UInt8.ofNat n) := by
  interval_cases n <;> decide

theorem hexByte_ascii {b : UInt8} {c : Char} (hc : c ∈ hexByte b) :
    c.val ≤ 127 ∧ c.val.toUInt8 ≠ 0 := by
  have hb := b.toNat_lt
  simp only [hexByte, List.mem_cons, List.not_mem_nil, or_false] at hc
  rcases hc with rfl | rfl
  · have h := digitChar_ascii (b.toNat / 16) (by omega)
    exact ⟨h.1, h.2.1⟩
  · have h := digitChar_ascii (b.toNat % 16) (by omega)
    exact ⟨h.1, h.2.1⟩

theorem utf8_hexEncode (bytes : Bytes) :
    utf8 (hexEncode bytes) = (bytes.flatMap hexByte).map (fun c => c.val.toUInt8) := by
  apply utf8_ascii
  intro c hc
  obtain ⟨b, _, hb⟩ := List.mem_flatMap.mp hc
  exact (hexByte_ascii hb).1

theorem length_utf8_hexEncode (bytes : Bytes) :
    (utf8 (hexEncode bytes)).length = 2 * bytes.length := by
  rw [utf8_hexEncode, List.length_map]
  induction bytes with
  | nil => rfl
  | cons b bytes ih =>
    simp only [List.flatMap_cons, List.length_append, ih, hexByte, List.length_cons,
      List.length_nil]
    omega

theorem zero_notMem_hexEncode (bytes : Bytes) : (0 : UInt8) ∉ utf8 (hexEncode bytes) := by
  rw [utf8_hexEncode]
  intro h
  obtain ⟨c, hc, he⟩ := List.mem_map.mp h
  obtain ⟨b, _, hb⟩ := List.mem_flatMap.mp hc
  exact (hexByte_ascii hb).2 he

theorem hexDecode_hexEncode (bytes : Bytes) : hexDecode (hexEncode bytes) = some bytes := by
  rw [hexDecode, utf8_hexEncode]
  induction bytes with
  | nil => rfl
  | cons b bytes ih =>
    have hb := b.toNat_lt
    have hhi := (digitChar_ascii (b.toNat / 16) (by omega)).2.2
    have hlo := (digitChar_ascii (b.toNat % 16) (by omega)).2.2
    have hval : UInt8.ofNat (b.toNat / 16) * 16 + UInt8.ofNat (b.toNat % 16) = b := by
      apply UInt8.toNat_inj.mp
      have h16 : (16 : UInt8).toNat = 16 := rfl
      simp only [UInt8.toNat_add, UInt8.toNat_mul, UInt8.toNat_ofNat', h16]
      omega
    simp only [List.flatMap_cons, hexByte, List.map_cons, List.cons_append, List.nil_append,
      hexPairs, hhi, hlo, ih, Option.bind_eq_bind, Option.bind_some, hval]
    rfl

theorem hexEncode_injective {x y : Bytes} (h : hexEncode x = hexEncode y) : x = y := by
  have hh := congrArg hexDecode h
  simpa only [hexDecode_hexEncode, Option.some.injEq] using hh

end GitCellar
