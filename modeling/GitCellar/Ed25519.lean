import GitCellar.Certificates
import GitCellar.Signing

/-! The Ed25519 interface the crates use, as a signature scheme. -/

namespace GitCellar

open Signing

abbrev Bytes64 := { b : Bytes // b.length = 64 }

/-- `fromBytes` tells why `VerifyingKey::from_bytes` refuses a key. -/
structure Ed25519 where
  publicKey : Bytes32 → Bytes32
  sign : Bytes32 → Bytes → Bytes64
  fromBytes : Bytes32 → Option String
  verifyStrict : Bytes32 → Bytes → Bytes64 → Bool

inductive MasterKeyError where
  | invalidPhrase (msg : String)
  | invalidPublicKey (msg : String)
  | signatureFailed
  deriving DecidableEq, Repr

def Ed25519.verifyWithPubkey (P : Ed25519) (pubkey : Bytes32) (msg : Bytes) (sig : Bytes64) :
    Except MasterKeyError Unit :=
  match P.fromBytes pubkey with
  | some e => .error (.invalidPublicKey e)
  | none => if P.verifyStrict pubkey msg sig then .ok () else .error .signatureFailed

def Ed25519.scheme (P : Ed25519) : Scheme Bytes32 Bytes32 String where
  cert := P.publicKey
  sign k _ m := .ok (P.sign k m).val
  verify pubkey m σ :=
    match P.fromBytes pubkey with
    | some e => .error e
    | none => .ok (if h : σ.length = 64 then P.verifyStrict pubkey m ⟨σ, h⟩ else false)

def Ed25519.Verifies (P : Ed25519) (pubkey : Bytes32) (m : Bytes) (σ : Bytes64) : Prop :=
  P.fromBytes pubkey = none ∧ P.verifyStrict pubkey m σ = true

variable {P : Ed25519} {signed : Set (Bytes32 × Bytes)} {seen : Set Bytes} {k pubkey : Bytes32}
  {m : Bytes} {σ : Bytes64}

theorem Ed25519.scheme_verify_iff :
    P.scheme.verify pubkey m σ.val = .ok true ↔ P.Verifies pubkey m σ := by
  cases hbytes : P.fromBytes pubkey with
  | some e => simp [scheme, Verifies, hbytes]
  | none => simp [scheme, Verifies, hbytes, σ.property]

theorem Ed25519.verifyWithPubkey_ok_iff :
    P.verifyWithPubkey pubkey m σ = .ok () ↔ P.Verifies pubkey m σ := by
  cases hbytes : P.fromBytes pubkey with
  | some e => simp [verifyWithPubkey, Verifies, hbytes]
  | none => simp [verifyWithPubkey, Verifies, hbytes]

theorem Ed25519.verifies_sign (hP : P.scheme.Lawful) (k : Bytes32) (m : Bytes) :
    P.Verifies (P.publicKey k) m (P.sign k m) := by
  have haccepts := hP.accepts k 0 m (P.sign k m).val rfl
  exact Ed25519.scheme_verify_iff.mp haccepts

/-- A signature among those seen verifies under a key exactly when the key's
holder signed the message with it. -/
theorem Ed25519.verifies_iff (hP : P.scheme.Strong signed seen) (hseen : σ.val ∈ seen) :
    P.Verifies (P.publicKey k) m σ ↔ (k, m) ∈ signed ∧ σ = P.sign k m := by
  constructor
  · intro hverifies
    have haccepts := Ed25519.scheme_verify_iff.mpr hverifies
    obtain ⟨coins, hmade⟩ := hP.made σ.val hseen k m haccepts
    exact ⟨hP.unforgeable σ.val hseen k m haccepts, Subtype.ext (Except.ok.inj hmade).symm⟩
  · rintro ⟨_, rfl⟩
    exact Ed25519.verifies_sign hP.toLawful k m

/-- Public keys are their seeds; one message of one key carries a signature of
ones, all others one of zeros. -/
def Ed25519.signOnce (k₀ : Bytes32) (m₀ : Bytes) : Ed25519 where
  publicKey k := k
  sign k m := ⟨List.replicate 64 (if k = k₀ ∧ m = m₀ then 1 else 0), List.length_replicate⟩
  fromBytes _ := none
  verifyStrict pubkey m σ := σ.val == List.replicate 64 (if pubkey = k₀ ∧ m = m₀ then 1 else 0)

theorem Ed25519.signOnce_strong (k₀ : Bytes32) (m₀ : Bytes) :
    (signOnce k₀ m₀).scheme.Strong {(k₀, m₀)} {List.replicate 64 1} where
  accepts k coins m σ h := by
    obtain rfl := Except.ok.inj h
    exact Ed25519.scheme_verify_iff.mpr ⟨rfl, beq_self_eq_true _⟩
  nonempty k coins m σ h := by
    obtain rfl := Except.ok.inj h
    simp [signOnce]
  unforgeable := by
    rintro σ rfl k m h
    have hverifies : (signOnce k₀ m₀).Verifies k m ⟨List.replicate 64 1, List.length_replicate⟩ :=
      Ed25519.scheme_verify_iff.mp h
    have hbit := (List.replicate_inj.mp (eq_of_beq hverifies.2)).2.resolve_left (by decide)
    by_cases hone : k = k₀ ∧ m = m₀
    · rw [hone.1, hone.2]
      exact Set.mem_singleton _
    · rw [if_neg hone] at hbit
      cases hbit
  made := by
    rintro σ rfl k m h
    have hverifies : (signOnce k₀ m₀).Verifies k m ⟨List.replicate 64 1, List.length_replicate⟩ :=
      Ed25519.scheme_verify_iff.mp h
    exact ⟨0, congrArg Except.ok (eq_of_beq hverifies.2).symm⟩

end GitCellar
