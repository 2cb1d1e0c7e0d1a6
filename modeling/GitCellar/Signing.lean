import Mathlib.Algebra.Order.Ring.Nat
import Mathlib.Data.Set.Insert
import Mathlib.Tactic.Common

/-! Detached signatures over byte strings. -/

namespace Signing

/-- `coins` is what a signature depends on besides key and message: randomness
and the clock. -/
structure Scheme (Key Cert ε : Type) where
  cert : Key → Cert
  sign : Key → (coins : Nat) → List UInt8 → Except ε (List UInt8)
  verify : Cert → List UInt8 → List UInt8 → Except ε Bool

variable {Key Cert ε : Type} {S : Scheme Key Cert ε}

structure Scheme.Lawful (S : Scheme Key Cert ε) : Prop where
  accepts : ∀ k coins m σ, S.sign k coins m = .ok σ → S.verify (S.cert k) m σ = .ok true
  nonempty : ∀ k coins m σ, S.sign k coins m = .ok σ → σ ≠ []

/-- Nobody forges: of the signatures anyone has `seen`, none verifies under a
key for a message the key's holder did not sign. -/
structure Scheme.Ideal (S : Scheme Key Cert ε) (signed : Set (Key × List UInt8))
    (seen : Set (List UInt8)) : Prop extends S.Lawful where
  unforgeable : ∀ σ ∈ seen, ∀ k m, S.verify (S.cert k) m σ = .ok true → (k, m) ∈ signed

/-- Moreover a signature that verifies is one the key's holder made. -/
structure Scheme.Strong (S : Scheme Key Cert ε) (signed : Set (Key × List UInt8))
    (seen : Set (List UInt8)) : Prop extends S.Ideal signed seen where
  made : ∀ σ ∈ seen, ∀ k m, S.verify (S.cert k) m σ = .ok true → ∃ coins, S.sign k coins m = .ok σ

/-- A signature is the key and the message, so it shows who signed what. -/
def Scheme.transcript (ε : Type) : Scheme UInt8 UInt8 ε where
  cert k := k
  sign k _ m := .ok (k :: m)
  verify c m σ := .ok (σ == c :: m)

theorem Scheme.transcript_ideal (signed : Set (UInt8 × List UInt8)) :
    (Scheme.transcript ε).Ideal signed {σ | ∃ e ∈ signed, σ = e.1 :: e.2} where
  accepts k coins m σ h := by
    obtain rfl := Except.ok.inj h
    simp [transcript]
  nonempty k coins m σ h := by
    obtain rfl := Except.ok.inj h
    simp
  unforgeable := by
    rintro σ ⟨e, he, rfl⟩ k m h
    have hbytes : e.1 :: e.2 = k :: m := by simpa [transcript] using h
    obtain ⟨rfl, rfl⟩ := List.cons.inj hbytes
    exact he

end Signing
