import Mathlib.Algebra.Order.Ring.Nat
import Mathlib.Data.Set.Insert
import Mathlib.Tactic.Common

/-! Authenticated encryption with associated data, as a function of key, nonce
and associated data. -/

namespace AuthEnc

structure Aead (Key Nonce : Type) where
  encrypt : Key → Nonce → List UInt8 → List UInt8 → Option (List UInt8)
  decrypt : Key → Nonce → List UInt8 → List UInt8 → Option (List UInt8)

variable {Key Nonce : Type} {A : Aead Key Nonce} {tagSize maxMsg : Nat}

/-- Opening undoes sealing and resealing undoes opening; a ciphertext is the
message's length and a tag; every message below the limit seals. -/
structure Aead.Lawful (A : Aead Key Nonce) (tagSize maxMsg : Nat) : Prop where
  opens_iff : ∀ k n a c m, A.decrypt k n a c = some m ↔ A.encrypt k n a m = some c
  length_eq : ∀ k n a m c, A.encrypt k n a m = some c → c.length = m.length + tagSize
  seals : ∀ k n a m, m.length < maxMsg → ∃ c, A.encrypt k n a m = some c

/-- The ciphertexts `used` open only under the key, nonce and associated data
they were sealed with. No fixed-size tag gives this for all byte strings at
once, so it is asked of the ciphertexts in use. -/
structure Aead.Ideal (A : Aead Key Nonce) (tagSize maxMsg : Nat) (used : Set (List UInt8)) : Prop
    extends A.Lawful tagSize maxMsg where
  binds : ∀ c ∈ used, ∀ k n a m k' n' a' m', A.encrypt k n a m = some c →
    A.encrypt k' n' a' m' = some c → k = k' ∧ n = n' ∧ a = a'

theorem Aead.Ideal.decrypt_other_aad {used : Set (List UInt8)} (hA : A.Ideal tagSize maxMsg used)
    {k k' : Key} {n n' : Nonce} {a a' m c : List UInt8} (hc : c ∈ used)
    (hs : A.encrypt k n a m = some c) (hne : a ≠ a') : A.decrypt k' n' a' c = none := by
  cases hd : A.decrypt k' n' a' c with
  | none => rfl
  | some m' =>
    have ho := (hA.opens_iff k' n' a' c m').mp hd
    exact absurd (hA.binds c hc k n a m k' n' a' m' hs ho).2.2 hne

theorem Aead.Ideal.mono {used wider : Set (List UInt8)} (hA : A.Ideal tagSize maxMsg wider)
    (hsub : used ⊆ wider) : A.Ideal tagSize maxMsg used :=
  ⟨hA.toLawful, fun c hc => hA.binds c (hsub hc)⟩

/-- Nobody forges: of the ciphertexts anyone has `met`, one opens only where it was
`made`. No key has made two ciphertexts under one nonce, and none was made twice. -/
structure Aead.Unforged (A : Aead Key Nonce) (tagSize maxMsg : Nat)
    (made : Set (Key × Nonce × List UInt8 × List UInt8)) (met : Set (List UInt8)) : Prop
    extends A.Lawful tagSize maxMsg where
  opens_made : ∀ c ∈ met, ∀ k n a m, A.decrypt k n a c = some m → (k, n, a, c) ∈ made
  nonce_once : ∀ k n a c a' c', (k, n, a, c) ∈ made → (k, n, a', c') ∈ made → a = a' ∧ c = c'
  made_once : ∀ k n a k' n' a' c, (k, n, a, c) ∈ made → (k', n', a', c) ∈ made → k = k' ∧
    n = n' ∧ a = a'

/-- The message followed by a tag; opening recomputes the tag. -/
def Aead.ofTag (maxMsg tagSize : Nat)
    (tag : Key → Nonce → List UInt8 → List UInt8 → List UInt8) : Aead Key Nonce where
  encrypt k n a m := if m.length < maxMsg then some (m ++ tag k n a m) else none
  decrypt k n a c :=
    let m := c.take (c.length - tagSize)
    if m.length < maxMsg ∧ m ++ tag k n a m = c then some m else none

theorem Aead.ofTag_lawful {tag : Key → Nonce → List UInt8 → List UInt8 → List UInt8}
    (hlen : ∀ k n a m, (tag k n a m).length = tagSize) :
    (Aead.ofTag maxMsg tagSize tag).Lawful tagSize maxMsg where
  opens_iff k n a c m := by
    simp only [Aead.ofTag]
    constructor
    · intro h
      obtain ⟨hc, hm⟩ := Option.ite_none_right_eq_some.mp h
      obtain rfl := Option.some.inj hm
      rw [if_pos hc.1, hc.2]
    · intro h
      obtain ⟨hm, hc⟩ := Option.ite_none_right_eq_some.mp h
      obtain rfl := Option.some.inj hc
      have htake : (m ++ tag k n a m).take ((m ++ tag k n a m).length - tagSize) = m := by
        rw [List.length_append, hlen, Nat.add_sub_cancel, List.take_left]
      simp only [htake, hm, and_self, if_true]
  length_eq k n a m c h := by
    obtain ⟨_, hc⟩ := Option.ite_none_right_eq_some.mp h
    obtain rfl := Option.some.inj hc
    rw [List.length_append, hlen]
  seals k n a m hm := ⟨m ++ tag k n a m, by simp only [Aead.ofTag, hm, if_true]⟩

/-- One message carries a tag of ones, all others a tag of zeros: the ciphertext
of that message opens only as it was sealed. -/
def Aead.tagOnce [DecidableEq Key] [DecidableEq Nonce] (maxMsg tagSize : Nat)
    (k₀ : Key) (n₀ : Nonce) (a₀ m₀ : List UInt8) : Aead Key Nonce :=
  Aead.ofTag maxMsg tagSize fun k n a m =>
    List.replicate tagSize (if k = k₀ ∧ n = n₀ ∧ a = a₀ ∧ m = m₀ then 1 else 0)

/-- A ciphertext that does not end in a tag of zeros is that message's or opens nowhere. -/
theorem Aead.tagOnce_unforged [DecidableEq Key] [DecidableEq Nonce] (k₀ : Key) (n₀ : Nonce)
    (a₀ m₀ : List UInt8) : (Aead.tagOnce maxMsg tagSize k₀ n₀ a₀ m₀).Unforged tagSize maxMsg
      {(k₀, n₀, a₀, m₀ ++ List.replicate tagSize 1)} {c | ¬ List.replicate tagSize 0 <:+ c} where
  toLawful := Aead.ofTag_lawful (fun _ _ _ _ => List.length_replicate)
  opens_made c hc k n a m hd := by
    have hc' : ¬ List.replicate tagSize 0 <:+ c := hc
    obtain ⟨⟨_, hm⟩, _⟩ := Option.ite_none_right_eq_some.mp hd
    by_cases hall : k = k₀ ∧ n = n₀ ∧ a = a₀ ∧ c.take (c.length - tagSize) = m₀
    · simp only [if_pos hall] at hm
      rw [Set.mem_singleton_iff, ← hm, hall.1, hall.2.1, hall.2.2.1, hall.2.2.2]
    · simp only [if_neg hall] at hm
      exact absurd ⟨_, hm⟩ hc'
  nonce_once k n a c a' c' h h' := by
    simp only [Set.mem_singleton_iff, Prod.mk.injEq] at h h'
    exact ⟨h.2.2.1.trans h'.2.2.1.symm, h.2.2.2.trans h'.2.2.2.symm⟩
  made_once k n a k' n' a' c h h' := by
    simp only [Set.mem_singleton_iff, Prod.mk.injEq] at h h'
    exact ⟨h.1.trans h'.1.symm, h.2.1.trans h'.2.1.symm, h.2.2.1.trans h'.2.2.1.symm⟩

theorem Aead.tagOnce_ideal [DecidableEq Key] [DecidableEq Nonce] (htag : 0 < tagSize)
    (k₀ : Key) (n₀ : Nonce) (a₀ m₀ : List UInt8) :
    (Aead.tagOnce maxMsg tagSize k₀ n₀ a₀ m₀).Ideal tagSize maxMsg
      {m₀ ++ List.replicate tagSize 1} := by
  have hlaw : (Aead.tagOnce maxMsg tagSize k₀ n₀ a₀ m₀).Lawful tagSize maxMsg :=
    Aead.ofTag_lawful (fun _ _ _ _ => List.length_replicate)
  have hone : ∀ k n a m, (Aead.tagOnce maxMsg tagSize k₀ n₀ a₀ m₀).encrypt k n a m =
      some (m₀ ++ List.replicate tagSize 1) → k = k₀ ∧ n = n₀ ∧ a = a₀ := by
    intro k n a m he
    obtain ⟨_, hc⟩ := Option.ite_none_right_eq_some.mp he
    obtain ⟨_, ht⟩ := List.append_inj' (Option.some.inj hc) (by simp)
    have hbit := (List.replicate_inj.mp ht).2.resolve_left (by omega)
    by_cases hall : k = k₀ ∧ n = n₀ ∧ a = a₀ ∧ m = m₀
    · exact ⟨hall.1, hall.2.1, hall.2.2.1⟩
    · rw [if_neg hall] at hbit
      cases hbit
  refine ⟨hlaw, ?_⟩
  rintro c rfl k n a m k' n' a' m' hs ho
  obtain ⟨rfl, rfl, rfl⟩ := hone k n a m hs
  obtain ⟨rfl, rfl, rfl⟩ := hone k' n' a' m' ho
  exact ⟨rfl, rfl, rfl⟩

/-- Messages under a marked key, nonce and associated data carry a tag of their mark,
all others a tag of zeros. -/
def Aead.marked (maxMsg tagSize : Nat) (mark : Key → Nonce → List UInt8 → UInt8) : Aead Key Nonce :=
  Aead.ofTag maxMsg tagSize fun k n a _ => List.replicate tagSize (mark k n a)

theorem Aead.marked_ideal {mark : Key → Nonce → List UInt8 → UInt8} (htag : 0 < tagSize)
    (hmark : ∀ k n a k' n' a', mark k n a ≠ 0 → mark k n a = mark k' n' a' → k = k' ∧
      n = n' ∧ a = a') :
    (Aead.marked maxMsg tagSize mark).Ideal tagSize maxMsg
    {c | ¬ List.replicate tagSize 0 <:+ c} where
  toLawful := Aead.ofTag_lawful (fun _ _ _ _ => List.length_replicate)
  binds c hc k n a m k' n' a' m' hs ho := by
    have hc' : ¬ List.replicate tagSize 0 <:+ c := hc
    obtain ⟨_, hm⟩ := Option.ite_none_right_eq_some.mp hs
    obtain ⟨_, hm'⟩ := Option.ite_none_right_eq_some.mp ho
    have hsame := (Option.some.inj hm).trans (Option.some.inj hm').symm
    obtain ⟨_, htags⟩ :=
      List.append_inj' hsame (by rw [List.length_replicate, List.length_replicate])
    have hbit : mark k n a = mark k' n' a' :=
      (List.replicate_inj.mp htags).2.resolve_left (by omega)
    refine hmark k n a k' n' a' (fun hzero => hc' ?_) hbit
    rw [← Option.some.inj hm]
    show List.replicate tagSize 0 <:+ m ++ List.replicate tagSize (mark k n a)
    rw [hzero]
    exact List.suffix_append m _

end AuthEnc
