import GitCellar.AtRest
import GitCellar.Ed25519
import GitCellar.Words

/-! The recovery phrase and its two parsers: the master key's (`master.rs`) and
the recovery code's (`recovery/mod.rs`). -/

namespace GitCellar

open Unicode Utf8

def masterDerivationInfo : Bytes := utf8 "gitcellar-master-v1"

def recoveryDerivationInfo : Bytes := utf8 "gitcellar-passkey-recovery-v1"

def recoveryCodeWordCount : Nat := 24

/-- The `bip39` crate for English, with `M` its mnemonics and `String` the
display of its errors. It takes phrases of five word counts. -/
structure Bip39 (M : Type) where
  parseInNormalized : String → Except String M
  toSeed : M → String → Bytes64
  counts : ∀ s m, parseInNormalized s = .ok m →
    (splitWhitespace s).length ∈ [12, 15, 18, 21, recoveryCodeWordCount]

def normalizedWords (phrase : String) : List String := splitWhitespace (toLowercase phrase)

/-- `normalize_phrase`, the same text in both crates. -/
def normalizePhrase (phrase : String) : String := joinWords (normalizedWords phrase)

structure MaterializedMaster where
  secretBytes : Bytes32
  publicKey : Bytes32
  deriving DecidableEq

structure RecoveryCode (M : Type) where
  mnemonic : M
  deriving DecidableEq

section

variable {M : Type} (B : Bip39 M) (hkdf : Hkdf) (publicKey : Bytes32 → Bytes32)

def MaterializedMaster.fromPhrase (phrase : String) : Except MasterKeyError MaterializedMaster := do
  let mnemonic ← (B.parseInNormalized (normalizePhrase phrase)).mapError .invalidPhrase
  let seed := B.toSeed mnemonic ""
  let secretBytes := hkdf noSalt seed.val masterDerivationInfo
  return ⟨secretBytes, publicKey secretBytes⟩

def RecoveryCode.fromPhrase (phrase : String) : Except PasskeyError (RecoveryCode M) := do
  let normalized := normalizePhrase phrase
  let wordCount := (splitWhitespace normalized).length
  if wordCount ≠ recoveryCodeWordCount then
    throw (.invalidRecoveryCode ("Expected " ++ toString recoveryCodeWordCount ++ " words, got " ++
      toString wordCount))
  let mnemonic ← (B.parseInNormalized normalized).mapError fun e =>
    .invalidRecoveryCode ("Invalid mnemonic: " ++ e)
  return ⟨mnemonic⟩

def RecoveryCode.deriveKeyMaterial (code : RecoveryCode M) : Bytes32 :=
  hkdf noSalt (B.toSeed code.mnemonic "").val recoveryDerivationInfo

def Bip39.IsMnemonic (n : Nat) (words : List String) : Prop :=
  words.length = n ∧ ∃ m, B.parseInNormalized (joinWords words) = .ok m

/-- The two parsers accept `phrase` together, exactly when its words are a valid
mnemonic of 24, and what they make of it depends on these words only. -/
structure PhraseParsersAgree (phrase : String) : Prop where
  together : (∃ m, MaterializedMaster.fromPhrase B hkdf publicKey phrase = .ok m) ↔
    ∃ c, RecoveryCode.fromPhrase B phrase = .ok c
  master : (∃ m, MaterializedMaster.fromPhrase B hkdf publicKey phrase = .ok m) ↔
    B.IsMnemonic recoveryCodeWordCount (normalizedWords phrase)
  code : (∃ c, RecoveryCode.fromPhrase B phrase = .ok c) ↔
    B.IsMnemonic recoveryCodeWordCount (normalizedWords phrase)
  onWords : ∀ other, normalizedWords other = normalizedWords phrase →
    MaterializedMaster.fromPhrase B hkdf publicKey other =
        MaterializedMaster.fromPhrase B hkdf publicKey phrase ∧
      RecoveryCode.fromPhrase B other = RecoveryCode.fromPhrase B phrase ∧
      (RecoveryCode.fromPhrase B other).map (RecoveryCode.deriveKeyMaterial B hkdf) =
        (RecoveryCode.fromPhrase B phrase).map (RecoveryCode.deriveKeyMaterial B hkdf)

end

section

variable {M : Type} {B : Bip39 M} {hkdf : Hkdf} {publicKey : Bytes32 → Bytes32}
    {phrase other : String}

theorem splitWhitespace_normalizePhrase (phrase : String) :
    splitWhitespace (normalizePhrase phrase) = normalizedWords phrase :=
  splitWhitespace_joinWords (toLowercase phrase)

theorem MaterializedMaster.fromPhrase_ok_iff :
    (∃ m, MaterializedMaster.fromPhrase B hkdf publicKey phrase = .ok m) ↔
      ∃ m, B.parseInNormalized (normalizePhrase phrase) = .ok m := by
  cases hparse : B.parseInNormalized (normalizePhrase phrase) with
  | error e => simp [MaterializedMaster.fromPhrase, hparse, Except.mapError, Bind.bind, Except.bind]
  | ok m =>
    simp [MaterializedMaster.fromPhrase, hparse, Except.mapError, Bind.bind, Except.bind, Pure.pure,
      Except.pure]

theorem RecoveryCode.fromPhrase_ok_iff :
    (∃ c, RecoveryCode.fromPhrase B phrase = .ok c) ↔
      B.IsMnemonic recoveryCodeWordCount (normalizedWords phrase) := by
  rw [Bip39.IsMnemonic, RecoveryCode.fromPhrase, splitWhitespace_normalizePhrase, ← normalizePhrase]
  by_cases hcount : (normalizedWords phrase).length = recoveryCodeWordCount
  · cases hparse : B.parseInNormalized (normalizePhrase phrase) with
    | error e => simp [hcount, Except.mapError, Bind.bind, Except.bind]
    | ok m => simp [hcount, Except.mapError, Bind.bind, Except.bind, Pure.pure, Except.pure]
  · simp [hcount, Bind.bind, Except.bind]

theorem normalizePhrase_congr (h : normalizedWords other = normalizedWords phrase) :
    normalizePhrase other = normalizePhrase phrase :=
  congrArg joinWords h

theorem fromPhrase_congr (h : normalizedWords other = normalizedWords phrase) :
    MaterializedMaster.fromPhrase B hkdf publicKey other =
        MaterializedMaster.fromPhrase B hkdf publicKey phrase ∧
      RecoveryCode.fromPhrase B other = RecoveryCode.fromPhrase B phrase := by
  have hnormal := normalizePhrase_congr h
  constructor
  · rw [MaterializedMaster.fromPhrase, hnormal, ← MaterializedMaster.fromPhrase]
  · rw [RecoveryCode.fromPhrase, hnormal, ← RecoveryCode.fromPhrase]

/-- The word counts the parser takes, seen from the phrase that is normalised. -/
theorem Bip39.count_of_parse {m : M} (h : B.parseInNormalized (normalizePhrase phrase) = .ok m) :
    (normalizedWords phrase).length = recoveryCodeWordCount ∨
      ∃ n ∈ [12, 15, 18, 21], B.IsMnemonic n (normalizedWords phrase) := by
  have hcount := B.counts _ m h
  rw [splitWhitespace_normalizePhrase] at hcount
  have hsplit : (normalizedWords phrase).length ∈ [12, 15, 18, 21] ++ [recoveryCodeWordCount] :=
    hcount
  rcases List.mem_append.mp hsplit with hn | hn
  · exact .inr ⟨_, hn, rfl, m, h⟩
  · exact .inl (List.mem_singleton.mp hn)

/-- The parsers agree on a phrase unless it is a valid mnemonic of fewer words,
which the master's parser takes. -/
theorem phraseParsersAgree_iff (B : Bip39 M) (hkdf : Hkdf) (publicKey : Bytes32 → Bytes32)
    (phrase : String) :
    PhraseParsersAgree B hkdf publicKey phrase ↔
      ∀ n ∈ [12, 15, 18, 21], ¬ B.IsMnemonic n (normalizedWords phrase) := by
  constructor
  · intro h n hn hmnemonic
    have hwords := h.master.mp (MaterializedMaster.fromPhrase_ok_iff.mpr hmnemonic.2)
    have hsame : n = recoveryCodeWordCount := hmnemonic.1.symm.trans hwords.1
    rw [hsame] at hn
    exact absurd hn (by decide)
  · intro hshort
    have hmaster : (∃ m, MaterializedMaster.fromPhrase B hkdf publicKey phrase = .ok m) ↔
        B.IsMnemonic recoveryCodeWordCount (normalizedWords phrase) := by
      rw [MaterializedMaster.fromPhrase_ok_iff]
      constructor
      · rintro ⟨m, hparse⟩
        rcases Bip39.count_of_parse hparse with hcount | ⟨n, hn, hmnemonic⟩
        · exact ⟨hcount, m, hparse⟩
        · exact absurd hmnemonic (hshort n hn)
      · intro hmnemonic
        exact hmnemonic.2
    refine ⟨hmaster.trans RecoveryCode.fromPhrase_ok_iff.symm, hmaster,
      RecoveryCode.fromPhrase_ok_iff, ?_⟩
    intro other hwords
    obtain ⟨hsameMaster, hsameCode⟩ := fromPhrase_congr hwords
    exact ⟨hsameMaster, hsameCode, by rw [hsameCode]⟩

end

def zeroEntropyPhrase : String :=
  "abandon abandon abandon abandon abandon abandon abandon abandon abandon abandon abandon about"

theorem length_zeroEntropyPhrase : (splitWhitespace zeroEntropyPhrase).length = 12 := by
  decide +kernel

theorem normalizePhrase_zeroEntropyPhrase :
    normalizePhrase zeroEntropyPhrase = zeroEntropyPhrase := by
  have hletters : zeroEntropyPhrase.toList.all (fun c => " abdnotu".toList.contains c) = true := by
    decide +kernel
  have hlower : " abdnotu".toList.all (fun c => c != 'Σ' && toLower c == [c]) = true := by
    decide +kernel
  have hsame : toLowercase zeroEntropyPhrase = zeroEntropyPhrase := by
    refine toLowercase_of_lower fun c hc => ?_
    have hletter : c ∈ " abdnotu".toList := by simpa using List.all_eq_true.mp hletters c hc
    simpa using List.all_eq_true.mp hlower c hletter
  rw [normalizePhrase, normalizedWords, hsame]
  decide +kernel

def zeroEntropySeed : Bytes64 :=
  ⟨(hexDecode ("5eb00bbddcf069084889a8ab9155568165f5c453ccb85e70811aaed6f6da5fc1" ++
    "9a5ac40b389cd370d086206dec8aa6c43daea6690f20ad3d8d48b2d2ce9e38e4")).getD [], by decide +kernel⟩

def zeroEntropyBip39 : Bip39 Unit where
  parseInNormalized s := if s = zeroEntropyPhrase then .ok () else .error "not the phrase"
  toSeed _ _ := zeroEntropySeed
  counts s m h := by
    have hs : s = zeroEntropyPhrase := by
      by_contra hs
      rw [if_neg hs] at h
      cases h
    rw [hs, length_zeroEntropyPhrase]
    decide

def zeroEntropySecret : Bytes32 :=
  ⟨(hexDecode "7e93af09b1762bfcb01e1d95886fca99223352b0e415308563d870956ce30af2").getD [],
    by decide +kernel⟩

def zeroEntropyPublicKey : Bytes32 :=
  ⟨(hexDecode "126d55318407ba602b189205249b4b67015fc1ce1b8891a0bc31fc26842f5711").getD [],
    by decide +kernel⟩

theorem phraseParsers_disagree :
    ¬ PhraseParsersAgree zeroEntropyBip39 (fun _ _ _ => zeroEntropySecret)
      (fun _ => zeroEntropyPublicKey) zeroEntropyPhrase := by
  intro h
  have hnormal := normalizePhrase_zeroEntropyPhrase
  have hmaster : ∃ m, MaterializedMaster.fromPhrase zeroEntropyBip39
      (fun _ _ _ => zeroEntropySecret)
      (fun _ => zeroEntropyPublicKey) zeroEntropyPhrase = .ok m := by
    apply MaterializedMaster.fromPhrase_ok_iff.mpr
    exact ⟨(), by rw [hnormal]; rfl⟩
  have hwords := (h.master.mp hmaster).1
  rw [← splitWhitespace_normalizePhrase, hnormal, length_zeroEntropyPhrase] at hwords
  cases hwords

end GitCellar
