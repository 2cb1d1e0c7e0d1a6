import GitCellar.Chunking
import GitCellar.LowerWords
import GitCellar.Recovery

/-! The recovery code as it is shown, typed back and checked word by word, and what is stored
to verify it (`recovery/mod.rs`, `derive.rs`, `bip39_impl.rs`). -/

namespace GitCellar

open Joined Unicode Utf8

/-- Mnemonics as words of the English list. A phrase that is parsed has its own words. -/
structure Bip39Words {M : Type} (B : Bip39 M) where
  wordList : List String
  words : M → List String
  fromEntropy : Vector UInt8 32 → Except String M
  spelled : ∀ w ∈ wordList, w ≠ "" ∧ ∀ c ∈ w.toList, 97 ≤ c.toNat ∧ c.toNat ≤ 122
  listed : ∀ m, ∀ w ∈ words m, w ∈ wordList
  parses : ∀ m, B.parseInNormalized (joinWords (words m)) = .ok m
  parsed : ∀ s m, B.parseInNormalized s = .ok m → words m = splitWhitespace s
  drawn : ∀ entropy m, fromEntropy entropy = .ok m → (words m).length = recoveryCodeWordCount

/-- `words.chunks(4)` -/
def groupsOfFour : List String → List (List String)
  | a :: b :: c :: d :: rest => [a, b, c, d] :: groupsOfFour rest
  | [] => []
  | rest => [rest]

/-- `lines.join("\n")` -/
def joinLines (lines : List String) : String :=
  String.ofList (['\n'].intercalate (lines.map String.toList))

/-- `{:2}` -/
def twoWide (n : Nat) : String := if n < 10 then " " ++ toString n else toString n

/-- What stands before the words of line `i`. -/
def lineLabel (i count : Nat) : String :=
  twoWide (i * 4 + 1) ++ "-" ++ twoWide (i * 4 + 1 + count - 1) ++ ":"

section

variable {M : Type} {B : Bip39 M} (W : Bip39Words B) (hkdf : Hkdf) (sha256 : Bytes → Digest)

/-- The mnemonic's `Display`. -/
def RecoveryCode.phrase (code : RecoveryCode M) : String := joinWords (W.words code.mnemonic)

def generateRecoveryCode (entropy : Vector UInt8 32) : Except String (RecoveryCode M) :=
  match W.fromEntropy entropy with
  | .error e => .error ("Failed to generate key: Failed to generate mnemonic: " ++ e)
  | .ok m => .ok ⟨m⟩

def RecoveryCode.formatForDisplay (code : RecoveryCode M) : String :=
  joinLines ((groupsOfFour (splitWhitespace (code.phrase W))).map joinWords)

def RecoveryCode.formatWithNumbers (code : RecoveryCode M) : String :=
  joinLines ((groupsOfFour (splitWhitespace (code.phrase W))).zipIdx.map fun g =>
    lineLabel g.2 g.1.length ++ " " ++ joinWords g.1)

variable (B) in
def isValidPhrase (phrase : String) : Bool := (RecoveryCode.fromPhrase B phrase).isOk

def isValidWord (word : String) : Bool := W.wordList.any fun w => w == toLowercase word

def findInvalidWords (phrase : String) : List (Nat × String) :=
  (splitWhitespace phrase).zipIdx.filterMap fun w =>
    if W.wordList.any fun listed => listed == toLowercase w.1 then none else some (w.2 + 1, w.1)

/-- `w.starts_with(prefix)` -/
def getWordSuggestions (start : String) (maxResults : Nat) : List String :=
  (W.wordList.filter fun w => (toLowercase start).toList.isPrefixOf w.toList).take maxResults

variable (B) in
def RecoveryCode.deriveVerificationHash (code : RecoveryCode M) : String :=
  hexEncode (sha256 ((code.deriveKeyMaterial B hkdf).val ++ utf8 "verification")).toList

variable (B) in
def RecoveryCode.deriveIdentifier (code : RecoveryCode M) : String :=
  hexEncode ((sha256 ((code.deriveKeyMaterial B hkdf).val ++ utf8 "identifier")).toList.take 8)

variable (B) in
def RecoveryCode.verifyAgainstHash (code : RecoveryCode M) (storedHash : String) : Bool :=
  code.deriveVerificationHash B hkdf sha256 == storedHash

variable (B) in
def hashRecoveryPhrase (phrase : String) : Option String :=
  match RecoveryCode.fromPhrase B phrase with
  | .error _ => none
  | .ok code => some (code.deriveVerificationHash B hkdf sha256)

end

theorem splitWhitespace_append (front rest : List Char) {c : Char} (hc : isWhitespace c = true) :
    splitWhitespace (String.ofList (front ++ c :: rest)) =
      splitWhitespace (String.ofList front) ++ splitWhitespace (String.ofList rest) := by
  rw [splitWhitespace, String.toList_ofList, fields_append hc, List.map_append, splitWhitespace,
    splitWhitespace, String.toList_ofList, String.toList_ofList]

/-- The words of lines are the lines' words. -/
theorem splitWhitespace_joinLines (lines : List String) :
    splitWhitespace (joinLines lines) = lines.flatMap splitWhitespace := by
  induction lines with
  | nil => rfl
  | cons line lines ih =>
    cases lines with
    | nil =>
      rw [joinLines, List.map_singleton, List.intercalate_singleton, String.ofList_toList,
        List.flatMap_singleton]
    | cons next lines =>
      rw [joinLines, List.map_cons, List.map_cons, List.intercalate_cons_cons, List.append_assoc,
        List.singleton_append, splitWhitespace_append _ _ (by decide), String.ofList_toList,
        List.flatMap_cons, ← ih, joinLines, List.map_cons]

/-- A word as `split_whitespace` yields it. -/
def IsWord (w : String) : Prop := Joined.IsField isWhitespace w.toList

theorem splitWhitespace_joinWords_of_words {words : List String} (hwords : ∀ w ∈ words, IsWord w) :
    splitWhitespace (joinWords words) = words := by
  have hpieces : ∀ piece ∈ words.map String.toList, Joined.IsField isWhitespace piece := by
    intro piece hpiece
    obtain ⟨w, hw, rfl⟩ := List.mem_map.mp hpiece
    exact hwords w hw
  rw [splitWhitespace, joinWords, String.toList_ofList, fields_intercalate (by decide) hpieces,
    List.map_map]
  exact List.map_id'' (fun w => String.ofList_toList) words

theorem groupsOfFour_flatten (words : List String) : (groupsOfFour words).flatten = words := by
  fun_induction groupsOfFour words with
  | case1 a b c d rest ih => rw [List.flatten_cons, ih]; rfl
  | case2 => rfl
  | case3 rest _ _ => rw [List.flatten_singleton]

theorem mem_of_mem_group {words group : List String} (hgroup : group ∈ groupsOfFour words) :
    ∀ w ∈ group, w ∈ words := by
  intro w hw
  rw [← groupsOfFour_flatten words]
  exact List.mem_flatten.mpr ⟨group, hgroup, hw⟩

section

variable {M : Type} {B : Bip39 M} {W : Bip39Words B} {hkdf : Hkdf} {sha256 : Bytes → Digest}
  {code : RecoveryCode M} {phrase : String}

theorem letters_lower : ∀ n ∈ List.range' 97 26,
    isWhitespaceCode n = false ∧ Nat.beq n 931 = false ∧ lowerCodes n = [n] := by
  decide +kernel

theorem letter_lower {c : Char} (h : 97 ≤ c.toNat ∧ c.toNat ≤ 122) :
    isWhitespace c = false ∧ c ≠ 'Σ' ∧ toLower c = [c] := by
  have hmem : c.toNat ∈ List.range' 97 26 := List.mem_range'.mpr ⟨c.toNat - 97, by omega, by omega⟩
  obtain ⟨hspace, hsigma, hlower⟩ := letters_lower c.toNat hmem
  refine ⟨hspace, ?_, ?_⟩
  · rintro rfl
    cases hsigma
  · rw [toLower, hlower, List.map_singleton, Char.ofNat_toNat]

theorem Bip39Words.isWord (W : Bip39Words B) (m : M) :
    ∀ w ∈ W.words m, IsWord w ∧ toLowercase w = w := by
  intro w hw
  obtain ⟨hne, hletters⟩ := W.spelled w (W.listed m w hw)
  refine ⟨⟨?_, ?_⟩, ?_⟩
  · intro hnil
    exact hne (String.toList_eq_nil_iff.mp hnil)
  · intro c hc
    exact (letter_lower (hletters c hc)).1
  · exact toLowercase_of_lower fun c hc => (letter_lower (hletters c hc)).2

/-- Made by `from_phrase` or `generate_recovery_code`: of 24 words. -/
def RecoveryCode.Whole (W : Bip39Words B) (code : RecoveryCode M) : Prop :=
  (W.words code.mnemonic).length = recoveryCodeWordCount

theorem splitWhitespace_phrase : splitWhitespace (code.phrase W) = W.words code.mnemonic :=
  splitWhitespace_joinWords_of_words fun w hw => (W.isWord code.mnemonic w hw).1

theorem splitWhitespace_group {group : List String}
    (hgroup : group ∈ groupsOfFour (W.words code.mnemonic)) :
    splitWhitespace (joinWords group) = group :=
  splitWhitespace_joinWords_of_words fun w hw =>
    (W.isWord code.mnemonic w (mem_of_mem_group hgroup w hw)).1

theorem splitWhitespace_formatForDisplay :
    splitWhitespace (code.formatForDisplay W) = W.words code.mnemonic := by
  rw [RecoveryCode.formatForDisplay, splitWhitespace_joinLines, splitWhitespace_phrase,
    List.flatMap_map]
  have hgroups : (groupsOfFour (W.words code.mnemonic)).flatMap
      (fun group => splitWhitespace (joinWords group)) =
      (groupsOfFour (W.words code.mnemonic)).flatMap id :=
    List.flatMap_congr fun group hgroup => splitWhitespace_group hgroup
  rw [hgroups, List.flatMap_id, groupsOfFour_flatten]

theorem normalizedWords_eq (text : String) :
    normalizedWords text = (splitWhitespace text).map toLowercase :=
  splitWhitespace_toLowercase text

theorem map_toLowercase_words (m : M) : (W.words m).map toLowercase = W.words m := by
  have hmap : (W.words m).map toLowercase = (W.words m).map id :=
    List.map_congr_left fun w hw => (W.isWord m w hw).2
  rw [hmap, List.map_id]

/-- The words of the code, in any case and spacing. -/
theorem fromPhrase_typed (hwhole : code.Whole W) {text : String}
    (htext : (splitWhitespace text).map toLowercase = W.words code.mnemonic) :
    RecoveryCode.fromPhrase B text = .ok code := by
  have hwords : normalizedWords text = W.words code.mnemonic :=
    (normalizedWords_eq text).trans htext
  have hcount : (normalizedWords text).length = recoveryCodeWordCount := by
    rw [hwords]
    exact hwhole
  have hparse : B.parseInNormalized (normalizePhrase text) = .ok code.mnemonic := by
    rw [normalizePhrase, hwords]
    exact W.parses code.mnemonic
  simp [RecoveryCode.fromPhrase, splitWhitespace_normalizePhrase, hcount, hparse, Except.mapError,
    Bind.bind, Except.bind, Pure.pure, Except.pure]

theorem fromPhrase_miscounted {text : String} {n : Nat} (hn : (splitWhitespace text).length = n)
    (hne : n ≠ recoveryCodeWordCount) :
    RecoveryCode.fromPhrase B text = .error (.invalidRecoveryCode
      ("Expected " ++ toString recoveryCodeWordCount ++ " words, got " ++ toString n)) := by
  have hcount : (normalizedWords text).length = n := by
    rw [normalizedWords_eq, List.length_map, hn]
  rw [RecoveryCode.fromPhrase, splitWhitespace_normalizePhrase, hcount]
  simp only [hne, ne_eq, not_false_eq_true, if_true]
  rfl

/-- The sizes of the groups. -/
def groupSizes : Nat → List Nat
  | n + 4 => 4 :: groupSizes n
  | 0 => []
  | n => [n]

theorem length_groups (words : List String) :
    (groupsOfFour words).map List.length = groupSizes words.length := by
  fun_induction groupsOfFour words with
  | case1 a b c d rest ih => rw [List.map_cons, ih]; rfl
  | case2 => rfl
  | case3 rest hfour hnil =>
    match rest with
    | [] => exact absurd rfl hnil
    | [a] => rfl
    | [a, b] => rfl
    | [a, b, c] => rfl
    | a :: b :: c :: d :: rest => exact absurd rfl (hfour a b c d rest)

theorem splitWhitespace_line (i : Nat) {group : List String}
    (hgroup : group ∈ groupsOfFour (W.words code.mnemonic)) :
    splitWhitespace (lineLabel i group.length ++ " " ++ joinWords group) =
      splitWhitespace (lineLabel i group.length) ++ group := by
  have hline : lineLabel i group.length ++ " " ++ joinWords group =
      String.ofList ((lineLabel i group.length).toList ++ ' ' :: (joinWords group).toList) := by
    apply String.toList_inj.mp
    simp
  rw [hline, splitWhitespace_append _ _ (by decide), String.ofList_toList, String.ofList_toList,
    splitWhitespace_group hgroup]

theorem splitWhitespace_formatWithNumbers : splitWhitespace (code.formatWithNumbers W) =
    (groupsOfFour (W.words code.mnemonic)).zipIdx.flatMap fun g =>
      splitWhitespace (lineLabel g.2 g.1.length) ++ g.1 := by
  rw [RecoveryCode.formatWithNumbers, splitWhitespace_joinLines, splitWhitespace_phrase,
    List.flatMap_map]
  refine List.flatMap_congr fun g hg => ?_
  exact splitWhitespace_line g.2 (List.fst_mem_of_mem_zipIdx hg)

theorem labels_count : ((groupSizes recoveryCodeWordCount).zipIdx.map fun g =>
    (splitWhitespace (lineLabel g.2 g.1)).length + g.1).sum = 32 := by
  decide +kernel

/-- The numbers in front of the lines are read as eight words more. -/
theorem length_formatWithNumbers (hwhole : code.Whole W) :
    (splitWhitespace (code.formatWithNumbers W)).length = 32 := by
  have hsizes := length_groups (W.words code.mnemonic)
  rw [hwhole] at hsizes
  rw [splitWhitespace_formatWithNumbers, List.length_flatMap, ← labels_count, ← hsizes,
    List.zipIdx_map, List.map_map]
  refine congrArg List.sum (List.map_congr_left fun g _ => ?_)
  simp only [Function.comp_apply, List.length_append, Prod.map_fst, Prod.map_snd, id_eq]

theorem fromPhrase_whole (W : Bip39Words B) {text : String}
    (h : RecoveryCode.fromPhrase B text = .ok code) :
    code.Whole W ∧ (splitWhitespace text).map toLowercase = W.words code.mnemonic := by
  obtain ⟨hcount, m, hparse⟩ := RecoveryCode.fromPhrase_ok_iff.mp ⟨code, h⟩
  have hwords : W.words m = normalizedWords text := by
    rw [W.parsed _ m hparse, ← normalizePhrase, splitWhitespace_normalizePhrase]
  have hwhole : RecoveryCode.Whole W ⟨m⟩ := by
    rw [RecoveryCode.Whole, hwords, hcount]
  have hsame : (splitWhitespace text).map toLowercase = W.words m := by
    rw [hwords, normalizedWords_eq]
  have hcode := fromPhrase_typed hwhole hsame
  obtain rfl : code = ⟨m⟩ := Except.ok.inj (h.symm.trans hcode)
  exact ⟨hwhole, hsame⟩

theorem generated_whole {entropy : Vector UInt8 32}
    (h : generateRecoveryCode W entropy = .ok code) :
    code.Whole W := by
  unfold generateRecoveryCode at h
  cases hdrawn : W.fromEntropy entropy with
  | error e =>
    rw [hdrawn] at h
    cases h
  | ok m =>
    rw [hdrawn] at h
    obtain rfl := Except.ok.inj h
    exact W.drawn entropy m hdrawn

theorem mem_findInvalidWords {n : Nat} {w : String} : (n, w) ∈ findInvalidWords W phrase ↔
    ∃ i, n = i + 1 ∧ (splitWhitespace phrase)[i]? = some w ∧ toLowercase w ∉ W.wordList := by
  rw [findInvalidWords, List.mem_filterMap]
  constructor
  · rintro ⟨⟨v, i⟩, hv, heq⟩
    by_cases hlisted : (W.wordList.any fun listed => listed == toLowercase v) = true
    · rw [if_pos hlisted] at heq
      cases heq
    · rw [if_neg hlisted] at heq
      obtain ⟨rfl, rfl⟩ := Prod.mk.inj (Option.some.inj heq)
      refine ⟨i, rfl, List.mem_zipIdx_iff_getElem?.mp hv, ?_⟩
      intro hmem
      exact hlisted (List.any_eq_true.mpr ⟨_, hmem, beq_self_eq_true _⟩)
  · rintro ⟨i, rfl, hv, hlisted⟩
    refine ⟨(w, i), List.mem_zipIdx_iff_getElem?.mpr hv, ?_⟩
    rw [if_neg]
    intro hany
    obtain ⟨listed, hmem, heq⟩ := List.any_eq_true.mp hany
    rw [eq_of_beq heq] at hmem
    exact hlisted hmem

theorem findInvalidWords_eq_nil_iff :
    findInvalidWords W phrase = [] ↔ ∀ w ∈ normalizedWords phrase, w ∈ W.wordList := by
  rw [normalizedWords_eq, List.eq_nil_iff_forall_not_mem]
  constructor
  · intro hnone w hw
    obtain ⟨v, hv, rfl⟩ := List.mem_map.mp hw
    by_contra hlisted
    obtain ⟨i, hi⟩ := List.mem_iff_getElem?.mp hv
    exact hnone (i + 1, v) (mem_findInvalidWords.mpr ⟨i, rfl, hi, hlisted⟩)
  · rintro hall ⟨n, w⟩ hmem
    obtain ⟨i, _, hi, hlisted⟩ := mem_findInvalidWords.mp hmem
    exact hlisted (hall _ (List.mem_map_of_mem (List.mem_of_getElem? hi)))

theorem isValidWord_iff {w : String} : isValidWord W w = true ↔ toLowercase w ∈ W.wordList := by
  rw [isValidWord, List.any_eq_true]
  constructor
  · rintro ⟨listed, hmem, heq⟩
    rwa [eq_of_beq heq] at hmem
  · intro hmem
    exact ⟨_, hmem, beq_self_eq_true _⟩

theorem hashRecoveryPhrase_typed (hwhole : code.Whole W) {text : String}
    (htext : (splitWhitespace text).map toLowercase = W.words code.mnemonic) :
    hashRecoveryPhrase B hkdf sha256 text = some (code.deriveVerificationHash B hkdf sha256) := by
  rw [hashRecoveryPhrase, fromPhrase_typed hwhole htext]

end

/-- A code that is shown, written down and typed in again. -/
structure RecoveryCodeShown {M : Type} {B : Bip39 M} (W : Bip39Words B) (hkdf : Hkdf)
    (sha256 : Bytes → Digest) (code : RecoveryCode M) : Prop where
  /-- what is read is its words, in any case, spacing and number of lines -/
  typed : ∀ text, RecoveryCode.fromPhrase B text = .ok code ↔
    (splitWhitespace text).map toLowercase = W.words code.mnemonic
  shown : RecoveryCode.fromPhrase B (code.formatForDisplay W) = .ok code ∧
    RecoveryCode.fromPhrase B (code.phrase W) = .ok code
  /-- the numbered lines are for reading: typed in with their numbers they are refused -/
  numbered : RecoveryCode.fromPhrase B (code.formatWithNumbers W) =
    .error (.invalidRecoveryCode "Expected 24 words, got 32")
  /-- a stored hash is verified by the same code, and only by one with the same hash -/
  verified : ∀ text stored, hashRecoveryPhrase B hkdf sha256 text = some stored →
    (code.verifyAgainstHash B hkdf sha256 stored = true ↔
      ∃ other, RecoveryCode.fromPhrase B text = .ok other ∧
        sha256 ((code.deriveKeyMaterial B hkdf).val ++ utf8 "verification") =
          sha256 ((other.deriveKeyMaterial B hkdf).val ++ utf8 "verification"))

section

variable {M : Type} {B : Bip39 M} {hkdf : Hkdf} {sha256 : Bytes → Digest} {code : RecoveryCode M}

theorem verifyAgainstHash_iff (other : RecoveryCode M) :
    code.verifyAgainstHash B hkdf sha256 (other.deriveVerificationHash B hkdf sha256) = true ↔
      sha256 ((code.deriveKeyMaterial B hkdf).val ++ utf8 "verification") =
        sha256 ((other.deriveKeyMaterial B hkdf).val ++ utf8 "verification") := by
  rw [RecoveryCode.verifyAgainstHash, beq_iff_eq, RecoveryCode.deriveVerificationHash,
    RecoveryCode.deriveVerificationHash]
  constructor
  · intro hhash
    exact Vector.toList_inj.mp (hexEncode_injective hhash)
  · intro hdigest
    rw [hdigest]

theorem recovery_code_shown (W : Bip39Words B) (hkdf : Hkdf) (sha256 : Bytes → Digest)
    (hwhole : code.Whole W) : RecoveryCodeShown W hkdf sha256 code where
  typed text := ⟨fun h => (fromPhrase_whole W h).2, fromPhrase_typed hwhole⟩
  shown := by
    constructor
    · refine fromPhrase_typed hwhole ?_
      rw [splitWhitespace_formatForDisplay, map_toLowercase_words]
    · refine fromPhrase_typed hwhole ?_
      rw [splitWhitespace_phrase, map_toLowercase_words]
  numbered := fromPhrase_miscounted (length_formatWithNumbers hwhole) (by decide)
  verified text stored hstored := by
    cases hparse : RecoveryCode.fromPhrase B text with
    | error e =>
      rw [hashRecoveryPhrase, hparse] at hstored
      cases hstored
    | ok other =>
      rw [hashRecoveryPhrase, hparse] at hstored
      obtain rfl := Option.some.inj hstored
      rw [verifyAgainstHash_iff]
      constructor
      · intro hdigest
        exact ⟨other, rfl, hdigest⟩
      · rintro ⟨other', hother, hdigest⟩
        obtain rfl := Except.ok.inj hother
        exact hdigest

end

/-- What a user is told of a phrase while typing it. -/
structure PhraseFeedback {M : Type} {B : Bip39 M} (W : Bip39Words B) (phrase : String) : Prop where
  /-- each word that is not in the list, by its place -/
  exact : ∀ n w, (n, w) ∈ findInvalidWords W phrase ↔
    ∃ i, n = i + 1 ∧ (splitWhitespace phrase)[i]? = some w ∧ isValidWord W w = false
  /-- the parser lower-cases the phrase, the check word by word: they see the same words -/
  clean : findInvalidWords W phrase = [] ↔ ∀ w ∈ normalizedWords phrase, w ∈ W.wordList
  accepted : isValidPhrase B phrase = true → findInvalidWords W phrase = [] ∧
    (splitWhitespace phrase).length = recoveryCodeWordCount
  /-- every word of the list is suggested for each of its beginnings, and it is one -/
  completed : ∀ start w, w ∈ getWordSuggestions W start W.wordList.length ↔
    w ∈ W.wordList ∧ (toLowercase start).toList <+: w.toList
  suggested : ∀ start maxResults, ∀ w ∈ getWordSuggestions W start maxResults,
    isValidWord W w = true

section

variable {M : Type} {B : Bip39 M}

theorem isValidWord_listed (W : Bip39Words B) {w : String} (hw : w ∈ W.wordList) :
    isValidWord W w = true := by
  obtain ⟨_, hletters⟩ := W.spelled w hw
  rw [isValidWord_iff, toLowercase_of_lower fun c hc => (letter_lower (hletters c hc)).2]
  exact hw

theorem word_feedback (W : Bip39Words B) (phrase : String) : PhraseFeedback W phrase where
  exact n w := by
    rw [mem_findInvalidWords]
    refine exists_congr fun i => and_congr_right fun _ => and_congr_right fun _ => ?_
    rw [← isValidWord_iff, Bool.not_eq_true]
  clean := findInvalidWords_eq_nil_iff
  accepted hvalid := by
    obtain ⟨code, hcode⟩ : ∃ code, RecoveryCode.fromPhrase B phrase = .ok code := by
      unfold isValidPhrase at hvalid
      cases hparse : RecoveryCode.fromPhrase B phrase with
      | error e =>
        rw [hparse] at hvalid
        cases hvalid
      | ok code => exact ⟨code, rfl⟩
    obtain ⟨hwhole, hwords⟩ := fromPhrase_whole W hcode
    constructor
    · rw [findInvalidWords_eq_nil_iff, normalizedWords_eq, hwords]
      exact W.listed code.mnemonic
    · rw [← List.length_map, hwords]
      exact hwhole
  completed start w := by
    rw [getWordSuggestions, List.take_of_length_le (List.length_filter_le _ _), List.mem_filter,
      List.isPrefixOf_iff_prefix]
  suggested start maxResults w hw :=
    isValidWord_listed W (List.mem_filter.mp (List.mem_of_mem_take hw)).1

end

/-- The phrase of 32 bytes of zeros. -/
def artWordList : List String := List.replicate 23 "abandon" ++ ["art"]

theorem length_artWordList : artWordList.length = recoveryCodeWordCount := by decide

theorem artWordList_words : ∀ w ∈ artWordList, IsWord w := by
  have hword : ∀ {w : String}, w.toList ≠ [] → (w.toList.all fun c => !isWhitespace c) = true →
      IsWord w := by
    intro w hne hall
    exact ⟨hne, fun c hc => by simpa using List.all_eq_true.mp hall c hc⟩
  intro w hw
  rcases List.mem_append.mp hw with hw | hw
  · rw [List.eq_of_mem_replicate hw]
    exact hword (by decide) (by decide)
  · rw [List.mem_singleton.mp hw]
    exact hword (by decide) (by decide)

def artBip39 : Bip39 Unit where
  parseInNormalized s := if s = joinWords artWordList then .ok () else .error "not the phrase"
  toSeed _ _ := zeroEntropySeed
  counts s m h := by
    have hs : s = joinWords artWordList := by
      by_contra hs
      rw [if_neg hs] at h
      cases h
    rw [hs, splitWhitespace_joinWords_of_words artWordList_words]
    decide

theorem artBip39_parse (s : String) : artBip39.parseInNormalized s =
    if s = joinWords artWordList then .ok () else .error "not the phrase" := by
  simp only [artBip39]

def artWords : Bip39Words artBip39 where
  wordList := ["abandon", "art"]
  words _ := artWordList
  fromEntropy _ := .ok ()
  spelled w hw := by
    have hletters : (w.toList.all fun c => decide (97 ≤ c.toNat ∧ c.toNat ≤ 122)) = true := by
      rcases List.mem_pair.mp hw with rfl | rfl
      · decide
      · decide
    have hne : w ≠ "" := by
      rcases List.mem_pair.mp hw with rfl | rfl
      · decide
      · decide
    exact ⟨hne, fun c hc => by simpa using List.all_eq_true.mp hletters c hc⟩
  listed _ := by decide
  parses _ := by
    rw [artBip39_parse, if_pos rfl]
  parsed s m h := by
    have hs : s = joinWords artWordList := by
      by_contra hs
      rw [artBip39_parse, if_neg hs] at h
      cases h
    rw [hs, splitWhitespace_joinWords_of_words artWordList_words]
  drawn _ _ _ := length_artWordList

theorem recovery_code_shown_sample :
    RecoveryCode.fromPhrase artBip39 (RecoveryCode.formatForDisplay artWords ⟨()⟩) = .ok ⟨()⟩ ∧
      RecoveryCode.fromPhrase artBip39 (RecoveryCode.formatWithNumbers artWords ⟨()⟩) =
        .error (.invalidRecoveryCode "Expected 24 words, got 32") := by
  have hwhole : RecoveryCode.Whole artWords ⟨()⟩ := length_artWordList
  have hshown := recovery_code_shown artWords (fun _ _ _ => zeroEntropySecret) inlineDigest hwhole
  exact ⟨hshown.shown.1, hshown.numbered⟩

end GitCellar
