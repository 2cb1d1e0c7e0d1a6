import GitCellar.Words
import Mathlib.Data.List.TakeWhile

/-! Lower-casing a text and splitting it into words commute: no word's lower case depends on the
words around it, a final sigma included. -/

namespace Unicode

open Joined

/-- Neither a capital sigma's surroundings nor a word reach across it. -/
def isBreak (n : Nat) : Bool :=
  !Nat.beq n 931 && lowerCodes n == [n] &&
    !(casedRanges.any fun range => Nat.ble range.1 n && Nat.ble n range.2) &&
    !(caseIgnorableRanges.any fun range => Nat.ble range.1 n && Nat.ble n range.2)

def whitespaceCodes : List Nat :=
  whitespaceRanges.flatMap fun range => List.range' range.1 (range.2 + 1 - range.1)

theorem mem_whitespaceCodes {n : Nat} (h : isWhitespaceCode n = true) : n ∈ whitespaceCodes := by
  obtain ⟨range, hrange, hin⟩ := List.any_eq_true.mp h
  rw [Bool.and_eq_true, Nat.ble_eq, Nat.ble_eq] at hin
  refine List.mem_flatMap.mpr ⟨range, hrange, List.mem_range'.mpr ⟨n - range.1, ?_, ?_⟩⟩
  · omega
  · omega

theorem whitespaceCodes_break : ∀ n ∈ whitespaceCodes, isBreak n = true := by
  decide +kernel

theorem isBreak_of_whitespace {c : Char} (h : isWhitespace c = true) : isBreak c.toNat = true :=
  whitespaceCodes_break c.toNat (mem_whitespaceCodes h)

theorem whitespace_break {c : Char} (h : isWhitespace c = true) :
    c ≠ 'Σ' ∧ toLower c = [c] ∧ isCased c = false ∧ isCaseIgnorable c = false := by
  have hbreak := isBreak_of_whitespace h
  simp only [isBreak, Bool.and_eq_true, Bool.not_eq_true', beq_iff_eq] at hbreak
  obtain ⟨⟨⟨hsigma, hlower⟩, hcased⟩, hignorable⟩ := hbreak
  refine ⟨?_, ?_, hcased, hignorable⟩
  · rintro rfl
    cases hsigma
  · rw [toLower, hlower, List.map_singleton, Char.ofNat_toNat]

theorem lowerRuns_clear : ∀ r ∈ lowerRuns, whitespaceRanges.all
    (fun range => r.avoids range.1 range.2) = true := by
  decide +kernel

theorem lowerCodes_nonspace {n m : Nat} (hspace : isWhitespaceCode n = false)
    (hm : m ∈ lowerCodes n) :
    isWhitespaceCode m = false := by
  simp only [lowerCodes] at hm
  by_cases hdotted : Nat.beq n 304 = true
  · rw [if_pos hdotted] at hm
    have hall : ∀ m ∈ [105, 775], isWhitespaceCode m = false := by decide
    exact hall m hm
  · rw [if_neg hdotted] at hm
    cases hrun : lowerRuns.find? (fun r => r.covers n) with
    | none =>
      rw [hrun] at hm
      obtain rfl := List.mem_singleton.mp hm
      exact hspace
    | some r =>
      rw [hrun] at hm
      obtain rfl := List.mem_singleton.mp hm
      have hcovers := List.find?_some hrun
      have hclear := List.all_eq_true.mp (lowerRuns_clear r (List.mem_of_find?_eq_some hrun))
      rw [isWhitespaceCode, List.any_eq_false]
      intro range hrange
      have hout := CaseRun.image_range hcovers (hclear range hrange)
      simpa only [Bool.and_eq_true, Nat.ble_eq] using hout

theorem toLower_nonspace {c d : Char} (hc : isWhitespace c = false) (hd : d ∈ toLower c) :
    isWhitespace d = false := by
  obtain ⟨m, hm, rfl⟩ := List.mem_map.mp hd
  have hspace := lowerCodes_nonspace hc hm
  by_cases hvalid : m.isValidChar
  · have hcode : (Char.ofNat m).toNat = m := by
      rw [Char.ofNat, dif_pos hvalid]
      rfl
    rw [isWhitespace, hcode, hspace]
  · rw [Char.ofNat, dif_neg hvalid]
    rfl

theorem toLower_ne_nil (c : Char) : toLower c ≠ [] := by
  rw [toLower, Ne, List.map_eq_nil_iff, lowerCodes]
  by_cases hdotted : Nat.beq c.toNat 304 = true
  · rw [if_pos hdotted]
    exact List.cons_ne_nil _ _
  · rw [if_neg hdotted]
    cases lowerRuns.find? fun r => r.covers c.toNat with
    | none => exact List.cons_ne_nil _ _
    | some r => exact List.cons_ne_nil _ _

/-- The lower case of one character, with what surrounds it. -/
def lowerAt (before : List Char) (c : Char) (rest : List Char) : List Char :=
  if c = 'Σ' then [mapUppercaseSigma before rest] else toLower c

theorem lowerFrom_cons (before : List Char) (c : Char) (rest : List Char) :
    lowerFrom before (c :: rest) = lowerAt before c rest ++ lowerFrom (c :: before) rest := rfl

theorem lowerAt_ne_nil (before : List Char) (c : Char) (rest : List Char) :
    lowerAt before c rest ≠ [] := by
  unfold lowerAt
  by_cases hsigma : c = 'Σ'
  · rw [if_pos hsigma]
    exact List.cons_ne_nil _ _
  · rw [if_neg hsigma]
    exact toLower_ne_nil c

theorem lowerAt_nonspace {before rest : List Char} {c d : Char} (hc : isWhitespace c = false)
    (hd : d ∈ lowerAt before c rest) : isWhitespace d = false := by
  unfold lowerAt at hd
  by_cases hsigma : c = 'Σ'
  · rw [if_pos hsigma] at hd
    obtain rfl := List.mem_singleton.mp hd
    unfold mapUppercaseSigma
    cases caseIgnorableThenCased before && !caseIgnorableThenCased rest with
    | true => rfl
    | false => rfl
  · rw [if_neg hsigma] at hd
    exact toLower_nonspace hc hd

/-- What is seen of a text from one end stops at white space. -/
theorem caseIgnorableThenCased_append {near far : List Char} {c : Char}
    (hc : isWhitespace c = true) :
    caseIgnorableThenCased (near ++ c :: far) = caseIgnorableThenCased near := by
  obtain ⟨_, _, hcased, hignorable⟩ := whitespace_break hc
  unfold caseIgnorableThenCased
  induction near with
  | nil => simp [hignorable, hcased]
  | cons d near ih =>
    rw [List.cons_append]
    by_cases hd : isCaseIgnorable d = true
    · rw [List.dropWhile_cons_of_pos hd, List.dropWhile_cons_of_pos hd]
      exact ih
    · rw [List.dropWhile_cons_of_neg hd, List.dropWhile_cons_of_neg hd]

/-- A text that is over, or goes on with white space. -/
def Broken (cs : List Char) : Prop := cs = [] ∨ ∃ c rest, cs = c :: rest ∧ isWhitespace c = true

theorem caseIgnorableThenCased_broken {near far : List Char} (hfar : Broken far) :
    caseIgnorableThenCased (near ++ far) = caseIgnorableThenCased near := by
  rcases hfar with rfl | ⟨c, rest, rfl, hc⟩
  · rw [List.append_nil]
  · exact caseIgnorableThenCased_append hc

/-- The lower case of a word, whatever stands before and behind it. -/
theorem lowerFrom_word (before word : List Char) {far beyond : List Char} (hfar : Broken far)
    (hbeyond : Broken beyond) : lowerFrom (before ++ far) (word ++ beyond) =
      lowerFrom before word ++ lowerFrom (word.reverse ++ before ++ far) beyond := by
  induction word generalizing before with
  | nil => rfl
  | cons c word ih =>
    have hc : lowerAt (before ++ far) c (word ++ beyond) = lowerAt before c word := by
      unfold lowerAt mapUppercaseSigma
      rw [caseIgnorableThenCased_broken hfar, caseIgnorableThenCased_broken hbeyond]
    have hrest := ih (c :: before)
    rw [List.cons_append] at hrest
    rw [List.cons_append, lowerFrom_cons, lowerFrom_cons, hc, hrest]
    simp only [List.reverse_cons, List.append_assoc, List.cons_append, List.nil_append]

theorem lowerFrom_nonspace {word : List Char} (hword : ∀ c ∈ word, isWhitespace c = false)
    (before : List Char) : ∀ d ∈ lowerFrom before word, isWhitespace d = false := by
  induction word generalizing before with
  | nil =>
    intro d hd
    cases hd
  | cons c word ih =>
    intro d hd
    rw [lowerFrom_cons] at hd
    rcases List.mem_append.mp hd with hd | hd
    · exact lowerAt_nonspace (hword c List.mem_cons_self) hd
    · exact ih (fun e he => hword e (List.mem_cons_of_mem c he)) (c :: before) d hd

theorem lowerFrom_ne_nil {before word : List Char} (hne : word ≠ []) :
    lowerFrom before word ≠ [] := by
  cases word with
  | nil => exact absurd rfl hne
  | cons c word =>
    rw [lowerFrom_cons]
    exact List.append_ne_nil_of_left_ne_nil (lowerAt_ne_nil before c word) _

section

variable {p : Char → Bool} {word rest : List Char} {c : Char}

theorem fields_word (hword : ∀ d ∈ word, p d = false) (hne : word ≠ []) :
    fields p word = [word] := by
  rw [fields, List.splitOnP_eq_singleton hword, List.filter_cons_of_pos (by simpa using hne),
    List.filter_nil]

theorem fields_append (hc : p c = true) :
    fields p (word ++ c :: rest) = fields p word ++ fields p rest := by
  rw [fields, List.splitOnP_append_cons word rest hc, List.filter_append, fields, fields]

end

theorem fields_lower_word {word : List Char} (hword : ∀ c ∈ word, isWhitespace c = false) :
    fields isWhitespace (lowerFrom [] word) = (fields isWhitespace word).map (lowerFrom []) := by
  by_cases hne : word = []
  · rw [hne]
    rfl
  · rw [fields_word hword hne, fields_word (lowerFrom_nonspace hword []) (lowerFrom_ne_nil hne)]
    rfl

theorem fields_lowerFrom (n : Nat) : ∀ cs far : List Char, cs.length ≤ n → Broken far →
    fields isWhitespace (lowerFrom far cs) = (fields isWhitespace cs).map (lowerFrom []) := by
  induction n with
  | zero =>
    intro cs far hlen _
    obtain rfl := List.eq_nil_of_length_eq_zero (Nat.le_zero.mp hlen)
    rfl
  | succ n ih =>
    intro cs far hlen hfar
    let word := cs.takeWhile fun c => !isWhitespace c
    have hword : ∀ c ∈ word, isWhitespace c = false := by
      intro c hc
      have hkeep := List.mem_takeWhile_imp hc
      simpa using hkeep
    have hsplit : word ++ cs.dropWhile (fun c => !isWhitespace c) = cs :=
      List.takeWhile_append_dropWhile
    cases hrest : cs.dropWhile fun c => !isWhitespace c with
    | nil =>
      rw [hrest, List.append_nil] at hsplit
      have hlower := lowerFrom_word [] word hfar (.inl rfl)
      simp only [List.append_nil, List.nil_append, lowerFrom] at hlower
      rw [← hsplit, hlower]
      exact fields_lower_word hword
    | cons c rest =>
      rw [hrest] at hsplit
      have hc : isWhitespace c = true := by
        have hhead :=
          List.head_dropWhile_not (fun c => !isWhitespace c) (by simp [hrest] : cs.dropWhile _ ≠ [])
        simpa [hrest] using hhead
      obtain ⟨hsigma, hsame, _, _⟩ := whitespace_break hc
      have hlower := lowerFrom_word [] word hfar (.inr ⟨c, rest, rfl, hc⟩)
      have hspace : ∀ before, lowerFrom before (c :: rest) = c :: lowerFrom (c :: before) rest := by
        intro before
        rw [lowerFrom_cons, lowerAt, if_neg hsigma, hsame, List.singleton_append]
      rw [List.nil_append, hspace] at hlower
      have hshort : rest.length ≤ n := by
        have hlen' := congrArg List.length hsplit
        simp only [List.length_append, List.length_cons] at hlen'
        omega
      rw [← hsplit, hlower, fields_append hc, fields_append hc, List.map_append,
        fields_lower_word hword, ih rest _ hshort (.inr ⟨c, _, rfl, hc⟩)]

/-- Each word can be lower-cased by itself. -/
theorem splitWhitespace_toLowercase (s : String) :
    splitWhitespace (toLowercase s) = (splitWhitespace s).map toLowercase := by
  have hfields := fields_lowerFrom s.toList.length s.toList [] (Nat.le_refl _) (.inl rfl)
  rw [splitWhitespace, toLowercase, String.toList_ofList, hfields, splitWhitespace, List.map_map,
    List.map_map]
  refine List.map_congr_left fun word _ => ?_
  simp only [Function.comp_apply, toLowercase, String.toList_ofList]

end Unicode
