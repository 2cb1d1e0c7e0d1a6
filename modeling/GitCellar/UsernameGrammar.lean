import GitCellar.Usernames
import Mathlib.Computability.Language

/-! The grammar of account names, and that validation accepts its words and no others. -/

namespace GitCellar

open Loops Unicode Utf8

/-- `[A-Za-z0-9]` -/
def alphanumeric : Language Char := {w | ∃ c, w = [c] ∧ c.isAlphanum = true}

def dashText : Language Char := {w | w = ['-']}

/-- `L+` -/
def oneOrMore (L : Language Char) : Language Char := L * KStar.kstar L

/-- `[A-Za-z0-9]+(-[A-Za-z0-9]+)*` -/
def accountName : Language Char :=
  oneOrMore alphanumeric * KStar.kstar (dashText * oneOrMore alphanumeric)

def IsAlnumWord (w : List Char) : Prop := w ≠ [] ∧ ∀ c ∈ w, c.isAlphanum = true

def dashed (pieces : List (List Char)) : List Char := pieces.flatMap ('-' :: ·)

variable {w : List Char} {pieces : List (List Char)} {name : String}

theorem mem_kstar_alphanumeric : w ∈ KStar.kstar alphanumeric ↔ ∀ c ∈ w, c.isAlphanum = true := by
  rw [Language.mem_kstar]
  constructor
  · rintro ⟨words, rfl, hwords⟩ c hc
    obtain ⟨word, hword, hcword⟩ := List.mem_flatten.mp hc
    obtain ⟨d, rfl, hd⟩ := hwords word hword
    rwa [List.mem_singleton.mp hcword]
  · intro h
    refine ⟨w.map ([·]), ?_, ?_⟩
    · rw [← List.flatMap_def, List.flatMap_singleton']
    · intro word hword
      obtain ⟨c, hc, rfl⟩ := List.mem_map.mp hword
      exact ⟨c, rfl, h c hc⟩

theorem mem_oneOrMore : w ∈ oneOrMore alphanumeric ↔ IsAlnumWord w := by
  rw [oneOrMore, Language.mem_mul]
  constructor
  · rintro ⟨_, ⟨c, rfl, hc⟩, rest, hrest, rfl⟩
    rw [mem_kstar_alphanumeric] at hrest
    refine ⟨List.cons_ne_nil c rest, ?_⟩
    intro d hd
    rcases List.mem_cons.mp hd with rfl | hd
    · exact hc
    · exact hrest d hd
  · rintro ⟨hne, hchars⟩
    cases w with
    | nil => exact absurd rfl hne
    | cons c rest =>
      refine ⟨[c], ⟨c, rfl, hchars c List.mem_cons_self⟩, rest, ?_, rfl⟩
      rw [mem_kstar_alphanumeric]
      exact fun d hd => hchars d (List.mem_cons_of_mem c hd)

theorem mem_kstar_dashed : w ∈ KStar.kstar (dashText * oneOrMore alphanumeric) ↔
    ∃ pieces, (∀ p ∈ pieces, IsAlnumWord p) ∧ w = dashed pieces := by
  rw [Language.mem_kstar]
  constructor
  · rintro ⟨words, rfl, hwords⟩
    induction words with
    | nil => exact ⟨[], by simp, rfl⟩
    | cons word words ih =>
      obtain ⟨pieces, hpieces, heq⟩ := ih fun y hy => hwords y (List.mem_cons_of_mem word hy)
      obtain ⟨_, rfl, p, hp, rfl⟩ := Language.mem_mul.mp (hwords word List.mem_cons_self)
      refine ⟨p :: pieces, List.forall_mem_cons.mpr ⟨mem_oneOrMore.mp hp, hpieces⟩, ?_⟩
      rw [List.flatten_cons, heq]
      rfl
  · rintro ⟨pieces, hpieces, rfl⟩
    refine ⟨pieces.map ('-' :: ·), List.flatMap_def, ?_⟩
    intro word hword
    obtain ⟨p, hp, rfl⟩ := List.mem_map.mp hword
    exact Language.mem_mul.mpr ⟨['-'], rfl, p, mem_oneOrMore.mpr (hpieces p hp), rfl⟩

theorem mem_accountName : w ∈ accountName ↔ ∃ first pieces,
    IsAlnumWord first ∧ (∀ p ∈ pieces, IsAlnumWord p) ∧ w = first ++ dashed pieces := by
  rw [accountName, Language.mem_mul]
  constructor
  · rintro ⟨first, hfirst, rest, hrest, rfl⟩
    obtain ⟨pieces, hpieces, rfl⟩ := mem_kstar_dashed.mp hrest
    exact ⟨first, pieces, mem_oneOrMore.mp hfirst, hpieces, rfl⟩
  · rintro ⟨first, pieces, hfirst, hpieces, rfl⟩
    exact ⟨first, mem_oneOrMore.mpr hfirst, _, mem_kstar_dashed.mpr ⟨pieces, hpieces, rfl⟩, rfl⟩

theorem IsAlnumWord.head_ne_dash (h : IsAlnumWord w) : w.head? ≠ some '-' := by
  intro hhead
  have hdash := h.2 '-' (List.mem_of_mem_head? hhead)
  cases hdash

theorem IsAlnumWord.last_ne_dash (h : IsAlnumWord w) : w.getLast? ≠ some '-' := by
  intro hlast
  have hdash := h.2 '-' (List.mem_of_getLast? hlast)
  cases hdash

theorem doubleDash_append_iff {rest : List Char} (h : ∀ c ∈ w, c.isAlphanum = true) :
    ['-', '-'] <:+: w ++ rest ↔ ['-', '-'] <:+: rest := by
  induction w with
  | nil => rw [List.nil_append]
  | cons c w ih =>
    have hstart : ¬ ['-', '-'] <+: c :: (w ++ rest) := by
      intro hp
      obtain ⟨rfl, _⟩ := List.cons_prefix_cons.mp hp
      cases h '-' List.mem_cons_self
    rw [List.cons_append, List.infix_cons_iff, ih fun d hd => h d (List.mem_cons_of_mem c hd)]
    exact or_iff_right hstart

theorem dashed_no_doubleDash (h : ∀ p ∈ pieces, IsAlnumWord p) :
    ¬ ['-', '-'] <:+: dashed pieces := by
  induction pieces with
  | nil =>
    intro hdouble
    have hlen := hdouble.length_le
    simp [dashed] at hlen
  | cons p pieces ih =>
    have hp := h p List.mem_cons_self
    have hrest := ih fun q hq => h q (List.mem_cons_of_mem p hq)
    have hshape : dashed (p :: pieces) = '-' :: (p ++ dashed pieces) := rfl
    rw [hshape, List.infix_cons_iff, doubleDash_append_iff hp.2]
    rintro (hstart | hdouble)
    · have hhead := hp.head_ne_dash
      obtain ⟨d, p', rfl⟩ := List.exists_cons_of_ne_nil hp.1
      obtain ⟨rfl, _⟩ := List.cons_prefix_cons.mp (List.cons_prefix_cons.mp hstart).2
      exact hhead rfl
    · exact hrest hdouble

theorem dashed_last_ne_dash (h : ∀ p ∈ pieces, IsAlnumWord p) :
    (dashed pieces).getLast? ≠ some '-' := by
  induction pieces with
  | nil => simp [dashed]
  | cons p pieces ih =>
    have hp := h p List.mem_cons_self
    have hrest := ih fun q hq => h q (List.mem_cons_of_mem p hq)
    have hshape : dashed (p :: pieces) = ('-' :: p) ++ dashed pieces := rfl
    rw [hshape, List.getLast?_append]
    cases hlast : (dashed pieces).getLast? with
    | some c =>
      rw [hlast] at hrest
      rwa [Option.some_or]
    | none =>
      obtain ⟨d, p', rfl⟩ := List.exists_cons_of_ne_nil hp.1
      rw [Option.none_or, List.getLast?_cons_cons]
      exact hp.last_ne_dash

/-- What may follow a letter: letters, then pieces behind single dashes. -/
theorem exists_dashed (hchars : ∀ c ∈ w, c.isAlphanum = true ∨ c = '-')
    (hlast : w.getLast? ≠ some '-') (hdouble : ¬ ['-', '-'] <:+: w) :
    ∃ word pieces, (∀ c ∈ word, c.isAlphanum = true) ∧
      (∀ p ∈ pieces, IsAlnumWord p) ∧ w = word ++ dashed pieces := by
  induction w with
  | nil => exact ⟨[], [], by simp, by simp, rfl⟩
  | cons c w ih =>
    have hlast' : w.getLast? ≠ some '-' := by
      cases w with
      | nil => simp
      | cons d w => rwa [List.getLast?_cons_cons] at hlast
    obtain ⟨word, pieces, hword, hpieces, rfl⟩ :=
      ih (fun d hd => hchars d (List.mem_cons_of_mem c hd)) hlast'
      fun h => hdouble (List.infix_cons h)
    rcases hchars c List.mem_cons_self with halnum | rfl
    · exact ⟨c :: word, pieces, List.forall_mem_cons.mpr ⟨halnum, hword⟩, hpieces, rfl⟩
    · refine ⟨[], word :: pieces, by simp, List.forall_mem_cons.mpr ⟨⟨?_, hword⟩, hpieces⟩, rfl⟩
      -- a dash at the end, or two in a row, where no letter follows
      rintro rfl
      cases pieces with
      | nil => exact hlast rfl
      | cons p pieces => exact hdouble ⟨[], p ++ dashed pieces, rfl⟩

/-- The checks on a name's characters describe the grammar. -/
theorem mem_accountName_iff : w ∈ accountName ↔ w ≠ [] ∧ (∀ c ∈ w, c.isAlphanum = true ∨ c = '-') ∧
    w.head? ≠ some '-' ∧ w.getLast? ≠ some '-' ∧ ¬ ['-', '-'] <:+: w := by
  rw [mem_accountName]
  constructor
  · rintro ⟨first, pieces, hfirst, hpieces, rfl⟩
    refine ⟨?_, ?_, ?_, ?_, ?_⟩
    · exact fun h => hfirst.1 (List.append_eq_nil_iff.mp h).1
    · intro c hc
      rcases List.mem_append.mp hc with hc | hc
      · exact .inl (hfirst.2 c hc)
      · obtain ⟨p, hp, hcp⟩ := List.mem_flatMap.mp hc
        rcases List.mem_cons.mp hcp with rfl | hcp
        · exact .inr rfl
        · exact .inl ((hpieces p hp).2 c hcp)
    · rw [List.head?_append_of_ne_nil first hfirst.1]
      exact hfirst.head_ne_dash
    · rw [List.getLast?_append]
      cases hlast : (dashed pieces).getLast? with
      | some c =>
        have hrest := dashed_last_ne_dash hpieces
        rw [hlast] at hrest
        rwa [Option.some_or]
      | none =>
        rw [Option.none_or]
        exact hfirst.last_ne_dash
    · rw [doubleDash_append_iff hfirst.2]
      exact dashed_no_doubleDash hpieces
  · rintro ⟨hne, hchars, hhead, hlast, hdouble⟩
    obtain ⟨word, pieces, hword, hpieces, rfl⟩ := exists_dashed hchars hlast hdouble
    refine ⟨word, pieces, ⟨?_, hword⟩, hpieces, rfl⟩
    rintro rfl
    cases pieces with
    | nil => exact hne rfl
    | cons p pieces => exact hhead rfl

theorem hasDoubleDash_iff : hasDoubleDash name = true ↔ ['-', '-'] <:+: name.toList := by
  rw [hasDoubleDash, List.any_eq_true, List.infix_iff_prefix_suffix]
  constructor
  · rintro ⟨tail, htail, hp⟩
    exact ⟨tail, List.isPrefixOf_iff_prefix.mp hp, (List.mem_tails tail _).mp htail⟩
  · rintro ⟨tail, hp, htail⟩
    exact ⟨tail, (List.mem_tails tail _).mpr htail, List.isPrefixOf_iff_prefix.mpr hp⟩

theorem nameChar_of_alnum {c : Char} (h : c.isAlphanum = true ∨ c = '-') : isNameChar c = true := by
  rcases h with h | rfl
  · simp [isNameChar, h]
  · rfl

theorem length_utf8_of_nameChars (h : ∀ c ∈ name.toList, c.isAlphanum = true ∨ c = '-') :
    (utf8 name).length = name.length := by
  rw [← String.length_toList]
  apply length_utf8_ascii
  intro c hc
  exact isNameChar_ascii (nameChar_of_alnum (h c hc))

def NoDevice (name : String) : Prop :=
  ∀ device ∈ windowsDeviceNames, toAsciiLowercase device ≠ toAsciiLowercase name

theorem eqIgnoreAsciiCase_iff {a b : String} :
    eqIgnoreAsciiCase a b = true ↔ toAsciiLowercase a = toAsciiLowercase b := by
  rw [eqIgnoreAsciiCase, beq_iff_eq, toAsciiLowercase, toAsciiLowercase, ← String.toList_inj,
    String.toList_ofList, String.toList_ofList]

/-- Account names: one to 39 characters of the grammar, and no device. -/
def IsAccountName (name : String) : Prop :=
  (1 ≤ name.length ∧ name.length ≤ maxUsernameLen) ∧ name.toList ∈ accountName ∧ NoDevice name

theorem validateUsername_iff : validateUsername name = .ok () ↔ IsAccountName name := by
  have hempty : name = "" ↔ name.toList = [] := String.toList_eq_nil_iff.symm
  have hdevices : windowsDeviceNames.any (fun d => eqIgnoreAsciiCase d name) = true ↔
      ¬ NoDevice name := by
    rw [List.any_eq_true, NoDevice]
    simp only [eqIgnoreAsciiCase_iff, ne_eq, not_forall, not_not, exists_prop]
  simp only [validateUsername, ite_error_eq_ok_iff, IsAccountName, mem_accountName_iff,
    hasDoubleDash_iff, hdevices, hempty, not_lt, not_or, not_not, Bool.not_eq_true',
    Bool.not_eq_false, List.all_eq_true, Bool.or_eq_true, beq_iff_eq, and_true]
  constructor
  · rintro ⟨hne, hlen, hchars, ⟨hhead, hlast⟩, hdouble, hdevice⟩
    rw [length_utf8_of_nameChars hchars] at hlen
    have hpos : 1 ≤ name.length := by
      rw [← String.length_toList]
      exact List.length_pos_iff.mpr hne
    exact ⟨⟨hpos, hlen⟩, ⟨hne, hchars, hhead, hlast, hdouble⟩, hdevice⟩
  · rintro ⟨⟨_, hlen⟩, ⟨hne, hchars, hhead, hlast, hdouble⟩, hdevice⟩
    rw [← length_utf8_of_nameChars hchars] at hlen
    exact ⟨hne, hlen, hchars, ⟨hhead, hlast⟩, hdouble, hdevice⟩

end GitCellar
