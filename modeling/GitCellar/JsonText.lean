import GitCellar.Json
import GitCellar.Occurrence
import GitCellar.Unicode

/-! Pretty-printed JSON as text: where a marker can occur in it, and whether a
piece of it ends inside a string. -/

namespace Json

open Occurrence Unicode Utf8

def escapeChar (c : Char) : List Char :=
  if c.val ≤ 127 then (escapeByte c.val.toUInt8).map fun b => Char.ofNat b.toNat else [c]

def quoteChars (cs : List Char) : List Char := '"' :: (cs.flatMap escapeChar ++ ['"'])

def prettyMember (indent : Nat) (key : String) (value : List Char) : List Char :=
  '\n' :: (List.replicate indent ' ' ++ (quoteChars key.toList ++ (':' :: ' ' :: value)))

def prettyMembers (indent : Nat) : Bool → List (String × List Char) → List Char
  | _, [] => []
  | first, (key, value) :: rest =>
    (if first then [] else [',']) ++
    (prettyMember indent key value ++ prettyMembers indent false rest)

/-- An object of printed values, as `serde_json::to_string_pretty` lays it out. -/
def prettyObject (depth : Nat) (members : List (String × List Char)) : List Char :=
  '{' :: (prettyMembers (2 * (depth + 1)) true members ++
    '\n' :: (List.replicate (2 * depth) ' ' ++ ['}']))

inductive Lexing where
  | outside
  | inside
  | escaped
  deriving DecidableEq, Repr

def lexStep : Lexing → Char → Lexing
  | .outside, c => if c = '"' then .inside else .outside
  | .inside, c => if c = '"' then .outside else if c = '\\' then .escaped else .inside
  | .escaped, _ => .inside

/-- Where a reader of JSON is after `cs`: outside strings, inside one, or past
the backslash of an escape. -/
def lex (start : Lexing) (cs : List Char) : Lexing := cs.foldl lexStep start

theorem lex_append (start : Lexing) (a b : List Char) : lex start (a ++ b) = lex (lex start a) b :=
  List.foldl_append

theorem lex_outside {cs : List Char} (h : '"' ∉ cs) : lex .outside cs = .outside := by
  induction cs with
  | nil => rfl
  | cons c cs ih =>
    have hc : c ≠ '"' := fun hc => h (hc ▸ List.mem_cons_self)
    rw [lex, List.foldl_cons, lexStep, if_neg hc]
    exact ih fun hmem => h (List.mem_cons_of_mem c hmem)

theorem lex_trim {s : String} (h : lex .outside (trim s).toList = .outside) :
    lex .outside s.toList = .outside := by
  obtain ⟨lead, trail, hsplit, hlead, htrail⟩ := trim_split s
  have hquote : ∀ cs : List Char, (∀ c ∈ cs, isWhitespace c = true) → '"' ∉ cs := by
    intro cs hcs hmem
    exact absurd (hcs '"' hmem) (by decide)
  rw [hsplit, lex_append, lex_append, lex_outside (hquote lead hlead), h,
    lex_outside (hquote trail htrail)]

/-- What an escape is written with. -/
def escapeAlphabet : List Char := "\\\"btnfru0123456789abcdef".toList

def asciiChars : List Char := (List.range 128).map Char.ofNat

theorem mem_asciiChars {c : Char} (h : c.val ≤ 127) : c ∈ asciiChars := by
  have hlt : c.toNat < 128 := Nat.lt_succ_of_le (UInt32.le_iff_toNat_le.mp h)
  exact List.mem_map.mpr ⟨c.toNat, List.mem_range.mpr hlt, Char.ofNat_toNat c⟩

theorem escapeChar_cases (c : Char) :
    (escapeChar c = [c] ∧ c ≠ '"' ∧ c ≠ '\\') ∨
      ((∀ d ∈ escapeChar c, d ∈ escapeAlphabet) ∧ escapeChar c ≠ [] ∧
        lex .inside (escapeChar c) = .inside) := by
  by_cases hc : c.val ≤ 127
  · have hall : asciiChars.all (fun c =>
        (escapeChar c == [c] && c != '"' && c != '\\') ||
          ((escapeChar c).all (fun d => escapeAlphabet.contains d) && !(escapeChar c).isEmpty &&
            lex .inside (escapeChar c) == .inside)) = true := by decide +kernel
    have hone := List.all_eq_true.mp hall c (mem_asciiChars hc)
    simpa [and_assoc] using hone
  · refine .inl ⟨by rw [escapeChar, if_neg hc], ?_, ?_⟩
    · rintro rfl
      exact hc (by decide)
    · rintro rfl
      exact hc (by decide)

theorem lex_escapeChar (c : Char) : lex .inside (escapeChar c) = .inside := by
  rcases escapeChar_cases c with ⟨hplain, hquote, hslash⟩ | ⟨_, _, hlex⟩
  · rw [hplain, lex, List.foldl_cons, List.foldl_nil, lexStep, if_neg hquote, if_neg hslash]
  · exact hlex

theorem lex_escaped (cs : List Char) : lex .inside (cs.flatMap escapeChar) = .inside := by
  induction cs with
  | nil => rfl
  | cons c cs ih => rw [List.flatMap_cons, lex_append, lex_escapeChar, ih]

theorem lex_quoteChars (cs : List Char) : lex .outside (quoteChars cs) = .outside := by
  have hopen : lex .outside (quoteChars cs) = lex .inside (cs.flatMap escapeChar ++ ['"']) := rfl
  rw [hopen, lex_append, lex_escaped]
  rfl

/-- A word that JSON's punctuation, escapes and indentation cannot be part of. -/
structure IsMarker (part : List Char) : Prop where
  solid : ∃ c ∈ part, c ≠ ' '
  plain : ∀ c ∈ part, escapeChar c = [c] ∧ c ∉ escapeAlphabet
  punctuation : ∀ c ∈ ['\n', ',', ':', '{', '}'], c ∉ part

section

variable {part cs value text : List Char} {members : List (String × List Char)} {free : List Char}

theorem IsMarker.ne_nil (h : IsMarker part) : part ≠ [] := by
  obtain ⟨c, hc, _⟩ := h.solid
  exact List.ne_nil_of_mem hc

theorem IsMarker.quote_notMem (h : IsMarker part) : '"' ∉ part := fun hc =>
  (h.plain '"' hc).2 (by decide)

theorem IsMarker.transparent (h : IsMarker part) : Transparent escapeChar part where
  fixes c hc := (h.plain c hc).1
  avoids c hne d hd hmem := by
    rcases escapeChar_cases c with ⟨hplain, _⟩ | ⟨halphabet, _⟩
    · exact hne hplain
    · exact (h.plain d hmem).2 (halphabet d hd)
  writes c := by
    rcases escapeChar_cases c with ⟨hplain, _⟩ | ⟨_, hne, _⟩
    · rw [hplain]
      exact List.cons_ne_nil c []
    · exact hne

theorem IsMarker.not_infix_of_subset (h : IsMarker part)
    (hcs : ∀ c ∈ cs, c = ' ' ∨ c ∉ part) : ¬ part <:+: cs := by
  intro hoccurs
  obtain ⟨c, hc, hspace⟩ := h.solid
  rcases hcs c (hoccurs.subset hc) with hc' | hc'
  · exact hspace hc'
  · exact hc' hc

theorem IsMarker.infix_quoteChars_iff (h : IsMarker part) :
    part <:+: quoteChars cs ↔ part <:+: cs := by
  have hquote := h.quote_notMem
  have hnil : ¬ part <:+: [] := fun hn => h.ne_nil (List.eq_nil_of_infix_nil hn)
  rw [quoteChars, ← List.nil_append ('"' :: _), infix_append_sep_iff hquote h.ne_nil,
    infix_append_sep_iff hquote h.ne_nil, h.transparent.infix_flatMap_iff h.ne_nil]
  simp only [hnil, false_or, or_false]

/-- Text that can stand before more of a document: the marker is not in it and
does not start with its first character, and its strings are closed. -/
structure Clean (part text : List Char) : Prop where
  absent : ¬ part <:+: text
  head : ∀ c rest, text = c :: rest → c ∉ part
  closed : lex .outside text = .outside

theorem Clean.nil (h : IsMarker part) : Clean part [] where
  absent hn := h.ne_nil (List.eq_nil_of_infix_nil hn)
  head _ _ heq := by cases heq
  closed := rfl

theorem Clean.infix_append_iff (h : IsMarker part) (htext : Clean part text) :
    part <:+: cs ++ text ↔ part <:+: cs := by
  cases text with
  | nil => rw [List.append_nil]
  | cons c rest =>
    rw [infix_append_sep_iff (htext.head c rest rfl) h.ne_nil]
    constructor
    · rintro (hcs | hrest)
      · exact hcs
      · exact absurd (List.infix_cons hrest) htext.absent
    · exact .inl

theorem Clean.append (h : IsMarker part) (hcs : Clean part cs) (htext : Clean part text) :
    Clean part (cs ++ text) where
  absent hn := hcs.absent ((htext.infix_append_iff h).mp hn)
  head c rest heq := by
    cases cs with
    | nil => exact htext.head c rest heq
    | cons d cs =>
      obtain ⟨rfl, _⟩ := List.cons.inj heq
      exact hcs.head d cs rfl
  closed := by rw [lex_append, hcs.closed, htext.closed]

theorem clean_quoteChars (h : IsMarker part) (hcs : ¬ part <:+: cs) :
    Clean part (quoteChars cs) where
  absent hn := hcs (h.infix_quoteChars_iff.mp hn)
  head c rest heq := by
    obtain ⟨rfl, _⟩ := List.cons.inj heq
    exact h.quote_notMem
  closed := lex_quoteChars cs

theorem clean_punctuation (h : IsMarker part) {c : Char}
    (hc : c ∈ ['\n', ',', ':', '{', '}']) (n : Nat) :
    Clean part (c :: List.replicate n ' ') where
  absent := by
    apply h.not_infix_of_subset
    intro d hd
    rcases List.mem_cons.mp hd with rfl | hd
    · exact .inr (h.punctuation d hc)
    · exact .inl (List.eq_of_mem_replicate hd)
  head d rest heq := by
    obtain ⟨rfl, _⟩ := List.cons.inj heq
    exact h.punctuation c hc
  closed := by
    apply lex_outside
    intro hd
    rcases List.mem_cons.mp hd with rfl | hd
    · exact absurd hc (by decide)
    · exact absurd (List.eq_of_mem_replicate hd) (by decide)

theorem clean_memberHead (h : IsMarker part) (indent : Nat) {key : String}
    (hkey : ¬ part <:+: key.toList) :
    Clean part ('\n' :: List.replicate indent ' ' ++ (quoteChars key.toList ++ [':', ' '])) :=
  (clean_punctuation h (by decide) indent).append h
    ((clean_quoteChars h hkey).append h (clean_punctuation h (by decide) 1))

theorem prettyMember_eq (indent : Nat) (key : String) (value : List Char) :
    prettyMember indent key value =
      ('\n' :: List.replicate indent ' ' ++ (quoteChars key.toList ++ [':', ' '])) ++ value := by
  simp [prettyMember]

theorem lex_memberHead (indent : Nat) (key : String) : lex .outside
    ('\n' :: List.replicate indent ' ' ++ (quoteChars key.toList ++ [':', ' '])) = .outside := by
  have hindent : '"' ∉ '\n' :: List.replicate indent ' ' := by
    intro hc
    rcases List.mem_cons.mp hc with hc | hc
    · cases hc
    · exact absurd (List.eq_of_mem_replicate hc) (by decide)
  rw [lex_append, lex_append, lex_outside hindent, lex_quoteChars]
  rfl

theorem lex_prettyMembers (indent : Nat) (first : Bool)
    (hmembers : ∀ m ∈ members, lex .outside m.2 = .outside) :
    lex .outside (prettyMembers indent first members) = .outside := by
  induction members generalizing first with
  | nil => rfl
  | cons m members ih =>
    obtain ⟨key, value⟩ := m
    have hvalue : lex .outside value = .outside := hmembers _ List.mem_cons_self
    have hrest := ih false fun m' hm' => hmembers m' (List.mem_cons_of_mem _ hm')
    have hcomma : lex .outside (if first then [] else [',']) = .outside := by cases first <;> rfl
    rw [prettyMembers, lex_append, lex_append, hcomma, prettyMember_eq, lex_append,
      lex_memberHead, hvalue, hrest]

theorem lex_prettyObject (depth : Nat) (hmembers : ∀ m ∈ members, lex .outside m.2 = .outside) :
    lex .outside (prettyObject depth members) = .outside := by
  have hclosing : '"' ∉ '\n' :: (List.replicate (2 * depth) ' ' ++ ['}']) := by
    intro hc
    rcases List.mem_cons.mp hc with hc | hc
    · cases hc
    · rcases List.mem_append.mp hc with hc | hc
      · exact absurd (List.eq_of_mem_replicate hc) (by decide)
      · exact absurd hc (by decide)
  have hopen : lex .outside (prettyObject depth members) =
      lex .outside (prettyMembers (2 * (depth + 1)) true members ++
        '\n' :: (List.replicate (2 * depth) ' ' ++ ['}'])) := rfl
  rw [hopen, lex_append, lex_prettyMembers _ true hmembers, lex_outside hclosing]

theorem clean_prettyMembers (h : IsMarker part) (indent : Nat) (first : Bool)
    (hmembers : ∀ m ∈ members, ¬ part <:+: m.1.toList ∧ Clean part m.2) :
    Clean part (prettyMembers indent first members) := by
  induction members generalizing first with
  | nil => exact Clean.nil h
  | cons m members ih =>
    obtain ⟨key, value⟩ := m
    obtain ⟨hkey, hvalue⟩ := hmembers _ List.mem_cons_self
    have hrest := ih false fun m' hm' => hmembers m' (List.mem_cons_of_mem _ hm')
    have hmember : Clean part
        (prettyMember indent key value ++ prettyMembers indent false members) := by
      rw [prettyMember_eq]
      exact ((clean_memberHead h indent hkey).append h hvalue).append h hrest
    cases first with
    | true => exact hmember
    | false => exact (clean_punctuation (c := ',') h (by decide) 0).append h hmember

theorem clean_closing (h : IsMarker part) (depth : Nat) :
    Clean part ('\n' :: (List.replicate (2 * depth) ' ' ++ ['}'])) :=
  (clean_punctuation h (by decide) (2 * depth)).append h
    (clean_punctuation (c := '}') h (by decide) 0)

/-- A document with one free text in it, quoted: a marker occurs in the document
only where it does in the free text. -/
structure Holds (part free text : List Char) : Prop where
  split : ∃ front back, text = front ++ '"' :: (free.flatMap escapeChar ++ '"' :: back) ∧
    Clean part front ∧ ¬ part <:+: back

theorem holds_quoteChars (h : IsMarker part) (free : List Char) :
    Holds part free (quoteChars free) :=
  ⟨[], [], rfl, Clean.nil h, (Clean.nil h).absent⟩

theorem Holds.prepend (h : IsMarker part) (hcs : Clean part cs) (htext : Holds part free text) :
    Holds part free (cs ++ text) := by
  obtain ⟨front, back, rfl, hfront, hback⟩ := htext
  exact ⟨cs ++ front, back, by rw [List.append_assoc], hcs.append h hfront, hback⟩

theorem Holds.extend (h : IsMarker part) (htext : Holds part free text) (hcs : Clean part cs) :
    Holds part free (text ++ cs) := by
  obtain ⟨front, back, rfl, hfront, hback⟩ := htext
  refine ⟨front, back ++ cs, by simp, hfront, ?_⟩
  intro hn
  exact hback ((hcs.infix_append_iff h).mp hn)

theorem holds_prettyMembers (h : IsMarker part) (indent : Nat) (first : Bool)
    {before after : List (String × List Char)} {key : String}
    (hbefore : ∀ m ∈ before, ¬ part <:+: m.1.toList ∧ Clean part m.2)
    (hkey : ¬ part <:+: key.toList) (hvalue : Holds part free value)
    (hafter : ∀ m ∈ after, ¬ part <:+: m.1.toList ∧ Clean part m.2) :
    Holds part free (prettyMembers indent first (before ++ (key, value) :: after)) := by
  have hcomma : Clean part [','] := clean_punctuation h (by decide) 0
  induction before generalizing first with
  | nil =>
    have hmember : Holds part free
        (prettyMember indent key value ++ prettyMembers indent false after) := by
      rw [prettyMember_eq]
      exact (hvalue.prepend h (clean_memberHead h indent hkey)).extend h
        (clean_prettyMembers h indent false hafter)
    cases first with
    | true => exact hmember
    | false => exact hmember.prepend h hcomma
  | cons m before ih =>
    obtain ⟨key', value'⟩ := m
    obtain ⟨hkey', hvalue'⟩ := hbefore _ List.mem_cons_self
    have hrest := ih false fun m' hm' => hbefore m' (List.mem_cons_of_mem _ hm')
    have hmember : Holds part free (prettyMember indent key' value' ++
        prettyMembers indent false (before ++ (key, value) :: after)) := by
      rw [prettyMember_eq]
      exact hrest.prepend h ((clean_memberHead h indent hkey').append h hvalue')
    cases first with
    | true => exact hmember
    | false => exact hmember.prepend h hcomma

theorem holds_prettyObject (h : IsMarker part) (depth : Nat)
    {before after : List (String × List Char)} {key : String}
    (hbefore : ∀ m ∈ before, ¬ part <:+: m.1.toList ∧ Clean part m.2)
    (hkey : ¬ part <:+: key.toList) (hvalue : Holds part free value)
    (hafter : ∀ m ∈ after, ¬ part <:+: m.1.toList ∧ Clean part m.2) :
    Holds part free (prettyObject depth (before ++ (key, value) :: after)) :=
  ((holds_prettyMembers h _ true hbefore hkey hvalue hafter).extend h
    (clean_closing h depth)).prepend h (clean_punctuation (c := '{') h (by decide) 0)

theorem Holds.infix_iff (h : IsMarker part) (htext : Holds part free text) :
    part <:+: text ↔ part <:+: free := by
  obtain ⟨front, back, rfl, hfront, hback⟩ := htext
  rw [infix_append_sep_iff h.quote_notMem h.ne_nil, infix_append_sep_iff h.quote_notMem h.ne_nil,
    h.transparent.infix_flatMap_iff h.ne_nil]
  simp only [hfront.absent, hback, false_or, or_false]

/-- Cut at its first marker, the document ends inside a string. -/
theorem Holds.dropInfix (h : IsMarker part) (htext : Holds part free text) (hfree : part <:+: free)
    (rest : List Char) : ∃ cut after, (text ++ rest).dropInfix? part = some (cut, after) ∧
      lex .outside cut = .inside := by
  obtain ⟨front, back, rfl, hfront, hback⟩ := htext
  have hescaped := (h.transparent.infix_flatMap_iff h.ne_nil).mpr hfree
  obtain ⟨p, q, hsplit, hdrop⟩ := dropInfix_append_of_infix ('"' :: (back ++ rest)) hescaped
  obtain ⟨pre, _, _, rfl, _⟩ := h.transparent.split_flatMap h.ne_nil hsplit
  refine ⟨front ++ '"' :: pre.flatMap escapeChar, q ++ '"' :: (back ++ rest), ?_, ?_⟩
  · have hshape : front ++ '"' :: (free.flatMap escapeChar ++ '"' :: back) ++ rest =
        front ++ '"' :: (free.flatMap escapeChar ++ '"' :: (back ++ rest)) := by simp
    rw [hshape, dropInfix_append_sep h.quote_notMem h.ne_nil hfront.absent, hdrop, Option.map_some]
  · have hopen : lex .outside ('"' :: pre.flatMap escapeChar) =
        lex .inside (pre.flatMap escapeChar) := rfl
    rw [lex_append, hfront.closed, hopen, lex_escaped]

end

end Json
