import Mathlib.Algebra.Order.Ring.Nat
import Mathlib.Tactic.Common

/-! File paths as the components a platform reads from their text, and what
joining a text to a path does. -/

namespace Paths

/-- How a platform reads a path's text. A drive (`C:`, `\\server\share`) stands
in front; text without a colon that does not begin with a separator has none. -/
structure Platform where
  isSeparator : Char → Bool
  splitDrive : List Char → Option (List Char) × List Char
  implicitRoot : List Char → Bool
  separators : ∀ c, isSeparator c = true → c = '/' ∨ c = '\\'
  drives : ∀ text, ':' ∉ text → (∀ c ∈ text.head?, isSeparator c = false) →
    splitDrive text = (none, text)

inductive Component where
  | parentDir
  | normal (name : List Char)
  deriving DecidableEq, Repr

@[ext] structure PathBuf where
  drive : Option (List Char)
  root : Bool
  comps : List Component
  deriving DecidableEq, Repr

/-- Empty components and `.` are dropped. -/
def component (segment : List Char) : Option Component :=
  if segment = [] ∨ segment = ['.'] then none
  else if segment = ['.', '.'] then some .parentDir
  else some (.normal segment)

def parse (P : Platform) (text : List Char) : PathBuf :=
  let (drive, rest) := P.splitDrive text
  ⟨drive, rest.head?.any P.isSeparator || drive.any P.implicitRoot,
    (rest.splitOnP P.isSeparator).filterMap component⟩

/-- A text with a drive replaces the path, one with a root all but its drive. -/
def join (P : Platform) (base : PathBuf) (text : List Char) : PathBuf :=
  let path := parse P text
  if path.drive.isSome then path
  else if path.root then ⟨base.drive, true, path.comps⟩
  else ⟨base.drive, base.root, base.comps ++ path.comps⟩

def parent (path : PathBuf) : Option PathBuf :=
  if path.comps = [] then none else some ⟨path.drive, path.root, path.comps.dropLast⟩

/-- The text of a single directory or file name. -/
def Plain (P : Platform) (text : List Char) : Prop := parse P text = ⟨none, false, [.normal text]⟩

/-- The text names one entry of the directory it is joined to. -/
def OneComponent (P : Platform) (text : List Char) : Prop :=
  ∃ name, parse P text = ⟨none, false, [.normal name]⟩

variable {P : Platform} {base : PathBuf} {text name : List Char}

theorem Plain.oneComponent (h : Plain P text) : OneComponent P text := ⟨text, h⟩

theorem join_relative {comps : List Component} (h : parse P text = ⟨none, false, comps⟩) :
    join P base text = ⟨base.drive, base.root, base.comps ++ comps⟩ := by
  simp [join, h]

theorem join_plain (h : Plain P text) :
    join P base text = ⟨base.drive, base.root, base.comps ++ [.normal text]⟩ := join_relative h

/-- A joined path that is still relative took nothing but components from the text. -/
theorem join_eq_relative {comps out : List Component}
    (h : join P ⟨none, false, comps⟩ text = ⟨none, false, out⟩) :
    ∃ rest, parse P text = ⟨none, false, rest⟩ ∧ out = comps ++ rest := by
  cases hparse : parse P text with
  | mk drive root rest =>
  simp only [join, hparse] at h
  by_cases hdrive : drive.isSome = true
  · rw [if_pos hdrive] at h
    obtain ⟨rfl, _, _⟩ := PathBuf.mk.inj h
    cases hdrive
  · rw [if_neg hdrive] at h
    obtain rfl := Option.not_isSome_iff_eq_none.mp hdrive
    cases root with
    | true => cases h
    | false =>
      obtain ⟨_, _, rfl⟩ := PathBuf.mk.inj h
      exact ⟨rest, rfl, rfl⟩

/-- Neither empty nor dots, and free of separators and colons. -/
def isPlainText (text : List Char) : Bool :=
  text != [] && text != ['.'] && text != ['.', '.'] &&
    text.all fun c => c != '/' && c != '\\' && c != ':'

theorem plain_of_chars (hne : text ≠ []) (hdot : text ≠ ['.']) (hdots : text ≠ ['.', '.'])
    (hchars : ∀ c ∈ text, c ≠ '/' ∧ c ≠ '\\' ∧ c ≠ ':') : Plain P text := by
  have hsep : ∀ c ∈ text, P.isSeparator c = false := by
    intro c hc
    rw [Bool.eq_false_iff]
    intro htrue
    rcases P.separators c htrue with hslash | hback
    · exact (hchars c hc).1 hslash
    · exact (hchars c hc).2.1 hback
  have hhead : ∀ c ∈ text.head?, P.isSeparator c = false :=
    fun c hc => hsep c (List.mem_of_mem_head? hc)
  have hdrive := P.drives text (fun h => (hchars ':' h).2.2 rfl) hhead
  have hroot : text.head?.any P.isSeparator = false := by
    cases hfirst : text.head? with
    | none => rfl
    | some c => exact hhead c hfirst
  have hsplit := List.splitOnP_eq_singleton hsep
  simp [Plain, parse, hdrive, hroot, hsplit, component, hne, hdot, hdots]

theorem plain_of_isPlainText (h : isPlainText text = true) : Plain P text := by
  simp only [isPlainText, Bool.and_eq_true, bne_iff_ne, List.all_eq_true] at h
  obtain ⟨⟨⟨hne, hdot⟩, hdots⟩, hchars⟩ := h
  apply plain_of_chars hne hdot hdots
  intro c hc
  obtain ⟨⟨hslash, hback⟩, hcolon⟩ := hchars c hc
  exact ⟨hslash, hback, hcolon⟩

def unix : Platform where
  isSeparator c := c == '/'
  splitDrive text := (none, text)
  implicitRoot _ := false
  separators _ hc := .inl (eq_of_beq hc)
  drives _ _ _ := rfl

end Paths
