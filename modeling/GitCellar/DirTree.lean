import Mathlib.Data.List.AList
import Mathlib.Data.List.Infix
import Mathlib.Data.List.Lattice
import Mathlib.Tactic.Common

/-! A directory tree: files and directories under a root, and the calls by
which a program reads and changes them. -/

namespace DirTree

inductive IoError where
  | notFound
  | notADirectory
  | isADirectory
  | alreadyExists
  deriving DecidableEq, Repr

/-- Files and directories are apart, and each has its parent among the
directories. The root is not listed. -/
structure Tree (ν β : Type) [DecidableEq ν] where
  files : AList fun _ : List ν => β
  dirs : List (List ν)
  dirs_nodup : dirs.Nodup
  apart : ∀ p ∈ files, p ≠ [] ∧ p ∉ dirs
  parent : ∀ p, p ∈ files ∨ p ∈ dirs → p.dropLast = [] ∨ p.dropLast ∈ dirs

variable {ν β : Type} [DecidableEq ν]

def Tree.empty : Tree ν β where
  files := ∅
  dirs := []
  dirs_nodup := List.nodup_nil
  apart p hp := absurd hp (AList.notMem_empty p)
  parent p hp := absurd hp (by simp)

variable (t : Tree ν β) (path : List ν) (data : β)

def Tree.IsDir : Prop := path = [] ∨ path ∈ t.dirs

instance : Decidable (t.IsDir path) := inferInstanceAs (Decidable (_ ∨ _))

def Tree.blocked : Bool := path.dropLast.inits.any fun d => (t.files.lookup d).isSome

def Tree.exists : Bool := decide (t.IsDir path) || (t.files.lookup path).isSome

def Tree.missing : IoError := if t.blocked path then .notADirectory else .notFound

def Tree.read : Except IoError β :=
  if t.IsDir path then .error .isADirectory
  else
    match t.files.lookup path with
    | some data => .ok data
    | none => .error (t.missing path)

theorem Tree.write_parent (hparent : t.IsDir path.dropLast) :
    ∀ p, p ∈ t.files.insert path data ∨ p ∈ t.dirs → p.dropLast = [] ∨ p.dropLast ∈ t.dirs := by
  rintro p (hp | hp)
  · rcases (AList.mem_insert _).mp hp with rfl | hp
    · exact hparent
    · exact t.parent p (.inl hp)
  · exact t.parent p (.inr hp)

theorem Tree.write_apart (hdir : ¬ t.IsDir path) :
    ∀ p ∈ t.files.insert path data, p ≠ [] ∧ p ∉ t.dirs := by
  intro p hp
  rcases (AList.mem_insert _).mp hp with rfl | hp
  · exact not_or.mp hdir
  · exact t.apart p hp

def Tree.write : Except IoError (Tree ν β) :=
  if hdir : t.IsDir path then .error .isADirectory
  else if hparent : t.IsDir path.dropLast then
    .ok { t with
      files := t.files.insert path data
      apart := t.write_apart path data hdir
      parent := t.write_parent path data hparent }
  else .error (t.missing path)

def Tree.remove : Except IoError (Tree ν β) :=
  if t.IsDir path then .error .isADirectory
  else if (t.files.lookup path).isSome then
    .ok { t with
      files := t.files.erase path
      apart := fun p hp => t.apart p (AList.mem_erase.mp hp).2
      parent := fun p hp => t.parent p (hp.imp_left fun h => (AList.mem_erase.mp h).2) }
  else .error (t.missing path)

/-- The directories on the way to `path`, itself among them. -/
def way : List (List ν) := path.inits.filter fun d => !d.isEmpty

omit [DecidableEq ν] in
theorem mem_way {d : List ν} : d ∈ way path ↔ d <+: path ∧ d ≠ [] := by
  simp [way]

omit [DecidableEq ν] in
theorem dropLast_mem_way {d : List ν} (h : d ∈ way path) :
    d.dropLast = [] ∨ d.dropLast ∈ way path := by
  obtain ⟨hbegins, _⟩ := (mem_way path).mp h
  by_cases hnil : d.dropLast = []
  · exact .inl hnil
  · exact .inr ((mem_way path).mpr ⟨(List.dropLast_prefix d).trans hbegins, hnil⟩)

omit [DecidableEq ν] in
theorem proper_of_mem_way {d : List ν} (h : d ∈ way path.dropLast) : d <+: path ∧ d ≠ path := by
  obtain ⟨hbegins, hne⟩ := (mem_way _).mp h
  refine ⟨hbegins.trans (List.dropLast_prefix path), ?_⟩
  rintro rfl
  have hlen := hbegins.length_le
  have hpos := List.length_pos_iff.mpr hne
  rw [List.length_dropLast] at hlen
  omega

theorem Tree.way_apart (hfree : ∀ d ∈ way path, (t.files.lookup d).isSome = false) :
    ∀ p ∈ t.files, p ≠ [] ∧ p ∉ way path ∪ t.dirs := by
  intro p hp
  obtain ⟨hne, hdirs⟩ := t.apart p hp
  refine ⟨hne, ?_⟩
  intro hmem
  rcases List.mem_union_iff.mp hmem with hway | hdir
  · have hsome := AList.lookup_isSome.mpr hp
    rw [hfree p hway] at hsome
    cases hsome
  · exact hdirs hdir

theorem Tree.way_parent : ∀ p, p ∈ t.files ∨ p ∈ way path ∪ t.dirs →
    p.dropLast = [] ∨ p.dropLast ∈ way path ∪ t.dirs := by
  have hkeep : ∀ p, p ∈ t.files ∨ p ∈ t.dirs → p.dropLast = [] ∨ p.dropLast ∈ way path ∪ t.dirs :=
    fun p hp => (t.parent p hp).imp_right fun h => List.mem_union_iff.mpr (.inr h)
  rintro p (hp | hp)
  · exact hkeep p (.inl hp)
  · rcases List.mem_union_iff.mp hp with hway | hdir
    · exact (dropLast_mem_way path hway).imp_right fun h => List.mem_union_iff.mpr (.inl h)
    · exact hkeep p (.inr hdir)

def Tree.createDirAll : Except IoError (Tree ν β) :=
  if hfree : ∀ d ∈ way path, (t.files.lookup d).isSome = false then
    .ok { t with
      dirs := way path ∪ t.dirs
      dirs_nodup := t.dirs_nodup.union (way path)
      apart := t.way_apart path hfree
      parent := t.way_parent path }
  else .error (if (t.files.lookup path).isSome then .alreadyExists else .notADirectory)

def childOf (q : List ν) : Option ν := if q.dropLast = path then q.getLast? else none

def Tree.children : List ν := (t.files.keys ++ t.dirs).filterMap (childOf path)

def Tree.readDir : Except IoError (List ν) :=
  if t.IsDir path then .ok (t.children path)
  else .error (if (t.files.lookup path).isSome then .notADirectory else t.missing path)

variable {t path data} {n : ν}

theorem childOf_eq_some {q : List ν} : childOf path q = some n ↔ q = path ++ [n] := by
  rw [childOf]
  constructor
  · intro h
    by_cases hq : q.dropLast = path
    · rw [if_pos hq] at h
      rw [← hq, List.dropLast_append_getLast? n h]
    · rw [if_neg hq] at h
      cases h
  · rintro rfl
    simp

theorem mem_children : n ∈ t.children path ↔ path ++ [n] ∈ t.files ∨ path ++ [n] ∈ t.dirs := by
  simp only [Tree.children, List.mem_filterMap, List.mem_append, childOf_eq_some, AList.mem_keys]
  constructor
  · rintro ⟨_, hq, rfl⟩
    exact hq
  · intro h
    exact ⟨_, h, rfl⟩

theorem children_nodup : (t.children path).Nodup := by
  apply List.Nodup.filterMap
  · intro q r m hq hr
    rw [childOf_eq_some.mp hq, childOf_eq_some.mp hr]
  · apply List.nodup_append.mpr
    refine ⟨t.files.keys_nodup, t.dirs_nodup, ?_⟩
    rintro q hfile r hdir rfl
    exact (t.apart q (AList.mem_keys.mpr hfile)).2 hdir

theorem isDir_of_prefix {d : List ν} (hd : d <+: path) (hne : d ≠ path)
    (hpath : path ∈ t.files ∨ path ∈ t.dirs) : t.IsDir d := by
  obtain ⟨rest, rfl⟩ := hd
  induction rest using List.reverseRecOn with
  | nil => exact absurd (List.append_nil d).symm hne
  | append_singleton rest m ih =>
    have hparent := t.parent _ hpath
    rw [← List.append_assoc, List.dropLast_concat] at hparent
    by_cases hrest : rest = []
    · subst hrest
      rwa [List.append_nil] at hparent
    · rcases hparent with hnil | hdir
      · exact .inl (List.append_eq_nil_iff.mp hnil).1
      · apply ih
        · intro heq
          exact hrest (List.append_cancel_left ((List.append_nil d).trans heq)).symm
        · exact .inr hdir

theorem createDirAll_ok (hfree : ∀ d ∈ way path, t.files.lookup d = none) :
    ∃ s, t.createDirAll path = .ok s ∧ s.files = t.files ∧ s.dirs = way path ∪ t.dirs := by
  have hnone : ∀ d ∈ way path, (t.files.lookup d).isSome = false := by
    intro d hd
    rw [hfree d hd]
    rfl
  exact ⟨_, dif_pos hnone, rfl, rfl⟩

theorem write_ok (hdir : ¬ t.IsDir path) (hparent : t.IsDir path.dropLast) :
    ∃ s, t.write path data = .ok s ∧ s.files = t.files.insert path data ∧ s.dirs = t.dirs := by
  rw [Tree.write, dif_neg hdir, dif_pos hparent]
  exact ⟨_, rfl, rfl, rfl⟩

theorem remove_ok (h : path ∈ t.files) :
    ∃ s, t.remove path = .ok s ∧ s.files = t.files.erase path ∧ s.dirs = t.dirs := by
  have hdir : ¬ t.IsDir path := not_or.mpr (t.apart path h)
  rw [Tree.remove, if_neg hdir, if_pos (AList.lookup_isSome.mpr h)]
  exact ⟨_, rfl, rfl, rfl⟩

end DirTree
