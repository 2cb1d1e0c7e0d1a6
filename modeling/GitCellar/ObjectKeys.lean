import GitCellar.Bytes
import GitCellar.Joined

/-! Storage keys: relative paths of plain components, and the prefixes by which
stored keys are listed. -/

namespace GitCellar

open Joined

/-- Letters, digits, `-`, `_` and `.`. -/
def isKeyChar (c : Char) : Bool := c.isAlphanum || c == '-' || c == '_' || c == '.'

structure Segment where
  chars : List Char
  ne_nil : chars ≠ []
  ne_dot : chars ≠ ['.']
  ne_dots : chars ≠ ['.', '.']
  keyChars : chars.all isKeyChar = true
  deriving DecidableEq

structure ObjectKey where
  segments : List Segment
  ne_nil : segments ≠ []
  deriving DecidableEq

/-- `dir/last`, where `last` may be a part of a component or missing. -/
structure ObjectPrefix where
  dir : List Segment
  last : Option Segment
  deriving DecidableEq

def slashed (pieces : List (List Char)) : String := String.ofList (['/'].intercalate pieces)

def pathText (path : List Segment) : String := slashed (path.map Segment.chars)

def ObjectKey.text (k : ObjectKey) : String := pathText k.segments

def ObjectPrefix.lastChars (p : ObjectPrefix) : List Char := p.last.elim [] Segment.chars

def ObjectPrefix.text (p : ObjectPrefix) : String :=
  slashed (p.dir.map Segment.chars ++ [p.lastChars])

/-- `path` goes below `dir`, by a component that begins with `last`. -/
def ObjectPrefix.Covers (p : ObjectPrefix) (path : List Segment) : Prop :=
  ∃ y rest, path = p.dir ++ y :: rest ∧ p.lastChars <+: y.chars

theorem Segment.isKeyChar (s : Segment) {c : Char} (h : c ∈ s.chars) : isKeyChar c = true :=
  List.all_eq_true.mp s.keyChars c h

theorem Segment.slash_notMem (s : Segment) : '/' ∉ s.chars := fun h => nomatch s.isKeyChar h

theorem slash_notMem_pieces (path : List Segment) : ∀ d ∈ path.map Segment.chars, '/' ∉ d := by
  intro d hd
  obtain ⟨s, _, rfl⟩ := List.mem_map.mp hd
  exact s.slash_notMem

theorem Segment.ext_chars {s t : Segment} (h : s.chars = t.chars) : s = t := by
  cases s
  cases t
  obtain rfl := h
  rfl

theorem map_chars_injective {a b : List Segment} (h : a.map Segment.chars = b.map Segment.chars) :
    a = b :=
  (List.map_inj_right fun _ _ hchars => Segment.ext_chars hchars).mp h

theorem text_prefix_iff (p : ObjectPrefix) (k : ObjectKey) :
    p.text.toList <+: k.text.toList ↔ p.Covers k.segments := by
  have hlast : '/' ∉ p.lastChars := by
    cases hp : p.last with
    | none => simp [ObjectPrefix.lastChars, hp]
    | some s =>
      simp only [ObjectPrefix.lastChars, hp, Option.elim_some]
      exact s.slash_notMem
  have hjoined :=
    joined_prefix_iff (slash_notMem_pieces p.dir) hlast (slash_notMem_pieces k.segments)
    (by simpa using k.ne_nil)
  simp only [ObjectPrefix.text, ObjectKey.text, pathText, slashed, String.toList_ofList]
  rw [hjoined]
  constructor
  · rintro ⟨y, rest, heq, hy⟩
    obtain ⟨dir, below, hsegments, hdir, hbelow⟩ := List.map_eq_append_iff.mp heq
    obtain ⟨s, segments, rfl, rfl, _⟩ := List.map_eq_cons_iff.mp hbelow
    exact ⟨s, segments, by rw [hsegments, map_chars_injective hdir], hy⟩
  · rintro ⟨y, rest, heq, hy⟩
    exact ⟨y.chars, rest.map Segment.chars, by rw [heq, List.map_append, List.map_cons], hy⟩

theorem pathText_injective {a b : List Segment} (ha : a ≠ []) (hb : b ≠ [])
    (h : pathText a = pathText b) :
    a = b := by
  apply map_chars_injective
  exact joined_injective (slash_notMem_pieces a) (slash_notMem_pieces b) (by simpa using ha)
    (by simpa using hb) (String.ofList_injective h)

theorem ObjectKey.ext_segments {k k' : ObjectKey} (h : k.segments = k'.segments) : k = k' := by
  cases k
  cases k'
  obtain rfl := h
  rfl

theorem ObjectKey.text_injective {k k' : ObjectKey} (h : k.text = k'.text) : k = k' :=
  ObjectKey.ext_segments (pathText_injective k.ne_nil k'.ne_nil h)

theorem text_ne_empty (k : ObjectKey) : k.text ≠ "" := by
  intro h
  have hnil : (['/'].intercalate (k.segments.map Segment.chars)) = [] := String.ofList_injective h
  cases hsegments : k.segments with
  | nil => exact k.ne_nil hsegments
  | cons s rest =>
    cases rest with
    | nil => exact s.ne_nil (by simpa [hsegments] using hnil)
    | cons t rest =>
      rw [hsegments, List.map_cons, List.map_cons, List.intercalate_cons_cons] at hnil
      simp at hnil

theorem text_chars (k : ObjectKey) : ∀ c ∈ k.text.toList, isKeyChar c = true ∨ c = '/' := by
  intro c hc
  rw [ObjectKey.text, pathText, slashed, String.toList_ofList] at hc
  rcases mem_joined hc with hslash | ⟨piece, hpiece, hmem⟩
  · exact .inr hslash
  · obtain ⟨s, _, rfl⟩ := List.mem_map.mp hpiece
    exact .inl (s.isKeyChar hmem)

end GitCellar
