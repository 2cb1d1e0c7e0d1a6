import GitCellar.DirTree
import GitCellar.ObjectKeys
import GitCellar.Usernames

/-! Keys stored as files below a root directory. -/

namespace GitCellar

open DirTree

abbrev FileTree := Tree Segment Bytes

/-- `order` is the order in which the machine reads a directory's entries. -/
structure FileStorage where
  root : String
  ioText : IoError → String
  order : List Segment → List Segment
  order_perm : ∀ names, (order names).Perm names

variable (s : FileStorage) (t : FileTree)

/-- A full path as `{:?}` shows it. -/
def FileStorage.shown (path : List Segment) : String := debugStr (s.root ++ "/" ++ pathText path)

def FileStorage.upload (k : ObjectKey) (data : Bytes) : Except VaultError Unit × FileTree :=
  match t.createDirAll k.segments.dropLast with
  | .error e =>
    (.error (.storage
      ("Failed to create directory " ++ s.shown k.segments.dropLast ++ ": " ++ s.ioText e)), t)
  | .ok made =>
    match made.write k.segments data with
    | .error e =>
      (.error (.storage ("Failed to write " ++ s.shown k.segments ++ ": " ++ s.ioText e)), made)
    | .ok written => (.ok (), written)

def FileStorage.download (k : ObjectKey) : Except VaultError Bytes :=
  match t.read k.segments with
  | .ok data => .ok data
  | .error .notFound => .error (.storage ("File not found: " ++ s.shown k.segments))
  | .error e => .error (.storage ("Failed to read " ++ s.shown k.segments ++ ": " ++ s.ioText e))

def FileStorage.exists (k : ObjectKey) : Except VaultError Bool := .ok (t.exists k.segments)

def forwardSlashes (text : String) : String :=
  String.ofList (text.toList.map fun c => if c = '\\' then '/' else c)

def FileStorage.matching (dirPath : List Segment) (filePrefix : List Char) :
    Except VaultError (List String) :=
  if !t.exists dirPath then .ok []
  else
    match t.readDir dirPath with
    | .error e =>
      .error (.storage ("Failed to read directory " ++ s.shown dirPath ++ ": " ++ s.ioText e))
    | .ok names =>
      .ok ((s.order names).filterMap fun name =>
        if filePrefix.isEmpty || filePrefix.isPrefixOf name.chars then
          some (forwardSlashes (pathText (dirPath ++ [name])))
        else none)

/-- The path a listing looks at: a slash at the end makes no difference to it. -/
def ObjectPrefix.path (p : ObjectPrefix) : List Segment := p.dir ++ p.last.toList

/-- The contents of the directory that the prefix names, or else the entries
of its parent that begin with its last component. -/
def FileStorage.list (p : ObjectPrefix) : Except VaultError (List String) :=
  if t.IsDir p.path then s.matching t p.path []
  else s.matching t p.path.dropLast ((p.path.getLast?.map Segment.chars).getD [])

def FileStorage.delete (k : ObjectKey) : Except VaultError Unit × FileTree :=
  match t.remove k.segments with
  | .ok removed => (.ok (), removed)
  | .error .notFound => (.error (.storage ("File not found: " ++ s.shown k.segments)), t)
  | .error e =>
    (.error (.storage ("Failed to delete " ++ s.shown k.segments ++ ": " ++ s.ioText e)), t)

/-- The stored keys, with their bytes. -/
abbrev KeyMap := ObjectKey → Option Bytes

/-- No key is a directory of another. -/
def KeysApart (keys : List ObjectKey) : Prop :=
  ∀ a ∈ keys, ∀ b ∈ keys, a.segments <+: b.segments → a = b

/-- The tree holds the map. The directories lead to keys that are, or were, stored. -/
structure FileHolds (keys : List ObjectKey) (t : FileTree) (m : KeyMap) : Prop where
  stored : ∀ k, t.files.lookup k.segments = m k
  known : ∀ k, (m k).isSome → k ∈ keys
  dirs : ∀ d ∈ t.dirs, ∃ k ∈ keys, d <+: k.segments ∧ d ≠ k.segments

/-- `names` are the stored keys that start with the prefix, each once. -/
def Lists (m : KeyMap) (p : ObjectPrefix) (names : List String) : Prop :=
  names.Nodup ∧ ∀ text, text ∈ names ↔
    ∃ k, (m k).isSome ∧ p.text.toList <+: k.text.toList ∧ text = k.text

/-- When a listing is whole. The prefix names a directory: it has no directory
in it, and no stored key outside it starts with the prefix. The prefix names
none: its parent is not a file and has no directory that begins with the last
component, nor, with a slash at the end of the prefix, any such file. -/
def FileStorage.Listable (p : ObjectPrefix) : Prop :=
  if t.IsDir p.path then
    (∀ n, p.path ++ [n] ∉ t.dirs) ∧ ∀ path ∈ t.files, p.Covers path → p.path <+: path
  else
    t.files.lookup p.path.dropLast = none ∧
      ∀ n, ∀ last ∈ p.path.getLast?, last.chars <+: n.chars →
        p.path.dropLast ++ [n] ∉ t.dirs ∧ (p.last = none → p.path.dropLast ++ [n] ∉ t.files)

variable {s t} {keys : List ObjectKey} {m : KeyMap} {k : ObjectKey} {p : ObjectPrefix}
    {data : Bytes}

theorem forwardSlashes_pathText {path : List Segment} (hne : path ≠ []) :
    forwardSlashes (pathText path) = pathText path := by
  have hchars := text_chars ⟨path, hne⟩
  have hid : (pathText path).toList.map (fun c => if c = '\\' then '/' else c) =
      (pathText path).toList := by
    refine (List.map_congr_left ?_).trans (List.map_id _)
    intro c hc
    rw [if_neg]
    · rfl
    · rintro rfl
      rcases hchars '\\' hc with hkey | hslash
      · cases hkey
      · cases hslash
  rw [forwardSlashes, hid, String.ofList_toList]

theorem FileHolds.not_isDir (h : FileHolds keys t m) (hapart : KeysApart keys) (hk : k ∈ keys) :
    ¬ t.IsDir k.segments := by
  rintro (hnil | hdir)
  · exact k.ne_nil hnil
  · obtain ⟨b, hb, hbegins, hne⟩ := h.dirs _ hdir
    obtain rfl := hapart k hk b hb hbegins
    exact hne rfl

theorem FileHolds.mem_files (h : FileHolds keys t m) : k.segments ∈ t.files ↔ (m k).isSome := by
  rw [← AList.lookup_isSome, h.stored]

theorem FileHolds.lookup_way (h : FileHolds keys t m) (hapart : KeysApart keys) (hk : k ∈ keys) :
    ∀ d ∈ way k.segments.dropLast, t.files.lookup d = none := by
  intro d hd
  obtain ⟨hbegins, hproper⟩ := proper_of_mem_way _ hd
  rw [AList.lookup_eq_none]
  intro hfile
  have hne := ((mem_way _).mp hd).2
  have hknown := h.known ⟨d, hne⟩ (h.mem_files.mp hfile)
  exact hproper (congrArg ObjectKey.segments (hapart _ hknown k hk hbegins))

theorem FileHolds.upload (h : FileHolds keys t m) (hapart : KeysApart keys) (hk : k ∈ keys)
    (data : Bytes) :
    (s.upload t k data).1 = .ok () ∧
      FileHolds keys (s.upload t k data).2 (Function.update m k (some data)) := by
  obtain ⟨made, hmade, hfiles, hdirs⟩ := createDirAll_ok (h.lookup_way hapart hk)
  have hdir : ¬ made.IsDir k.segments := by
    rintro (hnil | hmem)
    · exact k.ne_nil hnil
    · rw [hdirs] at hmem
      rcases List.mem_union_iff.mp hmem with hway | hold
      · exact (proper_of_mem_way _ hway).2 rfl
      · exact h.not_isDir hapart hk (.inr hold)
  have hparent : made.IsDir k.segments.dropLast := by
    by_cases hnil : k.segments.dropLast = []
    · exact .inl hnil
    · right
      rw [hdirs]
      exact List.mem_union_iff.mpr (.inl ((mem_way _).mpr ⟨List.prefix_rfl, hnil⟩))
  obtain ⟨written, hwritten, hwfiles, hwdirs⟩ := @write_ok _ _ _ made k.segments data hdir hparent
  have hresult : s.upload t k data = (.ok (), written) := by
    simp only [FileStorage.upload, hmade, hwritten]
  rw [hresult]
  refine ⟨rfl, ?_, ?_, ?_⟩
  · intro k'
    rw [hwfiles, hfiles]
    by_cases hsame : k' = k
    · subst hsame
      rw [AList.lookup_insert, Function.update_self]
    · rw [Function.update_of_ne hsame, AList.lookup_insert_ne, h.stored]
      exact fun hsegments => hsame (ObjectKey.ext_segments hsegments)
  · intro k' hsome
    by_cases hsame : k' = k
    · rw [hsame]
      exact hk
    · rw [Function.update_of_ne hsame] at hsome
      exact h.known k' hsome
  · intro d hd
    rw [hwdirs, hdirs] at hd
    rcases List.mem_union_iff.mp hd with hway | hold
    · exact ⟨k, hk, proper_of_mem_way _ hway⟩
    · exact h.dirs d hold

theorem FileHolds.download_stored (h : FileHolds keys t m) (hapart : KeysApart keys) (hk : k ∈ keys)
    (hm : m k = some data) : s.download t k = .ok data := by
  simp only [FileStorage.download, Tree.read, h.not_isDir hapart hk, if_false, h.stored, hm]

theorem FileHolds.download_missing (h : FileHolds keys t m) (hapart : KeysApart keys)
    (hk : k ∈ keys) (hm : m k = none) : ∃ e, s.download t k = .error e := by
  simp only [FileStorage.download, Tree.read, h.not_isDir hapart hk, if_false, h.stored, hm]
  cases t.missing k.segments with
  | notFound => exact ⟨_, rfl⟩
  | notADirectory => exact ⟨_, rfl⟩
  | isADirectory => exact ⟨_, rfl⟩
  | alreadyExists => exact ⟨_, rfl⟩

theorem FileHolds.exists_eq (h : FileHolds keys t m) (hapart : KeysApart keys) (hk : k ∈ keys) :
    FileStorage.exists t k = .ok (m k).isSome := by
  simp [FileStorage.exists, Tree.exists, h.not_isDir hapart hk, h.stored]

theorem FileHolds.delete_stored (h : FileHolds keys t m) (hm : (m k).isSome) :
    (s.delete t k).1 = .ok () ∧ FileHolds keys (s.delete t k).2 (Function.update m k none) := by
  obtain ⟨removed, hremoved, hfiles, hdirs⟩ := remove_ok (h.mem_files.mpr hm)
  have hresult : s.delete t k = (.ok (), removed) := by
    simp only [FileStorage.delete, hremoved]
  rw [hresult]
  refine ⟨rfl, ?_, ?_, ?_⟩
  · intro k'
    rw [hfiles]
    by_cases hsame : k' = k
    · subst hsame
      rw [AList.lookup_erase, Function.update_self]
    · rw [Function.update_of_ne hsame, AList.lookup_erase_ne, h.stored]
      exact fun hsegments => hsame (ObjectKey.ext_segments hsegments)
  · intro k' hsome
    by_cases hsame : k' = k
    · subst hsame
      rw [Function.update_self] at hsome
      cases hsome
    · rw [Function.update_of_ne hsame] at hsome
      exact h.known k' hsome
  · intro d hd
    rw [hdirs] at hd
    exact h.dirs d hd

theorem matching_ok (s : FileStorage) {dirPath : List Segment} {filePrefix : List Char}
    (h : t.files.lookup dirPath = none) :
    ∃ names, s.matching t dirPath filePrefix = .ok names ∧ names.Nodup ∧
      ∀ text, text ∈ names ↔
        ∃ n ∈ t.children dirPath, filePrefix <+: n.chars ∧ text = pathText (dirPath ++ [n]) := by
  have hpath : ∀ n, dirPath ++ [n] ≠ [] := fun n =>
    List.append_ne_nil_of_right_ne_nil _ (List.cons_ne_nil n [])
  by_cases hdir : t.IsDir dirPath
  · have hexists : t.exists dirPath = true := by simp [Tree.exists, hdir]
    have hkept : ∀ n text, (if filePrefix.isEmpty || filePrefix.isPrefixOf n.chars then
        some (forwardSlashes (pathText (dirPath ++ [n]))) else none) = some text ↔
        filePrefix <+: n.chars ∧ text = pathText (dirPath ++ [n]) := by
      intro n text
      rw [forwardSlashes_pathText (hpath n)]
      have hbegins : (filePrefix.isEmpty || filePrefix.isPrefixOf n.chars) = true ↔
          filePrefix <+: n.chars := by
        cases filePrefix with
        | nil => simp
        | cons c cs => simp
      simp only [hbegins, Option.ite_none_right_eq_some, Option.some.injEq]
      exact and_congr_right fun _ => eq_comm
    refine
      ⟨_, by simp only [FileStorage.matching, hexists, Tree.readDir, hdir, if_true]; rfl, ?_, ?_⟩
    · apply List.Nodup.filterMap
      · intro a b text ha hb
        have hsame := ((hkept a text).mp ha).2.symm.trans ((hkept b text).mp hb).2
        exact List.singleton_inj.mp
          (List.append_cancel_left (pathText_injective (hpath a) (hpath b) hsame))
      · exact (s.order_perm _).nodup_iff.mpr children_nodup
    · intro text
      simp only [List.mem_filterMap, (s.order_perm _).mem_iff, hkept]
  · have hexists : t.exists dirPath = false := by simp [Tree.exists, hdir, h]
    refine ⟨[], by simp [FileStorage.matching, hexists], List.nodup_nil, ?_⟩
    intro text
    refine iff_of_false List.not_mem_nil ?_
    rintro ⟨n, hn, _⟩
    apply hdir
    have hparent := t.parent _ (mem_children.mp hn)
    rwa [List.dropLast_concat] at hparent

theorem eq_entry_of_prefix {dir path : List Segment} (hleaf : ∀ n, dir ++ [n] ∉ t.dirs)
    (hfile : path ∈ t.files) (hbegins : dir <+: path) (hne : dir ≠ path) :
    ∃ n, path = dir ++ [n] := by
  obtain ⟨rest, rfl⟩ := hbegins
  cases rest with
  | nil => exact absurd (List.append_nil dir).symm hne
  | cons n rest =>
    refine ⟨n, ?_⟩
    by_contra hlonger
    have hentry : dir ++ [n] <+: dir ++ n :: rest := ⟨rest, by simp⟩
    rcases isDir_of_prefix hentry (fun h => hlonger h.symm) (.inl hfile) with hnil | hdir
    · simp at hnil
    · exact hleaf n hdir

theorem FileHolds.lists_of_entries (h : FileHolds keys t m) {dirPath : List Segment}
    {filePrefix : List Char} {names : List String} (hnodup : names.Nodup)
    (hnames : ∀ text, text ∈ names ↔
      ∃ n ∈ t.children dirPath, filePrefix <+: n.chars ∧ text = pathText (dirPath ++ [n]))
    (hcovers : ∀ path ∈ t.files, p.Covers path ↔ ∃ n, path = dirPath ++ [n] ∧
      filePrefix <+: n.chars)
    (hdirs : ∀ n, filePrefix <+: n.chars → dirPath ++ [n] ∉ t.dirs) : Lists m p names := by
  refine ⟨hnodup, ?_⟩
  intro text
  rw [hnames text]
  constructor
  · rintro ⟨n, hn, hbegins, rfl⟩
    have hfile := (mem_children.mp hn).resolve_right (hdirs n hbegins)
    have hne : dirPath ++ [n] ≠ [] := List.append_ne_nil_of_right_ne_nil _ (List.cons_ne_nil n [])
    refine ⟨⟨dirPath ++ [n], hne⟩, h.mem_files.mp hfile, ?_, rfl⟩
    exact (text_prefix_iff p _).mpr ((hcovers _ hfile).mpr ⟨n, rfl, hbegins⟩)
  · rintro ⟨k, hk, hbegins, rfl⟩
    have hfile := h.mem_files.mpr hk
    obtain ⟨n, hpath, hn⟩ := (hcovers _ hfile).mp ((text_prefix_iff p k).mp hbegins)
    refine ⟨n, mem_children.mpr (.inl (hpath ▸ hfile)), hn, ?_⟩
    rw [ObjectKey.text, hpath]

/-- A prefix that names a directory of stored keys only covers the keys in it. -/
theorem covers_dir_iff (hdir : t.IsDir p.path) (hleaf : ∀ n, p.path ++ [n] ∉ t.dirs)
    (hinside : ∀ path ∈ t.files, p.Covers path → p.path <+: path) {path : List Segment}
    (hfile : path ∈ t.files) : p.Covers path ↔ ∃ n :
    Segment, path = p.path ++ [n] ∧ [] <+: n.chars := by
  constructor
  · intro hcovers
    have hne : p.path ≠ path := by
      rintro rfl
      exact not_or.mpr (t.apart _ hfile) hdir
    obtain ⟨n, hn⟩ := eq_entry_of_prefix hleaf hfile (hinside path hfile hcovers) hne
    exact ⟨n, hn, List.nil_prefix⟩
  · rintro ⟨n, rfl, _⟩
    cases hlast : p.last with
    | none =>
      exact ⟨n, [], by simp [ObjectPrefix.path, hlast], by simp [ObjectPrefix.lastChars, hlast]⟩
    | some last =>
      exact ⟨last, [n], by simp [ObjectPrefix.path, hlast], by simp [ObjectPrefix.lastChars, hlast]⟩

/-- Any other prefix covers the keys of its parent that begin with its last component. -/
theorem covers_stem_iff {init : List Segment} {last : Segment} (hpath : p.path = init ++ [last])
    (hdir : ¬ t.IsDir (init ++ [last]))
    (hentries : ∀ n : Segment, last.chars <+: n.chars →
      init ++ [n] ∉ t.dirs ∧ (p.last = none → init ++ [n] ∉ t.files)) {path : List Segment}
    (hfile : path ∈ t.files) :
    p.Covers path ↔ ∃ n : Segment, path = init ++ [n] ∧ last.chars <+: n.chars := by
  cases hlast : p.last with
  | none =>
    have hdirPath : p.dir = init ++ [last] := by simpa [ObjectPrefix.path, hlast] using hpath
    apply iff_of_false
    · rintro ⟨y, rest, rfl, _⟩
      apply hdir
      rw [← hdirPath]
      exact isDir_of_prefix (List.prefix_append _ _) (by simp) (.inl hfile)
    · rintro ⟨n, rfl, hn⟩
      exact (hentries n hn).2 hlast hfile
  | some part =>
    have hparts : p.dir ++ [part] = init ++ [last] := by
      simpa [ObjectPrefix.path, hlast] using hpath
    obtain ⟨hinit, hpart⟩ := List.append_inj' hparts rfl
    obtain rfl := List.singleton_inj.mp hpart
    simp only [ObjectPrefix.Covers, ObjectPrefix.lastChars, hlast, Option.elim_some, hinit]
    constructor
    · rintro ⟨y, rest, rfl, hy⟩
      cases rest with
      | nil => exact ⟨y, rfl, hy⟩
      | cons z rest =>
        have hentry : init ++ [y] <+: init ++ y :: z :: rest := ⟨z :: rest, by simp⟩
        rcases isDir_of_prefix hentry (by simp) (.inl hfile) with hnil | hmem
        · simp at hnil
        · exact absurd hmem (hentries y hy).1
    · rintro ⟨n, rfl, hn⟩
      exact ⟨n, [], rfl, hn⟩

theorem FileHolds.list_ok (h : FileHolds keys t m) (hlist : FileStorage.Listable t p) :
    ∃ names, s.list t p = .ok names ∧ Lists m p names := by
  rw [FileStorage.Listable] at hlist
  rw [FileStorage.list]
  by_cases hdir : t.IsDir p.path
  · rw [if_pos hdir] at hlist ⊢
    obtain ⟨hleaf, hinside⟩ := hlist
    have hlookup : t.files.lookup p.path = none := by
      rw [AList.lookup_eq_none]
      intro hfile
      exact not_or.mpr (t.apart _ hfile) hdir
    obtain ⟨names, hok, hnodup, hnames⟩ := @matching_ok t s p.path [] hlookup
    exact ⟨names, hok, h.lists_of_entries hnodup hnames
      (fun _ hfile => covers_dir_iff hdir hleaf hinside hfile) fun n _ => hleaf n⟩
  · rw [if_neg hdir] at hlist ⊢
    obtain ⟨hlookup, hentries⟩ := hlist
    have hne : p.path ≠ [] := fun hnil => hdir (.inl hnil)
    obtain ⟨init, last, hpath⟩ := (List.eq_nil_or_concat p.path).resolve_left hne
    rw [List.concat_eq_append] at hpath
    rw [hpath] at hdir
    rw [hpath, List.dropLast_concat] at hlookup
    simp only [hpath, List.dropLast_concat, List.getLast?_concat, Option.mem_def, Option.some.injEq,
      forall_eq', Option.map_some, Option.getD_some] at hentries ⊢
    obtain ⟨names, hok, hnodup, hnames⟩ := @matching_ok t s init last.chars hlookup
    exact ⟨names, hok, h.lists_of_entries hnodup hnames
      (fun _ hfile => covers_stem_iff hpath hdir hentries hfile) fun n hn => (hentries n hn).1⟩

end GitCellar
