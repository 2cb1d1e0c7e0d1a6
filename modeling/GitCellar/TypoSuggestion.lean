import GitCellar.EditDistance
import GitCellar.Loops
import GitCellar.Words

/-! The suggestion for a mistyped word: the word of the list with the fewest edits, counted by a
dynamic program over two rows. -/

namespace GitCellar

open Loops EditDistance Unicode

/-- `v[i]`, which panics past the end. -/
def index {ε α : Type} (v : List α) (i : Nat) : Run ε α :=
  match v[i]? with
  | some x => .ok x
  | none => .error .panic

/-- `v[i] = x`, which panics past the end. -/
def setIndex {ε α : Type} (v : List α) (i : Nat) (x : α) : Run ε (List α) :=
  if i < v.length then .ok (v.set i x) else .error .panic

/-- The body of `for j in 1..=n`. -/
def fillCell (a b : List Char) (i : Nat) (prev curr : List Nat) (j : Nat) :
    Run Empty (List Nat) := do
  let x ← index a (i - 1)
  let y ← index b (j - 1)
  let cost := if x = y then 0 else 1
  let above ← index prev j
  let left ← index curr (j - 1)
  let diagonal ← index prev (j - 1)
  setIndex curr j (min (min (above + 1) (left + 1)) (diagonal + cost))

/-- The body of `for i in 1..=m`: it leaves the rows `(prev, curr)` swapped. -/
def fillRow (a b : List Char) (rows : List Nat × List Nat) (i : Nat) :
    Run Empty (List Nat × List Nat) := do
  let curr ← setIndex rows.2 0 i
  let curr ← (List.range' 1 b.length).foldlM (fillCell a b i rows.1) curr
  return (curr, rows.1)

def levenshteinDistance (a b : String) : Run Empty Nat := do
  let aChars := a.toList
  let bChars := b.toList
  let m := aChars.length
  let n := bChars.length
  if m = 0 then return n
  if n = 0 then return m
  let prev := List.replicate (n + 1) 0
  let curr := List.replicate (n + 1) 0
  let prev ← (List.range' 0 (n + 1)).foldlM (fun prev j => setIndex prev j j) prev
  let rows ← (List.range' 1 m).foldlM (fillRow aChars bChars) (prev, curr)
  index rows.1 n

/-- `wordList` is the list of the `bip39` crate. -/
def findClosestWord (wordList : List String) (word : String) (maxDistance : Nat) :
    Run Empty (Option String) := do
  let wordLower := toLowercase word
  let distances ← wordList.mapM fun w => return (w, ← levenshteinDistance wordLower w)
  return ((distances.filter fun d => d.2 ≤ maxDistance).minOn? fun d => d.2).map fun d => d.1

theorem index_of_lt {ε α : Type} {v : List α} {i : Nat} (h : i < v.length) :
    (index v i : Run ε α) = .ok v[i] := by
  rw [index, List.getElem?_eq_getElem h]

/-- A row for `n` columns whose first `count` cells hold `f`; what the others hold is left open. -/
structure Filled (f : Nat → Nat) (n count : Nat) (row : List Nat) : Prop where
  length : row.length = n + 1
  cells : ∀ j < count, row[j]? = some (f j)

section

variable {ε : Type} {f : Nat → Nat} {n count : Nat} {row : List Nat}

theorem Filled.index (h : Filled f n count row) {j : Nat} (hj : j < count) :
    (index row j : Run ε Nat) = .ok (f j) := by
  rw [GitCellar.index, h.cells j hj]

theorem Filled.setIndex (h : Filled f n count row) (hcount : count ≤ n) :
    ∃ row', (setIndex row count (f count) : Run ε (List Nat)) = .ok row' ∧
      Filled f n (count + 1) row' := by
  have hlt : count < row.length := by
    have := h.length
    omega
  refine ⟨row.set count (f count), if_pos hlt, ?_, ?_⟩
  · rw [List.length_set, h.length]
  · intro j hj
    by_cases hlast : j = count
    · rw [hlast, List.getElem?_set_self hlt]
    · rw [List.getElem?_set_ne (Ne.symm hlast)]
      exact h.cells j (by omega)

end

section

variable {a b : List Char} {i : Nat} {prev curr : List Nat}

theorem fillCell_filled {j : Nat} (hi : i < a.length) (hj : j < b.length)
    (hprev : Filled (prefixDistance a b i) b.length (b.length + 1) prev)
    (hcurr : Filled (prefixDistance a b (i + 1)) b.length (j + 1) curr) :
    ∃ curr', fillCell a b (i + 1) prev curr (j + 1) = .ok curr' ∧
      Filled (prefixDistance a b (i + 1)) b.length (j + 2) curr' := by
  obtain ⟨curr', hset, hfilled⟩ := hcurr.setIndex (ε := Empty) hj
  refine ⟨curr', ?_, hfilled⟩
  rw [prefixDistance_succ hi hj] at hset
  simp only [fillCell, Nat.add_sub_cancel, index_of_lt hi, index_of_lt hj,
    hprev.index (show j + 1 < b.length + 1 by omega), hprev.index (show j < b.length + 1 by omega),
    hcurr.index (Nat.lt_succ_self j), Bind.bind, Except.bind]
  exact hset

theorem fillRow_filled (hi : i < a.length)
    (hprev : Filled (prefixDistance a b i) b.length (b.length + 1) prev)
    (hcurr : Filled (prefixDistance a b (i + 1)) b.length 0 curr) :
    ∃ rows, fillRow a b (prev, curr) (i + 1) = .ok rows ∧ rows.2 = prev ∧
      Filled (prefixDistance a b (i + 1)) b.length (b.length + 1) rows.1 := by
  obtain ⟨first, hfirst, hzero⟩ := hcurr.setIndex (ε := Empty) (Nat.zero_le b.length)
  rw [prefixDistance_zero_right hi] at hfirst
  have hcell : ∀ j row, 1 ≤ j → j < 1 + b.length →
      Filled (prefixDistance a b (i + 1)) b.length j row →
      ∃ row', fillCell a b (i + 1) prev row j = .ok row' ∧
        Filled (prefixDistance a b (i + 1)) b.length (j + 1) row' := by
    intro j row hlo hhi hrow
    obtain ⟨j, rfl⟩ : ∃ k, j = k + 1 := ⟨j - 1, by omega⟩
    exact fillCell_filled hi (by omega) hprev hrow
  obtain ⟨row, hrow, hfilled⟩ := foldlM_range' hcell hzero
  rw [Nat.add_comm 1 b.length] at hfilled
  refine ⟨(row, prev), ?_, rfl, hfilled⟩
  simp only [fillRow, hfirst, hrow, Bind.bind, Except.bind]
  rfl

end

/-- The two rows before round `i`: the first is row `i - 1` of the table, and of the second only
the length counts. -/
def RowsAt (a b : List Char) (i : Nat) (rows : List Nat × List Nat) : Prop :=
  Filled (prefixDistance a b (i - 1)) b.length (b.length + 1) rows.1 ∧
    rows.2.length = b.length + 1

theorem fillRow_rowsAt {a b : List Char} {i : Nat} {rows : List Nat × List Nat} (hlo : 1 ≤ i)
    (hhi : i < 1 + a.length) (h : RowsAt a b i rows) :
    ∃ rows', fillRow a b rows i = .ok rows' ∧ RowsAt a b (i + 1) rows' := by
  obtain ⟨i, rfl⟩ : ∃ k, i = k + 1 := ⟨i - 1, by omega⟩
  obtain ⟨hprev, hcurr⟩ := h
  obtain ⟨rows', hrows, hsnd, hfst⟩ := fillRow_filled (show i < a.length by omega) hprev
    ⟨hcurr, fun j hj => by omega⟩
  refine ⟨rows', hrows, hfst, ?_⟩
  rw [hsnd, hprev.length]

theorem initRow_filled (f : Nat → Nat) (n : Nat) (hf : ∀ j ≤ n, f j = j) :
    ∃ row, (List.range' 0 (n + 1)).foldlM (fun prev j => setIndex prev j j)
      (List.replicate (n + 1) 0) = (.ok row : Run Empty (List Nat)) ∧ Filled f n (n + 1) row := by
  have hcell : ∀ j row, 0 ≤ j → j < 0 + (n + 1) → Filled f n j row →
      ∃ row', (setIndex row j j : Run Empty (List Nat)) = .ok row' ∧ Filled f n (j + 1) row' := by
    intro j row _ hhi hrow
    have hset := hrow.setIndex (ε := Empty) (show j ≤ n by omega)
    rw [hf j (by omega)] at hset
    exact hset
  obtain ⟨row, hrow, hfilled⟩ := foldlM_range' hcell
    (show Filled f n 0 (List.replicate (n + 1) 0) from
      ⟨List.length_replicate, fun j hj => by omega⟩)
  rw [Nat.zero_add] at hfilled
  exact ⟨row, hrow, hfilled⟩

theorem levenshteinDistance_eq (a b : String) :
    levenshteinDistance a b = .ok (editDistance a.toList b.toList) := by
  by_cases hm : a.toList.length = 0
  · rw [List.length_eq_zero_iff.mp hm, editDistance_nil_left]
    simp only [levenshteinDistance, hm, if_true]
    rfl
  · by_cases hn : b.toList.length = 0
    · rw [List.length_eq_zero_iff.mp hn, editDistance_nil_right]
      simp only [levenshteinDistance, hm, hn, if_true, if_false]
      rfl
    · obtain ⟨prev, hinit, hprev⟩ := initRow_filled (prefixDistance a.toList b.toList 0)
        b.toList.length fun j => prefixDistance_zero_left
      obtain ⟨rows, hrows, hfst, _⟩ := foldlM_range'
        (fun i rows hlo hhi h => fillRow_rowsAt hlo hhi h)
        (show RowsAt a.toList b.toList 1 (prev, List.replicate (b.toList.length + 1) 0) from
          ⟨hprev, List.length_replicate⟩)
      have hlast : 1 + a.toList.length - 1 = a.toList.length := by omega
      rw [hlast] at hfst
      have hcell := hfst.index (ε := Empty) (Nat.lt_succ_self b.toList.length)
      rw [prefixDistance_length] at hcell
      simp only [levenshteinDistance, hm, hn, if_false, hinit, hrows, Bind.bind, Except.bind]
      exact hcell

example : levenshteinDistance "kitten" "sitting" = .ok 3 := by decide +kernel

theorem levenshteinDistance_comm (a b : String) :
    levenshteinDistance a b = levenshteinDistance b a := by
  rw [levenshteinDistance_eq, levenshteinDistance_eq, editDistance_comm]

theorem levenshteinDistance_eq_zero_iff (a b : String) :
    levenshteinDistance a b = .ok 0 ↔ a = b := by
  rw [levenshteinDistance_eq, Except.ok.injEq, editDistance_eq_zero_iff, String.toList_inj]

/-- What a suggestion promises of the word it names. -/
structure ClosestWord (wordList : List String) (word : String) (maxDistance : Nat) (w : String) :
    Prop where
  listed : w ∈ wordList
  within : editDistance word.toList w.toList ≤ maxDistance
  nearest : ∀ v ∈ wordList, editDistance word.toList w.toList ≤ editDistance word.toList v.toList

/-- The words within the threshold, each with its distance. -/
def candidates (wordList : List String) (word : String) (maxDistance : Nat) : List (String × Nat) :=
  (wordList.map fun w => (w, editDistance word.toList w.toList)).filter fun d => d.2 ≤ maxDistance

theorem mem_candidates {wordList : List String} {word : String} {maxDistance : Nat}
    {d : String × Nat} : d ∈ candidates wordList word maxDistance ↔
      d.1 ∈ wordList ∧ d.2 = editDistance word.toList d.1.toList ∧ d.2 ≤ maxDistance := by
  rw [candidates, List.mem_filter, List.mem_map, decide_eq_true_iff]
  constructor
  · rintro ⟨⟨w, hw, rfl⟩, hle⟩
    exact ⟨hw, rfl, hle⟩
  · rintro ⟨hw, hd, hle⟩
    exact ⟨⟨d.1, hw, by rw [← hd]⟩, hle⟩

theorem mem_candidates_of_le {wordList : List String} {word w : String} {maxDistance : Nat}
    (hw : w ∈ wordList) (hle : editDistance word.toList w.toList ≤ maxDistance) :
    (w, editDistance word.toList w.toList) ∈ candidates wordList word maxDistance :=
  mem_candidates.mpr ⟨hw, rfl, hle⟩

theorem findClosestWord_eq (wordList : List String) (word : String) (maxDistance : Nat) :
    findClosestWord wordList word maxDistance =
      .ok (((candidates wordList (toLowercase word) maxDistance).minOn? fun d => d.2).map
        fun d => d.1) := by
  have hdistances : wordList.mapM (fun w => do
      let d ← levenshteinDistance (toLowercase word) w
      return (w, d)) =
      (.ok (wordList.map fun w => (w, editDistance (toLowercase word).toList w.toList)) :
        Run Empty (List (String × Nat))) := by
    refine mapM_ok fun w _ => ?_
    rw [levenshteinDistance_eq]
    rfl
  simp only [findClosestWord]
  rw [hdistances]
  rfl

theorem findClosestWord_closest (wordList : List String) (word : String) (maxDistance : Nat) :
    ∃ found, findClosestWord wordList word maxDistance = .ok found ∧
      (found = none ↔
        ∀ w ∈ wordList, maxDistance < editDistance (toLowercase word).toList w.toList) ∧
      ∀ w, found = some w → ClosestWord wordList (toLowercase word) maxDistance w := by
  refine ⟨_, findClosestWord_eq wordList word maxDistance, ?_, ?_⟩
  · rw [Option.map_eq_none_iff, ← Option.not_isSome_iff_eq_none, List.isSome_minOn?_iff, not_not,
      List.eq_nil_iff_forall_not_mem]
    constructor
    · intro hnone w hw
      by_contra hle
      exact hnone _ (mem_candidates_of_le hw (Nat.le_of_not_lt hle))
    · intro hfar d hd
      obtain ⟨hw, hdist, hle⟩ := mem_candidates.mp hd
      have := hfar d.1 hw
      omega
  · intro w hw
    obtain ⟨d, hmin, rfl⟩ := Option.map_eq_some_iff.mp hw
    obtain ⟨hlisted, hdist, hle⟩ := mem_candidates.mp (List.minOn?_mem hmin)
    refine ⟨hlisted, by omega, fun v hv => ?_⟩
    by_cases hfar : editDistance (toLowercase word).toList v.toList ≤ maxDistance
    · have hcandidate := List.apply_get_minOn?_le_of_mem (f := fun d : String × Nat => d.2)
        (mem_candidates_of_le hv hfar)
      simp only [hmin, Option.get_some] at hcandidate
      omega
    · omega

/-- The dynamic program computes the recursive distance, which is a metric, and the suggestion is
a nearest word of the list, or none where every word is too far. -/
theorem typo_suggestion :
    (∀ a b, levenshteinDistance a b = .ok (editDistance a.toList b.toList)) ∧
    (∀ a b, levenshteinDistance a b = levenshteinDistance b a) ∧
    (∀ a b, levenshteinDistance a b = .ok 0 ↔ a = b) ∧
    (∀ a b c : String, editDistance a.toList c.toList ≤
      editDistance a.toList b.toList + editDistance b.toList c.toList) ∧
    ∀ wordList word maxDistance, ∃ found, findClosestWord wordList word maxDistance = .ok found ∧
      (found = none ↔
        ∀ w ∈ wordList, maxDistance < editDistance (toLowercase word).toList w.toList) ∧
      ∀ w, found = some w → ClosestWord wordList (toLowercase word) maxDistance w :=
  ⟨levenshteinDistance_eq, levenshteinDistance_comm, levenshteinDistance_eq_zero_iff,
    fun a b c => editDistance_triangle a.toList b.toList c.toList, findClosestWord_closest⟩

end GitCellar
