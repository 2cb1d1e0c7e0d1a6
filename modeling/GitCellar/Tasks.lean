import Mathlib.Data.List.Forall2
import Mathlib.Data.List.Nodup
import Mathlib.Data.List.Range
import Mathlib.Tactic.Common

/-! Jobs that are spawned together, finish in any order and are collected by
position. A job gives its result for a value it draws when it runs. -/

namespace Tasks

variable {Draw α : Type}

def finish (jobs : List (Draw → α)) (slots : List (Option α)) (event : Nat × Draw) :
    List (Option α) :=
  match jobs[event.1]? with
  | none => slots
  | some job => slots.set event.1 (some (job event.2))

/-- The slots after the `events`, none filled before the first. -/
def runTasks (jobs : List (Draw → α)) (events : List (Nat × Draw)) : List (Option α) :=
  events.foldl (finish jobs) (List.replicate jobs.length none)

/-- Each of `n` jobs finishes once, in whatever order. -/
def Completes (events : List (Nat × Draw)) (n : Nat) : Prop :=
  (events.map Prod.fst).Perm (List.range n)

variable {jobs : List (Draw → α)} {slots : List (Option α)} {events : List (Nat × Draw)}

theorem length_finish (event : Nat × Draw) : (finish jobs slots event).length = slots.length := by
  simp only [finish]
  cases jobs[event.1]? with
  | none => rfl
  | some job => exact List.length_set

theorem finish_other {event : Nat × Draw} {i : Nat} (h : i ≠ event.1) :
    (finish jobs slots event)[i]? = slots[i]? := by
  simp only [finish]
  cases jobs[event.1]? with
  | none => rfl
  | some job => exact List.getElem?_set_ne h.symm

theorem finish_own {i : Nat} {job : Draw → α} (hjob : jobs[i]? = some job)
    (hi : i < slots.length) (d : Draw) :
    (finish jobs slots (i, d))[i]? = some (some (job d)) := by
  simp only [finish, hjob]
  exact List.getElem?_set_self hi

theorem length_foldl_finish : (events.foldl (finish jobs) slots).length = slots.length := by
  induction events generalizing slots with
  | nil => rfl
  | cons event events ih =>
    rw [List.foldl_cons, ih]
    exact length_finish event

theorem foldl_finish_other {i : Nat} (h : i ∉ events.map Prod.fst) :
    (events.foldl (finish jobs) slots)[i]? = slots[i]? := by
  induction events generalizing slots with
  | nil => rfl
  | cons event events ih =>
    simp only [List.map_cons, List.mem_cons, not_or] at h
    rw [List.foldl_cons, ih h.2]
    exact finish_other h.1

theorem foldl_finish_own {i : Nat} {d : Draw} {job : Draw → α} (hjob : jobs[i]? = some job)
    (hi : i < slots.length) (hnodup : (events.map Prod.fst).Nodup) (hmem : (i, d) ∈ events) :
    (events.foldl (finish jobs) slots)[i]? = some (some (job d)) := by
  induction events generalizing slots with
  | nil => cases hmem
  | cons event events ih =>
    have hnodup := List.nodup_cons.mp hnodup
    rw [List.foldl_cons]
    rcases List.mem_cons.mp hmem with rfl | hmem
    · rw [foldl_finish_other hnodup.1]
      exact finish_own hjob hi d
    · have hi : i < (finish jobs slots event).length := by
        rw [length_finish]
        exact hi
      exact ih hi hnodup.2 hmem

theorem length_runTasks : (runTasks jobs events).length = jobs.length := by
  rw [runTasks, length_foldl_finish, List.length_replicate]

/-- Whatever the order, each slot holds its own job's result. -/
theorem runTasks_collects (h : Completes events jobs.length) :
    List.Forall₂ (fun job slot => ∃ d, slot = some (job d)) jobs (runTasks jobs events) := by
  refine List.forall₂_iff_get.mpr ⟨length_runTasks.symm, fun i hi hslot => ?_⟩
  have hfst : i ∈ events.map Prod.fst := h.mem_iff.mpr (List.mem_range.mpr hi)
  obtain ⟨⟨j, d⟩, hmem, hj⟩ := List.mem_map.mp hfst
  have hj : j = i := hj
  subst hj
  have hlen : j < (List.replicate jobs.length (none : Option α)).length := by
    rw [List.length_replicate]
    exact hi
  have hnodup : (events.map Prod.fst).Nodup := h.nodup_iff.mpr List.nodup_range
  have hown := foldl_finish_own (List.getElem?_eq_getElem hi) hlen hnodup hmem
  refine ⟨d, ?_⟩
  rw [List.get_eq_getElem]
  exact (List.getElem_eq_iff hslot).mpr hown

theorem runTasks_unit {jobs : List (Unit → α)} {events : List (Nat × Unit)}
    (h : Completes events jobs.length) :
    runTasks jobs events = jobs.map fun job => some (job ()) := by
  have hslots := (runTasks_collects h).flip
  rw [← List.forall₂_eq_eq_eq, List.forall₂_map_right_iff]
  refine hslots.imp fun slot job hslot => ?_
  obtain ⟨_, hslot⟩ := hslot
  exact hslot

end Tasks
