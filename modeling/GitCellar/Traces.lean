import Mathlib.Algebra.Order.Ring.Nat
import Mathlib.Tactic.Common

/-! Runs of a step function, each step recorded with the states around it. -/

namespace Traces

structure Entry (σ α β : Type) where
  before : σ
  input : α
  output : β
  after : σ

variable {σ α β : Type} {step : σ → α → β × σ}

def trace (step : σ → α → β × σ) : σ → List α → List (Entry σ α β)
  | _, [] => []
  | s, x :: xs => ⟨s, x, (step s x).1, (step s x).2⟩ :: trace step (step s x).2 xs

def final (step : σ → α → β × σ) (s : σ) (xs : List α) : σ := xs.foldl (fun t x => (step t x).2) s

theorem mem_trace {s : σ} {xs : List α} {e : Entry σ α β} (he : e ∈ trace step s xs) :
    e.input ∈ xs ∧ step e.before e.input = (e.output, e.after) := by
  induction xs generalizing s with
  | nil => cases he
  | cons x xs ih =>
    rcases List.mem_cons.mp he with rfl | he
    · exact ⟨List.mem_cons_self, rfl⟩
    · obtain ⟨hinput, hstep⟩ := ih he
      exact ⟨List.mem_cons_of_mem x hinput, hstep⟩

theorem trace_reaches {R : σ → σ → Prop} (hrefl : ∀ s, R s s)
    (htrans : ∀ s t u, R s t → R t u → R s u) (hstep : ∀ s x, R s (step s x).2)
    {s : σ} {xs : List α} {e : Entry σ α β} (he : e ∈ trace step s xs) : R s e.before := by
  induction xs generalizing s with
  | nil => cases he
  | cons x xs ih =>
    rcases List.mem_cons.mp he with rfl | he
    · exact hrefl s
    · exact htrans s _ _ (hstep s x) (ih he)

theorem trace_pairwise {R : σ → σ → Prop} (hrefl : ∀ s, R s s)
    (htrans : ∀ s t u, R s t → R t u → R s u) (hstep : ∀ s x, R s (step s x).2)
    (s : σ) (xs : List α) : (trace step s xs).Pairwise fun e f => R e.after f.before := by
  induction xs generalizing s with
  | nil => exact .nil
  | cons x xs ih =>
    apply List.Pairwise.cons _ (ih _)
    intro f hf
    exact trace_reaches hrefl htrans hstep hf

/-- An invariant kept by the steps that meet a condition holds throughout a run
whose steps all meet it. -/
theorem trace_invariant {inv : σ → Prop} {meets : σ → α → Prop}
    (hstep : ∀ s x, meets s x → inv s → inv (step s x).2) {s : σ} {xs : List α} (hs : inv s)
    (hmeets : ∀ e ∈ trace step s xs, meets e.before e.input) :
    (∀ e ∈ trace step s xs, inv e.before ∧ inv e.after) ∧ inv (final step s xs) := by
  induction xs generalizing s with
  | nil => exact ⟨fun e he => absurd he List.not_mem_nil, hs⟩
  | cons x xs ih =>
    have hnext := hstep s x (hmeets _ List.mem_cons_self) hs
    obtain ⟨hrest, hfinal⟩ := ih hnext fun e he => hmeets e (List.mem_cons_of_mem _ he)
    refine ⟨?_, hfinal⟩
    intro e he
    rcases List.mem_cons.mp he with rfl | he
    · exact ⟨hs, hnext⟩
    · exact hrest e he

theorem final_invariant {inv : σ → Prop} (hstep : ∀ s x, inv s → inv (step s x).2) {s : σ}
    {xs : List α} (hs : inv s) : inv (final step s xs) := by
  induction xs generalizing s with
  | nil => exact hs
  | cons x xs ih => exact ih (hstep s x hs)

/-- What a step establishes and every step keeps holds at the end of the run. -/
theorem final_of_mem_trace {inv : σ → Prop} (hstep : ∀ s x, inv s → inv (step s x).2) {s : σ}
    {xs : List α} {e : Entry σ α β} (he : e ∈ trace step s xs) (hinv : inv e.after) :
    inv (final step s xs) := by
  induction xs generalizing s with
  | nil => cases he
  | cons x xs ih =>
    rcases List.mem_cons.mp he with rfl | he
    · show inv (final step (step s x).2 xs)
      exact final_invariant hstep hinv
    · exact ih he

end Traces
