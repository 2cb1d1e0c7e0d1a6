import Mathlib.Algebra.Order.Ring.Nat
import Mathlib.Data.List.Forall2
import Mathlib.Tactic.Common

/-! Loops that may stop with an error, panic, or never come back. A loop takes
a step budget `fuel`; what it does is read off for all large budgets. -/

namespace Loops

inductive Stop (ε : Type) where
  | error (e : ε)
  | panic
  | outOfFuel
  deriving DecidableEq, Repr

abbrev Run (ε α : Type) := Except (Stop ε) α

variable {ε α β : Type}

def fail (e : ε) : Run ε α := .error (.error e)

theorem of_ite_error {c : Prop} [Decidable c] {e : ε} {r : Except ε α} {a : α}
    (h : (if c then .error e else r) = .ok a) : ¬ c ∧ r = .ok a := by
  by_cases hc : c
  · rw [if_pos hc] at h
    cases h
  · rw [if_neg hc] at h
    exact ⟨hc, h⟩

theorem ite_error_eq_ok_iff {c : Prop} [Decidable c] {e : ε} {r : Except ε α} {a : α} :
    (if c then .error e else r) = .ok a ↔ ¬ c ∧ r = .ok a := by
  constructor
  · exact of_ite_error
  · rintro ⟨hc, hr⟩
    rw [if_neg hc, hr]

theorem mapError_ite_error {δ : Type} {c : Prop} [Decidable c] {e : ε}
    {r : Except ε α} (f : ε → δ) :
    (if c then .error e else r).mapError f = if c then .error (f e) else r.mapError f := by
  by_cases hc : c
  · rw [if_pos hc, if_pos hc]
    rfl
  · rw [if_neg hc, if_neg hc]

theorem bind_eq_ok_iff {r : Except ε α} {next : α → Except ε β} {b : β} :
    r >>= next = .ok b ↔ ∃ a, r = .ok a ∧ next a = .ok b := by
  cases r with
  | error e =>
    constructor
    · intro h
      cases h
    · rintro ⟨a, ha, _⟩
      cases ha
  | ok a =>
    constructor
    · intro h
      exact ⟨a, rfl, h⟩
    · rintro ⟨a', ha, hb⟩
      cases ha
      exact hb

theorem check_bind_eq_ok_iff {r : Except ε Unit} {next : Unit → Except ε β} {b : β} :
    r.bind next = .ok b ↔ r = .ok () ∧ next () = .ok b := by
  have hbind : r.bind next = .ok b ↔ ∃ u, r = .ok u ∧ next u = .ok b := bind_eq_ok_iff
  rw [hbind]
  constructor
  · rintro ⟨u, hr, hnext⟩
    exact ⟨hr, hnext⟩
  · rintro ⟨hr, hnext⟩
    exact ⟨(), hr, hnext⟩

/-- An error value: neither a result, nor a panic, nor an exhausted budget. -/
def Refused (r : Run ε α) : Prop := ∃ e, r = fail e

theorem Refused.ne_ok {r : Run ε α} (h : Refused r) (a : α) : r ≠ .ok a := by
  obtain ⟨e, rfl⟩ := h
  simp [fail]

theorem Refused.bind {r : Run ε α} (h : Refused r) (next : α → Run ε β) :
    Refused (r >>= next) := by
  obtain ⟨e, rfl⟩ := h
  exact ⟨e, rfl⟩

theorem Refused.ite_fail {c : Prop} [Decidable c] {e : ε} {r : Run ε α} (h : ¬ c → Refused r) :
    Refused (if c then fail e else r) := by
  by_cases hc : c
  · rw [if_pos hc]
    exact ⟨e, rfl⟩
  · rw [if_neg hc]
    exact h hc

/-- What code that cannot panic gives. -/
def ofExcept (r : Except ε α) : Run ε α := r.mapError .error

/-- `map_err`: another error value, the same panic. -/
def mapErr {δ : Type} (f : ε → δ) : Run ε α → Run δ α
  | .ok a => .ok a
  | .error (.error e) => fail (f e)
  | .error .panic => .error .panic
  | .error .outOfFuel => .error .outOfFuel

theorem mapErr_eq_ok_iff {δ : Type} {f : ε → δ} {r : Run ε α} {a : α} :
    mapErr f r = .ok a ↔ r = .ok a := by
  rcases r with (e | _ | _) | b
  · simp [mapErr, fail]
  · simp [mapErr]
  · simp [mapErr]
  · simp [mapErr]

theorem Refused.mapErr {δ : Type} {f : ε → δ} {r : Run ε α} (h : Refused r) :
    Refused (mapErr f r) := by
  obtain ⟨e, rfl⟩ := h
  exact ⟨f e, rfl⟩

/-- A result or an error value. -/
def Answers (r : Run ε α) : Prop := (∃ a, r = .ok a) ∨ Refused r

theorem answers_ok (a : α) : Answers (.ok a : Run ε α) := .inl ⟨a, rfl⟩

theorem answers_fail (e : ε) : Answers (fail e : Run ε α) := .inr ⟨e, rfl⟩

theorem Answers.ite_fail {c : Prop} [Decidable c] {e : ε} {r : Run ε α} (h : ¬ c → Answers r) :
    Answers (if c then fail e else r) := by
  by_cases hc : c
  · rw [if_pos hc]
    exact answers_fail e
  · rw [if_neg hc]
    exact h hc

theorem answers_ofExcept (r : Except ε α) : Answers (ofExcept r) := by
  cases r with
  | error e => exact .inr ⟨e, rfl⟩
  | ok a => exact .inl ⟨a, rfl⟩

theorem ofExcept_eq_ok_iff {r : Except ε α} {a : α} : ofExcept r = .ok a ↔ r = .ok a := by
  cases r with
  | error e =>
    constructor
    · intro h
      cases h
    · intro h
      cases h
  | ok b =>
    constructor
    · intro h
      rw [Except.ok.inj h]
    · intro h
      rw [Except.ok.inj h]
      rfl

theorem Answers.mapErr {δ : Type} {f : ε → δ} {r : Run ε α} (h : Answers r) :
    Answers (mapErr f r) := by
  rcases h with ⟨a, rfl⟩ | href
  · exact answers_ok a
  · exact .inr href.mapErr

theorem Answers.bind {r : Run ε α} (h : Answers r) {next : α → Run ε β}
    (hnext : ∀ a, Answers (next a)) : Answers (r >>= next) := by
  rcases h with ⟨a, rfl⟩ | href
  · exact hnext a
  · exact .inr (href.bind next)

theorem not_answers_panic : ¬ Answers (.error .panic : Run ε α) := by
  rintro (⟨a, h⟩ | ⟨e, h⟩)
  · cases h
  · cases h

/-- The loop ends with `a`: every large enough budget gives `a`. -/
def Returns (run : Nat → Run ε α) (a : α) : Prop :=
  ∃ enough, ∀ fuel, enough ≤ fuel → run fuel = .ok a

def Diverges (run : Nat → Run ε α) : Prop :=
  ∀ fuel, run fuel = .error .outOfFuel

theorem Returns.unique {run : Nat → Run ε α} {a b : α}
    (ha : Returns run a) (hb : Returns run b) : a = b := by
  obtain ⟨m, hm⟩ := ha
  obtain ⟨n, hn⟩ := hb
  have h := (hm (max m n) (Nat.le_max_left m n)).symm.trans (hn (max m n) (Nat.le_max_right m n))
  exact Except.ok.inj h

theorem Diverges.not_returns {run : Nat → Run ε α} {a : α}
    (h : Diverges run) : ¬ Returns run a := by
  rintro ⟨n, hn⟩
  have hh := hn n (Nat.le_refl n)
  rw [h n] at hh
  cases hh

theorem Returns.pure (a : α) : Returns (fun _ => (.ok a : Run ε α)) a :=
  ⟨0, fun _ _ => rfl⟩

theorem Returns.bind {run : Nat → Run ε α} {next : α → Nat → Run ε β} {a : α} {b : β}
    (ha : Returns run a) (hb : Returns (next a) b) :
    Returns (fun fuel => run fuel >>= fun x => next x fuel) b := by
  obtain ⟨m, hm⟩ := ha
  obtain ⟨n, hn⟩ := hb
  refine ⟨max m n, fun fuel hf => ?_⟩
  have hr := hm fuel (Nat.le_trans (Nat.le_max_left m n) hf)
  have hh := hn fuel (Nat.le_trans (Nat.le_max_right m n) hf)
  simp only [hr, Bind.bind, Except.bind, hh]

theorem Returns.map {run : Nat → Run ε α} {a : α} (f : α → β)
    (ha : Returns run a) : Returns (fun fuel => f <$> run fuel) (f a) := by
  obtain ⟨m, hm⟩ := ha
  exact ⟨m, fun fuel hf => by simp only [hm fuel hf, Functor.map, Except.map]⟩

theorem Returns.foldlM {σ : Type} (step : Nat → σ → β → Run ε σ) (inv : σ → List β → Prop)
    (hstep : ∀ s done x, inv s done → ∃ t, Returns (fun fuel => step fuel s x) t ∧
      inv t (done ++ [x]))
    (xs : List β) (s : σ) (done : List β) (hs : inv s done) :
    ∃ t, Returns (fun fuel => xs.foldlM (step fuel) s) t ∧ inv t (done ++ xs) := by
  induction xs generalizing s done with
  | nil => exact ⟨s, Returns.pure s, by simpa using hs⟩
  | cons x xs ih =>
    obtain ⟨t, ht, hinv⟩ := hstep s done x hs
    obtain ⟨u, hu, hfin⟩ := ih t (done ++ [x]) hinv
    refine ⟨u, ?_, by simpa using hfin⟩
    simpa only [List.foldlM_cons] using ht.bind hu

theorem forall₂_covers {R : α → β → Prop} {xs : List α} {ys : List β} (h : List.Forall₂ R xs ys) :
    (∀ x ∈ xs, ∃ y ∈ ys, R x y) ∧ ∀ y ∈ ys, ∃ x ∈ xs, R x y := by
  induction h with
  | nil => simp
  | @cons x y xs ys hxy _ ih =>
    obtain ⟨hleft, hright⟩ := ih
    constructor
    · intro z hz
      rcases List.mem_cons.mp hz with rfl | hz
      · exact ⟨y, List.mem_cons_self, hxy⟩
      · obtain ⟨w, hw, hzw⟩ := hleft z hz
        exact ⟨w, List.mem_cons_of_mem y hw, hzw⟩
    · intro z hz
      rcases List.mem_cons.mp hz with rfl | hz
      · exact ⟨x, List.mem_cons_self, hxy⟩
      · obtain ⟨w, hw, hwz⟩ := hright z hz
        exact ⟨w, List.mem_cons_of_mem x hw, hwz⟩

theorem forall₂_trans {γ : Type} {R : α → β → Prop} {S : β → γ → Prop} {xs : List α} {ys : List β}
    {zs : List γ} (hxy : List.Forall₂ R xs ys) (hyz : List.Forall₂ S ys zs) :
    List.Forall₂ (fun x z => ∃ y, R x y ∧ S y z) xs zs := by
  induction hxy generalizing zs with
  | nil =>
    cases hyz
    exact .nil
  | cons hhead _ ih =>
    cases hyz with
    | cons hhead' htail => exact .cons ⟨_, hhead, hhead'⟩ (ih htail)

theorem mapM_eq_ok_iff {f : α → Run ε β} {xs : List α} {ys : List β} :
    xs.mapM f = .ok ys ↔ List.Forall₂ (fun x y => f x = .ok y) xs ys := by
  induction xs generalizing ys with
  | nil =>
    rw [List.mapM_nil, List.forall₂_nil_left_iff]
    constructor
    · intro h
      exact (Except.ok.inj h).symm
    · rintro rfl
      rfl
  | cons x xs ih =>
    rw [List.mapM_cons, bind_eq_ok_iff, List.forall₂_cons_left_iff]
    constructor
    · rintro ⟨y, hy, hrest⟩
      obtain ⟨zs, hzs, hcons⟩ := bind_eq_ok_iff.mp hrest
      exact ⟨y, zs, hy, ih.mp hzs, (Except.ok.inj hcons).symm⟩
    · rintro ⟨y, zs, hy, hzs, rfl⟩
      exact ⟨y, hy, bind_eq_ok_iff.mpr ⟨zs, ih.mpr hzs, rfl⟩⟩

theorem mapM_answers {f : α → Run ε β} {xs : List α}
    (h : ∀ x ∈ xs, (∃ y, f x = .ok y) ∨ Refused (f x)) :
    (∃ ys, xs.mapM f = .ok ys ∧ List.Forall₂ (fun x y => f x = .ok y) xs ys) ∨
      (Refused (xs.mapM f) ∧ ∃ x ∈ xs, Refused (f x)) := by
  induction xs with
  | nil => exact .inl ⟨[], rfl, .nil⟩
  | cons x xs ih =>
    rw [List.mapM_cons]
    rcases h x List.mem_cons_self with ⟨y, hy⟩ | href
    · rcases ih fun z hz => h z (List.mem_cons_of_mem x hz) with ⟨ys, hys, hall⟩ |
        ⟨⟨e, he⟩, z, hz, hzref⟩
      · refine .inl ⟨y :: ys, ?_, .cons hy hall⟩
        rw [hy, hys]
        rfl
      · refine .inr ⟨⟨e, ?_⟩, z, List.mem_cons_of_mem x hz, hzref⟩
        rw [hy, he]
        rfl
    · exact .inr ⟨href.bind _, x, List.mem_cons_self, href⟩

theorem Answers.mapM {f : α → Run ε β} {xs : List α} (h : ∀ x ∈ xs, Answers (f x)) :
    Answers (xs.mapM f) := by
  rcases mapM_answers h with ⟨ys, hys, _⟩ | ⟨href, _⟩
  · exact .inl ⟨ys, hys⟩
  · exact .inr href

theorem mapM_returns {f : α → Run ε β} {xs : List α} (h : ∀ x ∈ xs, ∃ y, f x = .ok y) :
    ∃ ys, xs.mapM f = .ok ys ∧ List.Forall₂ (fun x y => f x = .ok y) xs ys := by
  rcases mapM_answers fun x hx => .inl (h x hx) with hok | ⟨_, x, hx, href⟩
  · exact hok
  · obtain ⟨y, hy⟩ := h x hx
    exact absurd hy (href.ne_ok y)

theorem mapM_ok {f : α → Run ε β} {g : α → β} {xs : List α} (h : ∀ x ∈ xs, f x = .ok (g x)) :
    xs.mapM f = .ok (xs.map g) := by
  rw [mapM_eq_ok_iff, List.forall₂_map_right_iff]
  exact List.forall₂_same.mpr h

/-- A counted loop whose rounds keep an invariant runs to its end. -/
theorem foldlM_range' {σ : Type} {step : σ → Nat → Run ε σ} {inv : Nat → σ → Prop} {start len : Nat}
    (hstep : ∀ i s, start ≤ i → i < start + len → inv i s → ∃ t, step s i = .ok t ∧ inv (i + 1) t)
    {s : σ} (hs : inv start s) :
    ∃ t, (List.range' start len).foldlM step s = .ok t ∧ inv (start + len) t := by
  induction len generalizing start s with
  | zero => exact ⟨s, rfl, hs⟩
  | succ len ih =>
    obtain ⟨t, ht, hinv⟩ := hstep start s (by omega) (by omega) hs
    obtain ⟨u, hu, hfin⟩ := ih (fun i s hlo hhi => hstep i s (by omega) (by omega)) hinv
    rw [Nat.add_right_comm, Nat.add_assoc] at hfin
    refine ⟨u, ?_, hfin⟩
    rw [List.range'_succ, List.foldlM_cons, ht]
    exact hu

end Loops
