import GitCellar.PackSizes
import GitCellar.RoundUp

/-! The padding ladder on machine integers: where its arithmetic could stop, and
what the step it ends on is. -/

namespace GitCellar

open Loops RoundUp

def u128Max : Nat := 2 ^ 128 - 1

/-- Arithmetic that must fit its type: an overflow panics. -/
def fitted {ε : Type} (limit n : Nat) : Run ε Nat := if n ≤ limit then .ok n else .error .panic

def divided {ε : Type} (n d : Nat) : Run ε Nat := if d = 0 then .error .panic else .ok (n / d)

theorem fitted_of_le {ε : Type} {limit n : Nat} (h : n ≤ limit) :
    (fitted limit n : Run ε Nat) = .ok n := by
  rw [fitted, if_pos h]

theorem divided_of_pos {ε : Type} {n d : Nat} (h : 0 < d) :
    (divided n d : Run ε Nat) = .ok (n / d) := by
  rw [divided, if_neg (Nat.pos_iff_ne_zero.mp h)]

def PadLadder.ofUsize (floor growthNum growthDen : UInt64) : PadLadder :=
  ⟨floor.toNat, growthNum.toNat, growthDen.toNat⟩

/-- One pass of the loop: the product and the quotient in `u128`, the sum in `usize`. -/
def PadLadder.growRun (ladder : PadLadder) (step : Nat) : Run VaultError Nat := do
  let product ← fitted u128Max (step * ladder.growthNum)
  let quotient ← divided product (max ladder.growthDen 1)
  let next := min quotient usizeMax % (usizeMax + 1)
  if step < next then .ok next else fitted usizeMax (step + 1)

def PadLadder.stepFromRun (ladder : PadLadder) (len : Nat) : Nat → Nat → Run VaultError Nat
  | 0, _ => .error .outOfFuel
  | fuel + 1, step =>
    if step < len then do
      let step ← ladder.growRun step
      ladder.stepFromRun len fuel step
    else .ok step

def PadLadder.stepForRun (ladder : PadLadder) (len fuel : Nat) : Run VaultError Nat :=
  ladder.stepFromRun len fuel (max ladder.floor 1)

/-- The sizes a pack can have on this ladder. -/
def PadLadder.sizes (ladder : PadLadder) : Set Nat := Set.range ladder.steps ∩ Set.Iic usizeMax

variable {ladder : PadLadder}

theorem PadLadder.grow_le {step : Nat} (h : step < usizeMax) : ladder.grow step ≤ usizeMax := by
  simp only [PadLadder.grow]
  split <;> omega

theorem PadLadder.growRun_ok {step : Nat} (hnum : ladder.growthNum ≤ usizeMax)
    (h : step < usizeMax) : ladder.growRun step = .ok (ladder.grow step) := by
  have hproduct : step * ladder.growthNum ≤ u128Max := by
    have hle := Nat.mul_le_mul h.le hnum
    have hsquare : usizeMax * usizeMax ≤ u128Max := by decide
    omega
  have hden : 0 < max ladder.growthDen 1 := by omega
  have hcast : min (step * ladder.growthNum / max ladder.growthDen 1) usizeMax % (usizeMax + 1) =
      min (step * ladder.growthNum / max ladder.growthDen 1) usizeMax :=
    Nat.mod_eq_of_lt (by omega)
  simp only [growRun, grow, fitted_of_le hproduct, divided_of_pos hden, fitted_of_le h, hcast,
    Bind.bind, Except.bind]
  split <;> rfl

theorem PadLadder.steps_strictMono (ladder : PadLadder) : StrictMono ladder.steps :=
  strictMono_nat_of_lt_succ fun n => ladder.lt_grow (ladder.steps n)

theorem PadLadder.stepFrom_first {len step n : Nat} (hstep : ladder.steps n = step)
    (hbelow : ∀ m < n, ladder.steps m < len) :
    ∃ k, ladder.stepFrom len step = ladder.steps k ∧ (∀ m < k, ladder.steps m < len) ∧
      len ≤ ladder.steps k := by
  induction step using PadLadder.stepFrom.induct ladder len generalizing n with
  | case1 step hlt ih =>
    rw [stepFrom, if_pos hlt]
    have hnext : ladder.steps (n + 1) = ladder.grow step := congrArg ladder.grow hstep
    apply ih hnext
    intro m hm
    rcases Nat.lt_succ_iff_lt_or_eq.mp hm with hm | rfl
    · exact hbelow m hm
    · rw [hstep]
      exact hlt
  | case2 step hge =>
    rw [stepFrom, if_neg hge]
    refine ⟨n, hstep.symm, hbelow, ?_⟩
    rw [hstep]
    exact Nat.not_lt.mp hge

theorem PadLadder.stepFor_first (ladder : PadLadder) (len : Nat) :
    ∃ k, ladder.stepFor len = ladder.steps k ∧ (∀ m < k, ladder.steps m < len) ∧
      len ≤ ladder.steps k :=
  stepFrom_first rfl fun _ hm => absurd hm (Nat.not_lt_zero _)

theorem PadLadder.stepFrom_le {len step : Nat} (hlen : len ≤ usizeMax) (hstep : step ≤ usizeMax) :
    ladder.stepFrom len step ≤ usizeMax := by
  induction step using PadLadder.stepFrom.induct ladder len with
  | case1 step hlt ih =>
    rw [stepFrom, if_pos hlt]
    exact ih (grow_le (hlt.trans_le hlen))
  | case2 step hge =>
    rw [stepFrom, if_neg hge]
    exact hstep

theorem PadLadder.stepFromRun_returns {len step : Nat} (hnum : ladder.growthNum ≤ usizeMax)
    (hlen : len ≤ usizeMax) :
    Returns (fun fuel => ladder.stepFromRun len fuel step) (ladder.stepFrom len step) := by
  induction step using PadLadder.stepFrom.induct ladder len with
  | case1 step hlt ih =>
    obtain ⟨enough, hrun⟩ := ih
    refine ⟨enough + 1, fun fuel hf => ?_⟩
    obtain ⟨more, rfl⟩ : ∃ more, fuel = more + 1 := ⟨fuel - 1, by omega⟩
    have hgrow := growRun_ok hnum (hlt.trans_le hlen)
    have hrest := hrun more (by omega)
    show ladder.stepFromRun len (more + 1) step = .ok (ladder.stepFrom len step)
    rw [stepFrom, if_pos hlt, stepFromRun, if_pos hlt, hgrow]
    exact hrest
  | case2 step hge =>
    refine ⟨1, fun fuel hf => ?_⟩
    obtain ⟨more, rfl⟩ : ∃ more, fuel = more + 1 := ⟨fuel - 1, by omega⟩
    show ladder.stepFromRun len (more + 1) step = .ok (ladder.stepFrom len step)
    rw [stepFrom, if_neg hge, stepFromRun, if_neg hge]

theorem PadLadder.stepFor_roundsUp {len : Nat} (hfloor : ladder.floor ≤ usizeMax)
    (hlen : len ≤ usizeMax) : RoundsUp ladder.sizes len (ladder.stepFor len) := by
  obtain ⟨k, hk, hbelow, hle⟩ := ladder.stepFor_first len
  have hcap : ladder.steps k ≤ usizeMax := by
    rw [← hk]
    exact stepFrom_le hlen (max_le hfloor (by decide))
  rw [hk]
  exact (RoundsUp.of_first ladder.steps_strictMono hbelow hle).capped hcap

theorem PadLadder.grow_mul_lt {step len : Nat} (hstep : step < len)
    (hden : 1 ≤ ladder.growthDen) (hgrowth : ladder.growthDen < ladder.growthNum) :
    ladder.grow step * ladder.growthDen < len * ladder.growthNum := by
  have hmax : max ladder.growthDen 1 = ladder.growthDen := by omega
  simp only [grow, hmax]
  split
  · have hquotient := Nat.div_mul_le_self (step * ladder.growthNum) ladder.growthDen
    calc min (step * ladder.growthNum / ladder.growthDen) usizeMax * ladder.growthDen
        ≤ step * ladder.growthNum / ladder.growthDen * ladder.growthDen :=
          Nat.mul_le_mul_right _ (min_le_left _ _)
      _ ≤ step * ladder.growthNum := hquotient
      _ < len * ladder.growthNum := Nat.mul_lt_mul_of_pos_right hstep (by omega)
  · calc (step + 1) * ladder.growthDen ≤ len * ladder.growthDen := Nat.mul_le_mul_right _ hstep
      _ < len * ladder.growthNum := Nat.mul_lt_mul_of_pos_left hgrowth (by omega)

theorem PadLadder.stepFor_mul_lt {len : Nat} (hden : 1 ≤ ladder.growthDen)
    (hgrowth : ladder.growthDen < ladder.growthNum) (hlen : max ladder.floor 1 < len) :
    ladder.stepFor len * ladder.growthDen < len * ladder.growthNum := by
  obtain ⟨k, hk, hbelow, hle⟩ := ladder.stepFor_first len
  obtain ⟨p, rfl, hp⟩ := exists_pred_of_first hbelow hle hlen
  rw [hk]
  exact grow_mul_lt hp hden hgrowth

/-- What padding relies on, for contents whose length is a `usize`: the loop ends without
an overflow, at the least size of the ladder that holds the content. -/
structure PadLadder.Pads (ladder : PadLadder) : Prop where
  ascends : ∀ n, ladder.steps n < usizeMax →
    ladder.steps n < ladder.steps (n + 1) ∧ ladder.steps (n + 1) ≤ usizeMax
  returns : ∀ len : UInt64, Returns (ladder.stepForRun len.toNat) (ladder.stepFor len.toNat)
  least : ∀ len : UInt64, RoundsUp ladder.sizes len.toNat (ladder.stepFor len.toNat)
  mono : ∀ len len' : UInt64, len ≤ len' → ladder.stepFor len.toNat ≤ ladder.stepFor len'.toNat
  idempotent : ∀ len : UInt64, ladder.stepFor (ladder.stepFor len.toNat) = ladder.stepFor len.toNat
  overhead : ∀ len : UInt64, 1 ≤ ladder.growthDen → ladder.growthDen < ladder.growthNum →
    max ladder.floor 1 < len.toNat →
    ladder.stepFor len.toNat * ladder.growthDen < len.toNat * ladder.growthNum

theorem stepFor_ladder (floor growthNum growthDen : UInt64) :
    (PadLadder.ofUsize floor growthNum growthDen).Pads := by
  have hword : ∀ w : UInt64, w.toNat ≤ usizeMax := fun w => Nat.le_pred_of_lt w.toNat_lt
  have hround : ∀ len : UInt64,
      RoundsUp (PadLadder.ofUsize floor growthNum growthDen).sizes len.toNat
      ((PadLadder.ofUsize floor growthNum growthDen).stepFor len.toNat) :=
    fun len => PadLadder.stepFor_roundsUp (hword floor) (hword len)
  exact {
    ascends := by
      intro n hn
      exact ⟨PadLadder.steps_strictMono _ (Nat.lt_succ_self n), PadLadder.grow_le hn⟩
    returns := fun len => PadLadder.stepFromRun_returns (hword growthNum) (hword len)
    least := hround
    mono := by
      intro len len' hle
      exact (hround len).mono (hround len') (UInt64.le_iff_toNat_le.mp hle)
    idempotent := by
      intro len
      have hagain : RoundsUp (PadLadder.ofUsize floor growthNum growthDen).sizes _ _ :=
        PadLadder.stepFor_roundsUp (hword floor) (hround len).mem.2
      exact hagain.unique (hround len).self
    overhead := by
      intro len hden hgrowth hlen
      exact PadLadder.stepFor_mul_lt hden hgrowth hlen }

theorem stepFor_ladder_sample : (PadLadder.ofUsize 4 5 4).stepFor 10 * 4 < 10 * 5 :=
  (stepFor_ladder 4 5 4).overhead 10 (by decide) (by decide) (by decide)

end GitCellar
