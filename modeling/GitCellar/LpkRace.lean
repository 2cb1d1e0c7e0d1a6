import GitCellar.Keywrap
import GitCellar.Traces
import Mathlib.Logic.Function.Basic

/-! Concurrent sealing calls of `resolve_lpk`, one store or marker operation at a
time. The read-back does not make the calls converge: a call that has not yet
written replaces a key another call has already returned. -/

namespace GitCellar

open Traces

/-- Where a call stands between two operations. -/
inductive CallState where
  | start
  | found (key : Bytes32)
  | backfill (key : Bytes32)
  | absent
  | mint
  | minted
  | record (key : Bytes32)
  | done (result : Except PasskeyError Bytes32)
  deriving DecidableEq

section

variable (base64Error : String → String) (markerPath : String)

def stepCall (mode : LpkMode) (fresh : Bytes32) (h : Host) : CallState → Host × CallState
  | .start =>
    match h.store with
    | some b64 =>
      match decodeLpk base64Error b64 with
      | .error e => (h, .done (.error e))
      | .ok key => (h, .found key)
    | none =>
      match mode with
      | .opening => (h, .done (.error missingOnOpen))
      | .sealing => (h, .absent)
      | .remint => (h, .mint)
  | .found key => if h.marker then (h, .done (.ok key)) else (h, .backfill key)
  | .backfill key => ({ h with marker := true }, .done (.ok key))
  | .absent => if h.marker then (h, .done (.error (missingOnSeal markerPath))) else (h, .mint)
  | .mint => ({ h with store := some (encodeLpk fresh) }, .minted)
  | .minted =>
    match h.store with
    | some b64 =>
      match decodeLpk base64Error b64 with
      | .error e => (h, .done (.error e))
      | .ok key => (h, .record key)
    | none => (h, .record fresh)
  | .record key => ({ h with marker := true }, .done (.ok key))
  | .done result => (h, .done result)

def callAlone (mode : LpkMode) (fresh : Bytes32) : Nat → Host × CallState → Host × CallState
  | 0, s => s
  | n + 1, s => callAlone mode fresh n (stepCall base64Error markerPath mode fresh s.1 s.2)

theorem callAlone_resolveLpk (mode : LpkMode) (fresh : Bytes32) (h : Host) :
    callAlone base64Error markerPath mode fresh 5 (h, .start) =
      ((resolveLpk base64Error markerPath mode fresh noFaults h).host,
        .done (resolveLpk base64Error markerPath mode fresh noFaults h).result) := by
  obtain ⟨store, marker⟩ := h
  cases store with
  | some b64 =>
    cases hdecode : decodeLpk base64Error b64 with
    | error e => simp only [callAlone, stepCall, resolveLpk, noFaults, hdecode]
    | ok key =>
      cases marker <;>
        simp only [callAlone, stepCall, resolveLpk, noFaults, hdecode, writeMintedMarker,
          Bool.false_eq_true, if_false, if_true]
  | none =>
    cases mode with
    | opening => simp only [callAlone, stepCall, resolveLpk, noFaults]
    | sealing =>
      cases marker <;>
        simp only [callAlone, stepCall, resolveLpk, noFaults, mintLpk, decodeLpk_encodeLpk,
          writeMintedMarker, Bool.false_eq_true, if_false, if_true]
    | remint =>
      simp only [callAlone, stepCall, resolveLpk, noFaults, mintLpk, decodeLpk_encodeLpk,
        writeMintedMarker, Bool.false_eq_true, if_false]

end

/-- The host and every call, by process. -/
structure Race (Proc : Type) where
  host : Host
  calls : Proc → CallState

section

variable {Proc : Type} [DecidableEq Proc]

def raceStart : Race Proc := ⟨⟨none, false⟩, fun _ => .start⟩

variable (base64Error : String → String) (markerPath : String) (fresh : Proc → Bytes32)

def raceStep (w : Race Proc) (i : Proc) : Unit × Race Proc :=
  let next := stepCall base64Error markerPath .sealing (fresh i) w.host (w.calls i)
  ((), ⟨next.1, Function.update w.calls i next.2⟩)

def raceRun (schedule : List Proc) : List (Entry (Race Proc) Proc Unit) :=
  trace (raceStep base64Error markerPath fresh) raceStart schedule

def raceEnd (schedule : List Proc) : Race Proc :=
  final (raceStep base64Error markerPath fresh) raceStart schedule

end

/-- Every key a call has returned is the one the store holds; so the calls agree. -/
structure Converged {Proc : Type} (w : Race Proc) : Prop where
  agree : ∀ i j k l, w.calls i = .done (.ok k) → w.calls j = .done (.ok l) → k = l
  held : ∀ i k, w.calls i = .done (.ok k) → w.host.store = some (encodeLpk k)

def CallState.adopted : CallState → Option Bytes32
  | .found key => some key
  | .backfill key => some key
  | .record key => some key
  | .done (.ok key) => some key
  | _ => none

/-- The step is not a write that comes after some call has adopted a key. -/
def WritesFirst {Proc : Type} (w : Race Proc) (i : Proc) : Prop :=
  w.calls i = .mint → ∀ j, (w.calls j).adopted = none

section

variable {base64Error : String → String} {markerPath : String}

/-- Only the minting step writes, and only it leads to the read-back. -/
theorem stepCall_not_mint (base64Error : String → String) (markerPath : String) (fresh : Bytes32)
    (h : Host) {c : CallState} (hc : c ≠ .mint) :
    (stepCall base64Error markerPath .sealing fresh h c).1.store = h.store ∧
      (stepCall base64Error markerPath .sealing fresh h c).2 ≠ .minted := by
  cases c with
  | mint => exact absurd rfl hc
  | start =>
    cases hstore : h.store with
    | none => simp [stepCall, hstore]
    | some b64 => cases hdecode : decodeLpk base64Error b64 <;> simp [stepCall, hstore, hdecode]
  | minted =>
    cases hstore : h.store with
    | none => simp [stepCall, hstore]
    | some b64 => cases hdecode : decodeLpk base64Error b64 <;> simp [stepCall, hstore, hdecode]
  | found key => cases hmarker : h.marker <;> simp [stepCall, hmarker]
  | absent => cases hmarker : h.marker <;> simp [stepCall, hmarker]
  | backfill key => simp [stepCall]
  | record key => simp [stepCall]
  | done result => simp [stepCall]

/-- A call adopts what the store holds, or keeps what it has adopted. -/
theorem stepCall_adopted {fresh k : Bytes32} {h : Host} {c : CallState}
    (hminted : c = .minted → h.store ≠ none)
    (hk : (stepCall base64Error markerPath .sealing fresh h c).2.adopted = some k) :
    c.adopted = some k ∨ ∃ b64, h.store = some b64 ∧ decodeLpk base64Error b64 = .ok k := by
  cases c with
  | start =>
    cases hstore : h.store with
    | none =>
      simp only [stepCall, hstore] at hk
      cases hk
    | some b64 =>
      cases hdecode : decodeLpk base64Error b64 with
      | error e =>
        simp only [stepCall, hstore, hdecode] at hk
        cases hk
      | ok key =>
        simp only [stepCall, hstore, hdecode] at hk
        exact .inr ⟨b64, rfl, by rw [hdecode, Option.some.inj hk]⟩
  | minted =>
    cases hstore : h.store with
    | none => exact absurd hstore (hminted rfl)
    | some b64 =>
      cases hdecode : decodeLpk base64Error b64 with
      | error e =>
        simp only [stepCall, hstore, hdecode] at hk
        cases hk
      | ok key =>
        simp only [stepCall, hstore, hdecode] at hk
        exact .inr ⟨b64, rfl, by rw [hdecode, Option.some.inj hk]⟩
  | found key =>
    cases hmarker : h.marker <;>
      simp only [stepCall, hmarker, Bool.false_eq_true, if_false, if_true] at hk
    · exact .inl hk
    · exact .inl hk
  | absent =>
    cases hmarker : h.marker <;>
      simp only [stepCall, hmarker, Bool.false_eq_true, if_false, if_true] at hk
    · cases hk
    · cases hk
  | mint => cases hk
  | backfill key => exact .inl hk
  | record key => exact .inl hk
  | done result => exact .inl hk

def CallState.Past (c : CallState) : Prop := c ≠ .start ∧ c ≠ .absent ∧ c ≠ .mint

theorem stepCall_past (base64Error : String → String) (markerPath : String) (fresh : Bytes32)
    (h : Host) {c : CallState} (hc : c.Past) :
    (stepCall base64Error markerPath .sealing fresh h c).2.Past := by
  obtain ⟨hstart, habsent, hmint⟩ := hc
  cases c with
  | start => exact absurd rfl hstart
  | absent => exact absurd rfl habsent
  | mint => exact absurd rfl hmint
  | minted =>
    cases hstore : h.store with
    | none => simp [stepCall, hstore, CallState.Past]
    | some b64 =>
      cases hdecode : decodeLpk base64Error b64 <;> simp [stepCall, hstore, hdecode, CallState.Past]
  | found key => cases hmarker : h.marker <;> simp [stepCall, hmarker, CallState.Past]
  | backfill key => simp [stepCall, CallState.Past]
  | record key => simp [stepCall, CallState.Past]
  | done result => simp [stepCall, CallState.Past]

theorem stepCall_keeps (base64Error : String → String) (markerPath : String) (fresh : Bytes32)
    (h : Host) {c : CallState} {k : Bytes32} (hk : c.adopted = some k) :
    (stepCall base64Error markerPath .sealing fresh h c).2.adopted = some k := by
  cases c with
  | found key =>
    cases hmarker : h.marker <;>
      simp only [stepCall, hmarker, Bool.false_eq_true, if_false, if_true]
    · exact hk
    · exact hk
  | backfill key => exact hk
  | record key => exact hk
  | done result => exact hk
  | start => cases hk
  | absent => cases hk
  | mint => cases hk
  | minted => cases hk

variable {Proc : Type} {fresh : Proc → Bytes32}

/-- In every run: what is stored or adopted was minted by a call that will not
write again. -/
structure Minted (fresh : Proc → Bytes32) (w : Race Proc) : Prop where
  written : ∀ i, w.calls i = .minted → w.host.store ≠ none
  stored : ∀ b64, w.host.store = some b64 → ∃ m, b64 = encodeLpk (fresh m) ∧ (w.calls m).Past
  adopted : ∀ i k, (w.calls i).adopted = some k → ∃ m, k = fresh m ∧ (w.calls m).Past

def Held (w : Race Proc) : Prop :=
  ∀ i k, (w.calls i).adopted = some k → w.host.store = some (encodeLpk k)

theorem Held.converged {w : Race Proc} (hheld : Held w) : Converged w := by
  have hdone : ∀ i k, w.calls i = .done (.ok k) → w.host.store = some (encodeLpk k) := by
    intro i k h
    exact hheld i k (by rw [h]; rfl)
  refine ⟨?_, hdone⟩
  intro i j k l hk hl
  have hsame := (hdone i k hk).symm.trans (hdone j l hl)
  exact encodeLpk_injective (Option.some.inj hsame)

theorem raceStart_minted : Minted fresh raceStart where
  written _ h := nomatch h
  stored _ h := nomatch h
  adopted _ _ h := nomatch h

theorem raceStart_held : Held (raceStart : Race Proc) := fun _ _ h => nomatch h

variable [DecidableEq Proc]

theorem raceStep_mint {w : Race Proc} {i : Proc} (hc : w.calls i = .mint) :
    (raceStep base64Error markerPath fresh w i).2 =
      ⟨{ w.host with store := some (encodeLpk (fresh i)) }, Function.update w.calls i .minted⟩ := by
  rw [raceStep, hc]
  rfl

theorem raceStep_store {w : Race Proc} {i : Proc} (hc : w.calls i ≠ .mint) :
    (raceStep base64Error markerPath fresh w i).2.host.store = w.host.store :=
  (stepCall_not_mint base64Error markerPath (fresh i) w.host hc).1

theorem raceStep_past {w : Race Proc} {i m : Proc} (hm : (w.calls m).Past) :
    ((raceStep base64Error markerPath fresh w i).2.calls m).Past := by
  by_cases hmi : m = i
  · subst hmi
    simp only [raceStep, Function.update_self]
    exact stepCall_past base64Error markerPath (fresh m) w.host hm
  · simp only [raceStep, Function.update_of_ne hmi]
    exact hm

theorem raceStep_keeps {w : Race Proc} {i j : Proc} {k : Bytes32}
    (hk : (w.calls j).adopted = some k) :
    ((raceStep base64Error markerPath fresh w i).2.calls j).adopted = some k := by
  by_cases hji : j = i
  · subst hji
    simp only [raceStep, Function.update_self]
    exact stepCall_keeps base64Error markerPath (fresh j) w.host hk
  · simp only [raceStep, Function.update_of_ne hji]
    exact hk

theorem raceStep_adopted {w : Race Proc} {i j : Proc} {k : Bytes32} (hinv : Minted fresh w)
    (hk : ((raceStep base64Error markerPath fresh w i).2.calls j).adopted = some k) :
    (w.calls j).adopted = some k ∨ w.host.store = some (encodeLpk k) := by
  by_cases hji : j = i
  · subst hji
    simp only [raceStep, Function.update_self] at hk
    rcases stepCall_adopted (hinv.written j) hk with hold | ⟨b64, hb64, hdecode⟩
    · exact .inl hold
    · obtain ⟨m, rfl, _⟩ := hinv.stored b64 hb64
      rw [decodeLpk_encodeLpk] at hdecode
      exact .inr (by rw [hb64, Except.ok.inj hdecode])
  · simp only [raceStep, Function.update_of_ne hji] at hk
    exact .inl hk

theorem raceStep_minted {w : Race Proc} {i : Proc} (hinv : Minted fresh w) :
    Minted fresh (raceStep base64Error markerPath fresh w i).2 := by
  have hadopted : ∀ j k, ((raceStep base64Error markerPath fresh w i).2.calls j).adopted = some k →
      ∃ m, k = fresh m ∧ ((raceStep base64Error markerPath fresh w i).2.calls m).Past := by
    intro j k hk
    rcases raceStep_adopted hinv hk with hold | hstore
    · obtain ⟨m, hm, hpast⟩ := hinv.adopted j k hold
      exact ⟨m, hm, raceStep_past hpast⟩
    · obtain ⟨m, hm, hpast⟩ := hinv.stored _ hstore
      exact ⟨m, encodeLpk_injective hm, raceStep_past hpast⟩
  by_cases hc : w.calls i = .mint
  · refine ⟨?_, ?_, hadopted⟩
    · intro j _ hnone
      rw [raceStep_mint hc] at hnone
      cases hnone
    · intro b64 hstore
      rw [raceStep_mint hc] at hstore ⊢
      refine ⟨i, (Option.some.inj hstore).symm, ?_⟩
      simp [CallState.Past]
  · refine ⟨?_, ?_, hadopted⟩
    · intro j hj
      rw [raceStep_store hc]
      by_cases hji : j = i
      · subst hji
        simp only [raceStep, Function.update_self] at hj
        exact absurd hj (stepCall_not_mint base64Error markerPath (fresh j) w.host hc).2
      · simp only [raceStep, Function.update_of_ne hji] at hj
        exact hinv.written j hj
    · intro b64 hstore
      rw [raceStep_store hc] at hstore
      obtain ⟨m, hm, hpast⟩ := hinv.stored b64 hstore
      exact ⟨m, hm, raceStep_past hpast⟩

theorem raceStep_held {w : Race Proc} {i : Proc} (hw : WritesFirst w i) (hinv : Minted fresh w)
    (hheld : Held w) : Held (raceStep base64Error markerPath fresh w i).2 := by
  intro j k hk
  by_cases hc : w.calls i = .mint
  · rw [raceStep_mint hc] at hk
    by_cases hji : j = i
    · simp only [hji, Function.update_self] at hk
      cases hk
    · simp only [Function.update_of_ne hji] at hk
      rw [hw hc j] at hk
      cases hk
  · rw [raceStep_store hc]
    rcases raceStep_adopted hinv hk with hold | hstore
    · exact hheld j k hold
    · exact hstore

/-- A key some call has adopted and the store no longer holds. -/
structure Orphaned (fresh : Proc → Bytes32) (k : Bytes32) (j : Proc) (w : Race Proc) : Prop where
  adopted : (w.calls j).adopted = some k
  owner : ∃ m, k = fresh m ∧ (w.calls m).Past
  lost : w.host.store ≠ some (encodeLpk k)

theorem raceStep_lost {w : Race Proc} {i : Proc} {k : Bytes32} (hfresh : Function.Injective fresh)
    (howner : ∃ m, k = fresh m ∧ (w.calls m).Past) (hc : w.calls i = .mint) :
    (raceStep base64Error markerPath fresh w i).2.host.store ≠ some (encodeLpk k) := by
  obtain ⟨m, rfl, hpast⟩ := howner
  rw [raceStep_mint hc]
  intro hstore
  have him := hfresh (encodeLpk_injective (Option.some.inj hstore))
  rw [← him] at hpast
  exact hpast.2.2 hc

theorem raceStep_orphaned {w : Race Proc} {i j : Proc} {k : Bytes32}
    (hfresh : Function.Injective fresh) (ho : Orphaned fresh k j w) :
    Orphaned fresh k j (raceStep base64Error markerPath fresh w i).2 := by
  obtain ⟨m, hm, hpast⟩ := ho.owner
  refine ⟨raceStep_keeps ho.adopted, ⟨m, hm, raceStep_past hpast⟩, ?_⟩
  by_cases hc : w.calls i = .mint
  · exact raceStep_lost hfresh ho.owner hc
  · rw [raceStep_store hc]
    exact ho.lost

/-- In every interleaving in which no call writes its key once another has
adopted one, the calls converge, in every state on the way. With distinct random
keys, no other interleaving of calls that all come to an end does. -/
theorem race_converges (base64Error : String → String) (markerPath : String)
    (fresh : Proc → Bytes32) (schedule : List Proc) :
    ((∀ e ∈ raceRun base64Error markerPath fresh schedule, WritesFirst e.before e.input) →
      (∀ e ∈ raceRun base64Error markerPath fresh schedule, Converged e.before ∧
        Converged e.after) ∧
        Converged (raceEnd base64Error markerPath fresh schedule)) ∧
    (Function.Injective fresh →
      (∀ i, ∃ r, (raceEnd base64Error markerPath fresh schedule).calls i = .done r) →
      Converged (raceEnd base64Error markerPath fresh schedule) →
      ∀ e ∈ raceRun base64Error markerPath fresh schedule, WritesFirst e.before e.input) := by
  constructor
  · intro hwrites
    have hstart : Minted fresh (raceStart : Race Proc) ∧ Held (raceStart : Race Proc) :=
      ⟨raceStart_minted, raceStart_held⟩
    obtain ⟨hrun, hend⟩ := trace_invariant
      (fun w i (hw : WritesFirst w i) (hinv : Minted fresh w ∧ Held w) =>
        ⟨raceStep_minted hinv.1, raceStep_held hw hinv.1 hinv.2⟩) hstart hwrites
    refine ⟨?_, hend.2.converged⟩
    intro e he
    obtain ⟨hbefore, hafter⟩ := hrun e he
    exact ⟨hbefore.2.converged, hafter.2.converged⟩
  · intro hfresh hdone hconverged e he hc j
    cases hk : (e.before.calls j).adopted with
    | none => rfl
    | some k =>
      have hminted := (trace_invariant (fun w i (_ : True) hinv => raceStep_minted hinv)
        raceStart_minted (fun _ _ => trivial)).1 e he
      have hafter : e.after = (raceStep base64Error markerPath fresh e.before e.input).2 := by
        rw [(mem_trace he).2]
      have howner := hminted.1.adopted j k hk
      have horphaned : Orphaned fresh k j e.after := by
        rw [hafter]
        obtain ⟨m, hm, hpast⟩ := howner
        exact ⟨raceStep_keeps hk, ⟨m, hm, raceStep_past hpast⟩,
          raceStep_lost hfresh ⟨m, hm, hpast⟩ hc⟩
      have hend : Orphaned fresh k j (raceEnd base64Error markerPath fresh schedule) :=
        final_of_mem_trace (fun w i ho => raceStep_orphaned hfresh ho) he horphaned
      obtain ⟨r, hr⟩ := hdone j
      have hadopted := hend.adopted
      rw [hr] at hadopted
      cases r with
      | error error => cases hadopted
      | ok l =>
        obtain rfl := Option.some.inj hadopted
        exact absurd (hconverged.held j l hr) hend.lost

end

def zeroKey : Bytes32 := filled 0

def oneKey : Bytes32 := filled 1

def twoKeys (i : Fin 2) : Bytes32 := if i = 0 then zeroKey else oneKey

theorem race_converges_sample :
    Converged (raceEnd (fun _ => "") "lpk-v1.minted" twoKeys [0, 0, 0, 0, 0, 1, 1]) ∧
    ∀ e ∈ raceRun (fun _ => "") "lpk-v1.minted" twoKeys [0, 0, 0, 0, 0, 1, 1],
      WritesFirst e.before e.input := by
  have hexact := race_converges (fun _ => "") "lpk-v1.minted" twoKeys [0, 0, 0, 0, 0, 1, 1]
  have hconverged : Converged
      (raceEnd (fun _ => "") "lpk-v1.minted" twoKeys [0, 0, 0, 0, 0, 1, 1]) := by
    apply (hexact.1 _).2
    unfold WritesFirst
    decide +kernel
  have hdistinct : ∀ i j, twoKeys i = twoKeys j → i = j := by
    decide +kernel
  refine ⟨hconverged, hexact.2 (fun i j => hdistinct i j) ?_ hconverged⟩
  have hended : ∀ i : Fin 2,
      (raceEnd (fun _ => "") "lpk-v1.minted" twoKeys [0, 0, 0, 0, 0, 1, 1]).calls i =
      .done (.ok zeroKey) := by
    decide +kernel
  exact fun i => ⟨.ok zeroKey, hended i⟩

/-- Both calls find nothing; the first mints and returns before the second writes. -/
theorem race_diverges_sample :
    ¬ Converged (raceEnd (fun _ => "") "lpk-v1.minted" twoKeys [0, 1, 0, 1, 0, 0, 0, 1, 1, 1]) := by
  intro hrace
  have hfirst : (raceEnd (fun _ => "") "lpk-v1.minted" twoKeys [0, 1, 0, 1, 0, 0, 0, 1, 1, 1]).calls
      0 =
      .done (.ok zeroKey) := by decide +kernel
  have hsecond :
      (raceEnd (fun _ => "") "lpk-v1.minted" twoKeys [0, 1, 0, 1, 0, 0, 0, 1, 1, 1]).calls 1 =
      .done (.ok oneKey) := by decide +kernel
  have hkeys := hrace.agree 0 1 zeroKey oneKey hfirst hsecond
  exact absurd hkeys (by decide)

end GitCellar
