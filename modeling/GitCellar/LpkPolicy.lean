import GitCellar.Keywrap
import GitCellar.Traces

/-! The mint policy over sequential runs: calls in any mode, each with its own
faults, wipes of the store and replacements of its entry in between. -/

namespace GitCellar

open Traces

inductive LpkEvent where
  | call (mode : LpkMode) (fresh : Bytes32) (faults : Faults)
  | wipe
  | replace (entry : String)

section

variable (base64Error : String → String) (markerPath : String)

def lpkStep (h : Host) : LpkEvent → Option CallOutcome × Host
  | .call mode fresh faults =>
    let outcome := resolveLpk base64Error markerPath mode fresh faults h
    (some outcome, outcome.host)
  | .wipe => (none, { h with store := none })
  | .replace entry => (none, { h with store := some entry })

def lpkRun (h : Host) (events : List LpkEvent) : List (Entry Host LpkEvent (Option CallOutcome)) :=
  trace (lpkStep base64Error markerPath) h events

end

def LpkEvent.Quiet : LpkEvent → Prop
  | .call mode _ _ => mode ≠ .remint
  | .wipe => True
  | .replace _ => False

def KeyMissing (result : Except PasskeyError Bytes32) : Prop :=
  ∃ rest, result = .error (.credentialStore (lpkMissingMarker ++ rest))

/-- The marker is on disk and the store holds this key or nothing. -/
def Guards (base64Error : String → String) (key : Bytes32) (h : Host) : Prop :=
  h.marker = true ∧ ∀ b64, h.store = some b64 → decodeLpk base64Error b64 = .ok key

def Wiped (h : Host) : Prop := h.marker = true ∧ h.store = none

section

variable {base64Error : String → String} {markerPath : String}

theorem missingOnOpen_keyMissing : KeyMissing (.error missingOnOpen) := ⟨_, rfl⟩

theorem missingOnSeal_keyMissing (markerPath : String) :
    KeyMissing (.error (missingOnSeal markerPath)) := ⟨_, rfl⟩

theorem resolveLpk_wiped (base64Error : String → String) (markerPath : String) (fresh : Bytes32)
    {mode : LpkMode} {faults : Faults} {h : Host}
    (hmode : mode ≠ .remint) (hw : Wiped h) (hget : faults.get = none) :
    ∃ e, resolveLpk base64Error markerPath mode fresh faults h = ⟨.error e, h, []⟩ ∧
      KeyMissing (.error e) := by
  obtain ⟨hmarker, hstore⟩ := hw
  cases mode with
  | opening => exact ⟨_, resolveLpk_open hget hstore, missingOnOpen_keyMissing⟩
  | sealing => exact ⟨_, resolveLpk_seal_missing hget hstore hmarker, missingOnSeal_keyMissing _⟩
  | remint => exact absurd rfl hmode

/-- With the marker on disk an opening or sealing call changes nothing, and
answers the stored key or an error. -/
theorem resolveLpk_guarded (markerPath : String) (fresh : Bytes32) (faults : Faults)
    {mode : LpkMode} {h : Host}
    {key : Bytes32} (hmode : mode ≠ .remint) (hg : Guards base64Error key h) :
    (resolveLpk base64Error markerPath mode fresh faults h).host = h ∧
      (resolveLpk base64Error markerPath mode fresh faults h).sets = [] ∧
      ((resolveLpk base64Error markerPath mode fresh faults h).result = .ok key ∨
        ∃ e, (resolveLpk base64Error markerPath mode fresh faults h).result = .error e) := by
  obtain ⟨hmarker, hkey⟩ := hg
  cases hget : faults.get with
  | some e =>
    rw [resolveLpk_failed hget]
    exact ⟨rfl, rfl, .inr ⟨_, rfl⟩⟩
  | none =>
    cases hstore : h.store with
    | some b64 =>
      obtain ⟨hresult, hsets, _, hhost⟩ :=
        resolveLpk_present base64Error markerPath mode fresh hget hstore
      exact ⟨hhost hmarker, hsets, .inl (hresult.trans (hkey b64 hstore))⟩
    | none =>
      obtain ⟨e, hcall, _⟩ :=
        resolveLpk_wiped base64Error markerPath fresh hmode ⟨hmarker, hstore⟩ hget
      rw [hcall]
      exact ⟨rfl, rfl, .inr ⟨e, rfl⟩⟩

theorem lpkStep_guards (markerPath : String) {key : Bytes32} {h : Host} {x : LpkEvent}
    (hx : x.Quiet) (hg : Guards base64Error key h) :
    Guards base64Error key (lpkStep base64Error markerPath h x).2 := by
  cases x with
  | call mode fresh faults =>
    have hhost := (resolveLpk_guarded markerPath fresh faults hx hg).1
    rw [lpkStep, hhost]
    exact hg
  | wipe => exact ⟨hg.1, fun b64 hstore => nomatch hstore⟩
  | replace entry => exact absurd hx id

theorem lpkStep_wiped (base64Error : String → String) (markerPath : String) {h : Host}
    {x : LpkEvent} (hx : x.Quiet) (hw : Wiped h) :
    Wiped (lpkStep base64Error markerPath h x).2 := by
  cases x with
  | call mode fresh faults =>
    cases hget : faults.get with
    | some e =>
      rw [lpkStep, resolveLpk_failed hget]
      exact hw
    | none =>
      obtain ⟨e, hcall, _⟩ := resolveLpk_wiped base64Error markerPath fresh hx hw hget
      rw [lpkStep, hcall]
      exact hw
  | wipe => exact ⟨hw.1, rfl⟩
  | replace entry => exact absurd hx id

theorem resolveLpk_open_sets {fresh : Bytes32} {faults : Faults} {h : Host} :
    (resolveLpk base64Error markerPath .opening fresh faults h).sets = [] ∧
      (resolveLpk base64Error markerPath .opening fresh faults h).host.store = h.store := by
  cases hget : faults.get with
  | some e =>
    rw [resolveLpk_failed hget]
    exact ⟨rfl, rfl⟩
  | none =>
    cases hstore : h.store with
    | some b64 =>
      obtain ⟨_, hsets, hhost, _⟩ :=
        resolveLpk_present base64Error markerPath .opening fresh hget hstore
      exact ⟨hsets, hhost.trans hstore⟩
    | none =>
      rw [resolveLpk_open hget hstore]
      exact ⟨rfl, hstore⟩

theorem resolveLpk_seal_sets {fresh : Bytes32} {faults : Faults} {h : Host}
    (hsets : (resolveLpk base64Error markerPath .sealing fresh faults h).sets ≠ []) :
    faults.get = none ∧ h.store = none ∧ h.marker = false := by
  cases hget : faults.get with
  | some e =>
    rw [resolveLpk_failed hget] at hsets
    exact absurd rfl hsets
  | none =>
    cases hstore : h.store with
    | some b64 =>
      obtain ⟨_, hnone, _⟩ := resolveLpk_present base64Error markerPath .sealing fresh hget hstore
      exact absurd hnone hsets
    | none =>
      cases hmarker : h.marker with
      | true =>
        rw [resolveLpk_seal_missing hget hstore hmarker] at hsets
        exact absurd rfl hsets
      | false => exact ⟨rfl, rfl, rfl⟩

theorem lpkRun_call {h : Host} {events : List LpkEvent}
    {e : Entry Host LpkEvent (Option CallOutcome)} (he : e ∈ lpkRun base64Error markerPath h events)
    {mode : LpkMode} {fresh : Bytes32} {faults : Faults}
    (hcall : e.input = .call mode fresh faults) :
    e.output = some (resolveLpk base64Error markerPath mode fresh faults e.before) ∧
      e.after = (resolveLpk base64Error markerPath mode fresh faults e.before).host := by
  have hstep := (mem_trace he).2
  rw [hcall, lpkStep] at hstep
  obtain ⟨houtput, hafter⟩ := Prod.mk.inj hstep
  exact ⟨houtput.symm, hafter.symm⟩

/-- The host after the events so far. -/
def lpkHost (base64Error : String → String) (markerPath : String) (h : Host)
    (events : List LpkEvent) : Host :=
  final (lpkStep base64Error markerPath) h events

/-- The mint policy for the calls of a run `earlier`, and for those of a quiet
continuation `later`. -/
structure MintPolicy (base64Error : String → String) (markerPath : String) (start : Host)
    (earlier later : List LpkEvent) : Prop where
  opening_never_writes : ∀ e ∈ lpkRun base64Error markerPath start earlier,
    ∀ fresh faults outcome, e.input = .call .opening fresh faults → e.output = some outcome →
    outcome.sets = [] ∧ e.after.store = e.before.store
  sealing_creates_once : ∀ e ∈ lpkRun base64Error markerPath start earlier,
    ∀ fresh faults outcome, e.input = .call .sealing fresh faults → e.output = some outcome →
    outcome.sets ≠ [] → faults.get = none ∧ e.before.store = none ∧ e.before.marker = false
  failed_read_creates_nothing : ∀ e ∈ lpkRun base64Error markerPath start earlier,
    ∀ mode fresh faults outcome error, e.input = .call mode fresh faults → e.output = some outcome →
    faults.get = some error →
    outcome = ⟨.error (retrievalFailed error), e.before, []⟩ ∧ e.after = e.before
  key_kept : (∀ x ∈ later, x.Quiet) → ∀ key b64,
    (lpkHost base64Error markerPath start earlier).store = some b64 →
    decodeLpk base64Error b64 = .ok key →
    (lpkHost base64Error markerPath start earlier).marker = true →
    ∀ e ∈ lpkRun base64Error markerPath (lpkHost base64Error markerPath start earlier) later,
    ∀ outcome, e.output = some outcome →
    outcome.sets = [] ∧ (outcome.result = .ok key ∨ ∃ error, outcome.result = .error error)
  missing_after_wipe : (∀ x ∈ later, x.Quiet) →
    (lpkHost base64Error markerPath start earlier).store = none →
    (lpkHost base64Error markerPath start earlier).marker = true →
    ∀ e ∈ lpkRun base64Error markerPath (lpkHost base64Error markerPath start earlier) later,
    ∀ mode fresh faults outcome, e.input = .call mode fresh faults → e.output = some outcome →
    outcome.sets = [] ∧ e.after.store = none ∧
      ((faults.get = none ∧ KeyMissing outcome.result) ∨
        ∃ error, faults.get = some error ∧ outcome.result = .error (retrievalFailed error))

theorem lpkRun_output {h : Host} {events : List LpkEvent}
    {e : Entry Host LpkEvent (Option CallOutcome)} (he : e ∈ lpkRun base64Error markerPath h events)
    {outcome : CallOutcome} (houtput : e.output = some outcome) :
    ∃ mode fresh faults, e.input = .call mode fresh faults := by
  have hstep := (mem_trace he).2
  cases hinput : e.input with
  | call mode fresh faults => exact ⟨mode, fresh, faults, rfl⟩
  | wipe =>
    rw [hinput, houtput] at hstep
    cases hstep
  | replace entry =>
    rw [hinput, houtput] at hstep
    cases hstep

theorem lpkRun_outcome {h : Host} {events : List LpkEvent}
    {e : Entry Host LpkEvent (Option CallOutcome)} (he : e ∈ lpkRun base64Error markerPath h events)
    {mode : LpkMode} {fresh : Bytes32} {faults : Faults} (hcall : e.input = .call mode fresh faults)
    {outcome : CallOutcome} (houtput : e.output = some outcome) :
    resolveLpk base64Error markerPath mode fresh faults e.before = outcome ∧
    e.after = outcome.host := by
  obtain ⟨hrun, hafter⟩ := lpkRun_call he hcall
  obtain rfl := Option.some.inj (houtput.symm.trans hrun)
  exact ⟨rfl, hafter⟩

theorem quiet_run {h : Host} {later : List LpkEvent} (hquiet : ∀ x ∈ later, x.Quiet) :
    ∀ e ∈ lpkRun base64Error markerPath h later, e.input.Quiet :=
  fun e he => hquiet e.input (mem_trace he).1

theorem lpkRun_guards {key : Bytes32} {h : Host} {later : List LpkEvent}
    (hquiet : ∀ x ∈ later, x.Quiet) (hg : Guards base64Error key h) :
    ∀ e ∈ lpkRun base64Error markerPath h later, Guards base64Error key e.before := by
  have hkept := trace_invariant
    (fun g x (hx : LpkEvent.Quiet x) hg => lpkStep_guards markerPath hx hg) hg
    (quiet_run hquiet)
  exact fun e he => (hkept.1 e he).1

theorem lpkRun_wiped {h : Host} {later : List LpkEvent} (hquiet : ∀ x ∈ later, x.Quiet)
    (hw : Wiped h) :
    ∀ e ∈ lpkRun base64Error markerPath h later, Wiped e.before ∧ Wiped e.after := by
  have hkept := trace_invariant
    (fun g x (hx : LpkEvent.Quiet x) hw => lpkStep_wiped base64Error markerPath hx hw) hw
    (quiet_run hquiet)
  exact hkept.1

theorem lpk_policy (base64Error : String → String) (markerPath : String) (start : Host)
    (earlier later : List LpkEvent) : MintPolicy base64Error markerPath start earlier later where
  opening_never_writes := by
    intro e he fresh faults outcome hcall houtput
    obtain ⟨rfl, hafter⟩ := lpkRun_outcome he hcall houtput
    rw [hafter]
    exact resolveLpk_open_sets
  sealing_creates_once := by
    intro e he fresh faults outcome hcall houtput hsets
    obtain ⟨rfl, _⟩ := lpkRun_outcome he hcall houtput
    exact resolveLpk_seal_sets hsets
  failed_read_creates_nothing := by
    intro e he mode fresh faults outcome error hcall houtput hget
    obtain ⟨rfl, hafter⟩ := lpkRun_outcome he hcall houtput
    rw [hafter, resolveLpk_failed hget]
    exact ⟨rfl, rfl⟩
  key_kept := by
    intro hquiet key b64 hstore hdecode hmarker e he outcome houtput
    obtain ⟨mode, fresh, faults, hcall⟩ := lpkRun_output he houtput
    obtain ⟨rfl, _⟩ := lpkRun_outcome he hcall houtput
    have hguards : Guards base64Error key (lpkHost base64Error markerPath start earlier) := by
      refine ⟨hmarker, ?_⟩
      intro b64' hstore'
      rw [hstore] at hstore'
      rw [← Option.some.inj hstore', hdecode]
    have hmode := quiet_run hquiet e he
    rw [hcall] at hmode
    have hbefore := lpkRun_guards hquiet hguards e he
    exact (resolveLpk_guarded markerPath fresh faults hmode hbefore).2
  missing_after_wipe := by
    intro hquiet hstore hmarker e he mode fresh faults outcome hcall houtput
    obtain ⟨rfl, _⟩ := lpkRun_outcome he hcall houtput
    have hmode := quiet_run hquiet e he
    rw [hcall] at hmode
    obtain ⟨hbefore, hafter⟩ := lpkRun_wiped hquiet ⟨hmarker, hstore⟩ e he
    cases hget : faults.get with
    | some error =>
      rw [resolveLpk_failed hget]
      exact ⟨rfl, hafter.2, .inr ⟨error, rfl, rfl⟩⟩
    | none =>
      obtain ⟨error, houtcome, hmissing⟩ :=
        resolveLpk_wiped base64Error markerPath fresh hmode hbefore hget
      rw [houtcome]
      exact ⟨rfl, hafter.2, .inl ⟨rfl, hmissing⟩⟩

end

end GitCellar
