import GitCellar.KeystoreRuns

/-! Concurrent `generate_device_keypair` calls of separate keystore instances,
one existence check or one file at a time. The checks and the writes are not one
step, so two calls may both generate, each over the other's files. -/

namespace GitCellar

open Traces

/-- Where a call stands between two operations. -/
inductive GenerateState where
  | start
  | privateFound
  | bothFound
  | generating
  | privateWritten
  | done (result : Except KeystoreError Bytes32)
  deriving DecidableEq

/-- Nothing fails; `sealed` is what the sealer returns for the seed. -/
def calmConditions (seed : Bytes32) (sealed : Bytes) : KeystoreConditions :=
  ⟨none, seed, fun _ => .ok sealed, noWriteFaults, noWriteFaults, none, none⟩

section

variable (env : KeystoreEnv) (seed : Bytes32) (sealed : Bytes)

def stepGenerate (d : IdentityDir) : GenerateState → GenerateState × IdentityDir
  | .start =>
    let d := (ensureDir (calmConditions seed sealed) d).2
    if (d.files .devicePrivate).isSome then (.privateFound, d) else (.generating, d)
  | .privateFound => if (d.files .devicePublic).isSome then (.bothFound, d) else (.generating, d)
  | .bothFound => (.done (exportPubkey env (calmConditions seed sealed) none d), d)
  | .generating => (.privateWritten, (writeAtomic .devicePrivate sealed noWriteFaults d).2)
  | .privateWritten =>
    (.done (.ok (env.P.publicKey seed)),
      (writeAtomic .devicePublic (env.P.publicKey seed).val noWriteFaults d).2)
  | .done result => (.done result, d)

def generateAlone : Nat → GenerateState × IdentityDir → GenerateState × IdentityDir
  | 0, s => s
  | n + 1, s => generateAlone n (stepGenerate env seed sealed s.2 s.1)

theorem generateAlone_generateDeviceKeypair (d : IdentityDir) :
    generateAlone env seed sealed 4 (.start, d) =
      (.done (generateDeviceKeypair env (calmConditions seed sealed) none d).1,
        (generateDeviceKeypair env (calmConditions seed sealed) none d).2.2) := by
  cases hprivate : d.files .devicePrivate with
  | none =>
    simp [generateAlone, stepGenerate, generateDeviceKeypair, ensureDir, calmConditions,
      bothExist, hprivate, writeKeypair, writeAtomic, noWriteFaults]
  | some raw =>
    cases hpublic : d.files .devicePublic with
    | none =>
      simp [generateAlone, stepGenerate, generateDeviceKeypair, ensureDir,
        calmConditions, bothExist, hprivate, hpublic, writeKeypair, writeAtomic, noWriteFaults]
    | some p =>
      simp [generateAlone, stepGenerate, generateDeviceKeypair, ensureDir,
        calmConditions, bothExist, hprivate, hpublic]

end

/-- The directory and every call, by process. -/
structure KeypairRace (Proc : Type) where
  dir : IdentityDir
  calls : Proc → GenerateState

section

variable {Proc : Type} [DecidableEq Proc]

def keypairRaceStart (made : Bool) : KeypairRace Proc :=
  ⟨⟨made, fun _ => none, fun _ => none⟩, fun _ => .start⟩

variable (env : KeystoreEnv) (seed : Proc → Bytes32) (sealed : Proc → Bytes)

def keypairRaceStep (w : KeypairRace Proc) (i : Proc) : Unit × KeypairRace Proc :=
  let next := stepGenerate env (seed i) (sealed i) w.dir (w.calls i)
  ((), ⟨next.2, Function.update w.calls i next.1⟩)

def keypairRaceRun (made : Bool) (schedule : List Proc) :
    List (Entry (KeypairRace Proc) Proc Unit) :=
  trace (keypairRaceStep env seed sealed) (keypairRaceStart made) schedule

def keypairRaceEnd (made : Bool) (schedule : List Proc) : KeypairRace Proc :=
  final (keypairRaceStep env seed sealed) (keypairRaceStart made) schedule

end

/-- The public file is the public key of the seed in the private file, and every
key a call has returned is that one. -/
def Settled {Proc : Type} (env : KeystoreEnv) (w : KeypairRace Proc) : Prop :=
  ∀ i p, w.calls i = .done (.ok p) → ∃ seed raw, w.dir.files .devicePrivate = some raw ∧
    OpensTo env raw seed ∧ w.dir.files .devicePublic = some p.val ∧ p = env.P.publicKey seed

/-- The call checks for a file that is not there. -/
def FindsMissing {Proc : Type} (w : KeypairRace Proc) (i : Proc) : Prop :=
  (w.calls i = .start ∧ w.dir.files .devicePrivate = none) ∨
    (w.calls i = .privateFound ∧ w.dir.files .devicePublic = none)

def GenerateState.Writes (c : GenerateState) : Prop := c = .generating ∨ c = .privateWritten

/-- The step does not find a file missing while another call writes. -/
def GeneratesAlone {Proc : Type} (w : KeypairRace Proc) (i : Proc) : Prop :=
  FindsMissing w i → ∀ j, ¬ (w.calls j).Writes

/-- How far the one call `g` that generates has come, the others waiting. -/
inductive Phase {Proc : Type} (env : KeystoreEnv) (seed : Proc → Bytes32) (sealed : Proc → Bytes)
    (w : KeypairRace Proc) : Prop where
  | idle (hprivate : w.dir.files .devicePrivate = none) (hpublic : w.dir.files .devicePublic = none)
      (hcalls : ∀ j, w.calls j = .start)
  | drawn {g : Proc} (hg : w.calls g = .generating) (hprivate : w.dir.files .devicePrivate = none)
      (hpublic : w.dir.files .devicePublic = none) (hcalls : ∀ j, j ≠ g → w.calls j = .start)
  | half {g : Proc} (hg : w.calls g = .privateWritten)
      (hprivate : w.dir.files .devicePrivate = some (sealed g))
      (hpublic : w.dir.files .devicePublic = none) (hcalls : ∀ j, j ≠ g → w.calls j = .start ∨
        w.calls j = .privateFound)
  | whole {g : Proc} (hprivate : w.dir.files .devicePrivate = some (sealed g))
      (hpublic : w.dir.files .devicePublic = some (env.P.publicKey (seed g)).val)
      (hcalls : ∀ j, w.calls j = .start ∨ w.calls j = .privateFound ∨ w.calls j = .bothFound ∨
        w.calls j = .done (.ok (env.P.publicKey (seed g))))

/-- The call has gone past its checks, and will return its own key. -/
def GenerateState.Commits (c : GenerateState) (own : Bytes32) : Prop :=
  c.Writes ∨ c = .done (.ok own)

section

variable {Proc : Type} [DecidableEq Proc] {env : KeystoreEnv} {seed : Proc → Bytes32}
  {sealed : Proc → Bytes} {w : KeypairRace Proc} {i j : Proc}

theorem keypairRaceStep_other (hj : j ≠ i) :
    (keypairRaceStep env seed sealed w i).2.calls j = w.calls j := by
  simp only [keypairRaceStep, Function.update_of_ne hj]

theorem keypairRaceStep_self :
    (keypairRaceStep env seed sealed w i).2.calls i =
      (stepGenerate env (seed i) (sealed i) w.dir (w.calls i)).1 := by
  simp only [keypairRaceStep, Function.update_self]

theorem Phase.settled (hopens : ∀ i, OpensTo env (sealed i) (seed i))
    (h : Phase env seed sealed w) :
    Settled env w := by
  intro i p hi
  cases h with
  | idle _ _ hcalls =>
    rw [hcalls i] at hi
    cases hi
  | @drawn g hg _ _ hcalls =>
    by_cases hig : i = g
    · rw [hig, hg] at hi
      cases hi
    · rw [hcalls i hig] at hi
      cases hi
  | @half g hg _ _ hcalls =>
    by_cases hig : i = g
    · rw [hig, hg] at hi
      cases hi
    · rcases hcalls i hig with hstart | hfound
      · rw [hstart] at hi
        cases hi
      · rw [hfound] at hi
        cases hi
  | @whole g hprivate hpublic hcalls =>
    rcases hcalls i with hstart | hfound | hboth | hdone
    · rw [hstart] at hi
      cases hi
    · rw [hfound] at hi
      cases hi
    · rw [hboth] at hi
      cases hi
    · rw [hdone] at hi
      cases hi
      exact ⟨seed g, sealed g, hprivate, hopens g, hpublic, rfl⟩

theorem exportPubkey_calm {d : IdentityDir} {s p : Bytes32} {b : Bytes}
    (hpublic : d.files .devicePublic = some p.val) (hvalid : env.P.fromBytes p = none) :
    exportPubkey env (calmConditions s b) none d = .ok p := by
  simp [exportPubkey, readPubkey, hpublic, calmConditions, p.property, hvalid]

theorem Phase.step_idle (hprivate : w.dir.files .devicePrivate = none)
    (hpublic : w.dir.files .devicePublic = none) (hcalls : ∀ j, w.calls j = .start) :
    Phase env seed sealed (keypairRaceStep env seed sealed w i).2 := by
  have hself := @keypairRaceStep_self Proc _ env seed sealed w i
  have hfiles : (keypairRaceStep env seed sealed w i).2.dir.files = w.dir.files := by
    simp [keypairRaceStep, stepGenerate, hcalls i, hprivate, ensureDir, calmConditions]
  rw [hcalls i] at hself
  apply Phase.drawn (g := i)
  · rw [hself]
    simp [stepGenerate, hprivate, ensureDir, calmConditions]
  · rw [hfiles, hprivate]
  · rw [hfiles, hpublic]
  · intro j hj
    rw [keypairRaceStep_other hj, hcalls j]

theorem Phase.step_generating (hg : w.calls i = .generating)
    (hpublic : w.dir.files .devicePublic = none) (hcalls : ∀ j, j ≠ i → w.calls j = .start) :
    Phase env seed sealed (keypairRaceStep env seed sealed w i).2 := by
  have hself := @keypairRaceStep_self Proc _ env seed sealed w i
  have hfiles : (keypairRaceStep env seed sealed w i).2.dir.files =
      Function.update w.dir.files .devicePrivate (some (sealed i)) := by
    simp [keypairRaceStep, stepGenerate, hg, writeAtomic, noWriteFaults]
  rw [hg] at hself
  apply Phase.half (g := i)
  · exact hself
  · rw [hfiles, Function.update_self]
  · rw [hfiles, Function.update_of_ne (by decide), hpublic]
  · intro j hj
    rw [keypairRaceStep_other hj]
    exact .inl (hcalls j hj)

theorem Phase.step_privateWritten (hg : w.calls i = .privateWritten)
    (hprivate : w.dir.files .devicePrivate = some (sealed i))
    (hcalls : ∀ j, j ≠ i → w.calls j = .start ∨ w.calls j = .privateFound) :
    Phase env seed sealed (keypairRaceStep env seed sealed w i).2 := by
  have hself := @keypairRaceStep_self Proc _ env seed sealed w i
  have hfiles : (keypairRaceStep env seed sealed w i).2.dir.files =
      Function.update w.dir.files .devicePublic (some (env.P.publicKey (seed i)).val) := by
    simp [keypairRaceStep, stepGenerate, hg, writeAtomic, noWriteFaults]
  rw [hg] at hself
  apply Phase.whole (g := i)
  · rw [hfiles, Function.update_of_ne (by decide), hprivate]
  · rw [hfiles, Function.update_self]
  · intro j
    by_cases hj : j = i
    · rw [hj, hself]
      exact .inr (.inr (.inr rfl))
    · rw [keypairRaceStep_other hj]
      rcases hcalls j hj with hstart | hfound
      · exact .inl hstart
      · exact .inr (.inl hfound)

/-- A call that starts between the two writes finds the private key. -/
theorem Phase.step_between {g : Proc} (hg : w.calls g = .privateWritten) (hne : g ≠ i)
    (hprivate : w.dir.files .devicePrivate = some (sealed g))
    (hpublic : w.dir.files .devicePublic = none)
    (hcalls : ∀ j, j ≠ g → w.calls j = .start ∨ w.calls j = .privateFound)
    (hstart : w.calls i = .start) :
    Phase env seed sealed (keypairRaceStep env seed sealed w i).2 := by
  have hself := @keypairRaceStep_self Proc _ env seed sealed w i
  have hfiles : (keypairRaceStep env seed sealed w i).2.dir.files = w.dir.files := by
    simp [keypairRaceStep, stepGenerate, hstart, hprivate, ensureDir, calmConditions]
  have hnext : (stepGenerate env (seed i) (sealed i) w.dir .start).1 = .privateFound := by
    simp [stepGenerate, hprivate, ensureDir, calmConditions]
  rw [hstart] at hself
  apply Phase.half (g := g)
  · rw [keypairRaceStep_other hne, hg]
  · rw [hfiles, hprivate]
  · rw [hfiles, hpublic]
  · intro j hj
    by_cases hji : j = i
    · rw [hji, hself, hnext]
      exact .inr rfl
    · rw [keypairRaceStep_other hji]
      exact hcalls j hj

theorem Phase.step_whole (hP : env.P.scheme.Lawful) {g : Proc}
    (hprivate : w.dir.files .devicePrivate = some (sealed g))
    (hpublic : w.dir.files .devicePublic = some (env.P.publicKey (seed g)).val)
    (hcalls : ∀ j, w.calls j = .start ∨ w.calls j = .privateFound ∨ w.calls j = .bothFound ∨
      w.calls j = .done (.ok (env.P.publicKey (seed g)))) :
    Phase env seed sealed (keypairRaceStep env seed sealed w i).2 := by
  have hself := @keypairRaceStep_self Proc _ env seed sealed w i
  have hvalid := (Ed25519.verifies_sign hP (seed g) []).1
  have hexport := @exportPubkey_calm env w.dir (seed i) _ (sealed i) hpublic hvalid
  have hfiles : (keypairRaceStep env seed sealed w i).2.dir.files = w.dir.files := by
    rcases hcalls i with hc | hc | hc | hc <;>
      simp [keypairRaceStep, stepGenerate, hc, hprivate, hpublic, ensureDir, calmConditions]
  apply Phase.whole (g := g)
  · rw [hfiles, hprivate]
  · rw [hfiles, hpublic]
  · intro j
    by_cases hj : j = i
    · rw [hj, hself]
      rcases hcalls i with hc | hc | hc | hc
      · simp [stepGenerate, hc, hprivate, ensureDir, calmConditions]
      · simp [stepGenerate, hc, hpublic]
      · simp [stepGenerate, hc, hexport]
      · simp [stepGenerate, hc]
    · rw [keypairRaceStep_other hj]
      exact hcalls j

theorem Phase.step (hP : env.P.scheme.Lawful) (halone : GeneratesAlone w i)
    (h : Phase env seed sealed w) :
    Phase env seed sealed (keypairRaceStep env seed sealed w i).2 := by
  cases h with
  | idle hprivate hpublic hcalls => exact Phase.step_idle hprivate hpublic hcalls
  | @drawn g hg hprivate hpublic hcalls =>
    by_cases hig : i = g
    · subst hig
      exact Phase.step_generating hg hpublic hcalls
    · exact absurd (.inl hg) (halone (.inl ⟨hcalls i hig, hprivate⟩) g)
  | @half g hg hprivate hpublic hcalls =>
    by_cases hig : i = g
    · subst hig
      exact Phase.step_privateWritten hg hprivate hcalls
    · rcases hcalls i hig with hstart | hfound
      · exact Phase.step_between hg (fun h => hig h.symm) hprivate hpublic hcalls hstart
      · exact absurd (.inr hg) (halone (.inr ⟨hfound, hpublic⟩) g)
  | @whole g hprivate hpublic hcalls => exact Phase.step_whole hP hprivate hpublic hcalls

theorem stepGenerate_commits {d : IdentityDir} {c : GenerateState} {s : Bytes32} {b : Bytes}
    (h : c.Commits (env.P.publicKey s)) :
    (stepGenerate env s b d c).1.Commits (env.P.publicKey s) := by
  rcases h with (rfl | rfl) | rfl
  · exact .inl (.inr rfl)
  · exact .inr rfl
  · exact .inr rfl

theorem keypairRaceStep_commits (h : (w.calls j).Commits (env.P.publicKey (seed j))) :
    ((keypairRaceStep env seed sealed w i).2.calls j).Commits (env.P.publicKey (seed j)) := by
  by_cases hj : j = i
  · subst hj
    rw [keypairRaceStep_self]
    exact stepGenerate_commits h
  · rw [keypairRaceStep_other hj]
    exact h

omit [DecidableEq Proc] in
theorem stepGenerate_missing (h : FindsMissing w i) :
    (stepGenerate env (seed i) (sealed i) w.dir (w.calls i)).1 = .generating := by
  rcases h with ⟨hc, hprivate⟩ | ⟨hc, hpublic⟩
  · simp [stepGenerate, hc, hprivate, ensureDir, calmConditions]
  · simp [stepGenerate, hc, hpublic]

omit [DecidableEq Proc] in
theorem FindsMissing.not_writes (h : FindsMissing w i) : ¬ (w.calls i).Writes := by
  rcases h with ⟨hc, _⟩ | ⟨hc, _⟩
  · rw [hc]
    rintro (h | h) <;> cases h
  · rw [hc]
    rintro (h | h) <;> cases h

omit [DecidableEq Proc] in
theorem not_settled (hkeys : Function.Injective fun i => env.P.publicKey (seed i)) (hij : i ≠ j)
    (hi : w.calls i = .done (.ok (env.P.publicKey (seed i))))
    (hj : w.calls j = .done (.ok (env.P.publicKey (seed j)))) : ¬ Settled env w := by
  intro hsettled
  obtain ⟨_, _, _, _, hpublic, _⟩ := hsettled i _ hi
  obtain ⟨_, _, _, _, hpublic', _⟩ := hsettled j _ hj
  have hsame := Subtype.ext (Option.some.inj (hpublic.symm.trans hpublic'))
  exact hij (hkeys hsame)

section

variable {made : Bool} {schedule : List Proc} {e : Entry (KeypairRace Proc) Proc Unit}

/-- A call that is writing, and one that finds a file missing meanwhile, both end with
their own keys. -/
theorem both_commit (he : e ∈ keypairRaceRun env seed sealed made schedule)
    (hmissing : FindsMissing e.before e.input) (hwrites : (e.before.calls j).Writes) :
    ((keypairRaceEnd env seed sealed made schedule).calls e.input).Commits
    (env.P.publicKey (seed e.input)) ∧
      ((keypairRaceEnd env seed sealed made schedule).calls j).Commits
      (env.P.publicKey (seed j)) := by
  have hafter : (keypairRaceStep env seed sealed e.before e.input).2 = e.after := by
    rw [(mem_trace he).2]
  have hboth : (e.after.calls e.input).Commits (env.P.publicKey (seed e.input)) ∧
      (e.after.calls j).Commits (env.P.publicKey (seed j)) := by
    rw [← hafter]
    constructor
    · rw [keypairRaceStep_self, stepGenerate_missing hmissing]
      exact .inl (.inl rfl)
    · exact keypairRaceStep_commits (.inl hwrites)
  have hstep : ∀ (w : KeypairRace Proc) (x : Proc),
      ((w.calls e.input).Commits (env.P.publicKey (seed e.input)) ∧
        (w.calls j).Commits (env.P.publicKey (seed j))) →
      ((keypairRaceStep env seed sealed w x).2.calls e.input).Commits
      (env.P.publicKey (seed e.input)) ∧
        ((keypairRaceStep env seed sealed w x).2.calls j).Commits (env.P.publicKey (seed j)) :=
    fun w x h => ⟨keypairRaceStep_commits h.1, keypairRaceStep_commits h.2⟩
  exact final_of_mem_trace hstep he hboth

end

omit [DecidableEq Proc] in
theorem done_of_commits {r : Except KeystoreError Bytes32} (hdone : w.calls i = .done r)
    (h : (w.calls i).Commits (env.P.publicKey (seed i))) :
    w.calls i = .done (.ok (env.P.publicKey (seed i))) := by
  rcases h with (h | h) | h
  · rw [hdone] at h
    cases h
  · rw [hdone] at h
    cases h
  · exact h

/-- In every interleaving in which no call finds a file missing while another
writes, the calls settle on one keypair, in every state on the way. With
distinct public keys, no other interleaving of calls that all come to an end
does. -/
theorem keypair_race (hP : env.P.scheme.Lawful) (hopens : ∀ i, OpensTo env (sealed i) (seed i))
    (made : Bool) (schedule : List Proc) :
    ((∀ e ∈ keypairRaceRun env seed sealed made schedule, GeneratesAlone e.before e.input) →
      (∀ e ∈ keypairRaceRun env seed sealed made schedule, Settled env e.before ∧
        Settled env e.after) ∧
        Settled env (keypairRaceEnd env seed sealed made schedule)) ∧
    (Function.Injective (fun i => env.P.publicKey (seed i)) →
      (∀ i, ∃ r, (keypairRaceEnd env seed sealed made schedule).calls i = .done r) →
      Settled env (keypairRaceEnd env seed sealed made schedule) →
      ∀ e ∈ keypairRaceRun env seed sealed made schedule, GeneratesAlone e.before e.input) := by
  constructor
  · intro halone
    have hstart : Phase env seed sealed (keypairRaceStart made) := .idle rfl rfl fun _ => rfl
    have hstep : ∀ (w : KeypairRace Proc) i, GeneratesAlone w i → Phase env seed sealed w →
        Phase env seed sealed (keypairRaceStep env seed sealed w i).2 :=
      fun w i halone h => h.step hP halone
    obtain ⟨hrun, hend⟩ := trace_invariant hstep hstart halone
    refine ⟨?_, hend.settled hopens⟩
    intro e he
    obtain ⟨hbefore, hafter⟩ := hrun e he
    exact ⟨hbefore.settled hopens, hafter.settled hopens⟩
  · intro hkeys hdone hsettled e he hmissing j hwrites
    have hij : e.input ≠ j := by
      rintro rfl
      exact hmissing.not_writes hwrites
    obtain ⟨hmine, hother⟩ := both_commit he hmissing hwrites
    obtain ⟨_, hdone_mine⟩ := hdone e.input
    obtain ⟨_, hdone_other⟩ := hdone j
    exact not_settled hkeys hij (done_of_commits hdone_mine hmine)
      (done_of_commits hdone_other hother) hsettled

end

def otherSeed : Bytes32 := filled 2

def twoSeeds (i : Fin 2) : Bytes32 := if i.val = 0 then deviceSeed else otherSeed

def twoSealed (i : Fin 2) : Bytes := keywrapMagic ++ (twoSeeds i).val.map fun b => 255 - b

theorem keypair_race_sample :
    Settled sampleKeystore
      (keypairRaceEnd sampleKeystore twoSeeds twoSealed false [0, 0, 0, 1, 1, 1]) ∧
      ∀ e ∈ keypairRaceRun sampleKeystore twoSeeds twoSealed false [0, 0, 0, 1, 1, 1],
        GeneratesAlone e.before e.input := by
  have hopens : ∀ i, OpensTo sampleKeystore (twoSealed i) (twoSeeds i) :=
    fun i => complementSeal_opens rfl
  have hexact := keypair_race (Ed25519.signOnce_strong deviceSeed [7]).toLawful hopens false
    [0, 0, 0, 1, 1, 1]
  have hsettled : Settled sampleKeystore
      (keypairRaceEnd sampleKeystore twoSeeds twoSealed false [0, 0, 0, 1, 1, 1]) := by
    apply (hexact.1 _).2
    unfold GeneratesAlone FindsMissing GenerateState.Writes
    decide +kernel
  have hkeys : ∀ i j, twoSeeds i = twoSeeds j → i = j := by
    decide +kernel
  have hdone : ∀ i,
      (keypairRaceEnd sampleKeystore twoSeeds twoSealed false [0, 0, 0, 1, 1, 1]).calls i =
      .done (.ok deviceSeed) := by
    decide +kernel
  exact ⟨hsettled, hexact.2 (fun i j => hkeys i j) (fun i => ⟨.ok deviceSeed, hdone i⟩) hsettled⟩

/-- Both calls find nothing; the files end up with the seed of one and the public
key of the other. -/
theorem keypair_race_mismatch_sample :
    (∀ i, (keypairRaceEnd sampleKeystore twoSeeds twoSealed false [0, 1, 0, 1, 1, 0]).calls i =
      .done (.ok (twoSeeds i))) ∧
    ¬ Settled sampleKeystore
      (keypairRaceEnd sampleKeystore twoSeeds twoSealed false [0, 1, 0, 1, 1, 0]) := by
  have hdone : ∀ i,
      (keypairRaceEnd sampleKeystore twoSeeds twoSealed false [0, 1, 0, 1, 1, 0]).calls i =
      .done (.ok (twoSeeds i)) := by
    decide +kernel
  have hkeys : ∀ i j, twoSeeds i = twoSeeds j → i = j := by
    decide +kernel
  exact ⟨hdone,
    not_settled (fun i j => hkeys i j) (by decide : (0 : Fin 2) ≠ 1) (hdone 0) (hdone 1)⟩

end GitCellar
