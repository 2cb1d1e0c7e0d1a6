import GitCellar.Keystore
import GitCellar.Traces

/-! The keystore over sequential runs, with a failure possible at every step of
every write. -/

namespace GitCellar

open Traces

def emptyKeystore (made : Bool) : KeystoreWorld :=
  ⟨⟨made, fun _ => none, fun _ => none⟩, fun _ => none⟩

def keystoreRun (env : KeystoreEnv) (made : Bool) (calls : List KeystoreCall) :
    List (Entry KeystoreWorld KeystoreCall (Except KeystoreError KeystoreReply)) :=
  trace (keystoreStep env) (emptyKeystore made) calls

def OpensTo (env : KeystoreEnv) (raw : Bytes) (seed : Bytes32) : Prop :=
  openDeviceSeedAtRest env none raw = .ok seed.val

def KeystoreCall.SealOpens (env : KeystoreEnv) (call : KeystoreCall) : Prop :=
  ∀ sealed, call.conditions.sealer call.conditions.seed = .ok sealed →
    OpensTo env sealed call.conditions.seed

/-- The public file names the key that the private file opens to, and every
cached key is the public file's. -/
structure KeypairSound (env : KeystoreEnv) (w : KeystoreWorld) : Prop where
  matched : ∀ p, w.dir.files .devicePublic = some p → ∃ seed sealed,
    w.dir.files .devicePrivate = some sealed ∧ OpensTo env sealed seed ∧
    p = (env.P.publicKey seed).val
  cached : ∀ i p, w.cached i = some p → w.dir.files .devicePublic = some p.val

/-- Keypair and caches stay as they are. -/
def PairKept (w u : KeystoreWorld) : Prop :=
  u.dir.files .devicePrivate = w.dir.files .devicePrivate ∧
    u.dir.files .devicePublic = w.dir.files .devicePublic ∧ u.cached = w.cached

/-- What a step does to the keypair: nothing, or past a missing file it leaves a
newly sealed seed, with its public key or without. -/
inductive PairStep (env : KeystoreEnv) (w : KeystoreWorld) (call : KeystoreCall)
    (u : KeystoreWorld) :
    Prop where
  | kept (h : PairKept w u)
  | sealed {b : Bytes} (hmissing : bothExist w.dir = false)
      (hseal : call.conditions.sealer call.conditions.seed = .ok b)
      (hprivate : u.dir.files .devicePrivate = some b)
      (hpublic : u.dir.files .devicePublic = w.dir.files .devicePublic)
      (hcached : u.cached = w.cached)
  | paired {b : Bytes} (hmissing : bothExist w.dir = false)
      (hseal : call.conditions.sealer call.conditions.seed = .ok b)
      (hprivate : u.dir.files .devicePrivate = some b)
      (hpublic : u.dir.files .devicePublic = some (env.P.publicKey call.conditions.seed).val)
      (hcached : ∀ i p, u.cached i = some p →
        w.cached i = some p ∨ p = env.P.publicKey call.conditions.seed)

def PairFixed (w u : KeystoreWorld) : Prop :=
  bothExist w.dir = true → u.dir.files .devicePrivate = w.dir.files .devicePrivate ∧
    u.dir.files .devicePublic = w.dir.files .devicePublic

/-- What the calls may put into a file. -/
def Written (env : KeystoreEnv) (calls : List KeystoreCall) : KeyFile → Bytes → Prop
  | .devicePrivate, b => ∃ call ∈ calls, call.conditions.sealer call.conditions.seed = .ok b
  | .devicePublic, b => ∃ call ∈ calls, b = (env.P.publicKey call.conditions.seed).val
  | .deviceCert, b => ∃ call ∈ calls, ∃ cert, call.op = .importCert cert ∧ env.toCbor cert = .ok b
  | .masterPublic, b => ∃ call ∈ calls, ∃ p, call.op = .importMasterPubkey p ∧ b = p.val

/-- Every file holds a whole content, every temporary file the start of one. -/
structure OnlyWritten (env : KeystoreEnv) (calls : List KeystoreCall) (d : IdentityDir) : Prop where
  files : ∀ f b, d.files f = some b → Written env calls f b
  tmps : ∀ f b, d.tmps f = some b → ∃ whole, Written env calls f whole ∧ b <+: whole

section

variable {env : KeystoreEnv} {c : KeystoreConditions} {d : IdentityDir} {w : KeystoreWorld}
  {call : KeystoreCall} {calls : List KeystoreCall}

/-- A write replaces its file whole or not at all, and leaves at most a part of
its contents behind. -/
theorem writeAtomic_spec (target : KeyFile) (contents : Bytes) (faults : WriteFaults)
    (d : IdentityDir) :
    ((writeAtomic target contents faults d).2.files = d.files ∧
        (writeAtomic target contents faults d).1 ≠ .ok () ∨
      (writeAtomic target contents faults d).2.files =
      Function.update d.files target (some contents)) ∧
    ∃ left, (writeAtomic target contents faults d).2.tmps = Function.update d.tmps target left ∧
      ∀ b, left = some b → b <+: contents ∨ d.tmps target = some b := by
  obtain ⟨write, rename, permissions⟩ := faults
  cases write with
  | some failure =>
    obtain ⟨e, cut⟩ := failure
    cases cut with
    | none =>
      refine ⟨.inl ⟨rfl, by simp [writeAtomic]⟩, d.tmps target, ?_, fun b hb => .inr hb⟩
      rw [Function.update_eq_self]
      rfl
    | some n =>
      refine ⟨.inl ⟨rfl, by simp [writeAtomic]⟩, some (contents.take n), rfl, ?_⟩
      intro b hb
      obtain rfl := Option.some.inj hb
      exact .inl (List.take_prefix n contents)
  | none =>
    cases rename with
    | some e =>
      refine ⟨.inl ⟨rfl, by simp [writeAtomic]⟩, some contents, rfl, ?_⟩
      intro b hb
      obtain rfl := Option.some.inj hb
      exact .inl (List.prefix_refl contents)
    | none =>
      cases permissions with
      | some e => exact ⟨.inr rfl, none, rfl, fun b hb => nomatch hb⟩
      | none => exact ⟨.inr rfl, none, rfl, fun b hb => nomatch hb⟩

theorem ensureDir_files (c : KeystoreConditions) (d : IdentityDir) :
    (ensureDir c d).2.files = d.files ∧ (ensureDir c d).2.tmps = d.tmps := by
  cases hcreate : c.createDir with
  | some e => simp [ensureDir, hcreate]
  | none => simp [ensureDir, hcreate]

theorem OnlyWritten.write (h : OnlyWritten env calls d) (target : KeyFile) (contents : Bytes)
    (faults : WriteFaults) (hcontents : Written env calls target contents) :
    OnlyWritten env calls (writeAtomic target contents faults d).2 := by
  obtain ⟨hfiles, left, htmps, hleft⟩ := writeAtomic_spec target contents faults d
  constructor
  · intro f b hb
    rcases hfiles with ⟨hsame, _⟩ | hnew
    · rw [hsame] at hb
      exact h.files f b hb
    · rw [hnew] at hb
      by_cases hf : f = target
      · rw [hf, Function.update_self] at hb
        rw [hf, ← Option.some.inj hb]
        exact hcontents
      · rw [Function.update_of_ne hf] at hb
        exact h.files f b hb
  · intro f b hb
    rw [htmps] at hb
    by_cases hf : f = target
    · rw [hf, Function.update_self] at hb
      rw [hf]
      rcases hleft b hb with hpart | hold
      · exact ⟨contents, hcontents, hpart⟩
      · exact h.tmps target b hold
    · rw [Function.update_of_ne hf] at hb
      exact h.tmps f b hb

theorem writeKeypair_files (env : KeystoreEnv) (c : KeystoreConditions) (cached : Option Bytes32)
    (d : IdentityDir) :
    ((writeKeypair env c cached d).2.2.files = d.files ∧
      (writeKeypair env c cached d).2.1 = cached) ∨
    ∃ sealed, c.sealer c.seed = .ok sealed ∧
      (((writeKeypair env c cached d).2.2.files =
        Function.update d.files .devicePrivate (some sealed) ∧
        (writeKeypair env c cached d).2.1 = cached) ∨
      ((writeKeypair env c cached d).2.2.files = Function.update
          (Function.update d.files .devicePrivate (some sealed)) .devicePublic
          (some (env.P.publicKey c.seed).val) ∧
        ((writeKeypair env c cached d).2.1 = cached ∨
          (writeKeypair env c cached d).2.1 = some (env.P.publicKey c.seed)))) := by
  cases hseal : c.sealer c.seed with
  | error e =>
    simp only [writeKeypair, hseal]
    exact .inl ⟨trivial, trivial⟩
  | ok sealed =>
    have hfirst := (writeAtomic_spec .devicePrivate sealed c.first d).1
    cases hprivate : writeAtomic .devicePrivate sealed c.first d with
    | mk result d₁ =>
      rw [hprivate] at hfirst
      cases result with
      | error e =>
        simp only [writeKeypair, hseal, hprivate]
        rcases hfirst with ⟨hsame, _⟩ | hnew
        · exact .inl ⟨hsame, trivial⟩
        · exact .inr ⟨sealed, rfl, .inl ⟨hnew, trivial⟩⟩
      | ok u =>
        have hnew := hfirst.resolve_left fun h => h.2 rfl
        have hsecond := (writeAtomic_spec .devicePublic (env.P.publicKey c.seed).val c.second d₁).1
        cases hpublic : writeAtomic .devicePublic (env.P.publicKey c.seed).val c.second d₁ with
        | mk result' d₂ =>
          rw [hpublic, hnew] at hsecond
          cases result' with
          | error e =>
            simp only [writeKeypair, hseal, hprivate, hpublic]
            rcases hsecond with ⟨hsame, _⟩ | hpair
            · exact .inr ⟨sealed, rfl, .inl ⟨hsame, trivial⟩⟩
            · exact .inr ⟨sealed, rfl, .inr ⟨hpair, .inl trivial⟩⟩
          | ok u =>
            have hpair := hsecond.resolve_left fun h => h.2 rfl
            simp only [writeKeypair, hseal, hprivate, hpublic]
            exact .inr ⟨sealed, rfl, .inr ⟨hpair, .inr trivial⟩⟩

theorem OnlyWritten.writeKeypair (h : OnlyWritten env calls d) (hcall : call ∈ calls)
    (cached : Option Bytes32) :
    OnlyWritten env calls (writeKeypair env call.conditions cached d).2.2 := by
  cases hseal : call.conditions.sealer call.conditions.seed with
  | error e =>
    simp only [GitCellar.writeKeypair, hseal]
    exact h
  | ok sealed =>
    have hfirst := h.write .devicePrivate sealed call.conditions.first ⟨call, hcall, hseal⟩
    cases hprivate : writeAtomic .devicePrivate sealed call.conditions.first d with
    | mk result d₁ =>
      rw [hprivate] at hfirst
      cases result with
      | error e =>
        simp only [GitCellar.writeKeypair, hseal, hprivate]
        exact hfirst
      | ok u =>
        have hsecond := hfirst.write .devicePublic _ call.conditions.second ⟨call, hcall, rfl⟩
        cases hpublic : writeAtomic .devicePublic (env.P.publicKey call.conditions.seed).val
            call.conditions.second d₁ with
        | mk result' d₂ =>
          rw [hpublic] at hsecond
          cases result' with
          | error e =>
            simp only [GitCellar.writeKeypair, hseal, hprivate, hpublic]
            exact hsecond
          | ok u =>
            simp only [GitCellar.writeKeypair, hseal, hprivate, hpublic]
            exact hsecond

theorem OnlyWritten.ensureDir (h : OnlyWritten env calls d) (c : KeystoreConditions) :
    OnlyWritten env calls (ensureDir c d).2 := by
  obtain ⟨hfiles, htmps⟩ := ensureDir_files c d
  constructor
  · intro f b hb
    rw [hfiles] at hb
    exact h.files f b hb
  · intro f b hb
    rw [htmps] at hb
    exact h.tmps f b hb

theorem bothExist_ensureDir (c : KeystoreConditions) (d : IdentityDir) :
    bothExist (ensureDir c d).2 = bothExist d := by
  rw [bothExist, bothExist, (ensureDir_files c d).1]

theorem generateDeviceKeypair_cases (env : KeystoreEnv) (c : KeystoreConditions)
    (cached : Option Bytes32) (d : IdentityDir) :
    ((generateDeviceKeypair env c cached d).2.2 = (ensureDir c d).2 ∧
      (generateDeviceKeypair env c cached d).2.1 = cached) ∨
    (bothExist d = false ∧
      generateDeviceKeypair env c cached d = writeKeypair env c cached (ensureDir c d).2) := by
  have hboth := bothExist_ensureDir c d
  cases hensure : ensureDir c d with
  | mk result d₁ =>
    rw [hensure] at hboth
    cases result with
    | error e =>
      simp only [generateDeviceKeypair, hensure]
      exact .inl ⟨trivial, trivial⟩
    | ok u =>
      cases hd : bothExist d with
      | true =>
        rw [hd] at hboth
        simp only [generateDeviceKeypair, hensure, hboth, if_true]
        exact .inl ⟨trivial, trivial⟩
      | false =>
        rw [hd] at hboth
        simp only [generateDeviceKeypair, hensure, hboth, Bool.false_eq_true, if_false]
        exact .inr ⟨trivial, trivial⟩

/-- An import leaves the directory as it found it, or writes its one file. -/
theorem importCert_cases (env : KeystoreEnv) (c : KeystoreConditions) (cert : DeviceCertificate)
    (d : IdentityDir) :
    (importCert env c cert d).2 = (ensureDir c d).2 ∨
    ∃ bytes, env.toCbor cert = .ok bytes ∧
      (importCert env c cert d).2 =
      (writeAtomic .deviceCert bytes c.first (ensureDir c d).2).2 := by
  cases hensure : ensureDir c d with
  | mk result d₁ =>
    cases result with
    | error e =>
      simp only [importCert, hensure]
      exact .inl trivial
    | ok u =>
      cases hcbor : env.toCbor cert with
      | error e =>
        simp only [importCert, hensure, hcbor]
        exact .inl trivial
      | ok bytes =>
        simp only [importCert, hensure, hcbor]
        exact .inr ⟨bytes, rfl, rfl⟩

theorem importMasterPubkey_cases (env : KeystoreEnv) (c : KeystoreConditions) (p : Bytes32)
    (d : IdentityDir) :
    (importMasterPubkey env c p d).2 = (ensureDir c d).2 ∨
    (importMasterPubkey env c p d).2 =
      (writeAtomic .masterPublic p.val c.first (ensureDir c d).2).2 := by
  cases hensure : ensureDir c d with
  | mk result d₁ =>
    cases result with
    | error e =>
      simp only [importMasterPubkey, hensure]
      exact .inl trivial
    | ok u =>
      cases hbytes : env.P.fromBytes p with
      | some e =>
        simp only [importMasterPubkey, hensure, hbytes]
        exact .inl trivial
      | none =>
        simp only [importMasterPubkey, hensure, hbytes]
        exact .inr trivial

theorem writeAtomic_files_of_ne {target f : KeyFile} (hf : f ≠ target) (contents : Bytes)
    (faults : WriteFaults) (d : IdentityDir) :
    (writeAtomic target contents faults d).2.files f = d.files f := by
  rcases (writeAtomic_spec target contents faults d).1 with ⟨hsame, _⟩ | hnew
  · rw [hsame]
  · rw [hnew, Function.update_of_ne hf]

theorem importCert_files (env : KeystoreEnv) (c : KeystoreConditions) (cert : DeviceCertificate)
    (d : IdentityDir) {f : KeyFile} (hf : f ≠ .deviceCert) :
    (importCert env c cert d).2.files f = d.files f := by
  have hfiles := (ensureDir_files c d).1
  rcases importCert_cases env c cert d with hkept | ⟨bytes, _, hwrite⟩
  · rw [hkept, hfiles]
  · rw [hwrite, writeAtomic_files_of_ne hf, hfiles]

theorem importMasterPubkey_files (env : KeystoreEnv) (c : KeystoreConditions) (p : Bytes32)
    (d : IdentityDir) {f : KeyFile} (hf : f ≠ .masterPublic) :
    (importMasterPubkey env c p d).2.files f = d.files f := by
  have hfiles := (ensureDir_files c d).1
  rcases importMasterPubkey_cases env c p d with hkept | hwrite
  · rw [hkept, hfiles]
  · rw [hwrite, writeAtomic_files_of_ne hf, hfiles]

theorem keystoreStep_pair (env : KeystoreEnv) (w : KeystoreWorld) (call : KeystoreCall) :
    PairStep env w call (keystoreStep env w call).2 := by
  obtain ⟨id, op, c⟩ := call
  cases op with
  | sign message => exact .kept ⟨rfl, rfl, rfl⟩
  | exportPubkey => exact .kept ⟨rfl, rfl, rfl⟩
  | exportCert => exact .kept ⟨rfl, rfl, rfl⟩
  | exportMasterPubkey => exact .kept ⟨rfl, rfl, rfl⟩
  | importCert cert =>
    exact .kept ⟨importCert_files env c cert w.dir (by decide),
      importCert_files env c cert w.dir (by decide), rfl⟩
  | importMasterPubkey p =>
    exact .kept ⟨importMasterPubkey_files env c p w.dir (by decide),
      importMasterPubkey_files env c p w.dir (by decide), rfl⟩
  | generateDeviceKeypair =>
    have hfiles := (ensureDir_files c w.dir).1
    simp only [keystoreStep]
    rcases generateDeviceKeypair_cases env c (w.cached id) w.dir with ⟨hdir, hcached⟩ |
      ⟨hmissing, hwrite⟩
    · apply PairStep.kept
      rw [PairKept, hdir, hcached, hfiles, Function.update_eq_self]
      exact ⟨rfl, rfl, rfl⟩
    · rw [hwrite]
      rcases writeKeypair_files env c (w.cached id) (ensureDir c w.dir).2 with
        ⟨hdir, hcached⟩ | ⟨sealed, hseal, ⟨hdir, hcached⟩ | ⟨hdir, hcached⟩⟩
      · apply PairStep.kept
        rw [PairKept, hdir, hcached, hfiles, Function.update_eq_self]
        exact ⟨rfl, rfl, rfl⟩
      · apply PairStep.sealed hmissing hseal
        · rw [hdir, Function.update_self]
        · rw [hdir, Function.update_of_ne (by decide), hfiles]
        · rw [hcached, Function.update_eq_self]
      · apply PairStep.paired hmissing hseal
        · rw [hdir, Function.update_of_ne (by decide), Function.update_self]
        · rw [hdir, Function.update_self]
        · intro i p hp
          by_cases hi : i = id
          · subst hi
            simp only [Function.update_self] at hp
            rcases hcached with hold | hnew
            · rw [hold] at hp
              exact .inl hp
            · rw [hnew] at hp
              exact .inr (Option.some.inj hp).symm
          · simp only [Function.update_of_ne hi] at hp
            exact .inl hp

theorem not_bothExist_of_public (hmissing : bothExist w.dir = false) (hsound : KeypairSound env w) :
    w.dir.files .devicePublic = none := by
  cases hpublic : w.dir.files .devicePublic with
  | none => rfl
  | some p =>
    obtain ⟨seed, sealed, hprivate, _⟩ := hsound.matched p hpublic
    rw [bothExist, hprivate, hpublic] at hmissing
    cases hmissing

theorem KeypairSound.step (hseal : call.SealOpens env) (hsound : KeypairSound env w) :
    KeypairSound env (keystoreStep env w call).2 := by
  cases keystoreStep_pair env w call with
  | kept h =>
    obtain ⟨hprivate, hpublic, hcached⟩ := h
    constructor
    · rw [hprivate, hpublic]
      exact hsound.matched
    · rw [hpublic, hcached]
      exact hsound.cached
  | sealed hmissing hsealed hprivate hpublic hcached =>
    have hnone := not_bothExist_of_public hmissing hsound
    constructor
    · intro p hp
      rw [hpublic, hnone] at hp
      cases hp
    · intro i p hp
      rw [hcached] at hp
      have hold := hsound.cached i p hp
      rw [hnone] at hold
      cases hold
  | paired hmissing hsealed hprivate hpublic hcached =>
    have hnone := not_bothExist_of_public hmissing hsound
    constructor
    · intro p hp
      rw [hpublic] at hp
      exact ⟨call.conditions.seed, _, hprivate, hseal _ hsealed, (Option.some.inj hp).symm⟩
    · intro i p hp
      rcases hcached i p hp with hold | rfl
      · have hfile := hsound.cached i p hold
        rw [hnone] at hfile
        cases hfile
      · exact hpublic

theorem keystoreStep_fixed (env : KeystoreEnv) (w : KeystoreWorld) (call : KeystoreCall) :
    PairFixed w (keystoreStep env w call).2 := by
  intro hboth
  cases keystoreStep_pair env w call with
  | kept h => exact ⟨h.1, h.2.1⟩
  | sealed hmissing => exact absurd (hboth.symm.trans hmissing) (by decide)
  | paired hmissing => exact absurd (hboth.symm.trans hmissing) (by decide)

theorem PairFixed.trans {u v : KeystoreWorld} (h : PairFixed w u) (h' : PairFixed u v) :
    PairFixed w v := by
  intro hboth
  obtain ⟨hprivate, hpublic⟩ := h hboth
  have hstill : bothExist u.dir = true := by
    rw [bothExist, hprivate, hpublic]
    exact hboth
  obtain ⟨hprivate', hpublic'⟩ := h' hstill
  exact ⟨hprivate'.trans hprivate, hpublic'.trans hpublic⟩

theorem OnlyWritten.importCert (h : OnlyWritten env calls d) (hcall : call ∈ calls)
    {cert : DeviceCertificate} (hop : call.op = .importCert cert) :
    OnlyWritten env calls (importCert env call.conditions cert d).2 := by
  have hensured := h.ensureDir call.conditions
  rcases importCert_cases env call.conditions cert d with hkept | ⟨bytes, hcbor, hwrite⟩
  · rw [hkept]
    exact hensured
  · rw [hwrite]
    exact hensured.write .deviceCert bytes call.conditions.first ⟨call, hcall, cert, hop, hcbor⟩

theorem OnlyWritten.importMasterPubkey (h : OnlyWritten env calls d) (hcall : call ∈ calls)
    {p : Bytes32} (hop : call.op = .importMasterPubkey p) :
    OnlyWritten env calls (importMasterPubkey env call.conditions p d).2 := by
  have hensured := h.ensureDir call.conditions
  rcases importMasterPubkey_cases env call.conditions p d with hkept | hwrite
  · rw [hkept]
    exact hensured
  · rw [hwrite]
    exact hensured.write .masterPublic p.val call.conditions.first ⟨call, hcall, p, hop, rfl⟩

theorem OnlyWritten.step (hcall : call ∈ calls) (h : OnlyWritten env calls w.dir) :
    OnlyWritten env calls (keystoreStep env w call).2.dir := by
  obtain ⟨id, op, c⟩ := call
  cases op with
  | sign message => exact h
  | exportPubkey => exact h
  | exportCert => exact h
  | exportMasterPubkey => exact h
  | importCert cert => exact h.importCert hcall rfl
  | importMasterPubkey p => exact h.importMasterPubkey hcall rfl
  | generateDeviceKeypair =>
    simp only [keystoreStep]
    have hensured := h.ensureDir c
    rcases generateDeviceKeypair_cases env c (w.cached id) w.dir with ⟨hdir, _⟩ | ⟨_, hwrite⟩
    · rw [hdir]
      exact hensured
    · rw [hwrite]
      exact hensured.writeKeypair hcall (w.cached id)

theorem openDeviceSeedAtRest_ok {unwrap : Option PasskeyError} {raw b : Bytes}
    (h : openDeviceSeedAtRest env unwrap raw = .ok b) :
    openDeviceSeedAtRest env none raw = .ok b := by
  cases hwrapped : isWrapped raw with
  | false =>
    simp only [openDeviceSeedAtRest, hwrapped, Bool.false_eq_true, if_false] at h ⊢
    exact h
  | true =>
    cases unwrap with
    | none => exact h
    | some e =>
      simp only [openDeviceSeedAtRest, hwrapped, if_true] at h
      cases h

theorem signingKeyFromSeed_ok {b : Bytes} {seed : Bytes32} (h : signingKeyFromSeed b = .ok seed) :
    b = seed.val := by
  by_cases hlen : b.length = 32
  · rw [signingKeyFromSeed, dif_pos hlen] at h
    obtain rfl := Except.ok.inj h
    rfl
  · rw [signingKeyFromSeed, dif_neg hlen] at h
    cases h

theorem sign_opens {message : Bytes} {σ : Bytes64} (h : sign env c message d = .ok σ) :
    ∃ raw seed, d.files .devicePrivate = some raw ∧ OpensTo env raw seed ∧
    σ = env.P.sign seed message := by
  cases hprivate : d.files .devicePrivate with
  | none =>
    simp only [sign, readSigningKey, hprivate] at h
    cases h
  | some raw =>
    cases hread : c.read with
    | some e =>
      simp only [sign, readSigningKey, hprivate, hread] at h
      cases h
    | none =>
      cases hopen : openDeviceSeedAtRest env c.unwrap raw with
      | error e =>
        simp only [sign, readSigningKey, hprivate, hread, hopen] at h
        cases h
      | ok b =>
        cases hkey : signingKeyFromSeed b with
        | error e =>
          simp only [sign, readSigningKey, hprivate, hread, hopen, Except.bind, hkey] at h
          cases h
        | ok seed =>
          simp only [sign, readSigningKey, hprivate, hread, hopen, Except.bind, hkey] at h
          have hopens := openDeviceSeedAtRest_ok hopen
          rw [signingKeyFromSeed_ok hkey] at hopens
          exact ⟨raw, seed, rfl, hopens, (Except.ok.inj h).symm⟩

theorem readPubkey_ok {file : KeyFile} {missing : KeystoreError} {name : String} {p : Bytes32}
    (h : readPubkey env c file missing name d = .ok p) : d.files file = some p.val := by
  cases hfile : d.files file with
  | none =>
    simp only [readPubkey, hfile] at h
    cases h
  | some bytes =>
    cases hread : c.read with
    | some e =>
      simp only [readPubkey, hfile, hread] at h
      cases h
    | none =>
      by_cases hlen : bytes.length = 32
      · cases hbytes : env.P.fromBytes ⟨bytes, hlen⟩ with
        | some e =>
          simp only [readPubkey, hfile, hread, hlen, dite_true, hbytes] at h
          cases h
        | none =>
          simp only [readPubkey, hfile, hread, hlen, dite_true, hbytes] at h
          rw [← Except.ok.inj h]
      · simp only [readPubkey, hfile, hread, hlen, dite_false] at h
        cases h

theorem exportPubkey_ok (hsound : KeypairSound env w) {i : Nat} {p : Bytes32}
    (h : exportPubkey env c (w.cached i) w.dir = .ok p) :
    w.dir.files .devicePublic = some p.val := by
  cases hcached : w.cached i with
  | some q =>
    rw [hcached] at h
    obtain rfl := Except.ok.inj h
    exact hsound.cached i q hcached
  | none =>
    rw [hcached] at h
    exact readPubkey_ok h

theorem OpensTo.unique {raw : Bytes} {seed seed' : Bytes32} (h : OpensTo env raw seed)
    (h' : OpensTo env raw seed') : seed = seed' :=
  Subtype.ext (Except.ok.inj (h.symm.trans h'))

theorem KeypairSound.verifies (hsound : KeypairSound env w) (hP : env.P.scheme.Lawful)
    {raw m : Bytes} {seed p : Bytes32} (hprivate : w.dir.files .devicePrivate = some raw)
    (hopens : OpensTo env raw seed) (hpublic : w.dir.files .devicePublic = some p.val) :
    env.P.Verifies p m (env.P.sign seed m) := by
  obtain ⟨seed', raw', hprivate', hopens', hp⟩ := hsound.matched p.val hpublic
  obtain rfl := Option.some.inj (hprivate.symm.trans hprivate')
  obtain rfl := hopens.unique hopens'
  rw [Subtype.ext hp]
  exact Ed25519.verifies_sign hP seed m

theorem KeypairSound.bothExist (hsound : KeypairSound env w) {p : Bytes}
    (hpublic : w.dir.files .devicePublic = some p) : bothExist w.dir = true := by
  obtain ⟨seed, raw, hprivate, _⟩ := hsound.matched p hpublic
  rw [GitCellar.bothExist, hprivate, hpublic]
  rfl

theorem generateDeviceKeypair_seal_failed {e : KeystoreError} (hseal : c.sealer c.seed = .error e)
    (cached : Option Bytes32) (d : IdentityDir) :
    (generateDeviceKeypair env c cached d).2.2.files = d.files ∧
      (generateDeviceKeypair env c cached d).2.2.tmps = d.tmps ∧
      (bothExist d = false → ∃ e, (generateDeviceKeypair env c cached d).1 = .error e) := by
  obtain ⟨hfiles, htmps⟩ := ensureDir_files c d
  have hboth := bothExist_ensureDir c d
  cases hensure : ensureDir c d with
  | mk result d₁ =>
    rw [hensure] at hfiles htmps hboth
    cases result with
    | error e =>
      simp only [generateDeviceKeypair, hensure]
      exact ⟨hfiles, htmps, fun _ => ⟨e, rfl⟩⟩
    | ok u =>
      cases hd : bothExist d with
      | true =>
        rw [hd] at hboth
        simp only [generateDeviceKeypair, hensure, hboth, if_true]
        exact ⟨hfiles, htmps, fun h => absurd h (by decide)⟩
      | false =>
        rw [hd] at hboth
        simp only [generateDeviceKeypair, hensure, hboth, Bool.false_eq_true, if_false,
          writeKeypair, hseal]
        exact ⟨hfiles, htmps, fun _ => ⟨e, rfl⟩⟩

end

/-- The keystore's promises over a run from an empty directory. -/
structure KeystoreSafety (env : KeystoreEnv) (made : Bool) (calls : List KeystoreCall) : Prop where
  only_written : ∀ e ∈ keystoreRun env made calls,
    OnlyWritten env calls e.before.dir ∧ OnlyWritten env calls e.after.dir
  no_seed : (∀ call ∈ calls, ∀ f b, Written env calls f b → ¬ call.conditions.seed.val <:+: b) →
    ∀ e ∈ keystoreRun env made calls, ∀ call ∈ calls, ∀ f b,
    (e.after.dir.files f = some b ∨ e.after.dir.tmps f = some b) → ¬ call.conditions.seed.val <:+: b
  failed_seal : ∀ e ∈ keystoreRun env made calls, e.input.op = .generateDeviceKeypair →
    ∀ error, e.input.conditions.sealer e.input.conditions.seed = .error error →
    e.after.dir.files = e.before.dir.files ∧ e.after.dir.tmps = e.before.dir.tmps ∧
      (bothExist e.before.dir = false → ∃ refusal, e.output = .error refusal)
  matched : ∀ e ∈ keystoreRun env made calls, ∀ p, e.after.dir.files .devicePublic = some p →
    ∃ seed sealed, e.after.dir.files .devicePrivate = some sealed ∧ OpensTo env sealed seed ∧
      p = (env.P.publicKey seed).val
  fixed : (∀ e ∈ keystoreRun env made calls, PairFixed e.before e.after) ∧
    (keystoreRun env made calls).Pairwise fun e f => PairFixed e.after f.after
  verifies : ∀ e ∈ keystoreRun env made calls, ∀ c c' i message σ p,
    sign env c message e.after.dir = .ok σ →
    exportPubkey env c' (e.after.cached i) e.after.dir = .ok p →
    env.P.Verifies p message σ
  verifies_later : (keystoreRun env made calls).Pairwise fun e f =>
    ∀ message σ p, (e.input.op = .exportPubkey → e.output = .ok (.pubkey p) →
        f.input.op = .sign message → f.output = .ok (.signature σ) → env.P.Verifies p message σ) ∧
      (e.input.op = .sign message → e.output = .ok (.signature σ) → bothExist e.before.dir = true →
        f.input.op = .exportPubkey → f.output = .ok (.pubkey p) → env.P.Verifies p message σ)

/-- A signing that finds the private file finds the public one too. -/
def SignsPaired (w : KeystoreWorld) (call : KeystoreCall) : Prop :=
  ∀ message, call.op = .sign message → (w.dir.files .devicePrivate).isSome = true →
    bothExist w.dir = true

/-- Every signature of a run verifies under every key that the run exports, before or after. -/
def SignaturesVerify (env : KeystoreEnv) (made : Bool) (calls : List KeystoreCall) : Prop :=
  ∀ e ∈ keystoreRun env made calls, ∀ f ∈ keystoreRun env made calls, ∀ message σ p,
    e.input.op = .sign message → e.output = .ok (.signature σ) →
    f.input.op = .exportPubkey → f.output = .ok (.pubkey p) → env.P.Verifies p message σ

section

variable {env : KeystoreEnv} {made : Bool} {calls : List KeystoreCall}

theorem keystoreRun_sound (hseal : ∀ call ∈ calls, call.SealOpens env) :
    ∀ e ∈ keystoreRun env made calls, KeypairSound env e.before ∧ KeypairSound env e.after := by
  have hstart : KeypairSound env (emptyKeystore made) :=
    ⟨fun p hp => (nomatch hp), fun i p hp => (nomatch hp)⟩
  have hstep : ∀ (w : KeystoreWorld) (call : KeystoreCall), call.SealOpens env →
      KeypairSound env w →
      KeypairSound env (keystoreStep env w call).2 := fun w call hseal hsound => hsound.step hseal
  exact (trace_invariant hstep hstart fun e he => hseal e.input (mem_trace he).1).1

theorem keystoreRun_onlyWritten :
    ∀ e ∈ keystoreRun env made calls,
      OnlyWritten env calls e.before.dir ∧ OnlyWritten env calls e.after.dir := by
  have hstart : OnlyWritten env calls (emptyKeystore made).dir :=
    ⟨fun f b hb => (nomatch hb), fun f b hb => (nomatch hb)⟩
  have hstep : ∀ (w : KeystoreWorld) call, call ∈ calls → OnlyWritten env calls w.dir →
      OnlyWritten env calls (keystoreStep env w call).2.dir := fun w call hcall h => h.step hcall
  exact (trace_invariant hstep hstart fun e he => (mem_trace he).1).1

theorem signed_entry {e : Entry KeystoreWorld KeystoreCall (Except KeystoreError KeystoreReply)}
    (he : e ∈ keystoreRun env made calls) {message : Bytes} {σ : Bytes64}
    (hop : e.input.op = .sign message) (hok : e.output = .ok (.signature σ)) :
    ∃ raw seed, e.before.dir.files .devicePrivate = some raw ∧ OpensTo env raw seed ∧
      σ = env.P.sign seed message := by
  have hstep := congrArg Prod.fst (mem_trace he).2
  simp only [keystoreStep, hop, hok] at hstep
  cases hsign : sign env e.input.conditions message e.before.dir with
  | error error =>
    rw [hsign] at hstep
    cases hstep
  | ok τ =>
    rw [hsign] at hstep
    cases hstep
    exact sign_opens hsign

theorem exported_entry {e : Entry KeystoreWorld KeystoreCall (Except KeystoreError KeystoreReply)}
    (he : e ∈ keystoreRun env made calls) (hsound : KeypairSound env e.before) {p : Bytes32}
    (hop : e.input.op = .exportPubkey) (hok : e.output = .ok (.pubkey p)) :
    e.before.dir.files .devicePublic = some p.val := by
  have hstep := congrArg Prod.fst (mem_trace he).2
  simp only [keystoreStep, hop, hok] at hstep
  cases hexport : exportPubkey env e.input.conditions (e.before.cached e.input.id) e.before.dir with
  | error error =>
    rw [hexport] at hstep
    cases hstep
  | ok q =>
    rw [hexport] at hstep
    cases hstep
    exact exportPubkey_ok hsound hexport

theorem keystoreRun_fixed (env : KeystoreEnv) (made : Bool) (calls : List KeystoreCall) :
    (∀ e ∈ keystoreRun env made calls, PairFixed e.before e.after) ∧
      (keystoreRun env made calls).Pairwise fun e f => PairFixed e.after f.before := by
  constructor
  · intro e he
    have hstep := keystoreStep_fixed env e.before e.input
    rw [(mem_trace he).2] at hstep
    exact hstep
  · have hrefl : ∀ w, PairFixed w w := fun w _ => ⟨rfl, rfl⟩
    have htrans : ∀ w u v, PairFixed w u → PairFixed u v → PairFixed w v :=
      fun w u v => PairFixed.trans
    exact trace_pairwise hrefl htrans (keystoreStep_fixed env) (emptyKeystore made) calls

theorem failed_seal_entry
    {e : Entry KeystoreWorld KeystoreCall (Except KeystoreError KeystoreReply)}
    (he : e ∈ keystoreRun env made calls) (hop : e.input.op = .generateDeviceKeypair)
    {error : KeystoreError} (hseal : e.input.conditions.sealer e.input.conditions.seed =
      .error error) :
    e.after.dir.files = e.before.dir.files ∧ e.after.dir.tmps = e.before.dir.tmps ∧
      (bothExist e.before.dir = false → ∃ refusal, e.output = .error refusal) := by
  obtain ⟨hfiles, htmps, hrefused⟩ :=
    @generateDeviceKeypair_seal_failed env _ _ hseal (e.before.cached e.input.id) e.before.dir
  have hstep := (mem_trace he).2
  simp only [keystoreStep, hop, Prod.mk.injEq] at hstep
  obtain ⟨houtput, hafter⟩ := hstep
  rw [← hafter, ← houtput]
  refine ⟨hfiles, htmps, ?_⟩
  intro hmissing
  obtain ⟨refusal, hrefusal⟩ := hrefused hmissing
  rw [hrefusal]
  exact ⟨refusal, rfl⟩

theorem keystoreRun_verifies_later (hP : env.P.scheme.Lawful)
    (hseal : ∀ call ∈ calls, call.SealOpens env) :
    (keystoreRun env made calls).Pairwise fun e f =>
      ∀ message σ p, (e.input.op = .exportPubkey → e.output = .ok (.pubkey p) →
          f.input.op = .sign message → f.output = .ok (.signature σ) →
          env.P.Verifies p message σ) ∧
        (e.input.op = .sign message → e.output = .ok (.signature σ) →
          bothExist e.before.dir = true → f.input.op = .exportPubkey →
          f.output = .ok (.pubkey p) → env.P.Verifies p message σ) := by
  obtain ⟨hsteps, hpairs⟩ := keystoreRun_fixed env made calls
  apply hpairs.imp_of_mem
  intro e f he hf hef message σ p
  have hsound := (keystoreRun_sound hseal e he).1
  have hsound' := (keystoreRun_sound hseal f hf).1
  have hfixed := (hsteps e he).trans hef
  constructor
  · intro hop hok hop' hok'
    have hpublic := exported_entry he hsound hop hok
    obtain ⟨raw, seed, hprivate, hopens, rfl⟩ := signed_entry hf hop' hok'
    have hkept := (hfixed (hsound.bothExist hpublic)).2
    exact hsound'.verifies hP hprivate hopens (hkept.trans hpublic)
  · intro hop hok hboth hop' hok'
    obtain ⟨raw, seed, hprivate, hopens, rfl⟩ := signed_entry he hop hok
    have hpublic := exported_entry hf hsound' hop' hok'
    have hkept := (hfixed hboth).1
    exact hsound'.verifies hP (hkept.trans hprivate) hopens hpublic

theorem signaturesVerify_of_paired (hP : env.P.scheme.Lawful)
    (hseal : ∀ call ∈ calls, call.SealOpens env)
    (hpaired : ∀ e ∈ keystoreRun env made calls, SignsPaired e.before e.input) :
    SignaturesVerify env made calls := by
  let verify (e f : Entry KeystoreWorld KeystoreCall (Except KeystoreError KeystoreReply)) : Prop :=
    ∀ message σ p, e.input.op = .sign message → e.output = .ok (.signature σ) →
      f.input.op = .exportPubkey → f.output = .ok (.pubkey p) → env.P.Verifies p message σ
  have hself : ∀ e, verify e e := by
    intro e message σ p hsign _ hexport
    rw [hsign] at hexport
    cases hexport
  have hpairs : (keystoreRun env made calls).Pairwise fun e f => verify e f ∧ verify f e := by
    apply (keystoreRun_verifies_later hP hseal).imp_of_mem
    intro e f he _ hlater
    refine ⟨fun message σ p hsign hsigned hexport hexported => ?_,
      fun message σ p hsign hsigned hexport hexported => ?_⟩
    · obtain ⟨raw, _, hprivate, _⟩ := signed_entry he hsign hsigned
      have hboth := hpaired e he message hsign (by rw [hprivate]; rfl)
      exact (hlater message σ p).2 hsign hsigned hboth hexport hexported
    · exact (hlater message σ p).1 hexport hexported hsign hsigned
  have hforth := hpairs.imp And.left
  have hback := hpairs.imp And.right
  intro e he f hf
  exact List.Pairwise.forall_of_forall_of_flip (fun e _ => hself e) hforth hback he hf

/-- With seals that open to their seeds, whatever fails on the way. Signatures and exported
keys match where no signing finds a private key alone. -/
theorem keystore_safety (hP : env.P.scheme.Lawful) (hseal : ∀ call ∈ calls, call.SealOpens env) :
    KeystoreSafety env made calls ∧
      ((∀ e ∈ keystoreRun env made calls, SignsPaired e.before e.input) →
        SignaturesVerify env made calls) := by
  refine ⟨?_, signaturesVerify_of_paired hP hseal⟩
  exact {
    only_written := keystoreRun_onlyWritten
    no_seed := by
      intro hhidden e he call hcall f b hb
      have hwritten := (keystoreRun_onlyWritten e he).2
      rcases hb with hfile | htmp
      · exact hhidden call hcall f b (hwritten.files f b hfile)
      · obtain ⟨whole, hwhole, hpart⟩ := hwritten.tmps f b htmp
        intro hseed
        exact hhidden call hcall f whole hwhole (hseed.trans hpart.isInfix)
    failed_seal := fun _ he hop _ hfailed => failed_seal_entry he hop hfailed
    matched := fun e he => ((keystoreRun_sound hseal) e he).2.matched
    fixed := by
      obtain ⟨hsteps, hpairs⟩ := keystoreRun_fixed env made calls
      refine ⟨hsteps, hpairs.imp_of_mem ?_⟩
      intro e f _ hf hef
      exact hef.trans (hsteps f hf)
    verifies := by
      intro e he c c' i message σ p hsign hexport
      have hsound := (keystoreRun_sound hseal e he).2
      obtain ⟨raw, seed, hprivate, hopens, rfl⟩ := sign_opens hsign
      exact hsound.verifies hP hprivate hopens (exportPubkey_ok hsound hexport)
    verifies_later := keystoreRun_verifies_later hP hseal }

end

def deviceSeed : Bytes32 := filled 1

/-- A stand-in seal: the bytes complemented, behind the magic. -/
def complementSeal (seed : Bytes32) : Except KeystoreError Bytes :=
  .ok (keywrapMagic ++ seed.val.map fun b => 255 - b)

def sampleKeystore : KeystoreEnv where
  P := .signOnce deviceSeed [7]
  unwrapAtRest raw := .ok ((raw.drop keywrapMagic.length).map fun b => 255 - b)
  toCbor _ := .error ""
  fromCbor _ := .error ""

def noWriteFaults : WriteFaults := ⟨none, none, none⟩

def quietConditions : KeystoreConditions :=
  ⟨none, deviceSeed, complementSeal, noWriteFaults, noWriteFaults, none, none⟩

/-- The permissions of the public file cannot be set; a second instance goes on. -/
def interruptedCalls : List KeystoreCall :=
  [⟨0, .generateDeviceKeypair,
      { quietConditions with second := { noWriteFaults with permissions := some "denied" } }⟩,
    ⟨1, .generateDeviceKeypair, quietConditions⟩, ⟨1, .sign [7], quietConditions⟩,
    ⟨2, .exportPubkey, quietConditions⟩]

/-- The public file cannot be written. The private key signs, and a retry draws another. -/
def retriedCalls : List KeystoreCall :=
  [⟨0, .generateDeviceKeypair,
      { quietConditions with second := { noWriteFaults with write := some ("no space", none) } }⟩,
    ⟨0, .sign [7], quietConditions⟩,
    ⟨0, .generateDeviceKeypair, { quietConditions with seed := filled 2 }⟩,
    ⟨0, .exportPubkey, quietConditions⟩]

theorem complementSeal_opens {seed : Bytes32} {sealed : Bytes}
    (h : complementSeal seed = .ok sealed) :
    OpensTo sampleKeystore sealed seed := by
  obtain rfl := Except.ok.inj h
  have hbyte : ∀ b : UInt8, 255 - (255 - b) = b := by
    intro b
    apply UInt8.toNat_inj.mp
    have hb := b.toNat_lt
    have hmax : (255 : UInt8).toNat = 255 := rfl
    rw [UInt8.toNat_sub, UInt8.toNat_sub, hmax]
    omega
  have hseed : (seed.val.map fun b => 255 - b).map (fun b => 255 - b) = seed.val := by
    rw [List.map_map]
    show seed.val.map (fun b => 255 - (255 - b)) = seed.val
    simp only [hbyte, List.map_id']
  rw [OpensTo, openDeviceSeedAtRest, isWrapped_magic, if_pos rfl]
  simp only [sampleKeystore, List.drop_left, hseed, Except.mapError]

theorem keystore_safety_sample : KeystoreSafety sampleKeystore false interruptedCalls ∧
    SignaturesVerify sampleKeystore false interruptedCalls := by
  have hseal : ∀ call ∈ interruptedCalls, call.SealOpens sampleKeystore := by
    intro call hcall sealed hsealed
    simp only [interruptedCalls, List.mem_cons, List.not_mem_nil, or_false] at hcall
    rcases hcall with rfl | rfl | rfl | rfl <;> exact complementSeal_opens hsealed
  have hsafety : KeystoreSafety sampleKeystore false interruptedCalls ∧
      ((∀ e ∈ keystoreRun sampleKeystore false interruptedCalls, SignsPaired e.before e.input) →
        SignaturesVerify sampleKeystore false interruptedCalls) :=
    keystore_safety (Ed25519.signOnce_strong deviceSeed [7]).toLawful hseal
  refine ⟨hsafety.1, hsafety.2 ?_⟩
  have hboth : (keystoreRun sampleKeystore false interruptedCalls).all (fun e =>
      !(e.before.dir.files .devicePrivate).isSome || bothExist e.before.dir) = true := by
    decide +kernel
  intro e he message _ hprivate
  have hfound := List.all_eq_true.mp hboth e he
  rwa [hprivate, Bool.not_true, Bool.false_or] at hfound

/-- Between a generation that fails at the public file and its retry, a signature is made
that the exported key refuses. -/
theorem retried_key_sample : sampleKeystore.P.scheme.Lawful ∧
    (∀ call ∈ retriedCalls, call.SealOpens sampleKeystore) ∧
      (∃ e ∈ keystoreRun sampleKeystore false retriedCalls, e.input.op = .sign [7] ∧
        e.output = .ok (.signature ⟨List.replicate 64 1, rfl⟩)) ∧
      (∃ e ∈ keystoreRun sampleKeystore false retriedCalls, e.input.op = .exportPubkey ∧
        e.output = .ok (.pubkey (filled 2))) ∧
      ¬ SignaturesVerify sampleKeystore false retriedCalls := by
  have hseal : ∀ call ∈ retriedCalls, call.SealOpens sampleKeystore := by
    intro call hcall sealed hsealed
    simp only [retriedCalls, List.mem_cons, List.not_mem_nil, or_false] at hcall
    rcases hcall with rfl | rfl | rfl | rfl <;> exact complementSeal_opens hsealed
  have hsigned : ∃ e ∈ keystoreRun sampleKeystore false retriedCalls, e.input.op = .sign [7] ∧
      e.output = .ok (.signature ⟨List.replicate 64 1, rfl⟩) :=
    ⟨_, List.mem_cons_of_mem _ List.mem_cons_self, rfl, rfl⟩
  have hexported : ∃ e ∈ keystoreRun sampleKeystore false retriedCalls,
      e.input.op = .exportPubkey ∧ e.output = .ok (.pubkey (filled 2)) :=
    ⟨_, List.mem_cons_of_mem _ (List.mem_cons_of_mem _ (List.mem_cons_of_mem _
      List.mem_cons_self)), rfl, rfl⟩
  refine ⟨(Ed25519.signOnce_strong deviceSeed [7]).toLawful, hseal, hsigned, hexported, ?_⟩
  intro h
  obtain ⟨e, he, hop, hσ⟩ := hsigned
  obtain ⟨f, hf, hop', hp⟩ := hexported
  have hverifies := (h e he f hf [7] _ _ hop hσ hop' hp).2
  revert hverifies
  decide +kernel

end GitCellar
