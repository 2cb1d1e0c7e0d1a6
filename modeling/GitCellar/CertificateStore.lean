import GitCellar.CertificateWire
import GitCellar.KeystoreRuns

/-! The keystore's certificate file over whole runs, writes interrupted at any step. -/

namespace GitCellar

open Traces

/-- The keystore with certificates in CBOR; writing one to memory does not fail. -/
def KeystoreEnv.withCbor (env : KeystoreEnv) (R : CborReader) (unreadable : Bytes → String) :
    KeystoreEnv :=
  { env with
    toCbor := fun c => .ok c.toCbor
    fromCbor :=
      fun bytes => (DeviceCertificate.fromCbor R bytes).elim (.error (unreadable bytes)) .ok }

def Imported (calls : List KeystoreCall) (cert : DeviceCertificate) : Prop :=
  ∃ call ∈ calls, call.op = .importCert cert

/-- An import that gets as far as renaming the new file over the old one. -/
def KeystoreCall.Replaces (call : KeystoreCall) : Prop :=
  (∃ cert, call.op = .importCert cert) ∧ call.conditions.first.write = none ∧
    call.conditions.first.rename = none

/-- What is exported is what was imported: never a mixture or a part, and after an import
that succeeds that certificate, until another is put in its place. -/
structure CertificateKept (env : KeystoreEnv) (R : CborReader) (start : KeystoreWorld)
    (calls : List KeystoreCall) : Prop where
  exported : ∀ conditions cert,
    exportCert env conditions (final (keystoreStep env) start calls).dir = .ok cert →
    Imported calls cert
  torn : ∀ bytes cert, (final (keystoreStep env) start calls).dir.tmps .deviceCert = some bytes →
    DeviceCertificate.fromCbor R bytes = some cert → Imported calls cert
  latest : ∀ earlier call later cert, calls = earlier ++ call :: later →
    call.op = .importCert cert →
    (keystoreStep env (final (keystoreStep env) start earlier) call).1 = .ok .done →
    (∀ l ∈ later, ¬ l.Replaces) → ∀ conditions, conditions.read = none →
    exportCert env conditions (final (keystoreStep env) start calls).dir = .ok cert

section

variable {env : KeystoreEnv} {R : CborReader} {unreadable : Bytes → String} {w : KeystoreWorld}
  {calls : List KeystoreCall} {made : Bool} {cert : DeviceCertificate} {bytes : Bytes}

theorem final_onlyWritten :
    OnlyWritten env calls (final (keystoreStep env) (emptyKeystore made) calls).dir := by
  have hstart : OnlyWritten env calls (emptyKeystore made).dir :=
    ⟨fun f b hb => (nomatch hb), fun f b hb => (nomatch hb)⟩
  have hstep : ∀ (w : KeystoreWorld) call, call ∈ calls → OnlyWritten env calls w.dir →
      OnlyWritten env calls (keystoreStep env w call).2.dir := fun w call hcall h => h.step hcall
  exact (trace_invariant hstep hstart fun e he => (mem_trace he).1).2

/-- Of a whole certificate that was written, only that certificate is read. -/
theorem Written.imported (hR : R.Lawful)
    (hwritten : Written (env.withCbor R unreadable) calls .deviceCert bytes)
    (hread : DeviceCertificate.fromCbor R bytes = some cert) : Imported calls cert := by
  obtain ⟨call, hcall, written, hop, hbytes⟩ := hwritten
  obtain rfl := Except.ok.inj hbytes
  have hround := (DeviceCertificate.wireFormat hR).round written []
  rw [List.append_nil, hread] at hround
  exact ⟨call, hcall, Option.some.inj hround ▸ hop⟩

theorem exportCert_ok {conditions : KeystoreConditions} {d : IdentityDir}
    (h : exportCert (env.withCbor R unreadable) conditions d = .ok cert) :
    ∃ bytes, d.files .deviceCert = some bytes ∧ DeviceCertificate.fromCbor R bytes = some cert := by
  rw [exportCert] at h
  cases hfile : d.files .deviceCert with
  | none =>
    rw [hfile] at h
    cases h
  | some bytes =>
    refine ⟨bytes, rfl, ?_⟩
    rw [hfile] at h
    cases hcondition : conditions.read with
    | some e =>
      rw [hcondition] at h
      cases h
    | none =>
      rw [hcondition] at h
      cases hread : DeviceCertificate.fromCbor R bytes with
      | none => simp [KeystoreEnv.withCbor, hread, Except.mapError] at h
      | some found => simpa [KeystoreEnv.withCbor, hread, Except.mapError] using h

theorem writeAtomic_interrupted {target : KeyFile} {contents : Bytes} {faults : WriteFaults}
    {d : IdentityDir} (h : ¬ (faults.write = none ∧ faults.rename = none)) :
    (writeAtomic target contents faults d).2.files = d.files := by
  obtain ⟨write, rename, permissions⟩ := faults
  cases write with
  | some failure =>
    obtain ⟨e, cut⟩ := failure
    cases cut with
    | none => rfl
    | some n => rfl
  | none =>
    cases rename with
    | some e => rfl
    | none => exact absurd ⟨rfl, rfl⟩ h

/-- Only an import that is not interrupted changes the certificate's file. -/
theorem keystoreStep_deviceCert {call : KeystoreCall} (h : ¬ call.Replaces) :
    (keystoreStep env w call).2.dir.files .deviceCert = w.dir.files .deviceCert := by
  obtain ⟨id, op, c⟩ := call
  cases op with
  | sign message => rfl
  | exportPubkey => rfl
  | exportCert => rfl
  | exportMasterPubkey => rfl
  | importCert cert =>
    have hfaults : ¬ (c.first.write = none ∧ c.first.rename = none) :=
      fun hnone => h ⟨⟨cert, rfl⟩, hnone⟩
    show (importCert env c cert w.dir).2.files .deviceCert = _
    rcases importCert_cases env c cert w.dir with hdir | ⟨bytes, _, hdir⟩
    · rw [hdir, (ensureDir_files c w.dir).1]
    · rw [hdir, writeAtomic_interrupted hfaults, (ensureDir_files c w.dir).1]
  | importMasterPubkey p => exact importMasterPubkey_files env c p w.dir (by decide)
  | generateDeviceKeypair =>
    have hensured := congrFun (ensureDir_files c w.dir).1 .deviceCert
    rcases generateDeviceKeypair_cases env c (w.cached id) w.dir with ⟨hdir, _⟩ | ⟨_, hwrite⟩
    · exact (congrArg (fun d => d.files .deviceCert) hdir).trans hensured
    · have hdir := congrArg (fun r => r.2.2.files .deviceCert) hwrite
      refine hdir.trans ?_
      show (writeKeypair env c (w.cached id) (ensureDir c w.dir).2).2.2.files .deviceCert = _
      rcases writeKeypair_files env c (w.cached id) (ensureDir c w.dir).2 with
        ⟨hfiles, _⟩ | ⟨sealed, _, ⟨hfiles, _⟩ | ⟨hfiles, _⟩⟩
      · rw [hfiles, hensured]
      · rw [hfiles, Function.update_of_ne (by decide), hensured]
      · rw [hfiles, Function.update_of_ne (by decide), Function.update_of_ne (by decide), hensured]

theorem final_deviceCert {later : List KeystoreCall} (h : ∀ l ∈ later, ¬ l.Replaces) :
    (final (keystoreStep env) w later).dir.files .deviceCert = w.dir.files .deviceCert := by
  induction later generalizing w with
  | nil => rfl
  | cons call later ih =>
    have hrest := ih (w := (keystoreStep env w call).2) fun l hl => h l (List.mem_cons_of_mem _ hl)
    exact hrest.trans (keystoreStep_deviceCert (h call List.mem_cons_self))

theorem exportCert_stored (hR : R.Lawful) {conditions : KeystoreConditions} {d : IdentityDir}
    (hread : conditions.read = none) (hfile : d.files .deviceCert = some cert.toCbor) :
    exportCert (env.withCbor R unreadable) conditions d = .ok cert := by
  have hround := (DeviceCertificate.wireFormat hR).round cert []
  rw [List.append_nil] at hround
  rw [exportCert, hfile, hread]
  simp [KeystoreEnv.withCbor, hround, Except.mapError]

theorem importCert_ok {c : KeystoreConditions} {d : IdentityDir}
    (h : (importCert (env.withCbor R unreadable) c cert d).1 = .ok ()) :
    (importCert (env.withCbor R unreadable) c cert d).2.files .deviceCert = some cert.toCbor := by
  rw [importCert] at h ⊢
  cases hensure : ensureDir c d with
  | mk result made =>
    rw [hensure] at h
    cases result with
    | error e => cases h
    | ok u =>
      have hwrite : (writeAtomic .deviceCert cert.toCbor c.first made).1 = .ok () := h
      show (writeAtomic .deviceCert cert.toCbor c.first made).2.files .deviceCert = _
      rcases (writeAtomic_spec .deviceCert cert.toCbor c.first made).1 with ⟨_, hfailed⟩ | hfiles
      · exact absurd hwrite hfailed
      · rw [hfiles, Function.update_self]

end

/-- Over any run of keystore calls, whatever writes fail halfway. -/
theorem certificate_store {R : CborReader} (hR : R.Lawful) (env : KeystoreEnv)
    (unreadable : Bytes → String) (made : Bool) (calls : List KeystoreCall) :
    CertificateKept (env.withCbor R unreadable) R (emptyKeystore made) calls := by
  have hwritten : OnlyWritten (env.withCbor R unreadable) calls
      (final (keystoreStep (env.withCbor R unreadable)) (emptyKeystore made) calls).dir :=
    final_onlyWritten
  constructor
  · intro conditions cert hok
    obtain ⟨bytes, hfile, hread⟩ := exportCert_ok hok
    exact (hwritten.files .deviceCert bytes hfile).imported hR hread
  · intro bytes cert htmp hread
    obtain ⟨whole, hwhole, hprefix⟩ := hwritten.tmps .deviceCert bytes htmp
    by_cases hsame : bytes = whole
    · exact (hsame ▸ hwhole).imported hR hread
    · obtain ⟨_, _, stored, _, hbytes⟩ := hwhole
      obtain rfl := Except.ok.inj hbytes
      rw [(DeviceCertificate.wireFormat hR).whole stored bytes hprefix hsame] at hread
      cases hread
  · rintro earlier call later cert rfl hop hok hlater conditions hcondition
    apply exportCert_stored hR hcondition
    rw [final, List.foldl_append, List.foldl_cons]
    refine (final_deviceCert hlater).trans ?_
    obtain ⟨id, op, c⟩ := call
    obtain rfl : op = .importCert cert := hop
    have himported : (importCert (env.withCbor R unreadable) c cert
        (final (keystoreStep (env.withCbor R unreadable)) (emptyKeystore made) earlier).dir).1 =
        .ok () := by
      cases hresult : (importCert (env.withCbor R unreadable) c cert
          (final (keystoreStep (env.withCbor R unreadable)) (emptyKeystore made)
            earlier).dir).1 with
      | ok u => rfl
      | error e =>
        simp only [keystoreStep, hresult] at hok
        cases hok
    exact importCert_ok himported

/-- A certificate is imported; the write of another stops after ten bytes. -/
def tornImport : List KeystoreCall :=
  [⟨0, .importCert storedCertificate, quietConditions⟩,
    ⟨1, .importCert { storedCertificate with signature := ⟨List.replicate 64 4, rfl⟩ },
      { quietConditions with first :=
    { noWriteFaults with write := some ("disk full", some 10) } }⟩]

theorem certificate_store_sample :
    let env := sampleKeystore.withCbor definiteReader fun _ => "unreadable"
    exportCert env quietConditions (final (keystoreStep env) (emptyKeystore false) tornImport).dir =
      .ok storedCertificate := by
  have hkept := certificate_store definiteReader_lawful sampleKeystore (fun _ => "unreadable") false
    tornImport
  apply hkept.latest [] _ _ storedCertificate rfl rfl rfl _ quietConditions rfl
  intro l hl hreplaces
  obtain rfl := List.mem_singleton.mp hl
  cases hreplaces.2.1

end GitCellar
