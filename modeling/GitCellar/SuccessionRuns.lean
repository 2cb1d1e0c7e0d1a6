import GitCellar.Ed25519
import GitCellar.SignedStatements
import GitCellar.Traces

/-! Runs of a server over succession statements, against a master key that signs
them with `sign_identity_succession` only. -/

namespace GitCellar

open Loops Signing Traces

def MasterKeyError.toSuccessionError : MasterKeyError → SuccessionError
  | .invalidPublicKey msg => .invalidPublicKey msg
  | _ => .signatureInvalid

structure ServedSuccession where
  statement : IdentitySuccession
  signature : Bytes64

section

variable (P : Ed25519)

/-- `master` is the seed of the account's recovery key. -/
def signIdentitySuccession (master : Bytes32) (statement : IdentitySuccession) :
    Except SuccessionError Bytes64 :=
  statement.validateShape.bind fun _ => .ok (P.sign master statement.canonical)

def verifyIdentitySuccession (expectedMasterPubkey : Bytes32) (statement : IdentitySuccession)
    (signature : Bytes64) (currentKeyVersion : UInt32) : Except SuccessionError Unit :=
  statement.validateShape.bind fun _ =>
    if statement.newKeyVersion ≤ currentKeyVersion then
      .error (.notNewerVersion statement.newKeyVersion currentKeyVersion)
    else
      (P.verifyWithPubkey expectedMasterPubkey statement.canonical signature).mapError
        MasterKeyError.toSuccessionError

/-- The server's state is the account's key version. -/
def successionStep (masterPubkey : Bytes32) (current : UInt32) (s : ServedSuccession) :
    Except SuccessionError Unit × UInt32 :=
  let verdict := verifyIdentitySuccession P masterPubkey s.statement s.signature current
  (verdict, match verdict with
    | .ok _ => s.statement.newKeyVersion
    | .error _ => current)

def successionRun (masterPubkey : Bytes32) (current : UInt32) (served : List ServedSuccession) :
    List (Entry UInt32 ServedSuccession (Except SuccessionError Unit)) :=
  trace (successionStep P masterPubkey) current served

end

/-- No field empty, and two identities, after normalisation. -/
structure IdentitySuccession.WellShaped (s : IdentitySuccession) : Prop where
  account : normalizeAccount s.account ≠ ""
  old : normalizeFingerprint s.oldFingerprint ≠ ""
  new : normalizeFingerprint s.newFingerprint ≠ ""
  distinct : normalizeFingerprint s.oldFingerprint ≠ normalizeFingerprint s.newFingerprint

/-- What the master signs: issued successions, and statements of other kinds. -/
def SignsSuccessions (sha256 : Bytes → Bytes) (rfc3339 : DateTime → String)
    (issued : Set IdentitySuccession) (m : Bytes) : Prop :=
  (∃ s ∈ issued, s.signedBytes = .ok m) ∨
    ∃ x : Statement, x.kind ≠ .succession ∧ m = x.bytes sha256 rfc3339

section

variable {P : Ed25519} {signed : Set (Bytes32 × Bytes)} {seen : Set Bytes}
  {issued : Set IdentitySuccession} {sha256 : Bytes → Bytes} {rfc3339 : DateTime → String}
  {master masterPubkey : Bytes32} {statement : IdentitySuccession} {signature : Bytes64}
  {current : UInt32} {served : List ServedSuccession}

theorem IdentitySuccession.validateShape_ok (h : statement.validateShape = .ok ()) :
    statement.WellShaped := by
  by_cases haccount : normalizeAccount statement.account = ""
  · simp only [validateShape, haccount, if_true] at h
    cases h
  by_cases hold : normalizeFingerprint statement.oldFingerprint = ""
  · simp only [validateShape, haccount, hold, if_true, if_false] at h
    cases h
  by_cases hnew : normalizeFingerprint statement.newFingerprint = ""
  · simp only [validateShape, haccount, hold, hnew, if_true, if_false] at h
    cases h
  by_cases hsame : normalizeFingerprint statement.oldFingerprint =
      normalizeFingerprint statement.newFingerprint
  · simp only [validateShape, haccount, hnew, hsame, if_true, if_false] at h
    cases h
  exact ⟨haccount, hold, hnew, hsame⟩

theorem IdentitySuccession.validateShape_ok_iff :
    statement.validateShape = .ok () ↔ statement.WellShaped := by
  constructor
  · exact IdentitySuccession.validateShape_ok
  · intro h
    simp only [validateShape, h.account, h.old, h.new, h.distinct, if_false]
    rfl

theorem verifyIdentitySuccession_ok
    (h : verifyIdentitySuccession P masterPubkey statement signature current = .ok ()) :
    statement.WellShaped ∧ current < statement.newKeyVersion ∧
      P.Verifies masterPubkey statement.canonical signature := by
  obtain ⟨hshape, hrest⟩ := check_bind_eq_ok_iff.mp h
  obtain ⟨hnewer, hverify⟩ := of_ite_error hrest
  refine ⟨IdentitySuccession.validateShape_ok hshape, UInt32.not_le.mp hnewer, ?_⟩
  exact Ed25519.verifyWithPubkey_ok_iff.mp (mapError_ok hverify)

theorem normalized_newKeyVersion (s : IdentitySuccession) :
    s.normalized.newKeyVersion = s.newKeyVersion := by
  rw [IdentitySuccession.normalized, IdentitySuccession.new]

/-- An issued statement is answered by its version alone. -/
theorem verifyIdentitySuccession_sign (hP : P.scheme.Lawful)
    (hsign : signIdentitySuccession P master statement = .ok signature) :
    verifyIdentitySuccession P (P.publicKey master) statement signature current =
      if statement.newKeyVersion ≤ current then
        .error (.notNewerVersion statement.newKeyVersion current)
      else .ok () := by
  obtain ⟨hshape, hsignature⟩ := check_bind_eq_ok_iff.mp hsign
  obtain rfl := Except.ok.inj hsignature
  have hverify :=
    Ed25519.verifyWithPubkey_ok_iff.mpr (Ed25519.verifies_sign hP master statement.canonical)
  rw [verifyIdentitySuccession, hshape, hverify]
  rfl

theorem signIdentitySuccession_ok_iff :
    (∃ σ, signIdentitySuccession P master statement = .ok σ) ↔ statement.WellShaped := by
  rw [← IdentitySuccession.validateShape_ok_iff]
  constructor
  · rintro ⟨σ, hsign⟩
    exact (check_bind_eq_ok_iff.mp hsign).1
  · intro hshape
    exact ⟨_, check_bind_eq_ok_iff.mpr ⟨hshape, rfl⟩⟩

theorem verifies_sign_iff (hP : P.scheme.Lawful)
    (hsign : signIdentitySuccession P master statement = .ok signature) :
    (∃ current, verifyIdentitySuccession P (P.publicKey master) statement signature current =
      .ok ()) ↔
      statement.newKeyVersion ≠ 0 := by
  constructor
  · rintro ⟨current, hverify⟩ hzero
    have hnewer := (verifyIdentitySuccession_ok hverify).2.1
    rw [hzero] at hnewer
    exact absurd hnewer UInt32.not_lt_zero
  · intro hversion
    refine ⟨0, ?_⟩
    rw [verifyIdentitySuccession_sign hP hsign, if_neg]
    exact UInt32.not_le.mpr (UInt32.pos_iff_ne_zero.mpr hversion)

theorem SignsSuccessions.normalized_eq
    (h : SignsSuccessions sha256 rfc3339 issued statement.canonical) :
    ∃ s ∈ issued, statement.normalized = s.normalized := by
  rcases h with ⟨s, hs, hbytes⟩ | ⟨x, hkind, hbytes⟩
  · have hcanonical := IdentitySuccession.signedBytes_ok hbytes
    have hfields := (lpFields_tagged hcanonical).2
    exact ⟨s, hs, IdentitySuccession.fields_injective hfields⟩
  · have hstatement : (Statement.succession statement).bytes sha256 rfc3339 =
        x.bytes sha256 rfc3339 := hbytes
    exact absurd (Statement.kind_unique hstatement).symm hkind

theorem successionStep_verdict (P : Ed25519) (masterPubkey : Bytes32) (current : UInt32)
    (s : ServedSuccession) : (successionStep P masterPubkey current s).1 =
      verifyIdentitySuccession P masterPubkey s.statement s.signature current := by
  rw [successionStep]

theorem successionStep_of_ok {s : ServedSuccession}
    (h : verifyIdentitySuccession P masterPubkey s.statement s.signature current = .ok ()) :
    (successionStep P masterPubkey current s).2 = s.statement.newKeyVersion := by
  rw [successionStep, h]

theorem le_successionStep (current : UInt32) (s : ServedSuccession) :
    current ≤ (successionStep P masterPubkey current s).2 := by
  cases h : verifyIdentitySuccession P masterPubkey s.statement s.signature current with
  | error e =>
    simp only [successionStep, h]
    exact UInt32.le_refl current
  | ok u =>
    rw [successionStep_of_ok h]
    exact UInt32.le_of_lt (verifyIdentitySuccession_ok h).2.1

theorem successionRun_entry {e : Entry UInt32 ServedSuccession (Except SuccessionError Unit)}
    (he : e ∈ successionRun P masterPubkey current served) (hok : e.output = .ok ()) :
    verifyIdentitySuccession P masterPubkey e.input.statement e.input.signature e.before = .ok () ∧
      e.after = e.input.statement.newKeyVersion := by
  have hstep : successionStep P masterPubkey e.before e.input = (e.output, e.after) :=
    (mem_trace he).2
  have hverdict := successionStep_verdict P masterPubkey e.before e.input
  rw [hstep, hok] at hverdict
  have hnext := successionStep_of_ok hverdict.symm
  rw [hstep] at hnext
  exact ⟨hverdict.symm, hnext⟩

theorem successionRun_increasing (P : Ed25519) (masterPubkey : Bytes32) (current : UInt32)
    (served : List ServedSuccession) :
    (successionRun P masterPubkey current served).Pairwise fun e f =>
      e.output = .ok () → f.output = .ok () →
        e.input.statement.newKeyVersion < f.input.statement.newKeyVersion := by
  have hordered : (successionRun P masterPubkey current served).Pairwise
      fun e f => e.after ≤ f.before :=
    trace_pairwise UInt32.le_refl (fun _ _ _ => UInt32.le_trans) le_successionStep current served
  apply hordered.imp_of_mem
  intro e f he hf hle heok hfok
  obtain ⟨_, hafter⟩ := successionRun_entry he heok
  have hnewer := (verifyIdentitySuccession_ok (successionRun_entry hf hfok).1).2.1
  rw [hafter] at hle
  exact UInt32.lt_of_le_of_lt hle hnewer

/-- Whatever is served, in whatever order: accepted versions increase, so that
no statement is accepted again in any rendering, and each accepted one is well
shaped and says what an issued one says. -/
theorem succession_runs (hP : P.scheme.Ideal signed seen)
    (honly : ∀ m, (master, m) ∈ signed → SignsSuccessions sha256 rfc3339 issued m)
    (current : UInt32) (served : List ServedSuccession)
    (hseen : ∀ s ∈ served, s.signature.val ∈ seen) :
    ((successionRun P (P.publicKey master) current served).Pairwise fun e f =>
      e.output = .ok () → f.output = .ok () →
        e.input.statement.newKeyVersion < f.input.statement.newKeyVersion ∧
        e.input.statement.normalized ≠ f.input.statement.normalized) ∧
    ∀ e ∈ successionRun P (P.publicKey master) current served, e.output = .ok () →
      e.before < e.input.statement.newKeyVersion ∧ e.after = e.input.statement.newKeyVersion ∧
        (∃ s ∈ issued, e.input.statement.normalized = s.normalized) ∧
        e.input.statement.WellShaped := by
  constructor
  · apply (successionRun_increasing P (P.publicKey master) current served).imp
    intro e f hlt heok hfok
    refine ⟨hlt heok hfok, ?_⟩
    intro hsame
    have hless := hlt heok hfok
    rw [← normalized_newKeyVersion, hsame, normalized_newKeyVersion] at hless
    exact UInt32.lt_irrefl _ hless
  · intro e he hok
    obtain ⟨hverdict, hafter⟩ := successionRun_entry he hok
    obtain ⟨hshape, hnewer, hverifies⟩ := verifyIdentitySuccession_ok hverdict
    have hinput : e.input ∈ served := (mem_trace he).1
    have haccepts := Ed25519.scheme_verify_iff.mpr hverifies
    have hsigned := hP.unforgeable e.input.signature.val (hseen e.input hinput) master _ haccepts
    exact ⟨hnewer, hafter, (honly _ hsigned).normalized_eq, hshape⟩

end

def recoverySeed : Bytes32 := filled 1

def issuedSuccession : IdentitySuccession := ⟨"alice@example.org", "AA11", "BB22", 3, 60⟩

def rerendered : IdentitySuccession := ⟨" Alice@Example.org", "aa 11", "bb22 ", 3, 60⟩

def issuedSignature : Bytes64 := ⟨List.replicate 64 1, rfl⟩

theorem succession_runs_sample :
    signIdentitySuccession (.signOnce recoverySeed issuedSuccession.canonical) recoverySeed
        issuedSuccession = .ok issuedSignature ∧
      ∀ e f, successionRun (.signOnce recoverySeed issuedSuccession.canonical) recoverySeed 0
          [⟨issuedSuccession, issuedSignature⟩, ⟨rerendered, issuedSignature⟩] = [e, f] →
        e.output = .ok () → f.output ≠ .ok () := by
  have hsign : signIdentitySuccession
      (.signOnce recoverySeed issuedSuccession.canonical) recoverySeed
      issuedSuccession = .ok issuedSignature := by
    have hshape : issuedSuccession.validateShape = .ok () := by decide +kernel
    rw [signIdentitySuccession, hshape]
    simp [Except.bind, Ed25519.signOnce, issuedSignature]
  have honly : ∀ m, (recoverySeed, m) ∈ ({(recoverySeed, issuedSuccession.canonical)} : Set _) →
      SignsSuccessions id (fun _ => "") {issuedSuccession} m := by
    intro m hm
    obtain ⟨_, rfl⟩ := Prod.mk.inj hm
    refine .inl ⟨issuedSuccession, rfl, ?_⟩
    have hshape : issuedSuccession.validateShape = .ok () := by decide +kernel
    rw [IdentitySuccession.signedBytes, hshape]
    rfl
  have hseen : ∀ s ∈ ([⟨issuedSuccession, issuedSignature⟩, ⟨rerendered, issuedSignature⟩] :
      List ServedSuccession), s.signature.val ∈ ({List.replicate 64 1} : Set Bytes) := by
    intro s hs
    simp only [List.mem_cons, List.not_mem_nil, or_false] at hs
    rcases hs with rfl | rfl <;> rfl
  have hordered := (succession_runs (Ed25519.signOnce_strong recoverySeed
    issuedSuccession.canonical).toIdeal honly 0 _ hseen).1
  refine ⟨hsign, ?_⟩
  intro e f hrun heok hfok
  obtain ⟨rfl, htail⟩ := List.cons.inj hrun
  obtain ⟨rfl, _⟩ := List.cons.inj htail
  have hless : issuedSuccession.newKeyVersion < rerendered.newKeyVersion :=
    ((List.pairwise_cons.mp hordered).1 _ List.mem_cons_self heok hfok).1
  exact absurd hless (by decide)

/-- Signing succeeds exactly on a statement that some account state accepts. -/
def SignsOnlyVerifiable (P : Ed25519) (master : Bytes32) (statement : IdentitySuccession) : Prop :=
  (∃ σ, signIdentitySuccession P master statement = .ok σ) ↔
    ∃ current σ, signIdentitySuccession P master statement = .ok σ ∧
      verifyIdentitySuccession P (P.publicKey master) statement σ current = .ok ()

theorem signsOnlyVerifiable_iff {P : Ed25519} (hP : P.scheme.Lawful) (master : Bytes32)
    (statement : IdentitySuccession) :
    SignsOnlyVerifiable P master statement ↔
      ¬ (statement.WellShaped ∧ statement.newKeyVersion = 0) := by
  constructor
  · rintro honly ⟨hshape, hzero⟩
    obtain ⟨current, σ, hsign, hverify⟩ := honly.mp (signIdentitySuccession_ok_iff.mpr hshape)
    exact (verifies_sign_iff hP hsign).mp ⟨current, hverify⟩ hzero
  · intro hversion
    constructor
    · rintro ⟨σ, hsign⟩
      have hshape := signIdentitySuccession_ok_iff.mp ⟨σ, hsign⟩
      obtain ⟨current, hverify⟩ :=
        (verifies_sign_iff hP hsign).mpr fun hzero => hversion ⟨hshape, hzero⟩
      exact ⟨current, σ, hsign, hverify⟩
    · rintro ⟨_, σ, hsign, _⟩
      exact ⟨σ, hsign⟩

theorem signsOnlyVerifiable_sample :
    SignsOnlyVerifiable (.signOnce recoverySeed issuedSuccession.canonical) recoverySeed
      issuedSuccession :=
  (signsOnlyVerifiable_iff (Ed25519.signOnce_strong recoverySeed
    issuedSuccession.canonical).toLawful recoverySeed issuedSuccession).mpr
      fun h => absurd h.2 (by decide)

def versionZero : IdentitySuccession := { issuedSuccession with newKeyVersion := 0 }

theorem signs_version_zero :
    ¬ SignsOnlyVerifiable (.signOnce recoverySeed versionZero.canonical)
      recoverySeed versionZero := by
  intro honly
  have hshape : versionZero.WellShaped :=
    IdentitySuccession.validateShape_ok_iff.mp (by decide +kernel)
  obtain ⟨current, σ, _, hverify⟩ := honly.mp (signIdentitySuccession_ok_iff.mpr hshape)
  have hnewer := (verifyIdentitySuccession_ok hverify).2.1
  exact absurd hnewer UInt32.not_lt_zero

end GitCellar
