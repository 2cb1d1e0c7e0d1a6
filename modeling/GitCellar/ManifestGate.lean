import GitCellar.Base64
import GitCellar.GrantGate
import GitCellar.SignedStatements
import GitCellar.Traces

/-! Incident manifests: their signature, the client's verdict on one, and runs of
a client that remembers the last verified sequence number. -/

namespace GitCellar

open Signing Traces Utf8 Loops

structure IncidentManifest where
  manifestV : UInt32
  state : ManifestState
  seq : Int64
  payload : String
  signature : String
  signerFingerprint : String
  issuedAt : DateTime
  deriving DecidableEq, Repr

def IncidentManifest.envelope (m : IncidentManifest) : ManifestEnvelope where
  manifestV := m.manifestV
  state := m.state
  seq := m.seq
  signerFingerprint := m.signerFingerprint
  payload := m.payload

def IncidentManifest.signedBytes (m : IncidentManifest) : Bytes :=
  incidentManifestSignedBytes m.envelope

inductive ManifestVerdict where
  | active (payload : BroadcastPayload) (seq : Int64)
  | clear (seq : Int64)
  | stale
  | expired (seq : Int64)
  | noTrustedSignal (reason : String)
  deriving DecidableEq, Repr

/-- The sequence number an accepting verdict carries. -/
def ManifestVerdict.seq : ManifestVerdict → Option Int64
  | .active _ seq => some seq
  | .clear seq => some seq
  | .expired seq => some seq
  | .stale => none
  | .noTrustedSignal _ => none

section

variable {Key Cert : Type} (S : Scheme Key Cert CryptoError) (rfc3339 : DateTime → String)
  (fromCanonicalJson : String → Option BroadcastPayload)

/-- The manifest `sign` builds before it is signed. -/
def IncidentManifest.draft (state : ManifestState) (payload : BroadcastPayload) :
    IncidentManifest where
  manifestV := incidentManifestVersion
  state := state
  seq := payload.seq
  payload := payload.toCanonicalJson rfc3339
  signature := ""
  signerFingerprint := payload.signerFingerprint
  issuedAt := payload.issuedAt

def IncidentManifest.sign (signer : Key) (coins : Nat) (state : ManifestState)
    (payload : BroadcastPayload) : Except CryptoError IncidentManifest := do
  let manifest := IncidentManifest.draft rfc3339 state payload
  let sig ← S.sign signer coins manifest.signedBytes
  return { manifest with signature := Base64.encode sig }

/-- `verify_detached(..).unwrap_or(false)` over the trust set. -/
def anyVerifies (trustSet : List Cert) (signed sig : Bytes) : Bool :=
  trustSet.any fun cert =>
    match S.verify cert signed sig with
    | .ok verified => verified
    | .error _ => false

/-- Steps 1 to 3: the parsed payload, or why there is no trusted signal. -/
def IncidentManifest.trustedPayload (m : IncidentManifest) (trustSet : List Cert) :
    Except String BroadcastPayload :=
  if m.manifestV ≠ incidentManifestVersion then
    .error ("unknown manifest_v " ++ toString m.manifestV)
  else
    match Base64.decode m.signature with
    | none => .error "signature not valid base64"
    | some sig =>
      if anyVerifies S trustSet m.signedBytes sig = false then
        .error "signature did not verify against any pinned key"
      else
        match fromCanonicalJson m.payload with
        | none => .error "payload string did not parse"
        | some payload =>
          if payload.v ≠ broadcastPayloadVersion then
            .error ("unknown payload v " ++ toString payload.v)
          else if payload.signerFingerprint ≠ m.signerFingerprint then
            .error "envelope/payload fingerprint mismatch"
          else if payload.seq ≠ m.seq then .error "envelope/payload seq mismatch"
          else if payload.issuedAt ≠ m.issuedAt then .error "envelope/payload issued_at mismatch"
          else .ok payload

def BroadcastPayload.expired (payload : BroadcastPayload) (now : DateTime) : Bool :=
  match payload.expiresAt with
  | some exp => exp.before now
  | none => false

def IncidentManifest.verifyAndParse (m : IncidentManifest) (trustSet : List Cert)
    (lastVerifiedSeq : Int64) (now : DateTime) : ManifestVerdict :=
  match m.trustedPayload S fromCanonicalJson trustSet with
  | .error reason => .noTrustedSignal reason
  | .ok payload =>
    if m.seq ≤ lastVerifiedSeq then .stale
    else if m.state = .clear then .clear m.seq
    else if payload.expired now then .expired m.seq
    else .active payload m.seq

end

section

variable {Key Cert : Type} {S : Scheme Key Cert CryptoError} {rfc3339 : DateTime → String}
  {fromCanonicalJson : String → Option BroadcastPayload} {trustSet : List Cert}

theorem trustedPayload_ok_iff {m : IncidentManifest} {payload : BroadcastPayload} :
    m.trustedPayload S fromCanonicalJson trustSet = .ok payload ↔
      m.manifestV = incidentManifestVersion ∧
      (∃ sig, Base64.decode m.signature = some sig ∧
        anyVerifies S trustSet m.signedBytes sig = true) ∧
      fromCanonicalJson m.payload = some payload ∧ payload.v = broadcastPayloadVersion ∧
      payload.signerFingerprint = m.signerFingerprint ∧ payload.seq = m.seq ∧
      payload.issuedAt = m.issuedAt := by
  constructor
  · intro h
    rw [IncidentManifest.trustedPayload] at h
    obtain ⟨hversion, h⟩ := of_ite_error h
    cases hsig : Base64.decode m.signature with
    | none =>
      rw [hsig] at h
      cases h
    | some sig =>
      rw [hsig] at h
      obtain ⟨hverified, h⟩ := of_ite_error h
      cases hparsed : fromCanonicalJson m.payload with
      | none =>
        rw [hparsed] at h
        cases h
      | some parsed =>
        rw [hparsed] at h
        obtain ⟨hv, h⟩ := of_ite_error h
        obtain ⟨hsigner, h⟩ := of_ite_error h
        obtain ⟨hseq, h⟩ := of_ite_error h
        obtain ⟨hissued, h⟩ := of_ite_error h
        obtain rfl := Except.ok.inj h
        exact ⟨not_not.mp hversion, ⟨sig, rfl, Bool.eq_true_of_not_eq_false hverified⟩, rfl,
          not_not.mp hv, not_not.mp hsigner, not_not.mp hseq, not_not.mp hissued⟩
  · rintro ⟨hversion, ⟨sig, hsig, hverified⟩, hparsed, hv, hsigner, hseq, hissued⟩
    simp only [IncidentManifest.trustedPayload, hversion, hsig, hverified, hparsed, hv,
      hsigner, hseq, hissued, ne_eq, not_true_eq_false, if_false, Bool.true_eq_false]

/-- The verdict is on a manifest of this state and payload. -/
def ManifestVerdict.Reports (state : ManifestState) (payload : BroadcastPayload) :
    ManifestVerdict → Prop
  | .active p seq => state = .active ∧ p = payload ∧ seq = payload.seq
  | .clear seq => state = .clear ∧ seq = payload.seq
  | .expired seq => state = .active ∧ seq = payload.seq
  | .stale => False
  | .noTrustedSignal _ => False

theorem ManifestState.active_of_ne_clear {state : ManifestState} (h : state ≠ .clear) :
    state = .active := by
  cases state with
  | active => rfl
  | clear => exact absurd rfl h

theorem verifyAndParse_accepted {m : IncidentManifest} {mark : Int64} {now : DateTime} {seq : Int64}
    (h : (m.verifyAndParse S fromCanonicalJson trustSet mark now).seq = some seq) :
    ∃ payload, m.trustedPayload S fromCanonicalJson trustSet = .ok payload ∧ mark < seq ∧
      (m.verifyAndParse S fromCanonicalJson trustSet mark now).Reports m.state payload ∧
      seq = payload.seq := by
  cases htrusted : m.trustedPayload S fromCanonicalJson trustSet with
  | error reason =>
    rw [IncidentManifest.verifyAndParse, htrusted] at h
    cases h
  | ok payload =>
    obtain ⟨_, _, _, _, _, hseq, _⟩ := trustedPayload_ok_iff.mp htrusted
    refine ⟨payload, rfl, ?_⟩
    rw [IncidentManifest.verifyAndParse, htrusted] at h ⊢
    by_cases hstale : m.seq ≤ mark
    · simp only [hstale, if_true] at h
      cases h
    · have hfresh : mark < m.seq := Int64.not_le.mp hstale
      simp only [hstale, if_false] at h ⊢
      by_cases hclear : m.state = .clear
      · simp only [hclear, if_true] at h ⊢
        obtain rfl := Option.some.inj h
        exact ⟨hfresh, ⟨rfl, hseq.symm⟩, hseq.symm⟩
      · have hactive := ManifestState.active_of_ne_clear hclear
        simp only [hclear, if_false] at h ⊢
        by_cases hexpired : payload.expired now = true
        · simp only [hexpired, if_true] at h ⊢
          obtain rfl := Option.some.inj h
          exact ⟨hfresh, ⟨hactive, hseq.symm⟩, hseq.symm⟩
        · simp only [hexpired, Bool.false_eq_true, if_false] at h ⊢
          obtain rfl := Option.some.inj h
          exact ⟨hfresh, ⟨hactive, rfl, hseq.symm⟩, hseq.symm⟩

theorem anyVerifies_iff {signed sig : Bytes} :
    anyVerifies S trustSet signed sig = true ↔
    ∃ cert ∈ trustSet, S.verify cert signed sig = .ok true := by
  rw [anyVerifies, List.any_eq_true]
  apply exists_congr
  intro cert
  apply and_congr_right
  intro _
  cases S.verify cert signed sig with
  | error e => simp
  | ok verified => simp

/-- A manifest the publisher made with `sign`. -/
structure Publication (S : Scheme Key Cert CryptoError) (rfc3339 : DateTime → String) where
  signer : Key
  coins : Nat
  state : ManifestState
  payload : BroadcastPayload
  manifest : IncidentManifest
  made : IncidentManifest.sign S rfc3339 signer coins state payload = .ok manifest

theorem sign_ok {signer : Key} {coins : Nat} {state : ManifestState} {payload : BroadcastPayload}
    {m : IncidentManifest}
    (h : IncidentManifest.sign S rfc3339 signer coins state payload = .ok m) :
    ∃ sig,
      S.sign signer coins (IncidentManifest.draft rfc3339 state payload).signedBytes = .ok sig ∧
      m = { IncidentManifest.draft rfc3339 state payload with signature := Base64.encode sig } := by
  cases hsign : S.sign signer coins (IncidentManifest.draft rfc3339 state payload).signedBytes with
  | error e =>
    simp only [IncidentManifest.sign, hsign] at h
    cases h
  | ok sig =>
    simp only [IncidentManifest.sign, hsign] at h
    exact ⟨sig, rfl, (Except.ok.inj h).symm⟩

theorem Publication.envelope_eq (p : Publication S rfc3339) :
    p.manifest.envelope = (IncidentManifest.draft rfc3339 p.state p.payload).envelope := by
  obtain ⟨sig, _, hmanifest⟩ := sign_ok p.made
  rw [hmanifest]
  rfl

end

end GitCellar
