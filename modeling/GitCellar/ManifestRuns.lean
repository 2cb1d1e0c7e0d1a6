import GitCellar.ManifestGate

/-! Runs of a client over served manifests, against keys that sign manifests with
`sign` only. -/

namespace GitCellar

open Signing Traces Utf8

/-- A manifest as served, and the client's clock. -/
structure Served where
  manifest : IncidentManifest
  now : DateTime

section

variable {Key Cert : Type} (S : Scheme Key Cert CryptoError)
  (fromCanonicalJson : String → Option BroadcastPayload) (trustSet : List Cert)

/-- The client's state is its last verified mark. -/
def clientStep (mark : Int64) (s : Served) : ManifestVerdict × Int64 :=
  let verdict := s.manifest.verifyAndParse S fromCanonicalJson trustSet mark s.now
  (verdict, verdict.seq.getD mark)

def clientRun (mark : Int64) (served : List Served) : List (Entry Int64 Served ManifestVerdict) :=
  trace (clientStep S fromCanonicalJson trustSet) mark served

end

/-- What a trusted key signs: published manifests, and statements of other kinds. -/
def SignsOnly {Key Cert : Type} {S : Scheme Key Cert CryptoError} {rfc3339 : DateTime → String}
    (sha256 : Bytes → Bytes) (published : Set (Publication S rfc3339)) (k : Key) (m : Bytes) :
    Prop :=
  (∃ p ∈ published, p.signer = k ∧ m = p.manifest.signedBytes) ∨
    ∃ x : Statement, x.kind ≠ .incidentManifest ∧ m = x.bytes sha256 rfc3339

section

variable {Key Cert : Type} {S : Scheme Key Cert CryptoError} {rfc3339 : DateTime → String}
  {fromCanonicalJson : String → Option BroadcastPayload} {sha256 : Bytes → Bytes}
  {signed : Set (Key × Bytes)} {seen : Set Bytes} {trusted : List Key}
  {published : Set (Publication S rfc3339)}

theorem SignsOnly.publication {k : Key} {m : IncidentManifest}
    (h : SignsOnly sha256 published k m.signedBytes) :
    ∃ p ∈ published, p.signer = k ∧
      m.envelope = (IncidentManifest.draft rfc3339 p.state p.payload).envelope := by
  rcases h with ⟨p, hp, hsigner, hbytes⟩ | ⟨x, hkind, hbytes⟩
  · have hfields := (lpFields_tagged hbytes).2
    exact ⟨p, hp, hsigner, (ManifestEnvelope.fields_injective hfields).trans p.envelope_eq⟩
  · have hstatement : (Statement.incidentManifest m.envelope).bytes sha256 rfc3339 =
        x.bytes sha256 rfc3339 := hbytes
    exact absurd (Statement.kind_unique hstatement).symm hkind

theorem trustedPayload_published (hS : S.Ideal signed seen)
    (honly : ∀ k ∈ trusted, ∀ m, (k, m) ∈ signed → SignsOnly sha256 published k m)
    (hjson : ∀ p : BroadcastPayload, fromCanonicalJson (p.toCanonicalJson rfc3339) = some p)
    {m : IncidentManifest} (hseen : ∀ σ, Base64.decode m.signature = some σ → σ ∈ seen)
    {payload : BroadcastPayload}
    (h : m.trustedPayload S fromCanonicalJson (trusted.map S.cert) = .ok payload) :
    ∃ p ∈ published, p.signer ∈ trusted ∧ m.state = p.state ∧ payload = p.payload := by
  obtain ⟨_, ⟨σ, hdecode, hany⟩, hparse, _⟩ := trustedPayload_ok_iff.mp h
  obtain ⟨cert, hcert, hverify⟩ := anyVerifies_iff.mp hany
  obtain ⟨k, hk, rfl⟩ := List.mem_map.mp hcert
  have hsigned := hS.unforgeable σ (hseen σ hdecode) k _ hverify
  obtain ⟨p, hp, rfl, henvelope⟩ := (honly k hk _ hsigned).publication
  have hstate : m.state = p.state := congrArg ManifestEnvelope.state henvelope
  have hstring : m.payload = p.payload.toCanonicalJson rfc3339 :=
    congrArg ManifestEnvelope.payload henvelope
  rw [hstring, hjson] at hparse
  exact ⟨p, hp, hk, hstate, (Option.some.inj hparse).symm⟩

theorem trustedPayload_sign (hS : S.Lawful)
    (hjson : ∀ p : BroadcastPayload, fromCanonicalJson (p.toCanonicalJson rfc3339) = some p)
    (p : Publication S rfc3339) (hp : p.signer ∈ trusted)
    (hv : p.payload.v = broadcastPayloadVersion) :
    p.manifest.trustedPayload S fromCanonicalJson (trusted.map S.cert) = .ok p.payload := by
  obtain ⟨sig, hsign, hmanifest⟩ := sign_ok p.made
  rw [hmanifest, trustedPayload_ok_iff]
  refine ⟨rfl, ⟨sig, Base64.decode_encode sig, ?_⟩, hjson p.payload, hv, rfl, rfl, rfl⟩
  rw [anyVerifies_iff]
  exact ⟨S.cert p.signer, List.mem_map_of_mem hp, hS.accepts _ _ _ _ hsign⟩

theorem verifyAndParse_sign (hS : S.Lawful)
    (hjson : ∀ p : BroadcastPayload, fromCanonicalJson (p.toCanonicalJson rfc3339) = some p)
    (p : Publication S rfc3339) (hp : p.signer ∈ trusted)
    (hv : p.payload.v = broadcastPayloadVersion) {mark : Int64} (hfresh : mark < p.payload.seq)
    (now : DateTime) :
    p.manifest.verifyAndParse S fromCanonicalJson (trusted.map S.cert) mark now =
      if p.state = .clear then .clear p.payload.seq
      else if p.payload.expired now then .expired p.payload.seq
      else .active p.payload p.payload.seq := by
  have hseq : p.manifest.seq = p.payload.seq := congrArg ManifestEnvelope.seq p.envelope_eq
  have hstate : p.manifest.state = p.state := congrArg ManifestEnvelope.state p.envelope_eq
  have hstale : ¬ p.payload.seq ≤ mark := Int64.not_le.mpr hfresh
  rw [IncidentManifest.verifyAndParse, trustedPayload_sign hS hjson p hp hv, hseq, hstate]
  simp only [hstale, if_false]

variable {trustSet : List Cert}

theorem mark_le_clientStep (mark : Int64) (s : Served) :
    mark ≤ (clientStep S fromCanonicalJson trustSet mark s).2 := by
  cases hseq : (s.manifest.verifyAndParse S fromCanonicalJson trustSet mark s.now).seq with
  | none =>
    simp only [clientStep, hseq, Option.getD_none]
    exact Int64.le_refl mark
  | some seq =>
    obtain ⟨_, _, hfresh, _⟩ := verifyAndParse_accepted hseq
    simp only [clientStep, hseq, Option.getD_some]
    exact Int64.le_of_lt hfresh

theorem clientRun_entry {mark : Int64} {served : List Served}
    {e : Entry Int64 Served ManifestVerdict}
    (he : e ∈ clientRun S fromCanonicalJson trustSet mark served) :
    e.output = e.input.manifest.verifyAndParse S fromCanonicalJson trustSet e.before e.input.now ∧
      e.after = e.output.seq.getD e.before := by
  have hstep := (mem_trace he).2
  obtain ⟨houtput, hafter⟩ := Prod.mk.inj hstep
  rw [← hafter, ← houtput]
  exact ⟨rfl, rfl⟩

theorem clientRun_increasing (S : Scheme Key Cert CryptoError)
    (fromCanonicalJson : String → Option BroadcastPayload) (trustSet : List Cert) (mark : Int64)
    (served : List Served) :
    (clientRun S fromCanonicalJson trustSet mark served).Pairwise fun e f =>
      ∀ s t, e.output.seq = some s → f.output.seq = some t → s < t := by
  have hordered : (clientRun S fromCanonicalJson trustSet mark served).Pairwise
      fun e f => e.after ≤ f.before :=
    trace_pairwise Int64.le_refl (fun _ _ _ => Int64.le_trans) mark_le_clientStep mark served
  refine hordered.imp_of_mem ?_
  intro e f he hf hle s t hs ht
  obtain ⟨_, hafter⟩ := clientRun_entry he
  obtain ⟨houtput, _⟩ := clientRun_entry hf
  rw [houtput] at ht
  obtain ⟨_, _, hfresh, _⟩ := verifyAndParse_accepted ht
  rw [hafter, hs, Option.getD_some] at hle
  exact Int64.lt_of_le_of_lt hle hfresh

/-- Whatever is served, in whatever order: accepted numbers increase, each
accepted verdict is on a published manifest, nothing else moves the mark; and a
fresh published manifest is always answered by its state and expiry. -/
theorem manifest_runs (hS : S.Ideal signed seen)
    (honly : ∀ k ∈ trusted, ∀ m, (k, m) ∈ signed → SignsOnly sha256 published k m)
    (hjson : ∀ p : BroadcastPayload, fromCanonicalJson (p.toCanonicalJson rfc3339) = some p) :
    (∀ mark served, (∀ s ∈ served, ∀ σ, Base64.decode s.manifest.signature = some σ → σ ∈ seen) →
      ((clientRun S fromCanonicalJson (trusted.map S.cert) mark served).Pairwise fun e f =>
        ∀ s t, e.output.seq = some s → f.output.seq = some t → s < t) ∧
      (∀ e ∈ clientRun S fromCanonicalJson (trusted.map S.cert) mark served, ∀ s,
        e.output.seq = some s → e.before < s ∧ e.after = s ∧
        ∃ p ∈ published, p.signer ∈ trusted ∧ e.output.Reports p.state p.payload) ∧
      ((clientRun S fromCanonicalJson (trusted.map S.cert) mark served).Pairwise fun e f =>
        ∀ s payload t, e.output = .clear s → f.output = .active payload t → s < t) ∧
      ∀ e ∈ clientRun S fromCanonicalJson (trusted.map S.cert) mark served,
        (e.output = .stale ∨ ∃ reason, e.output = .noTrustedSignal reason) → e.after = e.before) ∧
    ∀ p : Publication S rfc3339, p.signer ∈ trusted → p.payload.v = broadcastPayloadVersion →
      ∀ mark now, mark < p.payload.seq →
      p.manifest.verifyAndParse S fromCanonicalJson (trusted.map S.cert) mark now =
        if p.state = .clear then .clear p.payload.seq
        else if p.payload.expired now then .expired p.payload.seq
        else .active p.payload p.payload.seq := by
  constructor
  · intro mark served hseen
    have hincreasing := clientRun_increasing S fromCanonicalJson (trusted.map S.cert) mark served
    refine ⟨hincreasing, ?_, ?_, ?_⟩
    · intro e he s hs
      obtain ⟨houtput, hafter⟩ := clientRun_entry he
      rw [houtput] at hs
      obtain ⟨payload, htrusted, hfresh, hreports, _⟩ := verifyAndParse_accepted hs
      obtain ⟨p, hp, hsigner, hstate, rfl⟩ := trustedPayload_published hS honly hjson
        (hseen e.input (mem_trace he).1) htrusted
      rw [houtput, hs, Option.getD_some] at hafter
      rw [hstate, ← houtput] at hreports
      exact ⟨hfresh, hafter, p, hp, hsigner, hreports⟩
    · refine hincreasing.imp ?_
      intro e f hlt s payload t hs ht
      exact hlt s t (by rw [hs]; rfl) (by rw [ht]; rfl)
    · intro e he hnone
      obtain ⟨_, hafter⟩ := clientRun_entry he
      rcases hnone with hstale | ⟨reason, hreason⟩
      · rw [hafter, hstale]
        rfl
      · rw [hafter, hreason]
        rfl
  · intro p hp hv mark now hfresh
    exact verifyAndParse_sign hS.toLawful hjson p hp hv hfresh now

end

/-- RFC 3339 at the epoch, the stand-in elsewhere. -/
def epochRfc3339 (t : DateTime) : String :=
  if t = ⟨0, 0⟩ then "1970-01-01T00:00:00Z" else timeArray t

theorem epochRfc3339_injective : Function.Injective epochRfc3339 := by
  have hepoch : ∀ t, timeArray t ≠ "1970-01-01T00:00:00Z" := by
    intro t h
    have hhead := congrArg (fun s => (utf8 s).head?) h
    have hbracket : (utf8 (timeArray t)).head? = some 91 := rfl
    rw [hbracket] at hhead
    exact absurd hhead (by decide)
  intro s t h
  by_cases hs : s = ⟨0, 0⟩
  · by_cases ht : t = ⟨0, 0⟩
    · rw [hs, ht]
    · rw [epochRfc3339, epochRfc3339, if_pos hs, if_neg ht] at h
      exact absurd h.symm (hepoch t)
  · by_cases ht : t = ⟨0, 0⟩
    · rw [epochRfc3339, epochRfc3339, if_neg hs, if_pos ht] at h
      exact absurd h (hepoch s)
    · rw [epochRfc3339, epochRfc3339, if_neg hs, if_neg ht] at h
      exact timeArray_injective h

/-- A parser of canonical payloads: it finds the payload the text was made from. -/
noncomputable def parseCanonical (rfc3339 : DateTime → String) (s : String) :
    Option BroadcastPayload :=
  open Classical in
  if h : ∃ p : BroadcastPayload, p.toCanonicalJson rfc3339 = s then some h.choose else none

theorem parseCanonical_toCanonicalJson {rfc3339 : DateTime → String}
    (hrfc : Function.Injective rfc3339) (p : BroadcastPayload) :
    parseCanonical rfc3339 (p.toCanonicalJson rfc3339) = some p := by
  have hex : ∃ q : BroadcastPayload, q.toCanonicalJson rfc3339 = p.toCanonicalJson rfc3339 :=
    ⟨p, rfl⟩
  rw [parseCanonical, dif_pos hex]
  have hvalue := Json.Value.print_injective (congrArg utf8 hex.choose_spec)
  rw [BroadcastPayload.toValue_injective hrfc hvalue]

def samplePayload : BroadcastPayload where
  v := 1
  id := "bc_1"
  tier := .incident
  title := "Cloud API degraded"
  body := "Investigating."
  actionUrl := none
  issuedAt := ⟨0, 0⟩
  expiresAt := none
  seq := 7
  signerFingerprint := "AA11BB22"
  targeting := none

def samplePublication : Publication (Scheme.transcript CryptoError) epochRfc3339 where
  signer := 1
  coins := 0
  state := .active
  payload := samplePayload
  manifest := { IncidentManifest.draft epochRfc3339 .active samplePayload with
    signature := Base64.encode
      (1 :: (IncidentManifest.draft epochRfc3339 .active samplePayload).signedBytes) }
  made := rfl

/-- Served twice, the incident is answered once. -/
theorem manifest_runs_sample :
    samplePublication.manifest.verifyAndParse (Scheme.transcript CryptoError)
        (parseCanonical epochRfc3339) [1] 0 ⟨60, 0⟩ = .active samplePayload 7 ∧
      (clientRun (Scheme.transcript CryptoError) (parseCanonical epochRfc3339) [1] 0
        [⟨samplePublication.manifest, ⟨60, 0⟩⟩, ⟨samplePublication.manifest, ⟨61, 0⟩⟩]).Pairwise
        fun e f => ∀ s t, e.output.seq = some s → f.output.seq = some t → s < t := by
  have honly : ∀ k ∈ ([1] : List UInt8), ∀ m,
      (k, m) ∈ ({(1, samplePublication.manifest.signedBytes)} : Set (UInt8 × Bytes)) →
      SignsOnly id {samplePublication} k m := by
    intro k _ m hm
    obtain ⟨rfl, rfl⟩ := Prod.mk.inj hm
    exact .inl ⟨samplePublication, rfl, rfl, rfl⟩
  obtain ⟨hruns, hsign⟩ := manifest_runs (Scheme.transcript_ideal _) honly
    (parseCanonical_toCanonicalJson epochRfc3339_injective)
  constructor
  · exact hsign samplePublication List.mem_cons_self rfl 0 ⟨60, 0⟩ (by decide)
  · apply (hruns 0 _ _).1
    intro s hs σ hσ
    have hmanifest : s.manifest = samplePublication.manifest := by
      rcases List.mem_cons.mp hs with rfl | hs
      · rfl
      · obtain rfl := List.mem_singleton.mp hs
        rfl
    have hbytes : samplePublication.manifest.signedBytes =
        (IncidentManifest.draft epochRfc3339 .active samplePayload).signedBytes := by
      rw [IncidentManifest.signedBytes, samplePublication.envelope_eq]
      rfl
    rw [hmanifest, samplePublication, Base64.decode_encode, ← hbytes] at hσ
    exact ⟨(1, samplePublication.manifest.signedBytes), rfl, (Option.some.inj hσ).symm⟩

end GitCellar
