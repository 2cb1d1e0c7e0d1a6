import GitCellar.KeyHolders
import GitCellar.ManifestGate
import GitCellar.SignedStatements

/-! One key that answers servers' challenges, grants repositories and signs manifests: whatever it
is asked, in whatever order, each verifier accepts only what was signed for it. -/

namespace GitCellar

open Cbor Signing Utf8

section

variable {Key Cert : Type} (S : Scheme Key Cert CryptoError)

/-- The challenge is the server's: only a nonce is answered, under the purpose's tag. -/
def signAuthChallenge (k : Key) (coins : Nat) (purpose : ChallengePurpose) (challenge : String) :
    Except EngineError Bytes := do
  let payload ← (challengeSigningPayload purpose challenge).mapError EngineError.ofPasskey
  (S.sign k coins payload).mapError EngineError.crypto

def signRepoKeyGrant (k : Key) (coins : Nat) (g : RepoKeyGrant) : Except CryptoError String := do
  let sig ← S.sign k coins g.canonical
  return Base64.encode sig

variable (fingerprint : Key → String)

def buildSignedGrantBundle (granter : Key) (coins : Nat) (repoUid : String) (keyVersion : Int32)
    (recipientFingerprint keyMaterialB64 : String) (timestampUnix : Int64) :
    Except CryptoError GrantBundle :=
  buildSignedRepoGrantBundle S fingerprint granter coins
    ⟨repoUid, keyVersion, recipientFingerprint, keyMaterialB64, timestampUnix, none⟩

def buildSignedDelegatedGrantBundle (granter : Key) (coins : Nat) (repoUid : String)
    (keyVersion : Int32) (recipientFingerprint keyMaterialB64 : String) (timestampUnix : Int64)
    (delegation : GrantDelegation) : Except CryptoError GrantBundle :=
  buildSignedRepoGrantBundle S fingerprint granter coins
    ⟨repoUid, keyVersion, recipientFingerprint, keyMaterialB64, timestampUnix, some delegation⟩

end

/-- Everything `sign_data` is called for. -/
inductive SigningAct where
  | answer (purpose : ChallengePurpose) (challenge : String)
  | grant (g : RepoKeyGrant)
  | bundle (r : GrantRequest)
  | manifest (state : ManifestState) (payload : BroadcastPayload)

section

variable {Key : Type} (fingerprint : Key → String) (rfc3339 : DateTime → String)

/-- The bytes the act signs, a challenge that is no nonce being refused. -/
def SigningAct.message (k : Key) : SigningAct → Except EngineError Bytes
  | .answer purpose challenge =>
    (challengeSigningPayload purpose challenge).mapError EngineError.ofPasskey
  | .grant g => .ok g.canonical
  | .bundle r => .ok (r.message fingerprint k)
  | .manifest state payload => .ok (IncidentManifest.draft rfc3339 state payload).signedBytes

def Statement.ofGrant (g : RepoKeyGrant) : Option GrantDelegation → Statement
  | none => .grant g
  | some delegation => .delegatedGrant g delegation

def SigningAct.statement (k : Key) : SigningAct → Statement
  | .answer purpose challenge => .challenge purpose challenge
  | .grant g => .grant g
  | .bundle r => .ofGrant (r.grant (normalizeFingerprint (fingerprint k))) r.delegation
  | .manifest state payload =>
    .incidentManifest (IncidentManifest.draft rfc3339 state payload).envelope

/-- What the keys have signed when these acts are over, in any order of their holders. -/
def signedBy (run : List (Key × SigningAct)) : Set (Key × Bytes) :=
  {e | ∃ act, (e.1, act) ∈ run ∧ act.message fingerprint rfc3339 e.1 = .ok e.2}

end

/-- The kinds a shared key signs in some act. -/
def Kind.signedByActs : Kind → Bool
  | .grant => true
  | .delegatedGrant => true
  | .incidentManifest => true
  | .challenge _ => true
  | .succession => false
  | .firstKeyEvidence => false
  | .deviceCertificate => false
  | .revocationCertificate => false
  | .broadcast => false

section

variable {Key Cert : Type} {S : Scheme Key Cert CryptoError} {fingerprint : Key → String}
  {rfc3339 : DateTime → String} {sha256 : Bytes → Bytes} {run : List (Key × SigningAct)}
  {seen : Set Bytes} {k : Key}

theorem Statement.ofGrant_bytes (sha256 : Bytes → Bytes) (rfc3339 : DateTime → String)
    (g : RepoKeyGrant) (delegation : Option GrantDelegation) :
    (Statement.ofGrant g delegation).bytes sha256 rfc3339 =
    g.canonicalWithDelegation delegation := by
  cases delegation with
  | none => rfl
  | some delegation => rfl

theorem Statement.ofGrant_signedByActs (g : RepoKeyGrant) (delegation : Option GrantDelegation) :
    (Statement.ofGrant g delegation).kind.signedByActs = true := by
  cases delegation with
  | none => rfl
  | some delegation => rfl

theorem SigningAct.message_ok (sha256 : Bytes → Bytes) {act : SigningAct} {b : Bytes}
    (h : act.message fingerprint rfc3339 k = .ok b) :
    b = (act.statement fingerprint rfc3339 k).bytes sha256 rfc3339 := by
  cases act with
  | answer purpose challenge =>
    rw [message] at h
    exact challengeSigningPayload_ok (mapError_ok h)
  | grant g => exact (Except.ok.inj h).symm
  | bundle r =>
    have hmessage : r.message fingerprint k = b := Except.ok.inj h
    rw [← hmessage, statement, Statement.ofGrant_bytes, GrantRequest.message]
  | manifest state payload => exact (Except.ok.inj h).symm

theorem SigningAct.statement_kind (fingerprint : Key → String)
    (rfc3339 : DateTime → String) (k : Key) (act : SigningAct) :
    (act.statement fingerprint rfc3339 k).kind.signedByActs = true := by
  cases act with
  | answer purpose challenge => rfl
  | grant g => rfl
  | bundle r =>
    rw [statement]
    exact Statement.ofGrant_signedByActs _ _
  | manifest state payload => rfl

/-- A signature that verifies over a statement's bytes was made in an act for those bytes. -/
theorem act_of_verified (x : Statement) (sha256 : Bytes → Bytes)
    (hS : S.Ideal (signedBy fingerprint rfc3339 run) seen) {σ : Bytes}
    (hσ : σ ∈ seen) (hverify : S.verify (S.cert k) (x.bytes sha256 rfc3339) σ = .ok true) :
    ∃ act, (k, act) ∈ run ∧ (act.statement fingerprint rfc3339 k).kind = x.kind ∧
      (act.statement fingerprint rfc3339 k).bytes sha256 rfc3339 = x.bytes sha256 rfc3339 := by
  obtain ⟨act, hact, hmessage⟩ := hS.unforgeable σ hσ k _ hverify
  have hbytes := SigningAct.message_ok sha256 hmessage
  exact ⟨act, hact, (Statement.kind_unique hbytes).symm, hbytes.symm⟩

theorem colon_mem_lpFields (tag : String) (fields : List String) :
    58 ∈ lpFields (tag :: fields) := by
  rw [lpFields_eq, List.flatMap_cons]
  refine List.mem_append_left _ ?_
  simp [lpPush]

/-- No signed bytes read as a nonce. -/
theorem Format.Matches.not_challenge {f : Format} {b : Bytes} {text : String} (hf : f.Matches b)
    (htext : utf8 text = b) : isWellFormedChallenge text = false := by
  have hbad : ∃ c ∈ b, ((48 ≤ c && c ≤ 57) || (97 ≤ c && c ≤ 102)) = false := by
    cases f with
    | lp tag =>
      obtain ⟨fields, rfl⟩ := hf
      exact ⟨58, colon_mem_lpFields tag fields, rfl⟩
    | cbor entries =>
      obtain ⟨hsmall, items, rfl⟩ := hf
      refine ⟨UInt8.ofNat (32 * 5 + (argument entries).1), List.mem_cons_self, ?_⟩
      simp only [argument, hsmall, if_true, Bool.or_eq_false_iff, Bool.and_eq_false_iff,
        decide_eq_false_iff_not, UInt8.le_iff_toNat_le, UInt8.toNat_ofNat']
      have hlow : (57 : UInt8).toNat = 57 := rfl
      have hhigh : (102 : UInt8).toNat = 102 := rfl
      omega
    | json =>
      obtain ⟨members, rfl⟩ := hf
      exact ⟨123, List.mem_cons_self, rfl⟩
  obtain ⟨c, hc, hnot⟩ := hbad
  unfold isWellFormedChallenge
  rw [htext, Bool.and_eq_false_iff]
  refine .inr ?_
  rw [List.all_eq_false]
  exact ⟨c, hc, by rw [hnot]; exact Bool.false_ne_true⟩

theorem signAuthChallenge_refused {coins : Nat} {purpose : ChallengePurpose} {challenge : String}
    (h : isWellFormedChallenge challenge = false) :
    signAuthChallenge S k coins purpose challenge =
      .error (.other "Challenge is not a well-formed nonce") := by
  unfold signAuthChallenge challengeSigningPayload
  rw [h]
  rfl

theorem signAuthChallenge_ok {coins : Nat} {purpose : ChallengePurpose}
    {challenge : String} {σ : Bytes} (h : signAuthChallenge S k coins purpose challenge = .ok σ) :
    ∃ payload, challengeSigningPayload purpose challenge = .ok payload ∧
      S.sign k coins payload = .ok σ := by
  unfold signAuthChallenge at h
  cases hpayload : challengeSigningPayload purpose challenge with
  | error e =>
    rw [hpayload] at h
    cases h
  | ok payload =>
    rw [hpayload] at h
    exact ⟨payload, rfl, mapError_ok h⟩

theorem signRepoKeyGrant_ok {coins : Nat} {g : RepoKeyGrant} {sigB64 : String}
    (h : signRepoKeyGrant S k coins g = .ok sigB64) :
    ∃ σ, S.sign k coins g.canonical = .ok σ ∧ sigB64 = Base64.encode σ := by
  unfold signRepoKeyGrant at h
  cases hσ : S.sign k coins g.canonical with
  | error e =>
    rw [hσ] at h
    cases h
  | ok σ =>
    rw [hσ] at h
    exact ⟨σ, rfl, (Except.ok.inj h).symm⟩

end

/-- What the verifiers make of signatures while keys are in use for all of this at once. -/
structure SigningSeparated {Key Cert : Type} (S : Scheme Key Cert CryptoError)
    (fingerprint : Key → String) (rfc3339 : DateTime → String) (sha256 : Bytes → Bytes)
    (base64Error : String → String) (fromCanonicalJson : String → Option BroadcastPayload)
    (run : List (Key × SigningAct)) (seen : Set Bytes) : Prop where
  /-- a sign-in shows that this key answered this challenge for this purpose -/
  answered : ∀ k purpose challenge payload,
    challengeSigningPayload purpose challenge = .ok payload →
    ∀ σ ∈ seen, S.verify (S.cert k) payload σ = .ok true → (k, .answer purpose challenge) ∈ run
  granted : ∀ k bundle served uid version recipient,
    (∀ σ, Base64.decode bundle.grantSigB64 = some σ → σ ∈ seen) →
    verifyGrantBundle S base64Error bundle (S.cert k) served uid version recipient = .valid →
    (bundle.delegation = none ∧ ∃ g, (k, .grant g) ∈ run ∧
      g.normalized = bundle.toGrant version recipient) ∨
      ∃ r, (k, .bundle r) ∈ run ∧ r.delegation = bundle.delegation ∧
        r.grant (normalizeFingerprint (fingerprint k)) = bundle.toGrant version recipient
  published : ∀ (publishers : List Key) (m : IncidentManifest) payload,
    (∀ σ, Base64.decode m.signature = some σ → σ ∈ seen) →
    m.trustedPayload S fromCanonicalJson (publishers.map S.cert) = .ok payload →
    ∃ k ∈ publishers, ∃ state p, (k, .manifest state p) ∈ run ∧
      m.envelope = (IncidentManifest.draft rfc3339 state p).envelope ∧
      (fromCanonicalJson (p.toCanonicalJson rfc3339) = some p → payload = p ∧ m.state = state)
  /-- and it has signed nothing else -/
  nothingElse : ∀ k (x : Statement), x.kind.signedByActs = false →
    ∀ σ ∈ seen, S.verify (S.cert k) (x.bytes sha256 rfc3339) σ ≠ .ok true
  /-- served as a challenge, the bytes of a statement are refused -/
  refused : ∀ k coins purpose text (x : Statement), utf8 text = x.bytes sha256 rfc3339 →
    signAuthChallenge S k coins purpose text =
    .error (.other "Challenge is not a well-formed nonce")
  answers : ∀ k coins purpose challenge σ, signAuthChallenge S k coins purpose challenge = .ok σ →
    ∃ payload, challengeSigningPayload purpose challenge = .ok payload ∧
      S.verify (S.cert k) payload σ = .ok true
  grants : ∀ k coins g sigB64, signRepoKeyGrant S k coins g = .ok sigB64 →
    verifyRepoKeyGrant S base64Error (S.cert k) g sigB64 = .ok true

section

variable {Key Cert : Type} {S : Scheme Key Cert CryptoError} {fingerprint : Key → String}
  {rfc3339 : DateTime → String} {run : List (Key × SigningAct)} {seen : Set Bytes} {k : Key}

theorem answered_of_verified (hS : S.Ideal (signedBy fingerprint rfc3339 run) seen)
    {purpose : ChallengePurpose} {challenge : String} {σ : Bytes} (hσ : σ ∈ seen)
    (hverify : S.verify (S.cert k) (lpFields [purpose.domain, challenge]) σ = .ok true) :
    (k, .answer purpose challenge) ∈ run := by
  obtain ⟨act, hact, hkind, hbytes⟩ :=
    act_of_verified (.challenge purpose challenge) id hS hσ hverify
  cases act with
  | answer purpose' challenge' =>
    obtain rfl : purpose' = purpose := Kind.challenge.inj hkind
    have hfields := (lpFields_tagged hbytes).2
    obtain rfl : challenge' = challenge := (List.cons.inj hfields).1
    exact hact
  | grant g => cases hkind
  | bundle r =>
    rw [SigningAct.statement] at hkind
    cases hdelegation : r.delegation with
    | none =>
      rw [hdelegation] at hkind
      cases hkind
    | some delegation =>
      rw [hdelegation] at hkind
      cases hkind
  | manifest state payload => cases hkind

theorem granted_of_verified (hS : S.Ideal (signedBy fingerprint rfc3339 run) seen)
    {g : RepoKeyGrant} {delegation : Option GrantDelegation} {σ : Bytes} (hσ : σ ∈ seen)
    (hverify : S.verify (S.cert k) (g.canonicalWithDelegation delegation) σ = .ok true) :
    (delegation = none ∧ ∃ g', (k, .grant g') ∈ run ∧ g'.normalized = g.normalized) ∨
      ∃ r, (k, .bundle r) ∈ run ∧ r.delegation = delegation ∧
        (r.grant (normalizeFingerprint (fingerprint k))).normalized = g.normalized := by
  rw [← Statement.ofGrant_bytes id rfc3339] at hverify
  obtain ⟨act, hact, hkind, hbytes⟩ := act_of_verified (.ofGrant g delegation) id hS hσ hverify
  cases act with
  | answer purpose challenge =>
    cases delegation with
    | none => cases hkind
    | some delegation => cases hkind
  | grant g' =>
    rw [Statement.ofGrant_bytes] at hbytes
    have hsame : g'.canonicalWithDelegation none = g.canonicalWithDelegation delegation := hbytes
    obtain ⟨hgrant, rfl⟩ := RepoKeyGrant.canonicalWithDelegation_injective hsame
    exact .inl ⟨rfl, g', hact, hgrant⟩
  | bundle r =>
    rw [SigningAct.statement, Statement.ofGrant_bytes, Statement.ofGrant_bytes] at hbytes
    obtain ⟨hgrant, hdelegation⟩ := RepoKeyGrant.canonicalWithDelegation_injective hbytes
    exact .inr ⟨r, hact, hdelegation, hgrant⟩
  | manifest state payload =>
    cases delegation with
    | none => cases hkind
    | some delegation => cases hkind

theorem manifest_of_verified (hS : S.Ideal (signedBy fingerprint rfc3339 run) seen)
    {envelope : ManifestEnvelope} {σ : Bytes} (hσ : σ ∈ seen)
    (hverify : S.verify (S.cert k) (incidentManifestSignedBytes envelope) σ = .ok true) :
    ∃ state p, (k, .manifest state p) ∈ run ∧
      envelope = (IncidentManifest.draft rfc3339 state p).envelope := by
  obtain ⟨act, hact, hkind, hbytes⟩ := act_of_verified (.incidentManifest envelope) id hS hσ hverify
  cases act with
  | answer purpose challenge => cases hkind
  | grant g => cases hkind
  | bundle r =>
    rw [SigningAct.statement] at hkind
    cases hdelegation : r.delegation with
    | none =>
      rw [hdelegation] at hkind
      cases hkind
    | some delegation =>
      rw [hdelegation] at hkind
      cases hkind
  | manifest state payload =>
    have hfields := (lpFields_tagged hbytes).2
    exact ⟨state, payload, hact, (ManifestEnvelope.fields_injective hfields).symm⟩

/-- However the acts of all key holders interleave, and whoever chose the challenges. -/
theorem signing_separated (hS : S.Ideal (signedBy fingerprint rfc3339 run) seen)
    (sha256 : Bytes → Bytes) (base64Error : String → String)
    (fromCanonicalJson : String → Option BroadcastPayload) :
    SigningSeparated S fingerprint rfc3339 sha256 base64Error fromCanonicalJson run seen where
  answered k purpose challenge payload hpayload σ hσ hverify := by
    rw [challengeSigningPayload_ok hpayload] at hverify
    exact answered_of_verified hS hσ hverify
  granted k bundle served uid version recipient hseen hvalid := by
    obtain ⟨_, _, _, hsig⟩ := verifyGrantBundle_valid_iff.mp hvalid
    obtain ⟨σ, hdecode, hverify⟩ := verifySignedBytes_true hsig
    rcases granted_of_verified hS (hseen σ hdecode) hverify with ⟨hnone, g, hact, hgrant⟩ |
      ⟨r, hact, hr, hgrant⟩
    · refine .inl ⟨hnone, g, hact, ?_⟩
      rw [hgrant, GrantBundle.toGrant, RepoKeyGrant.normalized_new]
    · refine .inr ⟨r, hact, hr, ?_⟩
      rw [GrantRequest.grant, RepoKeyGrant.normalized_new, GrantBundle.toGrant,
        RepoKeyGrant.normalized_new] at hgrant
      rw [GrantRequest.grant, GrantBundle.toGrant, hgrant]
  published publishers m payload hseen htrusted := by
    obtain ⟨_, ⟨σ, hdecode, hany⟩, hparsed, _⟩ := trustedPayload_ok_iff.mp htrusted
    obtain ⟨cert, hcert, hverify⟩ := anyVerifies_iff.mp hany
    obtain ⟨k, hk, rfl⟩ := List.mem_map.mp hcert
    obtain ⟨state, p, hact, henvelope⟩ := manifest_of_verified hS (hseen σ hdecode) hverify
    refine ⟨k, hk, state, p, hact, henvelope, ?_⟩
    intro hinverse
    have hpayload : m.payload = p.toCanonicalJson rfc3339 :=
      congrArg ManifestEnvelope.payload henvelope
    rw [hpayload, hinverse] at hparsed
    exact ⟨(Option.some.inj hparsed).symm, congrArg ManifestEnvelope.state henvelope⟩
  nothingElse k x hkind σ hσ hverify := by
    obtain ⟨act, _, hsame, _⟩ := act_of_verified x sha256 hS hσ hverify
    have hsigned := act.statement_kind fingerprint rfc3339 k
    rw [hsame, hkind] at hsigned
    cases hsigned
  refused k coins purpose text x htext :=
    signAuthChallenge_refused ((x.bytes_matches sha256 rfc3339).not_challenge htext)
  answers k coins purpose challenge σ h := by
    obtain ⟨payload, hpayload, hsign⟩ := signAuthChallenge_ok h
    exact ⟨payload, hpayload, hS.accepts k coins payload σ hsign⟩
  grants k coins g sigB64 h := by
    obtain ⟨σ, hsign, rfl⟩ := signRepoKeyGrant_ok h
    rw [verifyRepoKeyGrant, verifySignedBytes_encode (hS.nonempty k coins _ σ hsign)]
    exact hS.accepts k coins _ σ hsign

end

/-- Two keys in use: one signs in and grants a repository, the other signs in. -/
def servedChallenge : String :=
  "00112233445566778899aabbccddeeff00112233445566778899aabbccddeeff"

def oracleGrant : RepoKeyGrant := ⟨"uid-1", 3, "BB22", "AA11", "V0s=", 1750000000⟩

def oracleRun : List (UInt8 × SigningAct) :=
  [(1, .answer .login servedChallenge), (2, .answer .registrationProof servedChallenge),
    (1, .grant oracleGrant)]

theorem signing_separated_sample :
    (1, .answer .login servedChallenge) ∈ oracleRun ∧
      signAuthChallenge (Scheme.transcript CryptoError) 1 0 .login
        "11:gc-grant-v2\n5:uid-1\n1:3\n4:BB22\n4:AA11\n4:V0s=\n10:1750000000\n" =
        .error (.other "Challenge is not a well-formed nonce") := by
  have hideal :=
    Scheme.transcript_ideal (ε := CryptoError) (signedBy (fun _ => "AA11") timeArray oracleRun)
  have hseparated := signing_separated hideal id (fun _ => "") fun _ => none
  have hpayload : challengeSigningPayload .login servedChallenge =
      .ok (lpFields [ChallengePurpose.login.domain, servedChallenge]) := by decide +kernel
  constructor
  · refine hseparated.answered 1 .login servedChallenge _ hpayload
      (1 :: lpFields [ChallengePurpose.login.domain, servedChallenge]) ?_ ?_
    · refine ⟨(1, lpFields [ChallengePurpose.login.domain, servedChallenge]), ?_, rfl⟩
      refine ⟨.answer .login servedChallenge, List.mem_cons_self, ?_⟩
      rw [SigningAct.message, hpayload]
      rfl
    · simp [Scheme.transcript]
  · refine hseparated.refused 1 0 .login _ (.grant oracleGrant) ?_
    decide +kernel

end GitCellar
