import GitCellar.Broadcast
import GitCellar.Certificates
import GitCellar.IdentitySuccession

/-! Everything the shared keys sign, and that signed bytes name their statement:
a signature never carries over to another kind or to other fields. -/

namespace GitCellar

open Cbor Decimal Json Utf8

inductive ChallengePurpose where
  | login
  | registrationProof
  deriving DecidableEq, Repr

def ChallengePurpose.domain : ChallengePurpose → String
  | .login => "gc-auth-login-v1"
  | .registrationProof => "gc-auth-registration-pop-v1"

def isWellFormedChallenge (challenge : String) : Bool :=
  (utf8 challenge).length == 64 &&
    (utf8 challenge).all fun b => (48 ≤ b && b ≤ 57) || (97 ≤ b && b ≤ 102)

/-- The loop of `challenge_signing_payload`, with an encoder of its own. -/
def challengeFields (fields : List String) : Bytes := Id.run do
  let mut out := []
  for field in fields do
    out := out ++ utf8 (toString (utf8 field).length)
    out := out ++ [58]
    out := out ++ utf8 field
    out := out ++ [10]
  return out

def challengeSigningPayload (purpose : ChallengePurpose) (challenge : String) :
    Except PasskeyError Bytes := do
  if !isWellFormedChallenge challenge then throw .invalidChallenge
  return challengeFields [purpose.domain, challenge]

/-- A statement of one of the signed kinds. -/
inductive Statement where
  | grant (g : RepoKeyGrant)
  | delegatedGrant (g : RepoKeyGrant) (delegation : GrantDelegation)
  | incidentManifest (m : ManifestEnvelope)
  | challenge (purpose : ChallengePurpose) (nonce : String)
  | succession (s : IdentitySuccession)
  | firstKeyEvidence (e : FirstKeyEvidence)
  | deviceCertificate (p : DeviceCertificatePayload)
  | revocationCertificate (p : RevocationCertificatePayload)
  | broadcast (p : BroadcastPayload)
  deriving DecidableEq

inductive SigningRefusal where
  | passkey (e : PasskeyError)
  | succession (e : SuccessionError)
  | cert (e : CertError)
  deriving DecidableEq, Repr

section

variable (sha256 : Bytes → Bytes) (rfc3339 : DateTime → String)

/-- The bytes the statement's builder signs, or its refusal. -/
def Statement.signedBytes : Statement → Except SigningRefusal Bytes
  | .grant g => .ok g.canonical
  | .delegatedGrant g delegation => .ok (g.canonicalWithDelegation (some delegation))
  | .incidentManifest m => .ok (incidentManifestSignedBytes m)
  | .challenge purpose nonce => (challengeSigningPayload purpose nonce).mapError .passkey
  | .succession s => s.signedBytes.mapError .succession
  | .firstKeyEvidence e => .ok (firstKeyEvidenceCanonical sha256 e)
  | .deviceCertificate p => p.signedBytes.mapError .cert
  | .revocationCertificate p => .ok p.encode
  | .broadcast p => .ok (utf8 (p.toCanonicalJson rfc3339))

end

/-- The statement after the normalisation its kind applies. -/
def Statement.normalized : Statement → Statement
  | .grant g => .grant g.normalized
  | .delegatedGrant g delegation => .delegatedGrant g.normalized delegation
  | .succession s => .succession s.normalized
  | x => x

/-- How the bytes of a kind begin: a tag, a map of so many entries, an object. -/
inductive Format where
  | lp (tag : String)
  | cbor (entries : Nat)
  | json
  deriving DecidableEq

def Format.Matches : Format → Bytes → Prop
  | .lp tag, b => ∃ fields, b = lpFields (tag :: fields)
  | .cbor entries, b => entries < 24 ∧ ∃ items, b = mapOf entries items
  | .json, b => ∃ members, b = (Value.obj members).print

inductive Kind where
  | grant
  | delegatedGrant
  | incidentManifest
  | challenge (purpose : ChallengePurpose)
  | succession
  | firstKeyEvidence
  | deviceCertificate
  | revocationCertificate
  | broadcast
  deriving DecidableEq, Repr

def Statement.kind : Statement → Kind
  | .grant _ => .grant
  | .delegatedGrant _ _ => .delegatedGrant
  | .incidentManifest _ => .incidentManifest
  | .challenge purpose _ => .challenge purpose
  | .succession _ => .succession
  | .firstKeyEvidence _ => .firstKeyEvidence
  | .deviceCertificate _ => .deviceCertificate
  | .revocationCertificate _ => .revocationCertificate
  | .broadcast _ => .broadcast

def Kind.format : Kind → Format
  | .grant => .lp grantCanonicalVersion
  | .delegatedGrant => .lp delegatedGrantCanonicalVersion
  | .incidentManifest => .lp incidentManifestDomain
  | .challenge purpose => .lp purpose.domain
  | .succession => .lp identitySuccessionVersion
  | .firstKeyEvidence => .lp firstKeyEvidenceVersion
  | .deviceCertificate => .cbor 8
  | .revocationCertificate => .cbor 7
  | .broadcast => .json

theorem Kind.format_injective {k l : Kind} (h : k.format = l.format) : k = l := by
  revert h
  cases k with
  | challenge purpose => cases purpose <;> cases l with
    | challenge purpose' => cases purpose' <;> decide
    | _ => decide
  | _ => cases l with
    | challenge purpose' => cases purpose' <;> decide
    | _ => decide

theorem lp_ne_cbor {tag : String} {fields : List String} {entries : Nat} {items : List Item}
    (hsmall : entries < 24) : lpFields (tag :: fields) ≠ mapOf entries items := by
  intro h
  obtain ⟨c, rest, hc, hdigit⟩ := lpFields_head tag fields
  rw [hc, mapOf, head, List.cons_append] at h
  obtain rfl := (List.cons.inj h).1
  simp only [isDigit, Bool.and_eq_true, decide_eq_true_eq, UInt8.le_iff_toNat_le,
    UInt8.toNat_ofNat', argument, hsmall, if_true] at hdigit
  have hhi : (57 : UInt8).toNat = 57 := rfl
  omega

theorem lp_ne_json {tag : String} {fields : List String} {members : Members} :
    lpFields (tag :: fields) ≠ (Value.obj members).print := by
  intro h
  obtain ⟨c, rest, hc, hdigit⟩ := lpFields_head tag fields
  rw [hc, Value.print] at h
  obtain rfl := (List.cons.inj h).1
  cases hdigit

theorem cbor_ne_json {entries : Nat} {items : List Item} {members : Members}
    (hsmall : entries < 24) : mapOf entries items ≠ (Value.obj members).print := by
  intro h
  rw [mapOf, head, List.cons_append, Value.print] at h
  have hbyte := congrArg UInt8.toNat (List.cons.inj h).1
  simp only [UInt8.toNat_ofNat', argument, hsmall, if_true] at hbyte
  have hbrace : (123 : UInt8).toNat = 123 := rfl
  omega

theorem Format.unique {f g : Format} {b : Bytes} (hf : f.Matches b) (hg : g.Matches b) : f = g := by
  cases f with
  | lp tag =>
    obtain ⟨fields, rfl⟩ := hf
    cases g with
    | lp tag' =>
      obtain ⟨fields', h⟩ := hg
      exact congrArg Format.lp (lpFields_tagged h).1
    | cbor entries =>
      obtain ⟨hsmall, items, h⟩ := hg
      exact absurd h (lp_ne_cbor hsmall)
    | json =>
      obtain ⟨members, h⟩ := hg
      exact absurd h lp_ne_json
  | cbor entries =>
    obtain ⟨hsmall, items, rfl⟩ := hf
    cases g with
    | lp tag =>
      obtain ⟨fields, h⟩ := hg
      exact absurd h.symm (lp_ne_cbor hsmall)
    | cbor entries' =>
      obtain ⟨hsmall', items', h⟩ := hg
      exact congrArg Format.cbor (mapOf_unique (by omega) (by omega) h).1
    | json =>
      obtain ⟨members, h⟩ := hg
      exact absurd h (cbor_ne_json hsmall)
  | json =>
    obtain ⟨members, rfl⟩ := hf
    cases g with
    | lp tag =>
      obtain ⟨fields, h⟩ := hg
      exact absurd h.symm lp_ne_json
    | cbor entries =>
      obtain ⟨hsmall, items, h⟩ := hg
      exact absurd h.symm (cbor_ne_json hsmall)
    | json => rfl

theorem challengeFields_eq (fields : List String) : challengeFields fields = lpFields fields := by
  rw [challengeFields, lpFields]
  exact List.idRun_forIn_yield_eq_foldl fields (fun field out => lpPush out field) []

theorem challengeSigningPayload_ok {purpose : ChallengePurpose} {challenge : String} {b : Bytes}
    (h : challengeSigningPayload purpose challenge = .ok b) :
    b = lpFields [purpose.domain, challenge] := by
  rw [← challengeFields_eq]
  cases hform : isWellFormedChallenge challenge with
  | true =>
    rw [challengeSigningPayload, hform] at h
    exact (Except.ok.inj h).symm
  | false =>
    rw [challengeSigningPayload, hform] at h
    cases h

/-- The encoding of a list of fields is read back field by field, whatever the fields hold, and
the encoder of the challenges is the shared one. -/
theorem lpFields_uniquely_decodable :
    (∀ xs ys : List String, lpFields xs <+: lpFields ys → xs <+: ys) ∧
    (∀ xs ys : List String, lpFields xs = lpFields ys → xs = ys) ∧
    (∀ fields : List String, challengeFields fields = lpFields fields) ∧
    ∀ purpose challenge, challengeSigningPayload purpose challenge =
      if isWellFormedChallenge challenge then .ok (lpPush (lpPush [] purpose.domain) challenge)
      else .error .invalidChallenge := by
  refine ⟨fun xs ys => lpFields_prefix, fun xs ys => lpFields_injective, challengeFields_eq, ?_⟩
  intro purpose challenge
  rw [challengeSigningPayload, challengeFields_eq]
  cases isWellFormedChallenge challenge with
  | true => rfl
  | false => rfl

/-- Fields that look like a length and its separator. -/
theorem lpFields_decodable_sample : ["2:", "a\n"] <+: ["2:", "a\n", ":"] :=
  lpFields_uniquely_decodable.1 _ _ (by decide +kernel)

theorem mapError_ok {ε ε' α : Type} {f : ε → ε'} {r : Except ε α} {a : α}
    (h : r.mapError f = .ok a) : r = .ok a := by
  cases r with
  | error e => cases h
  | ok x => exact congrArg Except.ok (Except.ok.inj h)

section

variable {sha256 : Bytes → Bytes} {rfc3339 : DateTime → String}

/-- The signed bytes, the builder having accepted the statement. -/
def Statement.bytes (sha256 : Bytes → Bytes) (rfc3339 : DateTime → String) : Statement → Bytes
  | .grant g => g.canonical
  | .delegatedGrant g delegation => g.canonicalWithDelegation (some delegation)
  | .incidentManifest m => incidentManifestSignedBytes m
  | .challenge purpose nonce => lpFields [purpose.domain, nonce]
  | .succession s => s.canonical
  | .firstKeyEvidence e => firstKeyEvidenceCanonical sha256 e
  | .deviceCertificate p => p.encode
  | .revocationCertificate p => p.encode
  | .broadcast p => utf8 (p.toCanonicalJson rfc3339)

theorem Statement.signedBytes_ok {x : Statement} {b : Bytes}
    (h : x.signedBytes sha256 rfc3339 = .ok b) : b = x.bytes sha256 rfc3339 := by
  cases x with
  | challenge purpose nonce =>
    rw [signedBytes] at h
    exact challengeSigningPayload_ok (mapError_ok h)
  | succession s =>
    rw [signedBytes] at h
    exact IdentitySuccession.signedBytes_ok (mapError_ok h)
  | deviceCertificate p =>
    rw [signedBytes] at h
    exact DeviceCertificatePayload.signedBytes_ok (mapError_ok h)
  | _ =>
    simp only [signedBytes, Except.ok.injEq] at h
    rw [← h, bytes]

theorem Statement.bytes_matches (sha256 : Bytes → Bytes) (rfc3339 : DateTime → String)
    (x : Statement) :
    x.kind.format.Matches (x.bytes sha256 rfc3339) := by
  cases x with
  | grant g => exact ⟨_, rfl⟩
  | delegatedGrant g delegation => exact ⟨_, rfl⟩
  | incidentManifest m => exact ⟨_, rfl⟩
  | challenge purpose nonce => exact ⟨_, rfl⟩
  | succession s => exact ⟨_, rfl⟩
  | firstKeyEvidence e => exact ⟨_, rfl⟩
  | deviceCertificate p => exact ⟨by decide, _, rfl⟩
  | revocationCertificate p => exact ⟨by decide, _, rfl⟩
  | broadcast p => exact ⟨_, Value.utf8_toText _⟩

theorem Statement.kind_unique {x y : Statement}
    (h : x.bytes sha256 rfc3339 = y.bytes sha256 rfc3339) : x.kind = y.kind := by
  have hx := x.bytes_matches sha256 rfc3339
  have hy := y.bytes_matches sha256 rfc3339
  rw [h] at hx
  exact Kind.format_injective (Format.unique hx hy)

/-- The certificates a statement commits to by digest only. -/
def Statement.hashed : Statement → List Bytes
  | .firstKeyEvidence e => [e.certificateCbor]
  | _ => []

theorem Statement.bytes_injective {x y : Statement} (hrfc : Function.Injective rfc3339)
    (hsha : ∀ c ∈ x.hashed, ∀ c' ∈ y.hashed, sha256 c = sha256 c' → c = c')
    (h : x.bytes sha256 rfc3339 = y.bytes sha256 rfc3339) : x.normalized = y.normalized := by
  have hkind := kind_unique h
  cases x with
  | grant g =>
    cases y with
    | grant g' =>
      simp only [bytes] at h
      have hfields := (lpFields_tagged h).2
      exact congrArg Statement.grant (RepoKeyGrant.fields_injective hfields)
    | _ => cases hkind
  | delegatedGrant g delegation =>
    cases y with
    | delegatedGrant g' delegation' =>
      simp only [bytes] at h
      obtain ⟨hgrant, hdelegation⟩ := RepoKeyGrant.canonicalWithDelegation_injective h
      rw [normalized, normalized, hgrant, Option.some.inj hdelegation]
    | _ => cases hkind
  | incidentManifest m =>
    cases y with
    | incidentManifest m' =>
      simp only [bytes] at h
      have hfields := (lpFields_tagged h).2
      exact congrArg Statement.incidentManifest (ManifestEnvelope.fields_injective hfields)
    | _ => cases hkind
  | challenge purpose nonce =>
    cases y with
    | challenge purpose' nonce' =>
      simp only [bytes] at h
      obtain rfl := Kind.challenge.inj hkind
      have hfields := (lpFields_tagged h).2
      rw [(List.cons.inj hfields).1]
    | _ => cases hkind
  | succession s =>
    cases y with
    | succession s' =>
      simp only [bytes] at h
      have hfields := (lpFields_tagged h).2
      exact congrArg Statement.succession (IdentitySuccession.fields_injective hfields)
    | _ => cases hkind
  | firstKeyEvidence e =>
    cases y with
    | firstKeyEvidence e' =>
      simp only [bytes] at h
      have hfields := (lpFields_tagged h).2
      have hcert := hsha e.certificateCbor (by simp [hashed]) e'.certificateCbor (by simp [hashed])
      exact congrArg Statement.firstKeyEvidence (FirstKeyEvidence.fields_injective hcert hfields)
    | _ => cases hkind
  | deviceCertificate p =>
    cases y with
    | deviceCertificate p' =>
      simp only [bytes] at h
      exact congrArg Statement.deviceCertificate (DeviceCertificatePayload.encode_injective h)
    | _ => cases hkind
  | revocationCertificate p =>
    cases y with
    | revocationCertificate p' =>
      simp only [bytes] at h
      exact congrArg Statement.revocationCertificate
        (RevocationCertificatePayload.encode_injective h)
    | _ => cases hkind
  | broadcast p =>
    cases y with
    | broadcast p' =>
      simp only [bytes] at h
      have hvalue := Value.print_injective h
      exact congrArg Statement.broadcast (BroadcastPayload.toValue_injective hrfc hvalue)
    | _ => cases hkind

/-- What a genuine signature verifies over is the one message it was made for. -/
def OneMessage (accepts : Bytes → Prop) : Prop := ∀ b b', accepts b → accepts b' → b = b'

/-- Equal signed bytes come from one statement, so a signature made for one
verifies for no other. -/
theorem signedBytes_name_statement {x y : Statement} {b b' : Bytes}
    (hrfc : Function.Injective rfc3339)
    (hsha : ∀ c ∈ x.hashed, ∀ c' ∈ y.hashed, sha256 c = sha256 c' → c = c')
    (hx : x.signedBytes sha256 rfc3339 = .ok b) (hy : y.signedBytes sha256 rfc3339 = .ok b') :
    (b = b' → x.kind = y.kind ∧ x.normalized = y.normalized) ∧
      ∀ accepts, OneMessage accepts → accepts b → accepts b' →
        x.kind = y.kind ∧ x.normalized = y.normalized := by
  have hsame : b = b' → x.kind = y.kind ∧ x.normalized = y.normalized := by
    intro hbytes
    rw [Statement.signedBytes_ok hx, Statement.signedBytes_ok hy] at hbytes
    exact ⟨Statement.kind_unique hbytes, Statement.bytes_injective hrfc hsha hbytes⟩
  refine ⟨hsame, ?_⟩
  intro accepts hone hb hb'
  exact hsame (hone b b' hb hb')

end

/-- A stand-in for the time format: the two numbers as a JSON array. -/
def timeArray (t : DateTime) : String :=
  (Value.arr (Items.ofList [.num t.seconds, .num t.nanos])).toText

theorem timeArray_injective : Function.Injective timeArray := by
  intro s t h
  have hvalue := Value.print_injective (congrArg utf8 h)
  have hitems := Items.ofList_injective (Value.arr.inj hvalue)
  simp only [List.cons.injEq, Value.num.injEq, and_true] at hitems
  cases s
  cases t
  rw [DateTime.mk.injEq]
  exact ⟨hitems.1, Int.ofNat_inj.mp hitems.2⟩

/-- One succession in two renderings, and its signed bytes. -/
def spacedSuccession : Statement :=
  .succession ⟨" Alice@Example.com", "aa11 bb22", "cc33 dd44", 2, 1750000000⟩

def plainSuccession : Statement :=
  .succession ⟨"alice@example.com", "AA11BB22", "CC33DD44", 2, 1750000000⟩

def successionBytes : Bytes :=
  lpFields
    ["gc-identity-succession-v1", "alice@example.com", "AA11BB22", "CC33DD44", "2", "1750000000"]

theorem signedBytes_name_statement_sample :
    spacedSuccession.normalized = plainSuccession.normalized := by
  have hx : spacedSuccession.signedBytes id timeArray = .ok successionBytes := by decide +kernel
  have hy : plainSuccession.signedBytes id timeArray = .ok successionBytes := by decide +kernel
  have hnone : ∀ c ∈ spacedSuccession.hashed, ∀ c' ∈ plainSuccession.hashed,
      id c = id c' → c = c' :=
    fun c hc => nomatch hc
  exact ((signedBytes_name_statement timeArray_injective hnone hx hy).1 rfl).2

end GitCellar
