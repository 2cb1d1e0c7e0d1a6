import GitCellar.Canonical
import GitCellar.Json
import Mathlib.Data.List.Basic

/-! Broadcast payloads as canonical JSON, and the bytes an incident manifest
signs over its envelope. -/

namespace GitCellar

open Json Utf8

def incidentManifestVersion : UInt32 := 2

def broadcastPayloadVersion : UInt32 := 1

def incidentManifestDomain : String := "gitcellar/incident-manifest/v2"

/-- A `DateTime<Utc>`: seconds since the epoch and nanoseconds. -/
structure DateTime where
  seconds : Int
  nanos : Nat
  deriving DecidableEq, Repr

def DateTime.before (s t : DateTime) : Bool :=
  s.seconds < t.seconds || (s.seconds == t.seconds && s.nanos < t.nanos)

inductive BroadcastTier where
  | incident
  | warning
  | announcement
  deriving DecidableEq, Repr

def BroadcastTier.asStr : BroadcastTier → String
  | .incident => "incident"
  | .warning => "warning"
  | .announcement => "announcement"

structure BroadcastTargeting where
  minVersion : Option String
  platform : Option (List String)
  planType : Option (List String)
  emailVerified : Option Bool
  deriving DecidableEq, Repr

structure BroadcastPayload where
  v : UInt32
  id : String
  tier : BroadcastTier
  title : String
  body : String
  actionUrl : Option String
  issuedAt : DateTime
  expiresAt : Option DateTime
  seq : Int64
  signerFingerprint : String
  targeting : Option BroadcastTargeting
  deriving DecidableEq, Repr

inductive ManifestState where
  | active
  | clear
  deriving DecidableEq, Repr

def ManifestState.asStr : ManifestState → String
  | .active => "active"
  | .clear => "clear"

def strings (xs : List String) : Value := .arr (Items.ofList (xs.map Value.str))

def BroadcastTargeting.members (t : BroadcastTargeting) : List (String × Value) :=
  optionalMember "min_version" (t.minVersion.map Value.str) ++
    (optionalMember "platform" (t.platform.map strings) ++
      (optionalMember "plan_type" (t.planType.map strings) ++
        optionalMember "email_verified" (t.emailVerified.map Value.bool)))

def BroadcastTargeting.toValue (t : BroadcastTargeting) : Value := .obj (Members.ofList t.members)

section

variable (rfc3339 : DateTime → String)

/-- The members in declaration order, an absent one left out. -/
def BroadcastPayload.members (p : BroadcastPayload) : List (String × Value) :=
  [("v", .num p.v.toNat), ("id", .str p.id), ("tier", .str p.tier.asStr), ("title", .str p.title),
    ("body", .str p.body)] ++
  (optionalMember "action_url" (p.actionUrl.map Value.str) ++
    (("issued_at", .str (rfc3339 p.issuedAt)) ::
      (optionalMember "expires_at" (p.expiresAt.map fun t => .str (rfc3339 t)) ++
        (("seq", .num p.seq.toInt) :: ("signer_fingerprint", .str p.signerFingerprint) ::
          optionalMember "targeting" (p.targeting.map BroadcastTargeting.toValue)))))

def BroadcastPayload.toValue (p : BroadcastPayload) : Value :=
  .obj (Members.ofList (p.members rfc3339))

def BroadcastPayload.toCanonicalJson (p : BroadcastPayload) : String := (p.toValue rfc3339).toText

end

/-- What an incident manifest signs of its envelope. -/
structure ManifestEnvelope where
  manifestV : UInt32
  state : ManifestState
  seq : Int64
  signerFingerprint : String
  payload : String
  deriving DecidableEq, Repr

def ManifestEnvelope.fields (m : ManifestEnvelope) : List String :=
  [toString m.manifestV, m.state.asStr, toString m.seq, m.signerFingerprint, m.payload]

def incidentManifestSignedBytes (m : ManifestEnvelope) : Bytes :=
  lpFields (incidentManifestDomain :: m.fields)

theorem ManifestState.asStr_injective {s t : ManifestState} (h : s.asStr = t.asStr) : s = t := by
  revert h
  cases s <;> cases t <;> decide

theorem ManifestEnvelope.fields_injective {m n : ManifestEnvelope} (h : m.fields = n.fields) :
    m = n := by
  cases m
  cases n
  simp only [fields, List.cons.injEq, and_true] at h
  obtain ⟨hversion, hstate, hseq, rfl, rfl⟩ := h
  rw [toString_uint32_injective hversion, ManifestState.asStr_injective hstate,
    toString_int64_injective hseq]

theorem BroadcastTier.asStr_injective {s t : BroadcastTier} (h : s.asStr = t.asStr) : s = t := by
  revert h
  cases s <;> cases t <;> decide

theorem str_injective : Function.Injective Value.str := fun _ _ h => Value.str.inj h

theorem bool_injective : Function.Injective Value.bool := fun _ _ h => Value.bool.inj h

theorem strings_injective : Function.Injective strings := by
  intro xs ys h
  have hitems := Items.ofList_injective (Value.arr.inj h)
  exact List.map_injective_iff.mpr str_injective hitems

theorem BroadcastTargeting.toValue_injective : Function.Injective BroadcastTargeting.toValue := by
  intro t u h
  have hmembers := Members.ofList_injective (Value.obj.inj h)
  have hfield : ∀ k, t.members.lookup k = u.members.lookup k := fun k => by rw [hmembers]
  have hmin := hfield "min_version"
  have hplatform := hfield "platform"
  have hplan := hfield "plan_type"
  have hverified := hfield "email_verified"
  simp [members, List.lookup_append, lookup_optionalMember] at hmin hplatform hplan hverified
  cases t
  cases u
  simp only [BroadcastTargeting.mk.injEq]
  exact ⟨Option.map_injective str_injective hmin, Option.map_injective strings_injective hplatform,
    Option.map_injective strings_injective hplan, Option.map_injective bool_injective hverified⟩

section

variable {rfc3339 : DateTime → String} (hrfc : Function.Injective rfc3339)

include hrfc

theorem BroadcastPayload.toValue_injective :
    Function.Injective (BroadcastPayload.toValue rfc3339) := by
  intro p q h
  have hmembers := Members.ofList_injective (Value.obj.inj h)
  have hfield : ∀ k, (p.members rfc3339).lookup k = (q.members rfc3339).lookup k :=
    fun k => by rw [hmembers]
  have hv := hfield "v"
  have hid := hfield "id"
  have htier := hfield "tier"
  have htitle := hfield "title"
  have hbody := hfield "body"
  have hurl := hfield "action_url"
  have hissued := hfield "issued_at"
  have hexpires := hfield "expires_at"
  have hseq := hfield "seq"
  have hsigner := hfield "signer_fingerprint"
  have htargeting := hfield "targeting"
  simp [members, List.lookup_cons] at hv hid htier htitle hbody
  simp [members, List.lookup_append, List.lookup_cons, lookup_optionalMember]
    at hurl hissued hexpires
  simp [members, List.lookup_append, List.lookup_cons, lookup_optionalMember]
    at hseq hsigner htargeting
  have hstr : Function.Injective fun t => Value.str (rfc3339 t) := str_injective.comp hrfc
  cases p
  cases q
  simp only [BroadcastPayload.mk.injEq]
  exact ⟨UInt32.toNat_inj.mp hv, hid, BroadcastTier.asStr_injective htier, htitle, hbody,
    Option.map_injective str_injective hurl, hrfc hissued, Option.map_injective hstr hexpires,
    Int64.toInt_inj.mp hseq, hsigner,
    Option.map_injective BroadcastTargeting.toValue_injective htargeting⟩

end

end GitCellar
