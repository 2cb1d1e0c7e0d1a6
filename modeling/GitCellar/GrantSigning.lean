import GitCellar.Canonical
import GitCellar.Unicode

/-! The repo-key grant, the delegation it may carry, and the bytes a granter
signs for them. -/

namespace GitCellar

def grantCanonicalVersion : String := "gc-grant-v2"

def delegatedGrantCanonicalVersion : String := "gc-grant-delegated-v2"

def normalizeFingerprint (fingerprint : String) : String :=
  String.ofList (Unicode.stripUpper fingerprint.toList)

theorem normalizeFingerprint_idem (fingerprint : String) :
    normalizeFingerprint (normalizeFingerprint fingerprint) = normalizeFingerprint fingerprint := by
  rw [normalizeFingerprint, normalizeFingerprint, String.toList_ofList, Unicode.stripUpper_idem]

structure RepoKeyGrant where
  repoUid : String
  keyVersion : Int32
  recipientFingerprint : String
  granterFingerprint : String
  keyMaterialB64 : String
  timestampUnix : Int64
  deriving DecidableEq

structure GrantDelegation where
  repoUid : String
  delegateAccount : String
  delegateFingerprint : String
  keyVersion : UInt32
  timestampUnix : Int64
  expiresAtUnix : Int64
  delegationSigB64 : String
  deriving DecidableEq

def RepoKeyGrant.new (repoUid : String) (keyVersion : Int32)
    (recipientFingerprint granterFingerprint keyMaterialB64 : String) (timestampUnix : Int64) :
    RepoKeyGrant where
  repoUid := repoUid
  keyVersion := keyVersion
  recipientFingerprint := normalizeFingerprint recipientFingerprint
  granterFingerprint := normalizeFingerprint granterFingerprint
  keyMaterialB64 := keyMaterialB64
  timestampUnix := timestampUnix

/-- The six fields both canonicals sign, in order. -/
def RepoKeyGrant.fields (g : RepoKeyGrant) : List String :=
  [g.repoUid, toString g.keyVersion, normalizeFingerprint g.recipientFingerprint,
    normalizeFingerprint g.granterFingerprint, g.keyMaterialB64, toString g.timestampUnix]

def GrantDelegation.fields (d : GrantDelegation) : List String :=
  [d.repoUid, d.delegateAccount, d.delegateFingerprint, toString d.keyVersion,
    toString d.timestampUnix, toString d.expiresAtUnix, d.delegationSigB64]

def RepoKeyGrant.canonical (g : RepoKeyGrant) : Bytes :=
  lpFields (grantCanonicalVersion :: g.fields)

def RepoKeyGrant.canonicalWithDelegation (g : RepoKeyGrant) (delegation : Option GrantDelegation) :
    Bytes :=
  match delegation with
  | none => g.canonical
  | some del => lpFields (delegatedGrantCanonicalVersion :: (g.fields ++ del.fields))

def RepoKeyGrant.normalized (g : RepoKeyGrant) : RepoKeyGrant :=
  RepoKeyGrant.new g.repoUid g.keyVersion g.recipientFingerprint g.granterFingerprint
    g.keyMaterialB64 g.timestampUnix

@[simp] theorem RepoKeyGrant.normalized_new (repoUid : String) (keyVersion : Int32)
    (recipient granter keyMaterialB64 : String) (timestampUnix : Int64) :
    (RepoKeyGrant.new repoUid keyVersion recipient granter keyMaterialB64
      timestampUnix).normalized =
      RepoKeyGrant.new repoUid keyVersion recipient granter keyMaterialB64 timestampUnix := by
  simp only [normalized, new, normalizeFingerprint_idem]

theorem RepoKeyGrant.fields_injective {g g' : RepoKeyGrant} (h : g.fields = g'.fields) :
    g.normalized = g'.normalized := by
  simp only [fields, List.cons.injEq, and_true] at h
  obtain ⟨huid, hversion, hrecipient, hgranter, hmaterial, htime⟩ := h
  simp only [normalized, new, RepoKeyGrant.mk.injEq]
  exact ⟨huid, toString_int32_injective hversion, hrecipient, hgranter, hmaterial,
    toString_int64_injective htime⟩

theorem GrantDelegation.fields_injective {d d' : GrantDelegation} (h : d.fields = d'.fields) :
    d = d' := by
  cases d
  cases d'
  simp only [fields, List.cons.injEq, and_true] at h
  obtain ⟨rfl, rfl, rfl, hversion, htime, hexpiry, rfl⟩ := h
  rw [toString_uint32_injective hversion, toString_int64_injective htime,
    toString_int64_injective hexpiry]

/-- The fields a granter signs under the tag, and the delegation's after them. -/
def RepoKeyGrant.signedFields (g : RepoKeyGrant) : Option GrantDelegation → List String
  | none => grantCanonicalVersion :: g.fields
  | some del => delegatedGrantCanonicalVersion :: (g.fields ++ del.fields)

theorem RepoKeyGrant.canonicalWithDelegation_eq (g : RepoKeyGrant)
    (delegation : Option GrantDelegation) :
    g.canonicalWithDelegation delegation = lpFields (g.signedFields delegation) := by
  cases delegation with
  | none => rfl
  | some del => rfl

theorem RepoKeyGrant.signedFields_injective {g g' : RepoKeyGrant} {d d' : Option GrantDelegation}
    (h : g.signedFields d = g'.signedFields d') : g.normalized = g'.normalized ∧ d = d' := by
  have htags : grantCanonicalVersion ≠ delegatedGrantCanonicalVersion := by decide
  cases d with
  | none =>
    cases d' with
    | none => exact ⟨fields_injective (List.cons.inj h).2, rfl⟩
    | some del' => exact absurd (List.cons.inj h).1 htags
  | some del =>
    cases d' with
    | none => exact absurd (List.cons.inj h).1.symm htags
    | some del' =>
      obtain ⟨hgrant, hdel⟩ := List.append_inj (List.cons.inj h).2 rfl
      exact ⟨fields_injective hgrant, congrArg some (GrantDelegation.fields_injective hdel)⟩

/-- A delegation added, stripped or edited, or a grant field changed, changes
the signed bytes. -/
theorem RepoKeyGrant.canonicalWithDelegation_injective {g g' : RepoKeyGrant}
    {d d' : Option GrantDelegation}
    (h : g.canonicalWithDelegation d = g'.canonicalWithDelegation d') :
    g.normalized = g'.normalized ∧ d = d' := by
  rw [canonicalWithDelegation_eq, canonicalWithDelegation_eq] at h
  exact signedFields_injective (lpFields_injective h)

end GitCellar
