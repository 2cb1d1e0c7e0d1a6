import GitCellar.CborReading
import GitCellar.DeviceAuthority
import Mathlib.Data.List.Nodup

/-! Certificates as they are stored and sent: maps of named fields, read back whatever
the order of the fields and whatever else the map holds. -/

namespace GitCellar

open Cbor Utf8

/-- `ciborium`'s reader, of the items it has a value for. -/
structure CborReader where
  read : Reader Value

/-- What was written is read off the front of the bytes, and no byte after it counts. -/
structure CborReader.Lawful (R : CborReader) : Prop where
  reads : ∀ v, v.fits 256 = true → ∀ rest, R.read (v.encode ++ rest) = some (v, rest)
  front : Front R.read

abbrev Entries := List (Bytes × Value)

def nameOf : Value → Option Bytes
  | .item (.text b) => some b.val
  | .item (.bytes b) => some b.val
  | _ => none

def entriesOf : List Value → Option Entries
  | [] => some []
  | name :: value :: items => do
    let name ← nameOf name
    let entries ← entriesOf items
    return (name, value) :: entries
  | [_] => none

def structOf : Value → Option Entries
  | .map items => entriesOf items
  | _ => none

def onlyOf {α : Type} : List α → Option α
  | [x] => some x
  | _ => none

/-- The value of a field; one that is missing or there twice is refused. -/
def field (name : String) (es : Entries) : Option Value :=
  (onlyOf (es.filter fun e => decide (e.1 = utf8 name))).map Prod.snd

def u32Of : Value → Option UInt32
  | .item (.uint n) => if n.toNat < 2 ^ 32 then some n.toUInt32 else none
  | _ => none

def i64Of : Value → Option Int64
  | .item (.uint n) => if n.toNat < 2 ^ 63 then some n.toInt64 else none
  | .item (.nint n) => if n.toNat < 2 ^ 63 then some (~~~n).toInt64 else none
  | _ => none

def byteOf : Value → Option UInt8
  | .item (.uint n) => if n.toNat < 2 ^ 8 then some n.toUInt8 else none
  | _ => none

def byteBufOf : Value → Option Bytes
  | .item (.bytes b) => some b.val
  | .array xs => xs.mapM byteOf
  | _ => none

/-- `serde_byte_array_32` and `serde_byte_array_64`, read. -/
def byteArrayOf (n : Nat) (v : Value) : Option { b : Bytes // b.length = n } :=
  (byteBufOf v).bind fun b => if h : b.length = n then some ⟨b, h⟩ else none

def stringOf : Value → Option Text
  | .item (.text b) =>
    if h : IsText b.val ∧ b.val.length < 2 ^ 63 then some ⟨toText b.val h.1, h.2⟩ else none
  | _ => none

/-- A variant under its name. -/
def variantOf {α : Type} (variants : List α) (asStr : α → Text) (v : Value) : Option α :=
  (stringOf v).bind fun name => variants.find? fun x => decide (asStr x = name)

def signerRoleOf : Value → Option SignerRole := variantOf [.master, .device] SignerRole.asStr

def reasonOf : Value → Option RevocationReason :=
  variantOf [.userInitiated, .compromise, .deviceLost, .rotation] RevocationReason.asStr

def DeviceCertificatePayload.ofEntries (es : Entries) : Option DeviceCertificatePayload := do
  let certVersion ← (field "cert_version" es).bind u32Of
  let devicePubkey ← (field "device_pubkey" es).bind (byteArrayOf 32)
  let masterPubkey ← (field "master_pubkey" es).bind (byteArrayOf 32)
  let label ← (field "label" es).bind stringOf
  let platform ← (field "platform" es).bind stringOf
  let enrolledAt ← (field "enrolled_at" es).bind i64Of
  let signerRole ← (field "signer_role" es).bind signerRoleOf
  let signerPubkey ← (field "signer_pubkey" es).bind (byteArrayOf 32)
  return ⟨certVersion, devicePubkey, masterPubkey, label, platform, enrolledAt,
    signerRole, signerPubkey⟩

def RevocationCertificatePayload.ofEntries (es : Entries) :
    Option RevocationCertificatePayload := do
  let certVersion ← (field "cert_version" es).bind u32Of
  let targetDevicePubkey ← (field "target_device_pubkey" es).bind (byteArrayOf 32)
  let masterPubkey ← (field "master_pubkey" es).bind (byteArrayOf 32)
  let revokedAt ← (field "revoked_at" es).bind i64Of
  let reason ← (field "reason" es).bind reasonOf
  let signerRole ← (field "signer_role" es).bind signerRoleOf
  let signerPubkey ← (field "signer_pubkey" es).bind (byteArrayOf 32)
  return ⟨certVersion, targetDevicePubkey, masterPubkey, revokedAt, reason,
    signerRole, signerPubkey⟩

def bytes64 (b : Bytes64) : Item := .bytes ⟨b.val, by rw [b.property]; decide⟩

/-- A signed certificate: the payload's map and the signature. -/
def signedValue (payload : List Item) (signature : Bytes64) : Value :=
  .map [.item (key "payload"), .map (payload.map .item), .item (key "signature"),
    .item (bytes64 signature)]

def signedOf {α : Type} (payloadOf : Entries → Option α) (v : Value) : Option (α × Bytes64) := do
  let es ← structOf v
  let payload ← (field "payload" es).bind structOf
  let payload ← payloadOf payload
  let signature ← (field "signature" es).bind (byteArrayOf 64)
  return (payload, signature)

def DeviceCertificate.toCbor (c : DeviceCertificate) : Bytes :=
  (signedValue c.payload.items c.signature).encode

def RevocationCertificate.toCbor (c : RevocationCertificate) : Bytes :=
  (signedValue c.payload.items c.signature).encode

section

variable (R : CborReader)

def DeviceCertificate.fromCbor (bytes : Bytes) : Option DeviceCertificate :=
  (R.read bytes).bind fun r =>
    (signedOf DeviceCertificatePayload.ofEntries r.1).map fun s => ⟨s.1, s.2⟩

def RevocationCertificate.fromCbor (bytes : Bytes) : Option RevocationCertificate :=
  (R.read bytes).bind fun r =>
    (signedOf RevocationCertificatePayload.ofEntries r.1).map fun s => ⟨s.1, s.2⟩

end

def DeviceCertificatePayload.entries (p : DeviceCertificatePayload) : Entries :=
  [(utf8 "cert_version", .item (uint32 p.certVersion)),
    (utf8 "device_pubkey", .item (bytes32 p.devicePubkey)),
    (utf8 "master_pubkey", .item (bytes32 p.masterPubkey)), (utf8 "label", .item (text p.label)),
    (utf8 "platform", .item (text p.platform)), (utf8 "enrolled_at", .item (int p.enrolledAt)),
    (utf8 "signer_role", .item (text p.signerRole.asStr)),
    (utf8 "signer_pubkey", .item (bytes32 p.signerPubkey))]

def RevocationCertificatePayload.entries (p : RevocationCertificatePayload) : Entries :=
  [(utf8 "cert_version", .item (uint32 p.certVersion)),
    (utf8 "target_device_pubkey", .item (bytes32 p.targetDevicePubkey)),
    (utf8 "master_pubkey", .item (bytes32 p.masterPubkey)),
    (utf8 "revoked_at", .item (int p.revokedAt)), (utf8 "reason", .item (text p.reason.asStr)),
    (utf8 "signer_role", .item (text p.signerRole.asStr)),
    (utf8 "signer_pubkey", .item (bytes32 p.signerPubkey))]

def deviceFields : List String :=
  ["cert_version", "device_pubkey", "master_pubkey", "label", "platform", "enrolled_at",
    "signer_role", "signer_pubkey"]

def revocationFields : List String :=
  ["cert_version", "target_device_pubkey", "master_pubkey", "revoked_at", "reason", "signer_role",
    "signer_pubkey"]

/-- Written and read back, whatever follows; cut short anywhere, not read at all. -/
structure WireFormat {α : Type} (toCbor : α → Bytes) (fromCbor : Bytes → Option α) : Prop where
  round : ∀ c rest, fromCbor (toCbor c ++ rest) = some c
  whole : ∀ c bytes, bytes <+: toCbor c → bytes ≠ toCbor c → fromCbor bytes = none

section

variable {es es' : Entries} {name : String} {v : Value}

theorem onlyOf_perm {α : Type} {xs ys : List α} (h : xs.Perm ys) : onlyOf xs = onlyOf ys := by
  match xs, h with
  | [], h => rw [h.nil_eq]
  | [x], h => rw [List.singleton_perm.mp h]
  | x :: x' :: xs, h =>
    match ys, h.length_eq with
    | y :: y' :: ys, _ => rfl

theorem nodup_utf8 {names : List String} (h : names.Nodup) : (names.map utf8).Nodup :=
  h.map fun _ _ hsame => utf8_injective hsame

theorem field_of_nodup (hnames : (es.map Prod.fst).Nodup) (hmem : (utf8 name, v) ∈ es) :
    field name es = some v := by
  have hone : es.filter (fun e => decide (e.1 = utf8 name)) = [(utf8 name, v)] := by
    induction es with
    | nil => cases hmem
    | cons e es ih =>
      obtain ⟨hnew, hrest⟩ := List.nodup_cons.mp hnames
      rcases List.mem_cons.mp hmem with rfl | hmem
      · rw [List.filter_cons_of_pos (by simp), List.filter_eq_nil_iff.mpr]
        intro other hother hsame
        exact hnew (List.mem_map.mpr ⟨other, hother, of_decide_eq_true hsame⟩)
      · have hne : e.1 ≠ utf8 name := by
          rintro hsame
          exact hnew (hsame ▸ List.mem_map_of_mem hmem)
        rw [List.filter_cons_of_neg (by simp [hne]), ih hrest hmem]
  rw [field, hone]
  rfl

/-- Neither the order of the entries counts nor an entry of another name. -/
theorem field_perm {names : List String} (hname : name ∈ names)
    (h : (es.filter fun e => decide (e.1 ∈ names.map utf8)).Perm es') :
    field name es = field name es' := by
  have hsame : (es.filter fun e => decide (e.1 ∈ names.map utf8)).filter
      (fun e => decide (e.1 = utf8 name)) =
      es.filter fun e => decide (e.1 = utf8 name) := by
    rw [List.filter_filter]
    apply List.filter_congr
    intro e _
    by_cases he : e.1 = utf8 name
    · simp [he, List.mem_map_of_mem hname]
    · simp [he]
  rw [field, field, ← hsame, onlyOf_perm (h.filter _)]

theorem u32Of_uint32 (n : UInt32) : u32Of (.item (uint32 n)) = some n := by
  have hn := n.toNat_lt
  rw [uint32, u32Of, if_pos]
  · congr 1
    apply UInt32.toNat_inj.mp
    simp
  · simpa using hn

theorem i64Of_int (n : Int64) : i64Of (.item (int n)) = some n := by
  have hbits : n.toInt = if 2 * n.toUInt64.toNat < 2 ^ 64 then (n.toUInt64.toNat : Int)
      else (n.toUInt64.toNat : Int) - 2 ^ 64 := BitVec.toInt_eq_toNat_cond n.toBitVec
  by_cases hpos : 0 ≤ n
  · have hn : 0 ≤ n.toInt := Int64.le_iff_toInt_le.mp hpos
    have hsmall : n.toUInt64.toNat < 2 ^ 63 := by
      split at hbits
      · omega
      · have hlt := n.toUInt64.toNat_lt
        omega
    rw [int, if_pos hpos, i64Of, if_pos hsmall]
    rfl
  · have hn : ¬ 0 ≤ n.toInt := fun h => hpos (Int64.le_iff_toInt_le.mpr h)
    have hlarge : 2 ^ 63 ≤ n.toUInt64.toNat := by
      split at hbits
      · omega
      · omega
    have hnot : (~~~n.toUInt64).toNat < 2 ^ 63 := by
      have hsize : UInt64.size = 2 ^ 64 := rfl
      rw [UInt64.toNat_not, hsize]
      omega
    rw [int, if_neg hpos, i64Of, if_pos hnot, UInt64.not_not]
    rfl

theorem byteArrayOf_bytes32 (b : Bytes32) : byteArrayOf 32 (.item (bytes32 b)) = some b :=
  dif_pos b.property

theorem byteArrayOf_bytes64 (b : Bytes64) : byteArrayOf 64 (.item (bytes64 b)) = some b :=
  dif_pos b.property

theorem stringOf_text (s : Text) : stringOf (.item (text s)) = some s := by
  rw [text, stringOf, dif_pos ⟨isText_utf8 s.val, s.property⟩]
  rfl

theorem signerRoleOf_text (r : SignerRole) : signerRoleOf (.item (text r.asStr)) = some r := by
  rw [signerRoleOf, variantOf, stringOf_text]
  cases r with
  | master => decide
  | device => decide

theorem reasonOf_text (r : RevocationReason) : reasonOf (.item (text r.asStr)) = some r := by
  rw [reasonOf, variantOf, stringOf_text]
  cases r with
  | userInitiated => decide
  | compromise => decide
  | deviceLost => decide
  | rotation => decide

/-- Two maps that agree on the fields are one certificate. -/
theorem DeviceCertificatePayload.ofEntries_congr
    (h : ∀ name ∈ deviceFields, field name es = field name es') :
    ofEntries es = ofEntries es' := by
  simp only [deviceFields, List.forall_mem_cons, List.not_mem_nil, false_implies, implies_true,
    and_true] at h
  obtain ⟨hversion, hdevice, hmaster, hlabel, hplatform, hat, hrole, hsigner⟩ := h
  rw [ofEntries, ofEntries, hversion, hdevice, hmaster, hlabel, hplatform, hat, hrole, hsigner]

theorem RevocationCertificatePayload.ofEntries_congr
    (h : ∀ name ∈ revocationFields, field name es = field name es') :
    ofEntries es = ofEntries es' := by
  simp only [revocationFields, List.forall_mem_cons, List.not_mem_nil, false_implies, implies_true,
    and_true] at h
  obtain ⟨hversion, htarget, hmaster, hat, hreason, hrole, hsigner⟩ := h
  rw [ofEntries, ofEntries, hversion, htarget, hmaster, hat, hreason, hrole, hsigner]

theorem DeviceCertificatePayload.ofEntries_entries (p : DeviceCertificatePayload) :
    ofEntries p.entries = some p := by
  have hnames : (p.entries.map Prod.fst).Nodup :=
    nodup_utf8 (show deviceFields.Nodup by decide)
  have hversion : field "cert_version" p.entries = some (.item (uint32 p.certVersion)) :=
    field_of_nodup hnames (by simp [entries])
  have hdevice : field "device_pubkey" p.entries = some (.item (bytes32 p.devicePubkey)) :=
    field_of_nodup hnames (by simp [entries])
  have hmaster : field "master_pubkey" p.entries = some (.item (bytes32 p.masterPubkey)) :=
    field_of_nodup hnames (by simp [entries])
  have hlabel : field "label" p.entries = some (.item (text p.label)) :=
    field_of_nodup hnames (by simp [entries])
  have hplatform : field "platform" p.entries = some (.item (text p.platform)) :=
    field_of_nodup hnames (by simp [entries])
  have hat : field "enrolled_at" p.entries = some (.item (int p.enrolledAt)) :=
    field_of_nodup hnames (by simp [entries])
  have hrole : field "signer_role" p.entries = some (.item (text p.signerRole.asStr)) :=
    field_of_nodup hnames (by simp [entries])
  have hsigner : field "signer_pubkey" p.entries = some (.item (bytes32 p.signerPubkey)) :=
    field_of_nodup hnames (by simp [entries])
  rw [ofEntries, hversion, hdevice, hmaster, hlabel, hplatform, hat, hrole, hsigner]
  simp only [Option.bind_some, u32Of_uint32, byteArrayOf_bytes32, stringOf_text, i64Of_int,
    signerRoleOf_text]
  rfl

theorem RevocationCertificatePayload.ofEntries_entries (p : RevocationCertificatePayload) :
    ofEntries p.entries = some p := by
  have hnames : (p.entries.map Prod.fst).Nodup :=
    nodup_utf8 (show revocationFields.Nodup by decide)
  have hversion : field "cert_version" p.entries = some (.item (uint32 p.certVersion)) :=
    field_of_nodup hnames (by simp [entries])
  have htarget : field "target_device_pubkey" p.entries =
      some (.item (bytes32 p.targetDevicePubkey)) :=
    field_of_nodup hnames (by simp [entries])
  have hmaster : field "master_pubkey" p.entries = some (.item (bytes32 p.masterPubkey)) :=
    field_of_nodup hnames (by simp [entries])
  have hat : field "revoked_at" p.entries = some (.item (int p.revokedAt)) :=
    field_of_nodup hnames (by simp [entries])
  have hreason : field "reason" p.entries = some (.item (text p.reason.asStr)) :=
    field_of_nodup hnames (by simp [entries])
  have hrole : field "signer_role" p.entries = some (.item (text p.signerRole.asStr)) :=
    field_of_nodup hnames (by simp [entries])
  have hsigner : field "signer_pubkey" p.entries = some (.item (bytes32 p.signerPubkey)) :=
    field_of_nodup hnames (by simp [entries])
  rw [ofEntries, hversion, htarget, hmaster, hat, hreason, hrole, hsigner]
  simp only [Option.bind_some, u32Of_uint32, byteArrayOf_bytes32, i64Of_int, reasonOf_text,
    signerRoleOf_text]
  rfl

/-- The two entries of a signed certificate, where its payload is a map of these items. -/
theorem signedOf_signedValue {α : Type} {payloadOf : Entries → Option α} {items : List Item}
    {signature : Bytes64} (hitems : entriesOf (items.map .item) = some es) :
    signedOf payloadOf (signedValue items signature) =
    (payloadOf es).map fun p => (p, signature) := by
  have hnames : [utf8 "payload", utf8 "signature"].Nodup :=
    nodup_utf8 (show ["payload", "signature"].Nodup by decide)
  let entries : Entries := [(utf8 "payload", .map (items.map .item)),
    (utf8 "signature", .item (bytes64 signature))]
  have hpayload : field "payload" entries = some (.map (items.map .item)) :=
    field_of_nodup hnames (by simp [entries])
  have hsignature : field "signature" entries = some (.item (bytes64 signature)) :=
    field_of_nodup hnames (by simp [entries])
  have hstruct : structOf (signedValue items signature) = some entries := rfl
  rw [signedOf, hstruct]
  simp only [Option.bind_eq_bind, Option.bind_some, hpayload, hsignature, structOf, hitems,
    byteArrayOf_bytes64]
  cases payloadOf es with
  | none => rfl
  | some p => rfl

theorem DeviceCertificatePayload.entriesOf_items (p : DeviceCertificatePayload) :
    entriesOf (p.items.map .item) = some p.entries := rfl

theorem RevocationCertificatePayload.entriesOf_items (p : RevocationCertificatePayload) :
    entriesOf (p.items.map .item) = some p.entries := rfl

theorem signedValue_fits {items : List Item} {signature : Bytes64} (heven : items.length % 2 = 0)
    (hfew : items.length / 2 < 2 ^ 64) : (signedValue items signature).fits 256 = true := by
  simpa [signedValue, Value.fits, heven] using hfew

theorem DeviceCertificatePayload.signed_fits (p : DeviceCertificatePayload) (signature : Bytes64) :
    (signedValue p.items signature).fits 256 = true :=
  signedValue_fits (by simp [items]) (by simp [items])

theorem RevocationCertificatePayload.signed_fits (p : RevocationCertificatePayload)
    (signature : Bytes64) :
    (signedValue p.items signature).fits 256 = true :=
  signedValue_fits (by simp [items]) (by simp [items])

theorem field_eq_none {names : List String} (hnames : es.map Prod.fst = names.map utf8)
    (h : name ∉ names) :
    field name es = none := by
  have hnone : es.filter (fun e => decide (e.1 = utf8 name)) = [] := by
    rw [List.filter_eq_nil_iff]
    intro e he hsame
    have hmem : utf8 name ∈ names.map utf8 := by
      rw [← hnames, ← of_decide_eq_true hsame]
      exact List.mem_map_of_mem he
    obtain ⟨other, hother, heq⟩ := List.mem_map.mp hmem
    exact h (utf8_injective heq ▸ hother)
  rw [field, hnone]
  rfl

/-- A device's fields are no revocation's, nor the other way round. -/
theorem RevocationCertificatePayload.ofEntries_device (p : DeviceCertificatePayload) :
    RevocationCertificatePayload.ofEntries p.entries = none := by
  have hmissing : field "target_device_pubkey" p.entries = none :=
    field_eq_none (show p.entries.map Prod.fst = deviceFields.map utf8 from rfl) (by decide)
  rw [ofEntries, hmissing]
  cases (field "cert_version" p.entries).bind u32Of with
  | none => rfl
  | some certVersion => rfl

theorem DeviceCertificatePayload.ofEntries_revocation (p : RevocationCertificatePayload) :
    DeviceCertificatePayload.ofEntries p.entries = none := by
  have hmissing : field "device_pubkey" p.entries = none :=
    field_eq_none (show p.entries.map Prod.fst = revocationFields.map utf8 from rfl) (by decide)
  rw [ofEntries, hmissing]
  cases (field "cert_version" p.entries).bind u32Of with
  | none => rfl
  | some certVersion => rfl

end

section

variable {R : CborReader} {α π : Type} {items : α → List Item} {signature : α → Bytes64}
  (payloadOf : Entries → Option π) (mk : π → Bytes64 → α)

/-- What is read of a signed certificate, of whatever kind, does not depend on what follows it. -/
theorem read_signedValue (hR : R.Lawful) {items : List Item} {signature : Bytes64} {es : Entries}
    (hfits : (signedValue items signature).fits 256 = true)
    (hitems : entriesOf (items.map .item) = some es) (rest : Bytes) :
    ((R.read ((signedValue items signature).encode ++ rest)).bind fun r =>
      (signedOf payloadOf r.1).map fun s => mk s.1 s.2) =
      (payloadOf es).map fun p => mk p signature := by
  rw [hR.reads _ hfits, Option.bind_some, signedOf_signedValue hitems, Option.map_map]
  rfl

theorem wireFormat (hR : R.Lawful) {entries : α → Entries}
    (hfits : ∀ c, (signedValue (items c) (signature c)).fits 256 = true)
    (hitems : ∀ c, entriesOf ((items c).map .item) = some (entries c))
    (hpayload : ∀ c, ((payloadOf (entries c)).map fun p => mk p (signature c)) = some c) :
    WireFormat (fun c => (signedValue (items c) (signature c)).encode) fun bytes =>
      (R.read bytes).bind fun r => (signedOf payloadOf r.1).map fun s => mk s.1 s.2 := by
  constructor
  · intro c rest
    rw [read_signedValue payloadOf mk hR (hfits c) (hitems c), hpayload]
  · intro c bytes hprefix hne
    rw [hR.front.prefix_eq_none (hR.reads _ (hfits c)) hprefix hne]
    rfl

end

theorem DeviceCertificate.wireFormat {R : CborReader} (hR : R.Lawful) :
    WireFormat DeviceCertificate.toCbor (DeviceCertificate.fromCbor R) :=
  GitCellar.wireFormat _ _ hR (fun c => c.payload.signed_fits c.signature)
    (fun c => c.payload.entriesOf_items) fun c => by rw [c.payload.ofEntries_entries]; rfl

theorem RevocationCertificate.wireFormat {R : CborReader} (hR : R.Lawful) :
    WireFormat RevocationCertificate.toCbor (RevocationCertificate.fromCbor R) :=
  GitCellar.wireFormat _ _ hR (fun c => c.payload.signed_fits c.signature)
    (fun c => c.payload.entriesOf_items) fun c => by rw [c.payload.ofEntries_entries]; rfl

/-- Both certificates come back as they were stored, whatever follows them, and none of the
other kind does; a part of one is none; and the fields of a payload may stand in any order,
among others. -/
theorem certificate_wire {R : CborReader} (hR : R.Lawful) :
    WireFormat DeviceCertificate.toCbor (DeviceCertificate.fromCbor R) ∧
    WireFormat RevocationCertificate.toCbor (RevocationCertificate.fromCbor R) ∧
    (∀ (c : DeviceCertificate) (rest : Bytes), RevocationCertificate.fromCbor R (c.toCbor ++ rest) =
      none) ∧
    (∀ (c : RevocationCertificate) (rest : Bytes), DeviceCertificate.fromCbor R (c.toCbor ++ rest) =
      none) ∧
    (∀ (p : DeviceCertificatePayload) (es : Entries),
      (es.filter fun e => decide (e.1 ∈ deviceFields.map utf8)).Perm p.entries →
        DeviceCertificatePayload.ofEntries es = some p) ∧
    ∀ (p : RevocationCertificatePayload) (es : Entries),
      (es.filter fun e => decide (e.1 ∈ revocationFields.map utf8)).Perm p.entries →
        RevocationCertificatePayload.ofEntries es = some p := by
  refine ⟨DeviceCertificate.wireFormat hR, RevocationCertificate.wireFormat hR, ?_, ?_, ?_, ?_⟩
  · intro c rest
    have hread :=
      read_signedValue RevocationCertificatePayload.ofEntries RevocationCertificate.mk hR
      (c.payload.signed_fits c.signature) c.payload.entriesOf_items rest
    rw [RevocationCertificatePayload.ofEntries_device] at hread
    exact hread
  · intro c rest
    have hread := read_signedValue DeviceCertificatePayload.ofEntries DeviceCertificate.mk hR
      (c.payload.signed_fits c.signature) c.payload.entriesOf_items rest
    rw [DeviceCertificatePayload.ofEntries_revocation] at hread
    exact hread
  · intro p es h
    rw [DeviceCertificatePayload.ofEntries_congr fun name hname => field_perm hname h]
    exact p.ofEntries_entries
  · intro p es h
    rw [RevocationCertificatePayload.ofEntries_congr fun name hname => field_perm hname h]
    exact p.ofEntries_entries

/-- Reads items of definite length. -/
def definiteReader : CborReader := ⟨Cbor.read 256⟩

theorem definiteReader_lawful : definiteReader.Lawful :=
  ⟨fun _ hfits => read_encode hfits, front_read 256⟩

def storedCertificate : DeviceCertificate where
  payload :=
    ⟨masterKeyVersion, filled 1, filled 2, ⟨"laptop", by decide⟩, ⟨"linux", by decide⟩, -1, .master,
    filled 2⟩
  signature := ⟨List.replicate 64 3, List.length_replicate⟩

theorem certificate_wire_sample :
    DeviceCertificate.fromCbor definiteReader (storedCertificate.toCbor ++ [0]) =
    some storedCertificate ∧
      RevocationCertificate.fromCbor definiteReader storedCertificate.toCbor = none := by
  obtain ⟨hwire, _, hother, _⟩ := certificate_wire definiteReader_lawful
  have hnone := hother storedCertificate []
  rw [List.append_nil] at hnone
  exact ⟨hwire.round storedCertificate [0], hnone⟩

end GitCellar
