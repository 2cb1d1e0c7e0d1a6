import GitCellar.Base64
import GitCellar.Certificates
import GitCellar.Unicode

/-! The Local Protection Key: what one call of `resolve_lpk` does to the OS
credential store and the minted marker. -/

namespace GitCellar

def lpkMissingMarker : String := "LPK_MISSING"

inductive LpkMode where
  | opening
  | sealing
  | remint
  deriving DecidableEq, Repr

/-- The credential store's entry, and whether the marker file exists. -/
structure Host where
  store : Option String
  marker : Bool
  deriving DecidableEq, Repr

/-- What goes wrong during one call: the first read fails, the write fails
(having stored the value or not), the read after it fails, the marker cannot be
written. -/
structure Faults where
  get : Option String
  set : Option (String × Bool)
  readBack : Bool
  markerWrite : Bool
  deriving DecidableEq, Repr

def noFaults : Faults := ⟨none, none, false, false⟩

/-- The answer of a call, the host after it, and the values it tried to store. -/
structure CallOutcome where
  result : Except PasskeyError Bytes32
  host : Host
  sets : List String

def encodeLpk (key : Bytes32) : String := Base64.encode key.val

section

variable (base64Error : String → String) (markerPath : String)

def decodeLpk (b64 : String) : Except PasskeyError Bytes32 :=
  match Base64.decode (Unicode.trim b64) with
  | none => .error (.credentialStore ("LPK decode failed: " ++ base64Error (Unicode.trim b64)))
  | some bytes =>
    if h : bytes.length = 32 then .ok ⟨bytes, h⟩
    else .error (.credentialStore "LPK is not 32 bytes")

def retrievalFailed (e : String) : PasskeyError := .credentialStore ("LPK retrieval failed: " ++ e)

def missingOnOpen : PasskeyError :=
  .credentialStore (lpkMissingMarker ++ (": the Local Protection Key is missing from the OS " ++
    "credential store, so data sealed under it cannot be opened. It was not " ++
    "re-created: a new key cannot open what the lost one sealed."))

def missingOnSeal : PasskeyError :=
  .credentialStore (lpkMissingMarker ++ (": the Local Protection Key minted for this install " ++
    "(" ++ markerPath ++ ") is missing from the OS credential store. Refusing to mint a " ++
    "replacement silently — everything sealed under the lost key would become " ++
    "unreadable without notice. Restore the identity from its recovery phrase."))

/-- `write_minted_marker`, best effort. -/
def writeMintedMarker (faults : Faults) (h : Host) : Host :=
  if faults.markerWrite then h else { h with marker := true }

/-- The branch that found no entry and may mint; `fresh` is the random key. -/
def mintLpk (fresh : Bytes32) (faults : Faults) (h : Host) : CallOutcome :=
  let stored := { h with store := some (encodeLpk fresh) }
  match faults.set with
  | some (e, kept) =>
    ⟨.error (.credentialStore ("LPK persist failed: " ++ e)), if kept then stored else h,
      [encodeLpk fresh]⟩
  | none =>
    let adopted :=
      match if faults.readBack then none else stored.store with
      | some b64 => decodeLpk base64Error b64
      | none => .ok fresh
    match adopted with
    | .error e => ⟨.error e, stored, [encodeLpk fresh]⟩
    | .ok key => ⟨.ok key, writeMintedMarker faults stored, [encodeLpk fresh]⟩

def resolveLpk (mode : LpkMode) (fresh : Bytes32) (faults : Faults) (h : Host) : CallOutcome :=
  match faults.get with
  | some e => ⟨.error (retrievalFailed e), h, []⟩
  | none =>
    match h.store with
    | some b64 =>
      match decodeLpk base64Error b64 with
      | .error e => ⟨.error e, h, []⟩
      | .ok key => ⟨.ok key, if h.marker then h else writeMintedMarker faults h, []⟩
    | none =>
      match mode with
      | .opening => ⟨.error missingOnOpen, h, []⟩
      | .sealing =>
        if h.marker then ⟨.error (missingOnSeal markerPath), h, []⟩
        else mintLpk base64Error fresh faults h
      | .remint => mintLpk base64Error fresh faults h

end

section

variable {base64Error : String → String} {markerPath : String}

theorem decodeLpk_encodeLpk (key : Bytes32) : decodeLpk base64Error (encodeLpk key) = .ok key := by
  have hsymbol : ∀ n < 64, Unicode.isWhitespace (Base64.symbol n) = false := by
    decide +kernel
  have htrim : Unicode.trim (encodeLpk key) = encodeLpk key := by
    apply Unicode.trim_of_not_space
    intro c hc
    rw [encodeLpk, Base64.encode, String.toList_ofList] at hc
    rcases Base64.mem_encodeChars hc with rfl | ⟨n, hn, rfl⟩
    · decide
    · exact hsymbol n hn
  rw [decodeLpk, htrim, encodeLpk, Base64.decode_encode]
  exact dif_pos key.property

theorem encodeLpk_injective {k l : Bytes32} (h : encodeLpk k = encodeLpk l) : k = l := by
  have hk : decodeLpk (fun _ => "") (encodeLpk k) = .ok k := decodeLpk_encodeLpk k
  rw [h, decodeLpk_encodeLpk] at hk
  exact (Except.ok.inj hk).symm

variable {mode : LpkMode} {fresh : Bytes32} {faults : Faults} {h : Host}

theorem resolveLpk_failed {e : String} (hget : faults.get = some e) :
    resolveLpk base64Error markerPath mode fresh faults h =
    ⟨.error (retrievalFailed e), h, []⟩ := by
  simp only [resolveLpk, hget]

/-- With an entry present a call only reads it, and may add the marker. -/
theorem resolveLpk_present (base64Error : String → String) (markerPath : String) (mode : LpkMode)
    (fresh : Bytes32) {b64 : String} (hget : faults.get = none) (hstore : h.store = some b64) :
    (resolveLpk base64Error markerPath mode fresh faults h).result = decodeLpk base64Error b64 ∧
      (resolveLpk base64Error markerPath mode fresh faults h).sets = [] ∧
      (resolveLpk base64Error markerPath mode fresh faults h).host.store = h.store ∧
      (h.marker = true → (resolveLpk base64Error markerPath mode fresh faults h).host = h) := by
  simp only [resolveLpk, hget, hstore]
  cases hdecode : decodeLpk base64Error b64 with
  | error e => exact ⟨rfl, rfl, hstore, fun _ => rfl⟩
  | ok key =>
    refine ⟨rfl, rfl, ?_, fun hmarker => if_pos hmarker⟩
    by_cases hmarker : h.marker = true
    · rw [if_pos hmarker, hstore]
    · rw [if_neg hmarker, writeMintedMarker]
      by_cases hwrite : faults.markerWrite = true
      · rw [if_pos hwrite, hstore]
      · rw [if_neg hwrite, hstore]

theorem resolveLpk_open (hget : faults.get = none) (hstore : h.store = none) :
    resolveLpk base64Error markerPath .opening fresh faults h = ⟨.error missingOnOpen, h, []⟩ := by
  simp only [resolveLpk, hget, hstore]

theorem resolveLpk_seal_missing (hget : faults.get = none) (hstore : h.store = none)
    (hmarker : h.marker = true) :
    resolveLpk base64Error markerPath .sealing fresh faults h =
      ⟨.error (missingOnSeal markerPath), h, []⟩ := by
  simp only [resolveLpk, hget, hstore, hmarker, if_true]

end

end GitCellar
