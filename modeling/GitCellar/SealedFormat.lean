import GitCellar.AtRestRuns
import GitCellar.KeystoreRuns

/-! The bytes of a sealed payload (`keywrap.rs`): slicing them apart, what a tampered one
opens to, and which bytes written before sealing existed pass for one. -/

namespace GitCellar

open AuthEnc Loops Utf8

/-- `Nonce::from_slice` panics on any other length. -/
def nonceFromSlice {ε : Type} (b : Bytes) : Run ε GcmNonce :=
  if h : b.length = 12 then .ok ⟨b, h⟩ else .error .panic

/-- `is_wrapped` with its slice. -/
def isWrappedSlice {ε : Type} (data : Bytes) : Run ε Bool :=
  if data.length ≥ keywrapMagic.length then do
    let head ← byteRange data 0 keywrapMagic.length
    .ok (head == keywrapMagic)
  else .ok false

/-- `unwrap_with_key` with its slices. -/
def unwrapSlices (A : Aes256Gcm) (data : Bytes) (key : Bytes32) : Run PasskeyError Bytes := do
  let wrapped ← isWrappedSlice data
  if !wrapped then fail (.other "at-rest payload is not wrapped (missing magic header)")
  else do
    let body ← byteRange data keywrapMagic.length data.length
    if body.length < 12 then fail (.other "at-rest payload truncated (no nonce)")
    else do
      let nonceBytes ← byteRange body 0 12
      let ciphertext ← byteRange body 12 body.length
      let nonce ← nonceFromSlice nonceBytes
      match A.decrypt key nonce [] ciphertext with
      | none => fail wrongKeyOrTampered
      | some plaintext => .ok plaintext

/-- `lpk` is what the process resolves the key to. -/
def unwrapAtRest (A : Aes256Gcm) (lpk : Except PasskeyError Bytes32) (data : Bytes) :
    Except PasskeyError Bytes :=
  if !isWrapped data then .ok data else lpk.bind fun key => unwrapWithKey A data key

/-- A truncation of a payload, or the payload with one byte changed. -/
inductive Altered (payload : Bytes) : Bytes → Prop
  | truncated (n : Nat) : n < payload.length → Altered payload (payload.take n)
  | changed (i : Nat) (b : UInt8) : payload[i]? ≠ some b → i < payload.length →
      Altered payload (payload.set i b)

/-- Where the AEAD's part of a payload begins. -/
def ciphertextOf (data : Bytes) : Bytes := data.drop (keywrapMagic.length + 12)

variable {A : Aes256Gcm} {tagSize maxMsg : Nat} {data : Bytes} {key : Bytes32}

theorem isWrapped_iff : isWrapped data = true ↔ keywrapMagic <+: data := by
  rw [isWrapped, List.isPrefixOf_iff_prefix]

theorem length_of_isWrapped (h : isWrapped data = true) : keywrapMagic.length ≤ data.length :=
  (isWrapped_iff.mp h).length_le

theorem isWrappedSlice_eq {ε : Type} :
    (isWrappedSlice data : Run ε Bool) = .ok (isWrapped data) := by
  by_cases hlen : data.length ≥ keywrapMagic.length
  · have hrange : (byteRange data 0 keywrapMagic.length : Run ε Bytes) =
        .ok (data.take keywrapMagic.length) := by
      rw [byteRange, if_pos ⟨Nat.zero_le _, hlen⟩, List.drop_zero]
    have hbool : (data.take keywrapMagic.length == keywrapMagic) = isWrapped data := by
      rw [Bool.eq_iff_iff, beq_iff_eq, isWrapped_iff, List.prefix_iff_eq_take, eq_comm]
    rw [isWrappedSlice, if_pos hlen, hrange]
    exact congrArg Except.ok hbool
  · have hnot : isWrapped data = false := by
      rw [Bool.eq_false_iff]
      exact fun h => hlen (length_of_isWrapped h)
    rw [isWrappedSlice, if_neg hlen, hnot]

/-- The slices of an opening are all in range. -/
theorem unwrapSlices_eq : unwrapSlices A data key = ofExcept (unwrapWithKey A data key) := by
  rw [unwrapSlices, isWrappedSlice_eq, unwrapWithKey]
  cases hwrapped : isWrapped data with
  | false => rfl
  | true =>
    have hlen := length_of_isWrapped hwrapped
    have hbody : (byteRange data keywrapMagic.length data.length : Run PasskeyError Bytes) =
        .ok (data.drop keywrapMagic.length) := by
      rw [byteRange, if_pos ⟨hlen, Nat.le_refl _⟩, List.take_length]
    simp only [Bool.not_true, Bool.false_eq_true, if_false, hbody, bind, Except.bind]
    by_cases hshort : (data.drop keywrapMagic.length).length < 12
    · rw [if_pos hshort, dif_pos hshort]
      rfl
    · have hnonce : (byteRange (data.drop keywrapMagic.length) 0 12 : Run PasskeyError Bytes) =
          .ok ((data.drop keywrapMagic.length).take 12) := by
        rw [byteRange, if_pos ⟨Nat.zero_le _, Nat.not_lt.mp hshort⟩, List.drop_zero]
      have hcipher : (byteRange (data.drop keywrapMagic.length) 12
          (data.drop keywrapMagic.length).length : Run PasskeyError Bytes) =
          .ok ((data.drop keywrapMagic.length).drop 12) := by
        rw [byteRange, if_pos ⟨Nat.not_lt.mp hshort, Nat.le_refl _⟩, List.take_length]
      have hlength := List.length_take_of_le (Nat.le_of_not_lt hshort)
      simp only [if_neg hshort, dif_neg hshort, hnonce, hcipher, nonceFromSlice, dif_pos hlength]
      cases A.decrypt key ⟨(data.drop keywrapMagic.length).take 12, hlength⟩ []
          ((data.drop keywrapMagic.length).drop 12) with
      | none => rfl
      | some plaintext => rfl

section

variable {made : Set (Bytes32 × GcmNonce × Bytes × Bytes)} {met : Set Bytes}
    {nonce nonce' : GcmNonce}
  {c c' : Bytes}

theorem length_head : (keywrapMagic ++ nonce.val).length = keywrapMagic.length + 12 := by
  rw [List.length_append, nonce.property]

theorem ciphertextOf_eq : ciphertextOf (keywrapMagic ++ nonce.val ++ c) = c :=
  List.drop_left' length_head

theorem head_eq :
    (keywrapMagic ++ nonce.val ++ c).take (keywrapMagic.length + 12) = keywrapMagic ++ nonce.val :=
  List.take_left' length_head

theorem nonce_of_head (h : keywrapMagic ++ nonce.val = keywrapMagic ++ nonce'.val) :
    nonce = nonce' :=
  Subtype.ext (List.append_cancel_left h)

/-- Bytes with the magic are too short, or a nonce and a ciphertext behind it. -/
theorem unwrapWithKey_cases (h : isWrapped data = true) :
    unwrapWithKey A data key = .error (.other "at-rest payload truncated (no nonce)") ∨
      ∃ nonce : GcmNonce, data = keywrapMagic ++ nonce.val ++ ciphertextOf data := by
  obtain ⟨body, rfl⟩ := isWrapped_iff.mp h
  have hbody : (keywrapMagic ++ body).drop keywrapMagic.length = body := List.drop_left
  by_cases hshort : body.length < 12
  · left
    rw [unwrapWithKey, h]
    simp only [Bool.not_true, Bool.false_eq_true, if_false, hbody, dif_pos hshort]
  · right
    refine ⟨⟨body.take 12, List.length_take_of_le (Nat.not_lt.mp hshort)⟩, ?_⟩
    rw [ciphertextOf, List.drop_append, Nat.add_sub_cancel_left,
      List.drop_eq_nil_of_le (Nat.le_add_right _ _), List.nil_append, List.append_assoc,
      List.take_append_drop]

theorem refused_of_not_made (hA : A.Unforged tagSize maxMsg made met)
    (hwrapped : isWrapped data = true) (hmet : ciphertextOf data ∈ met)
    (hnot : ∀ (nonce : GcmNonce) c, data = keywrapMagic ++ nonce.val ++ c →
      (key, nonce, [], c) ∉ made) :
    Refused (unwrapSlices A data key) := by
  rw [unwrapSlices_eq]
  rcases unwrapWithKey_cases hwrapped with hshort | ⟨nonce, hdata⟩
  · rw [hshort]
    exact ⟨_, rfl⟩
  · have hnone : A.decrypt key nonce [] (ciphertextOf data) = none := by
      cases hd : A.decrypt key nonce [] (ciphertextOf data) with
      | none => rfl
      | some m => exact absurd (hA.opens_made _ hmet key nonce [] m hd) (hnot nonce _ hdata)
    rw [hdata, unwrapWithKey_sealed, hnone]
    exact ⟨_, rfl⟩

theorem Altered.ne {payload : Bytes} (h : Altered payload data) : data ≠ payload := by
  cases h with
  | truncated n hn =>
    intro heq
    have hlen := congrArg List.length heq
    rw [List.length_take_of_le (Nat.le_of_lt hn)] at hlen
    omega
  | changed i b hb hi =>
    intro heq
    apply hb
    rw [← heq, List.getElem?_set_self hi]

/-- An alteration leaves the first `n` bytes or all behind them, unless it cuts into them. -/
theorem Altered.half {payload : Bytes} (h : Altered payload data) {n : Nat} (hn : n ≤ data.length) :
    data.take n = payload.take n ∨ data.drop n = payload.drop n := by
  cases h with
  | truncated k hk =>
    left
    rw [List.length_take_of_le (Nat.le_of_lt hk)] at hn
    rw [List.take_take, Nat.min_eq_left hn]
  | changed i b hb hi =>
    by_cases hside : i < n
    · right
      rw [List.drop_set_of_lt hside]
    · left
      rw [List.take_set_of_le (Nat.not_lt.mp hside)]

theorem Altered.not_made (hA : A.Unforged tagSize maxMsg made met)
    (hmade : (key, nonce, [], c) ∈ made)
    (h : Altered (keywrapMagic ++ nonce.val ++ c) (keywrapMagic ++ nonce'.val ++ c')) :
    (key, nonce', [], c') ∉ made := by
  intro hmade'
  have hlong : keywrapMagic.length + 12 ≤ (keywrapMagic ++ nonce'.val ++ c').length := by
    rw [List.length_append, length_head]
    exact Nat.le_add_right _ _
  apply h.ne
  rcases h.half hlong with hhead | htail
  · rw [head_eq, head_eq] at hhead
    obtain rfl := nonce_of_head hhead
    rw [(hA.nonce_once key nonce' [] c [] c' hmade hmade').2]
  · have hc : c' = c := by
      rw [← @ciphertextOf_eq nonce' c', ← @ciphertextOf_eq nonce c]
      exact htail
    rw [hc] at hmade' ⊢
    rw [(hA.made_once _ _ _ _ _ _ _ hmade hmade').2.1]

/-- What opens has lost its header and tag. -/
theorem unwrapWithKey_ne (hA : A.Lawful tagSize maxMsg) (h : isWrapped data = true) :
    unwrapWithKey A data key ≠ .ok data := by
  intro hok
  rcases unwrapWithKey_cases h with hshort | ⟨nonce, hdata⟩
  · rw [hshort] at hok
    cases hok
  · rw [hdata, unwrapWithKey_sealed, ← hdata] at hok
    cases hd : A.decrypt key nonce [] (ciphertextOf data) with
    | none =>
      rw [hd] at hok
      cases hok
    | some m =>
      rw [hd] at hok
      obtain rfl := Except.ok.inj hok
      have hlen := hA.length_eq _ _ _ _ _ ((hA.opens_iff _ _ _ _ _).mp hd)
      have hsum := congrArg List.length hdata
      rw [List.length_append, length_head] at hsum
      omega

theorem unwrapAtRest_eq_iff (hA : A.Lawful tagSize maxMsg) {lpk : Except PasskeyError Bytes32} :
    unwrapAtRest A lpk data = .ok data ↔ isWrapped data = false := by
  cases hwrapped : isWrapped data with
  | false => simp [unwrapAtRest, hwrapped]
  | true =>
    simp only [unwrapAtRest, hwrapped, Bool.not_true, Bool.false_eq_true, if_false,
      reduceCtorEq, iff_false]
    cases lpk with
    | error e => simp [Except.bind]
    | ok key => exact unwrapWithKey_ne hA hwrapped

/-- A process opens with the key it has cached or resolves. -/
theorem atRestStep_unwrap {hkdf : Hkdf} {base64Error : String → String} {markerPath : String}
    {setup : Setup} {w : AtRestWorld} {pid : Nat} {c : Conditions} :
    (atRestStep hkdf A base64Error markerPath setup w ⟨pid, .unwrap data, c⟩).1.result =
      let lpk := (cachedLpk hkdf base64Error markerPath setup pid .opening c w).1
      unwrapAtRest A (lpk.map Prod.fst) data := by
  cases hwrapped : isWrapped data with
  | false => simp [atRestStep, unwrapAtRest, hwrapped]
  | true =>
    cases hlpk : (cachedLpk hkdf base64Error markerPath setup pid .opening c w).1 with
    | error e => simp [atRestStep, unwrapAtRest, hwrapped, hlpk, Except.bind, Except.map]
    | ok found => simp [atRestStep, unwrapAtRest, hwrapped, hlpk, Except.bind, Except.map]

theorem openDeviceSeedAtRest_eq_iff (hA : A.Lawful tagSize maxMsg)
    {lpk : Except PasskeyError Bytes32} {env : KeystoreEnv} {fault : Option PasskeyError}
    (henv : env.unwrapAtRest = unwrapAtRest A lpk) :
    openDeviceSeedAtRest env fault data = .ok data ↔ isWrapped data = false := by
  cases hwrapped : isWrapped data with
  | false => simp [openDeviceSeedAtRest, hwrapped]
  | true =>
    have hne : unwrapAtRest A lpk data ≠ .ok data := by
      rw [Ne, unwrapAtRest_eq_iff hA, hwrapped]
      exact Bool.false_ne_true.symm
    cases fault with
    | some e => simp [openDeviceSeedAtRest, hwrapped]
    | none =>
      cases hopen : unwrapAtRest A lpk data with
      | error e => simp [openDeviceSeedAtRest, hwrapped, henv, hopen, Except.mapError]
      | ok m =>
        rw [hopen] at hne
        simpa [openDeviceSeedAtRest, hwrapped, henv, hopen, Except.mapError] using hne

theorem isWrapped_sealed : isWrapped (keywrapMagic ++ nonce.val ++ c) = true := by
  rw [List.append_assoc]
  exact isWrapped_magic _

theorem altered_refused (hA : A.Unforged tagSize maxMsg made met)
    (hmade : (key, nonce, [], c) ∈ made) (haltered : Altered (keywrapMagic ++ nonce.val ++ c) data)
    (hwrapped : isWrapped data = true) (hmet : ciphertextOf data ∈ met) :
    Refused (unwrapSlices A data key) := by
  refine refused_of_not_made hA hwrapped hmet ?_
  rintro nonce' c' rfl
  exact haltered.not_made hA hmade

theorem otherKey_refused (hA : A.Unforged tagSize maxMsg made met)
    (hmade : (key, nonce, [], c) ∈ made) (hmet : c ∈ met) {other : Bytes32} (hne : other ≠ key) :
    Refused (unwrapSlices A (keywrapMagic ++ nonce.val ++ c) other) := by
  refine refused_of_not_made hA isWrapped_sealed (by rwa [ciphertextOf_eq]) ?_
  intro nonce' c' hpayload hmade'
  have hc : c = c' := by
    rw [← @ciphertextOf_eq nonce c, hpayload, ciphertextOf_eq]
  rw [← hc] at hmade'
  exact hne (hA.made_once _ _ _ _ _ _ _ hmade' hmade).1

/-- Sealed payloads open to what was sealed, and altered or under another key to an error;
bytes of before pass unless they begin as a payload does. -/
theorem sealed_format (hA : A.Unforged tagSize maxMsg made met) :
    (∀ key nonce plaintext, plaintext.length < maxMsg →
      ∃ payload, wrapWithKey A plaintext key nonce = .ok payload) ∧
    (∀ key nonce plaintext payload, wrapWithKey A plaintext key nonce = .ok payload →
      unwrapSlices A payload key = .ok plaintext ∧
      ((key, nonce, [], ciphertextOf payload) ∈ made →
        (∀ data, Altered payload data → isWrapped data = true → ciphertextOf data ∈ met →
          Refused (unwrapSlices A data key)) ∧
        (ciphertextOf payload ∈ met →
          ∀ other, other ≠ key → Refused (unwrapSlices A payload other)))) ∧
    (∀ key data, Answers (unwrapSlices A data key)) ∧
    ∀ lpk data, (unwrapAtRest A lpk data = .ok data ↔ isWrapped data = false) ∧
      ∀ env fault, env.unwrapAtRest = unwrapAtRest A lpk →
        (openDeviceSeedAtRest env fault data = .ok data ↔ isWrapped data = false) := by
  refine ⟨?_, ?_, ?_, ?_⟩
  · intro key nonce plaintext hlen
    obtain ⟨c, hc⟩ := hA.seals key nonce [] plaintext hlen
    exact ⟨_, by rw [wrapWithKey, hc]⟩
  · intro key nonce plaintext payload hwrap
    obtain ⟨c, hc, rfl⟩ := wrapWithKey_ok hwrap
    rw [ciphertextOf_eq]
    refine ⟨?_, fun hmade => ⟨?_, ?_⟩⟩
    · rw [unwrapSlices_eq, unwrapWithKey_same hA.toLawful hc]
      rfl
    · exact fun data haltered hwrapped hmet => altered_refused hA hmade haltered hwrapped hmet
    · exact fun hmet other hne => otherKey_refused hA hmade hmet hne
  · intro key data
    rw [unwrapSlices_eq]
    exact answers_ofExcept _
  · intro lpk data
    refine ⟨unwrapAtRest_eq_iff hA.toLawful, ?_⟩
    intro env fault henv
    exact openDeviceSeedAtRest_eq_iff hA.toLawful henv

end

theorem sealed_format_sample : unwrapSlices sealAead sealedSample mintedKey = .ok [7] ∧
    Refused (unwrapSlices sealAead (sealedSample.set 20 8) mintedKey) ∧
    Refused (unwrapSlices sealAead sealedSample derivedKey) := by
  have hA : sealAead.Unforged 16 100 {(mintedKey, sealNonce, [], [7] ++ List.replicate 16 1)}
      {c | ¬ List.replicate 16 0 <:+ c} := Aead.tagOnce_unforged mintedKey sealNonce [] [7]
  have hwrap : wrapWithKey sealAead [7] mintedKey sealNonce = .ok sealedSample := by decide +kernel
  obtain ⟨hopen, hsealed⟩ := (sealed_format hA).2.1 mintedKey sealNonce [7] sealedSample hwrap
  obtain ⟨haltered, hother⟩ := hsealed (by decide +kernel)
  have hset : Altered sealedSample (sealedSample.set 20 8) := .changed 20 8 (by decide) (by decide)
  refine ⟨hopen, haltered _ hset (by decide) ?_, hother ?_ derivedKey (by decide)⟩
  · show ¬ List.replicate 16 0 <:+ ciphertextOf (sealedSample.set 20 8)
    decide +kernel
  · show ¬ List.replicate 16 0 <:+ ciphertextOf sealedSample
    decide +kernel

def headerSeed : Bytes := keywrapMagic ++ List.replicate 24 0

theorem headerSeed_refused : headerSeed.length = 32 ∧
    unwrapAtRest sealAead (.ok mintedKey) headerSeed = .error wrongKeyOrTampered ∧
    openDeviceSeedAtRest
      { sampleKeystore with unwrapAtRest := unwrapAtRest sealAead (.ok mintedKey) } none
      headerSeed = .error (openFailed wrongKeyOrTampered) := by
  decide +kernel

end GitCellar
