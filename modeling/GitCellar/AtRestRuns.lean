import GitCellar.AtRest

/-! What the processes of one host seal, and open again later, while its keyring
answers some of them and fails others. -/

namespace GitCellar

open AuthEnc Traces

section

variable (hkdf : Hkdf) (A : Aes256Gcm) (base64Error : String → String) (markerPath : String)
  (setup : Setup)

def atRestRun (h : Host) (calls : List AtRestCall) :
    List (Entry AtRestWorld AtRestCall AtRestOutcome) :=
  trace (atRestStep hkdf A base64Error markerPath setup) ⟨h, fun _ => none⟩ calls

def EntryKey (h : Host) (key : Bytes32) : Prop :=
  ∃ b64, h.store = some b64 ∧ decodeLpk base64Error b64 = .ok key

/-- The key that `source` holds for the host. -/
def HostKey (h : Host) (key : Bytes32) : LpkSource → Prop
  | .osKeyring => setup.osKeyringPersistent = true ∧ EntryKey base64Error h key
  | .headless => hostHeadlessLpk hkdf setup none = .ok (some key)

def OneSource : Prop :=
  setup.osKeyringPersistent = false ∨ ∀ key, hostHeadlessLpk hkdf setup none ≠ .ok (some key)

def CacheSound (w : AtRestWorld) : Prop :=
  ∀ pid key source, w.cache pid = some (key, source) →
    HostKey hkdf base64Error setup w.host key source

/-- The step returned `sealed` for `plaintext`, sealed under `key` from `source`. -/
def Sealed (e : Entry AtRestWorld AtRestCall AtRestOutcome) (plaintext sealed : Bytes)
    (key : Bytes32) (source : LpkSource) : Prop :=
  ∃ pid nonce c, e.input = ⟨pid, .wrap plaintext nonce, c⟩ ∧
    e.output = ⟨some (.ok (key, source)), .ok sealed⟩

/-- The step opened `sealed` with `key` from `source`, and returned `result`. -/
def Opened (e : Entry AtRestWorld AtRestCall AtRestOutcome) (sealed : Bytes) (key : Bytes32)
    (source : LpkSource) (result : Except PasskeyError Bytes) : Prop :=
  ∃ pid c, e.input = ⟨pid, .unwrap sealed, c⟩ ∧ e.output = ⟨some (.ok (key, source)), result⟩

/-- Whatever was sealed is opened again, under the same key, whenever a key is
resolved. -/
def SealsAgree (run : List (Entry AtRestWorld AtRestCall AtRestOutcome)) : Prop :=
  run.Pairwise fun e f => ∀ plaintext sealed key source key' source' result,
    Sealed e plaintext sealed key source → Opened f sealed key' source' result →
      key' = key ∧ result = .ok plaintext

/-- The ciphertexts of a run's sealed payloads. -/
def sealedBodies (run : List (Entry AtRestWorld AtRestCall AtRestOutcome)) : Set Bytes :=
  { c | ∃ e ∈ run, ∃ plaintext key source, ∃ nonce : GcmNonce,
    Sealed e plaintext (keywrapMagic ++ nonce.val ++ c) key source }

/-- An entry once stored stays. -/
def EntryKept (w u : AtRestWorld) : Prop :=
  ∀ b64, w.host.store = some b64 → u.host.store = some b64

end

section

variable {hkdf : Hkdf} {A : Aes256Gcm} {base64Error : String → String} {markerPath : String}
  {setup : Setup} {h g : Host} {w : AtRestWorld} {key key' : Bytes32} {source : LpkSource}

theorem writeMintedMarker_store (faults : Faults) (h : Host) :
    (writeMintedMarker faults h).store = h.store := by
  rw [writeMintedMarker]
  by_cases hwrite : faults.markerWrite = true
  · rw [if_pos hwrite]
  · rw [if_neg hwrite]

theorem mintLpk_spec (fresh : Bytes32) (faults : Faults) (h : Host)
    (hok : (mintLpk base64Error fresh faults h).result = .ok key) :
    (mintLpk base64Error fresh faults h).host.store = some (encodeLpk key) := by
  have hread : decodeLpk base64Error (encodeLpk fresh) = .ok fresh := decodeLpk_encodeLpk fresh
  cases hset : faults.set with
  | some failure =>
    simp only [mintLpk, hset] at hok
    cases hok
  | none =>
    cases hback : faults.readBack with
    | true =>
      simp only [mintLpk, hset, hback, if_true] at hok ⊢
      rw [writeMintedMarker_store, Except.ok.inj hok]
    | false =>
      simp only [mintLpk, hset, hback, Bool.false_eq_true, if_false, hread] at hok ⊢
      rw [writeMintedMarker_store, Except.ok.inj hok]

variable (base64Error markerPath)

/-- A call answers the key of the entry it leaves behind, and never replaces one. -/
theorem resolveLpk_spec (mode : LpkMode) (fresh : Bytes32) (faults : Faults) (h : Host) :
    (∀ key, (resolveLpk base64Error markerPath mode fresh faults h).result = .ok key →
      EntryKey base64Error (resolveLpk base64Error markerPath mode fresh faults h).host key) ∧
    (∀ b64, h.store = some b64 →
      (resolveLpk base64Error markerPath mode fresh faults h).host.store = some b64) := by
  cases hget : faults.get with
  | some e =>
    rw [resolveLpk_failed hget]
    exact ⟨fun key hok => (nomatch hok), fun b64 hstore => hstore⟩
  | none =>
    cases hstore : h.store with
    | some b64 =>
      obtain ⟨hresult, _, hkept, _⟩ :=
        resolveLpk_present base64Error markerPath mode fresh hget hstore
      rw [hresult, hkept, hstore]
      refine ⟨fun key hok => ⟨b64, hkept.trans hstore, hok⟩, fun _ hsame => hsame⟩
    | none =>
      refine ⟨?_, fun b64 hsome => nomatch hsome⟩
      intro key hok
      have hmint : ∀ hok : (mintLpk base64Error fresh faults h).result = .ok key,
          EntryKey base64Error (mintLpk base64Error fresh faults h).host key :=
        fun hok => ⟨encodeLpk key, mintLpk_spec fresh faults h hok, decodeLpk_encodeLpk key⟩
      cases mode with
      | opening =>
        rw [resolveLpk_open hget hstore] at hok
        cases hok
      | remint =>
        simp only [resolveLpk, hget, hstore] at hok ⊢
        exact hmint hok
      | sealing =>
        cases hmarker : h.marker with
        | true =>
          rw [resolveLpk_seal_missing hget hstore hmarker] at hok
          cases hok
        | false =>
          simp only [resolveLpk, hget, hstore, hmarker, Bool.false_eq_true, if_false] at hok ⊢
          exact hmint hok

theorem osLpk_spec (mode : LpkMode) (c : Conditions) (h : Host) :
    (∀ key, (osLpk base64Error markerPath mode c h).1 = .ok key →
      EntryKey base64Error (osLpk base64Error markerPath mode c h).2 key) ∧
    (∀ b64, h.store = some b64 → (osLpk base64Error markerPath mode c h).2.store = some b64) := by
  cases hinit : c.entryInit with
  | some e =>
    simp only [osLpk, hinit]
    exact ⟨fun key hok => (nomatch hok), fun b64 hstore => hstore⟩
  | none =>
    simp only [osLpk, hinit]
    exact resolveLpk_spec base64Error markerPath mode c.fresh c.keyring h

variable {base64Error markerPath}

theorem hostHeadlessLpk_spec {fileRead : Option String}
    (hok : hostHeadlessLpk hkdf setup fileRead = .ok (some key)) :
    hostHeadlessLpk hkdf setup none = .ok (some key) := by
  cases fileRead with
  | none => exact hok
  | some e =>
    simp only [hostHeadlessLpk, headlessLpkFrom] at hok ⊢
    cases hsecret : setup.secret.filter fun v => Unicode.trim v != "" with
    | some v =>
      cases hfile : setup.file.filter fun v => Unicode.trim v != "" with
      | some path =>
        simp only [hsecret, hfile] at hok
        cases hok
      | none =>
        simp only [hsecret, hfile] at hok ⊢
        exact hok
    | none =>
      cases hfile : setup.file.filter fun v => Unicode.trim v != "" with
      | some path =>
        simp only [hsecret, hfile] at hok
        cases hok
      | none =>
        simp only [hsecret, hfile] at hok
        cases hok

/-- The key chosen is the one the reported source answered; the headless source
is used only past the keyring, the keyring only where it is persistent. -/
theorem chooseLpk_spec {osPersistent : Bool} {os : Except PasskeyError Bytes32}
    {headless : Except PasskeyError (Option Bytes32)}
    (hok : chooseLpk osPersistent os headless = .ok (key, source)) :
    (source = .osKeyring ∧ osPersistent = true ∧ os = .ok key) ∨
      (source = .headless ∧ headless = .ok (some key)) := by
  cases osPersistent with
  | false =>
    cases headless with
    | error e => cases hok
    | ok found =>
      cases found with
      | none => cases hok
      | some k =>
        cases hok
        exact .inr ⟨rfl, rfl⟩
  | true =>
    cases os with
    | ok k =>
      cases hok
      exact .inl ⟨rfl, rfl, rfl⟩
    | error e =>
      simp only [chooseLpk, Bool.not_true, Bool.false_eq_true, if_false] at hok
      obtain ⟨_, hok⟩ := Loops.of_ite_error hok
      cases headless with
      | error e => cases hok
      | ok found =>
        cases found with
        | none => cases hok
        | some k =>
          cases hok
          exact .inr ⟨rfl, rfl⟩

theorem HostKey.unique (hkey : HostKey hkdf base64Error setup h key source)
    (hkey' : HostKey hkdf base64Error setup h key' source) : key = key' := by
  cases source with
  | osKeyring =>
    obtain ⟨_, b64, hstore, hdecode⟩ := hkey
    obtain ⟨_, b64', hstore', hdecode'⟩ := hkey'
    have hsame : b64 = b64' := Option.some.inj (hstore.symm.trans hstore')
    rw [← hsame, hdecode] at hdecode'
    exact Except.ok.inj hdecode'
  | headless =>
    have hsame := Except.ok.inj (hkey.symm.trans hkey')
    exact Option.some.inj hsame

theorem HostKey.kept (hkey : HostKey hkdf base64Error setup h key source)
    (hkept : ∀ b64, h.store = some b64 → g.store = some b64) :
    HostKey hkdf base64Error setup g key source := by
  cases source with
  | osKeyring =>
    obtain ⟨hpersistent, b64, hstore, hdecode⟩ := hkey
    exact ⟨hpersistent, b64, hkept b64 hstore, hdecode⟩
  | headless => exact hkey

variable (hkdf base64Error markerPath setup)

theorem resolveHostLpk_spec (mode : LpkMode) (c : Conditions) (h : Host) :
    (∀ key source,
      (resolveHostLpk hkdf base64Error markerPath setup mode c h).1 = .ok (key, source) →
      HostKey hkdf base64Error setup
        (resolveHostLpk hkdf base64Error markerPath setup mode c h).2 key source) ∧
    (∀ b64, h.store = some b64 →
      (resolveHostLpk hkdf base64Error markerPath setup mode c h).2.store = some b64) := by
  obtain ⟨hos, hkept⟩ := osLpk_spec base64Error markerPath mode c h
  constructor
  · intro key source hok
    rcases chooseLpk_spec hok with ⟨rfl, hpersistent, hanswer⟩ | ⟨rfl, hanswer⟩
    · simp only [resolveHostLpk, hpersistent, if_true]
      exact ⟨hpersistent, hos key hanswer⟩
    · exact hostHeadlessLpk_spec hanswer
  · intro b64 hstore
    cases hpersistent : setup.osKeyringPersistent with
    | true =>
      simp only [resolveHostLpk, hpersistent, if_true]
      exact hkept b64 hstore
    | false =>
      simp only [resolveHostLpk, hpersistent, Bool.false_eq_true, if_false]
      exact hstore

theorem resolveAndCache_spec (pid : Nat) (mode : LpkMode) (c : Conditions) (w : AtRestWorld)
    (hsound : CacheSound hkdf base64Error setup w) :
    (∀ key source,
      (resolveAndCache hkdf base64Error markerPath setup pid mode c w).1 = .ok (key, source) →
      HostKey hkdf base64Error setup
        (resolveAndCache hkdf base64Error markerPath setup pid mode c w).2.host key source) ∧
    CacheSound hkdf base64Error setup
      (resolveAndCache hkdf base64Error markerPath setup pid mode c w).2 ∧
    EntryKept w (resolveAndCache hkdf base64Error markerPath setup pid mode c w).2 := by
  obtain ⟨hkey, hkept⟩ := resolveHostLpk_spec hkdf base64Error markerPath setup mode c w.host
  refine ⟨hkey, ?_, hkept⟩
  intro q key source hcache
  cases hfound : (resolveHostLpk hkdf base64Error markerPath setup mode c w.host).1 with
  | error e =>
    simp only [resolveAndCache, hfound] at hcache ⊢
    exact (hsound q key source hcache).kept hkept
  | ok found =>
    simp only [resolveAndCache, hfound] at hcache ⊢
    by_cases hq : q = pid
    · rw [hq, Function.update_self] at hcache
      apply hkey key source
      rw [hfound, Option.some.inj hcache]
    · rw [Function.update_of_ne hq] at hcache
      exact (hsound q key source hcache).kept hkept

theorem cachedLpk_spec (pid : Nat) (mode : LpkMode) (c : Conditions) (w : AtRestWorld)
    (hsound : CacheSound hkdf base64Error setup w) :
    (∀ key source,
      (cachedLpk hkdf base64Error markerPath setup pid mode c w).1 = .ok (key, source) →
      HostKey hkdf base64Error setup
        (cachedLpk hkdf base64Error markerPath setup pid mode c w).2.host key source) ∧
    CacheSound hkdf base64Error setup (cachedLpk hkdf base64Error markerPath setup pid mode c w).2 ∧
    EntryKept w (cachedLpk hkdf base64Error markerPath setup pid mode c w).2 := by
  cases hcached : w.cache pid with
  | some cached =>
    simp only [cachedLpk, hcached]
    refine ⟨?_, hsound, fun b64 hstore => hstore⟩
    intro key source hok
    apply hsound pid
    rw [hcached, Except.ok.inj hok]
  | none =>
    simp only [cachedLpk, hcached]
    exact resolveAndCache_spec hkdf base64Error markerPath setup pid mode c w hsound

theorem atRestStep_spec (A : Aes256Gcm) (w : AtRestWorld) (call : AtRestCall)
    (hsound : CacheSound hkdf base64Error setup w) :
    (∀ key source, (atRestStep hkdf A base64Error markerPath setup w call).1.resolved =
        some (.ok (key, source)) →
      HostKey hkdf base64Error setup
        (atRestStep hkdf A base64Error markerPath setup w call).2.host key
        source) ∧
    CacheSound hkdf base64Error setup (atRestStep hkdf A base64Error markerPath setup w call).2 ∧
    EntryKept w (atRestStep hkdf A base64Error markerPath setup w call).2 := by
  obtain ⟨pid, op, c⟩ := call
  cases op with
  | wrap plaintext nonce =>
    obtain ⟨hkey, hrest⟩ := cachedLpk_spec hkdf base64Error markerPath setup pid .sealing c w hsound
    exact ⟨fun key source hok => hkey key source (Option.some.inj hok), hrest⟩
  | remint =>
    obtain ⟨hkey, hrest⟩ :=
      resolveAndCache_spec hkdf base64Error markerPath setup pid .remint c w hsound
    exact ⟨fun key source hok => hkey key source (Option.some.inj hok), hrest⟩
  | unwrap data =>
    cases hwrapped : isWrapped data with
    | false =>
      simp only [atRestStep, hwrapped, Bool.not_false, if_true]
      exact ⟨fun key source hok => (nomatch hok), hsound, fun b64 hstore => hstore⟩
    | true =>
      simp only [atRestStep, hwrapped, Bool.not_true, Bool.false_eq_true, if_false]
      obtain ⟨hkey, hrest⟩ :=
        cachedLpk_spec hkdf base64Error markerPath setup pid .opening c w hsound
      exact ⟨fun key source hok => hkey key source (Option.some.inj hok), hrest⟩

variable {hkdf base64Error markerPath setup} {plaintext sealed : Bytes} {tagSize maxMsg : Nat}
  {calls : List AtRestCall}

theorem wrapWithKey_ok {nonce : GcmNonce} (hok : wrapWithKey A plaintext key nonce = .ok sealed) :
    ∃ c, A.encrypt key nonce [] plaintext = some c ∧ sealed = keywrapMagic ++ nonce.val ++ c := by
  cases hc : A.encrypt key nonce [] plaintext with
  | none =>
    rw [wrapWithKey, hc] at hok
    cases hok
  | some c =>
    rw [wrapWithKey, hc] at hok
    exact ⟨c, rfl, (Except.ok.inj hok).symm⟩

theorem unwrapWithKey_sealed (A : Aes256Gcm) (key : Bytes32) (nonce : GcmNonce) (c : Bytes) :
    unwrapWithKey A (keywrapMagic ++ nonce.val ++ c) key =
      ((A.decrypt key nonce [] c).elim (.error wrongKeyOrTampered) .ok) := by
  have hmagic : isWrapped (keywrapMagic ++ nonce.val ++ c) = true := by
    rw [List.append_assoc]
    exact isWrapped_magic _
  have hbody : (keywrapMagic ++ nonce.val ++ c).drop keywrapMagic.length = nonce.val ++ c := by
    rw [List.append_assoc, List.drop_left]
  have hlong : ¬ (nonce.val ++ c).length < 12 := by
    rw [List.length_append, nonce.property]
    omega
  have htake : (nonce.val ++ c).take 12 = nonce.val := List.take_left' nonce.property
  have hdrop : (nonce.val ++ c).drop 12 = c := List.drop_left' nonce.property
  simp only [unwrapWithKey, hmagic, hbody, hlong, htake, hdrop, Bool.not_true, Bool.false_eq_true,
    if_false, dite_false]
  cases A.decrypt key nonce [] c with
  | none => rfl
  | some m => rfl

theorem unwrapWithKey_same (hA : A.Lawful tagSize maxMsg) {nonce : GcmNonce} {c : Bytes}
    (hc : A.encrypt key nonce [] plaintext = some c) :
    unwrapWithKey A (keywrapMagic ++ nonce.val ++ c) key = .ok plaintext := by
  rw [unwrapWithKey_sealed, (hA.opens_iff key nonce [] c plaintext).mpr hc]
  rfl

theorem unwrapWithKey_other {used : Set Bytes} (hA : A.Ideal tagSize maxMsg used) {nonce : GcmNonce}
    {c : Bytes} (hused : c ∈ used) (hc : A.encrypt key nonce [] plaintext = some c)
    (hne : key' ≠ key) :
    unwrapWithKey A (keywrapMagic ++ nonce.val ++ c) key' = .error wrongKeyOrTampered := by
  rw [unwrapWithKey_sealed]
  cases hd : A.decrypt key' nonce [] c with
  | none => rfl
  | some m =>
    have hc' := (hA.opens_iff key' nonce [] c m).mp hd
    exact absurd (hA.binds c hused _ _ _ _ _ _ _ _ hc hc').1.symm hne

theorem Sealed.encrypted {e : Entry AtRestWorld AtRestCall AtRestOutcome}
    (hstep : atRestStep hkdf A base64Error markerPath setup e.before e.input = (e.output, e.after))
    (hsealed : Sealed e plaintext sealed key source) :
    ∃ nonce : GcmNonce, ∃ c, A.encrypt key nonce [] plaintext = some c ∧
      sealed = keywrapMagic ++ nonce.val ++ c := by
  obtain ⟨pid, nonce, c, hinput, houtput⟩ := hsealed
  rw [hinput, houtput] at hstep
  simp only [atRestStep, Prod.mk.injEq, AtRestOutcome.mk.injEq, Option.some.injEq] at hstep
  obtain ⟨⟨hfound, hresult⟩, _⟩ := hstep
  rw [hfound] at hresult
  exact ⟨nonce, wrapWithKey_ok hresult⟩

theorem Opened.unwrapped {f : Entry AtRestWorld AtRestCall AtRestOutcome}
    (hstep : atRestStep hkdf A base64Error markerPath setup f.before f.input = (f.output, f.after))
    {result : Except PasskeyError Bytes} (hopened : Opened f sealed key source result) :
    result = unwrapWithKey A sealed key := by
  obtain ⟨pid, c, hinput, houtput⟩ := hopened
  rw [hinput, houtput] at hstep
  cases hwrapped : isWrapped sealed with
  | false =>
    simp only [atRestStep, hwrapped, Bool.not_false, if_true, Prod.mk.injEq,
      AtRestOutcome.mk.injEq] at hstep
    cases hstep.1.1
  | true =>
    simp only [atRestStep, hwrapped, Bool.not_true, Bool.false_eq_true, if_false, Prod.mk.injEq,
      AtRestOutcome.mk.injEq, Option.some.injEq] at hstep
    obtain ⟨⟨hfound, hresult⟩, _⟩ := hstep
    rw [hfound] at hresult
    exact hresult.symm

/-- Any two calls of a run that resolve a key do so from one host: the later
one's. -/
theorem atRestRun_hostKeys (hkdf : Hkdf) (A : Aes256Gcm) (base64Error : String → String)
    (markerPath : String) (setup : Setup) (h : Host) (calls : List AtRestCall) :
    (atRestRun hkdf A base64Error markerPath setup h calls).Pairwise fun e f =>
      ∀ key source key' source', e.output.resolved = some (.ok (key, source)) →
        f.output.resolved = some (.ok (key', source')) →
        ∃ g, HostKey hkdf base64Error setup g key source ∧
          HostKey hkdf base64Error setup g key' source' := by
  let R := fun w u => CacheSound hkdf base64Error setup w →
    CacheSound hkdf base64Error setup u ∧ EntryKept w u
  have hrefl : ∀ w, R w w := fun w hsound => ⟨hsound, fun b64 hstore => hstore⟩
  have htrans : ∀ w u v, R w u → R u v → R w v := by
    intro w u v hwu huv hsound
    obtain ⟨hsound, hkept⟩ := hwu hsound
    obtain ⟨hsound, hkept'⟩ := huv hsound
    exact ⟨hsound, fun b64 hstore => hkept' b64 (hkept b64 hstore)⟩
  have hstep : ∀ w call, R w (atRestStep hkdf A base64Error markerPath setup w call).2 :=
    fun w call hsound => (atRestStep_spec hkdf base64Error markerPath setup A w call hsound).2
  have hstart : CacheSound hkdf base64Error setup ⟨h, fun _ => none⟩ :=
    fun pid key source hcache => nomatch hcache
  apply List.Pairwise.imp_of_mem _ (trace_pairwise hrefl htrans hstep ⟨h, fun _ => none⟩ calls)
  intro e f he hf hef key source key' source' hfound hfound'
  have hsound := (trace_reaches hrefl htrans hstep he hstart).1
  have heq := (mem_trace he).2
  have hfeq := (mem_trace hf).2
  have hspec := atRestStep_spec hkdf base64Error markerPath setup A e.before e.input hsound
  rw [heq] at hspec
  obtain ⟨hkey, hsound, _⟩ := hspec
  obtain ⟨hsound, hkept⟩ := hef hsound
  have hspec := atRestStep_spec hkdf base64Error markerPath setup A f.before f.input hsound
  rw [hfeq] at hspec
  obtain ⟨hkey', _, hkept'⟩ := hspec
  exact ⟨f.after.host, ((hkey key source hfound).kept hkept).kept hkept',
    hkey' key' source' hfound'⟩

theorem OneSource.eq {source' : LpkSource} (hone : OneSource hkdf setup)
    (hkey : HostKey hkdf base64Error setup h key source)
    (hkey' : HostKey hkdf base64Error setup h key' source') : source' = source := by
  cases source with
  | osKeyring =>
    cases source' with
    | osKeyring => rfl
    | headless =>
      rcases hone with hvolatile | hunset
      · exact absurd (hvolatile.symm.trans hkey.1) Bool.false_ne_true
      · exact absurd hkey' (hunset key')
  | headless =>
    cases source' with
    | headless => rfl
    | osKeyring =>
      rcases hone with hvolatile | hunset
      · exact absurd (hvolatile.symm.trans hkey'.1) Bool.false_ne_true
      · exact absurd hkey (hunset key)

/-- A later opening from the source of the seal gives the plaintext back, one
from the other source gives it back or is refused; on a host with one source
every opening that resolves a key agrees. -/
theorem atRest_agrees (hkdf : Hkdf) (A : Aes256Gcm) (base64Error : String → String)
    (markerPath : String) (setup : Setup) (h : Host) (calls : List AtRestCall)
    (hA : A.Ideal tagSize maxMsg
      (sealedBodies (atRestRun hkdf A base64Error markerPath setup h calls))) :
    ((atRestRun hkdf A base64Error markerPath setup h calls).Pairwise fun e f =>
      ∀ plaintext sealed key source key' source' result, Sealed e plaintext sealed key source →
        Opened f sealed key' source' result →
        (source' = source → key' = key ∧ result = .ok plaintext) ∧
        (result = .ok plaintext ∨ result = .error wrongKeyOrTampered)) ∧
    (OneSource hkdf setup →
      SealsAgree (atRestRun hkdf A base64Error markerPath setup h calls)) := by
  have hpairs : (atRestRun hkdf A base64Error markerPath setup h calls).Pairwise fun e f =>
      ∀ plaintext sealed key source key' source' result, Sealed e plaintext sealed key source →
        Opened f sealed key' source' result →
        (∃ g, HostKey hkdf base64Error setup g key source ∧
          HostKey hkdf base64Error setup g key' source') ∧
        (key' = key → result = .ok plaintext) ∧
        (key' ≠ key → result = .error wrongKeyOrTampered) := by
    apply List.Pairwise.imp_of_mem
      _ (atRestRun_hostKeys hkdf A base64Error markerPath setup h calls)
    intro e f he hf hkeys plaintext sealed key source key' source' result hsealed hopened
    obtain ⟨nonce, c, hc, rfl⟩ := hsealed.encrypted (mem_trace he).2
    have hresult := hopened.unwrapped (mem_trace hf).2
    refine ⟨?_, ?_, ?_⟩
    · obtain ⟨pid, n, cond, _, houtput⟩ := hsealed
      obtain ⟨pid', cond', _, houtput'⟩ := hopened
      exact hkeys key source key' source' (by rw [houtput]) (by rw [houtput'])
    · rintro rfl
      rw [hresult, unwrapWithKey_same hA.toLawful hc]
    · intro hne
      rw [hresult, unwrapWithKey_other hA ⟨e, he, plaintext, key, source, nonce, hsealed⟩ hc hne]
  refine ⟨hpairs.imp ?_, fun hone => hpairs.imp ?_⟩
  · intro e f hef plaintext sealed key source key' source' result hsealed hopened
    obtain ⟨⟨g, hkey, hkey'⟩, hsame, hother⟩ :=
      hef plaintext sealed key source key' source' result hsealed hopened
    constructor
    · rintro rfl
      have heq := hkey'.unique hkey
      exact ⟨heq, hsame heq⟩
    · by_cases heq : key' = key
      · exact .inl (hsame heq)
      · exact .inr (hother heq)
  · intro e f hef plaintext sealed key source key' source' result hsealed hopened
    obtain ⟨⟨g, hkey, hkey'⟩, hsame, _⟩ :=
      hef plaintext sealed key source key' source' result hsealed hopened
    obtain rfl := hone.eq hkey hkey'
    have heq := hkey'.unique hkey
    exact ⟨heq, hsame heq⟩

end

def mintedKey : Bytes32 := filled 1

def derivedKey : Bytes32 := filled 2

def sealNonce : GcmNonce := ⟨List.replicate 12 9, rfl⟩

/-- A persistent keyring, and a secret of the shortest length beside it. -/
def bothSources : Setup := ⟨true, some (String.ofList (List.replicate 32 'x')), none, ""⟩

def calm : Conditions := ⟨none, noFaults, none, mintedKey⟩

/-- The keyring cannot be read. -/
def locked : Conditions := ⟨none, { noFaults with get := some "locked" }, none, mintedKey⟩

def keyringOnly : Setup := ⟨true, none, none, ""⟩

def sealedSample : Bytes := keywrapMagic ++ sealNonce.val ++ ([7] ++ List.replicate 16 1)

def sealAead : Aes256Gcm := Aead.tagOnce 100 16 mintedKey sealNonce [] [7]

/-- One process seals, a second one opens. -/
def sealThenOpen (setup : Setup) (c : Conditions) :
    List (Entry AtRestWorld AtRestCall AtRestOutcome) :=
  atRestRun (fun _ _ _ => derivedKey) sealAead (fun _ => "") "marker" setup ⟨none, false⟩
    [⟨0, .wrap [7] sealNonce, calm⟩, ⟨1, .unwrap sealedSample, c⟩]

theorem sealThenOpen_outputs :
    (sealThenOpen keyringOnly calm).map (fun e => e.output) =
      [⟨some (.ok (mintedKey, .osKeyring)), .ok sealedSample⟩,
        ⟨some (.ok (mintedKey, .osKeyring)), .ok [7]⟩] ∧
    (sealThenOpen bothSources locked).map (fun e => e.output) =
      [⟨some (.ok (mintedKey, .osKeyring)), .ok sealedSample⟩,
        ⟨some (.ok (derivedKey, .headless)), .error wrongKeyOrTampered⟩] := by
  decide +kernel

theorem sealedBodies_sample :
    sealedBodies (sealThenOpen keyringOnly calm) ⊆ {[7] ++ List.replicate 16 1} := by
  obtain ⟨hseal, _⟩ := List.cons.inj sealThenOpen_outputs.1
  rintro c ⟨e, he, plaintext, key, source, nonce, pid, n, cond, hinput, houtput⟩
  rcases List.mem_cons.mp he with rfl | he
  · have hsame := hseal.symm.trans houtput
    simp only [AtRestOutcome.mk.injEq, Except.ok.injEq] at hsame
    have hlen : (keywrapMagic ++ sealNonce.val).length = (keywrapMagic ++ nonce.val).length := by
      rw [List.length_append, List.length_append, sealNonce.property, nonce.property]
    exact (List.append_inj hsame.2 hlen).2.symm
  · rw [List.mem_singleton.mp he] at hinput
    cases hinput

theorem atRest_agrees_sample : SealsAgree (sealThenOpen keyringOnly calm) := by
  have hone : sealAead.Ideal 16 100 {[7] ++ List.replicate 16 1} :=
    Aead.tagOnce_ideal (by decide) mintedKey sealNonce [] [7]
  have hA := hone.mono sealedBodies_sample
  apply (atRest_agrees (fun _ _ _ => derivedKey) sealAead (fun _ => "") "marker" keyringOnly
    ⟨none, false⟩ [⟨0, .wrap [7] sealNonce, calm⟩, ⟨1, .unwrap sealedSample, calm⟩] hA).2
  exact .inr fun key hkey => nomatch hkey

/-- While the keyring is locked the second process takes the headless key. -/
theorem atRest_disagrees_sample : ¬ SealsAgree (sealThenOpen bothSources locked) := by
  intro hagree
  obtain ⟨hseal, hrest⟩ := List.cons.inj sealThenOpen_outputs.2
  obtain ⟨hopen, _⟩ := List.cons.inj hrest
  have hpair := (List.pairwise_cons.mp hagree).1 _ List.mem_cons_self
  have hkeys := hpair [7] sealedSample mintedKey .osKeyring derivedKey .headless _
    ⟨0, sealNonce, calm, rfl, hseal⟩ ⟨1, locked, rfl, hopen⟩
  cases hkeys.2

end GitCellar
