import GitCellar.IdentityFiles
import GitCellar.PgpKeys
import GitCellar.SealedFormat
import GitCellar.UserRuns
import GitCellar.UserStates

/-! The identities of a configuration directory over whole runs, where no write stops
halfway: what is loaded for a user is what was last saved in that user's directory. -/

namespace GitCellar

open AuthEnc Effects Loops Paths Traces

variable {F : Filesystem} {Cert : Type} (C : CertBytes Cert)
  (unwrapAtRest : Bytes → Except PasskeyError Bytes) (configDir : PathBuf) (c : ConfigDir F)

/-- The contents of a user's `secret.pgp`. -/
def secretOf (username : String) : Option Bytes :=
  (c.entry username).bind fun e => if e.isDir then e.secret else none

def readCert (raw : Bytes) : Except PasskeyError (Identity Cert) := do
  let certData ← openCertData unwrapAtRest raw
  let cert ← (C.fromBytes certData).mapError fun e =>
      .keyLoad ("Failed to parse certificate: " ++ e)
  return ⟨cert, userIdOf C cert⟩

/-- `Identity::load_user` -/
def loadUser (username : String) : Except PasskeyError (Identity Cert) := do
  let _ ← checkedIdentityDir configDir c username
  match secretOf c username with
  | none => .error .identityNotFound
  | some raw => readCert C unwrapAtRest raw

/-- `identity::load_active`, through `load_active_identity`. -/
def loadActiveIdentity : Except EngineError (Identity Cert) :=
  match getActiveUser c with
  | none => .error .identityNotFound
  | some username => (loadUser C unwrapAtRest configDir c username).mapError .ofPasskey

/-- `Identity::save_for_user` under this outcome of the seal. -/
def saveIdentityFor (username : String) (identity : Identity Cert)
    (sealer : Bytes → Except PasskeyError Bytes) : Except PasskeyError (ConfigDir F) :=
  saveForUser configDir c username
    ((C.tsk identity.cert).mapError (fun e => .keySave ("Failed to write secret key: " ++ e)) >>=
      sealer)
    (C.publicBytes identity.cert)

def UserEntry.withoutKeys (username : String) (e : UserEntry F) : UserEntry F :=
  if e.isNamed username then { e with secret := none, publicKey := none } else e

def deleteUserIdentity (username : String) : Except PasskeyError (ConfigDir F) := do
  let _ ← checkedIdentityDir configDir c username
  .ok { c with users := c.users.map (·.map (UserEntry.withoutKeys username)) }

/-- A result, or the state as it was. -/
def stepOf (c : ConfigDir F) (r : Except PasskeyError (ConfigDir F)) :
    Except PasskeyError Unit × ConfigDir F :=
  match r with
  | .ok next => (.ok (), next)
  | .error e => (.error e, c)

def defaultUser : String := "default"

/-- Makes the user `default` where there is none, and selects it. -/
def useDefaultUser : Except PasskeyError Unit × ConfigDir F :=
  let (made, c) := if userExists configDir c defaultUser then (.ok (), c)
    else stepOf c (createUser configDir c defaultUser)
  match made with
  | .error e => (.error e, c)
  | .ok _ => stepOf c (setActiveUser c defaultUser)

/-- `save_identity` of the application: what was done before a step that fails stays. -/
def saveIdentity (identity : Identity Cert) (sealer : Bytes → Except PasskeyError Bytes) :
    Except EngineError Unit × ConfigDir F :=
  let (chosen, c) : Except PasskeyError String × ConfigDir F := match getActiveUser c with
    | some user => (.ok user, c)
    | none =>
      let (r, c) := useDefaultUser configDir c
      (r.map fun _ => defaultUser, c)
  match chosen with
  | .error e => (.error (.ofPasskey e), c)
  | .ok username =>
    let (r, c) := stepOf c (saveIdentityFor C configDir c username identity sealer)
    (r.mapError .ofPasskey, c)

/-- `identity_exists` of the application. -/
def identityExists : Bool :=
  match evaluateState configDir c with
  | .ready _ => true
  | .readyMultiUser _ _ => true
  | .needsUserSelection users => !users.isEmpty
  | .activeUserMissing _ available => !available.isEmpty
  | .noIdentity => false
  | .corrupted _ => false

inductive AppCall (Cert : Type) where
  | createUser (username : String)
  | saveForUser (username : String) (identity : Identity Cert)
    (sealer : Bytes → Except PasskeyError Bytes)
  | saveIdentity (identity : Identity Cert) (sealer : Bytes → Except PasskeyError Bytes)
  | setActiveUser (username : String)
  | clearActiveUser
  | deleteUser (username : String)
  | deleteUserIdentity (username : String)
  | repairState

/-- Whether the call succeeds, and the state it leaves. -/
def appStep (call : AppCall Cert) : Bool × ConfigDir F :=
  match call with
  | .createUser username => succeeded (stepOf c (createUser configDir c username))
  | .saveForUser username identity sealer =>
    succeeded (stepOf c (saveIdentityFor C configDir c username identity sealer))
  | .saveIdentity identity sealer =>
    let (r, c) := saveIdentity C configDir c identity sealer
    (r.isOk, c)
  | .setActiveUser username => succeeded (stepOf c (setActiveUser c username))
  | .clearActiveUser => (true, clearActiveUser c)
  | .deleteUser username => succeeded (stepOf c (deleteUser configDir c username))
  | .deleteUserIdentity username => succeeded (stepOf c (deleteUserIdentity configDir c username))
  | .repairState => succeeded (stepOf c ((repairState configDir c).map Prod.snd))
where
  succeeded (r : Except PasskeyError Unit × ConfigDir F) : Bool × ConfigDir F := (r.1.isOk, r.2)

/-- Whose identity a call writes or removes, and what is there after it. -/
def AppCall.writes : AppCall Cert → Option (String × Option Cert)
  | .saveForUser username identity _ => some (username, some identity.cert)
  | .saveIdentity identity _ => some ((getActiveUser c).getD defaultUser, some identity.cert)
  | .deleteUser username => some (username, none)
  | .deleteUserIdentity username => some (username, none)
  | _ => none

/-- The certificates by directory. -/
abbrev Accounts (Cert : Type) := String → Option Cert

/-- A call that succeeds does what its name says, one that fails nothing. -/
def Accounts.after (accounts : Accounts Cert) (e : Entry (ConfigDir F) (AppCall Cert) Bool) :
    Accounts Cert :=
  match e.input.writes e.before with
  | some (username, cert) =>
    if e.output then Function.update accounts (F.key username) cert else accounts
  | none => accounts

/-- What was last saved, after the calls of a run. -/
def Accounts.afterRun (accounts : Accounts Cert)
    (run : List (Entry (ConfigDir F) (AppCall Cert) Bool)) :
    Accounts Cert := run.foldl Accounts.after accounts

def loaded : Option Cert → Except PasskeyError (Identity Cert)
  | some cert => .ok ⟨cert, userIdOf C cert⟩
  | none => .error .identityNotFound

def Keeps (raw : Option Bytes) (cert : Option Cert) : Prop :=
  raw.map (readCert C unwrapAtRest) = cert.map fun cert => .ok ⟨cert, userIdOf C cert⟩

/-- The directory holds the accounts' identities, each under its key. -/
structure Holds (accounts : Accounts Cert) : Prop where
  inside : ∀ e ∈ c.entries, e.inside = true
  secrets : ∀ username, Keeps C unwrapAtRest (secretOf c username) (accounts (F.key username))

/-- What the seal of a save returns opens again. -/
def AppCall.Opens : AppCall Cert → Prop
  | .saveForUser _ _ sealer =>
    ∀ b sealed, sealer b = .ok sealed → openCertData unwrapAtRest sealed = .ok b
  | .saveIdentity _ sealer =>
    ∀ b sealed, sealer b = .ok sealed → openCertData unwrapAtRest sealed = .ok b
  | _ => True

/-- Loading finds what the accounts have, and nothing else. -/
structure LoadsSaved (accounts : Accounts Cert) : Prop where
  user : ∀ username, ValidName username →
    loadUser C unwrapAtRest configDir c username = loaded C (accounts (F.key username))
  active : ∀ username, getActiveUser c = some username →
    loadActiveIdentity C unwrapAtRest configDir c =
      (loaded C (accounts (F.key username))).mapError .ofPasskey
  any : identityExists configDir c = true ↔
    ∃ username ∈ listUsers c, ValidName username ∧ (accounts (F.key username)).isSome

/-- What the application is told of the state is what loading finds. -/
structure StateAgrees (accounts : Accounts Cert) : Prop where
  available : ∀ username, username ∈ (evaluateState configDir c).availableUsers ↔
    username ∈ listUsers c ∧ ValidName username ∧ (accounts (F.key username)).isSome
  action : (evaluateState configDir c).needsAction = !(evaluateState configDir c).isReady
  ready : (evaluateState configDir c).isReady = true → ∃ username cert,
    (evaluateState configDir c).activeUsername = some username ∧
    accounts (F.key username) = some cert ∧
      loadActiveIdentity C unwrapAtRest configDir c = .ok ⟨cert, userIdOf C cert⟩
  repaired : ∀ username, (evaluateState configDir c).availableUsers = [username] →
    ∃ cert repaired, repairState configDir c = .ok (.ready username, repaired) ∧
      accounts (F.key username) = some cert ∧
      loadActiveIdentity C unwrapAtRest configDir repaired = .ok ⟨cert, userIdOf C cert⟩
  caseSensitive : Function.Injective F.key → ((evaluateState configDir c).isReady = true ↔
    (loadActiveIdentity C unwrapAtRest configDir c).isOk = true)

section

variable {c} {s : ConfigDir F} {name username : String} {e : UserEntry F}

theorem isNamed_congr (h : F.key name = F.key username) (e : UserEntry F) :
    e.isNamed name = e.isNamed username := by
  rw [UserEntry.isNamed, UserEntry.isNamed, h]

theorem isNamed_iff :
    e.isNamed username = true ↔ ∃ n, e.name = some n ∧ F.key n = F.key username := by
  simp [UserEntry.isNamed, Option.any_eq_true]

theorem key_of_isNamed (h : e.isNamed name = true) (h' : e.isNamed username = true) :
    F.key name = F.key username := by
  obtain ⟨n, hn, hkey⟩ := isNamed_iff.mp h
  obtain ⟨n', hn', hkey'⟩ := isNamed_iff.mp h'
  obtain rfl := Option.some.inj (hn.symm.trans hn')
  exact hkey.symm.trans hkey'

theorem secretOf_of_entries (h : s.entries = c.entries) : secretOf s name = secretOf c name := by
  rw [secretOf, secretOf, ConfigDir.entry, ConfigDir.entry, h]

theorem entries_map (f : UserEntry F → UserEntry F) :
    ConfigDir.entries { c with users := c.users.map (·.map f) } = c.entries.map f := by
  cases husers : c.users with
  | none => simp [ConfigDir.entries, husers]
  | some entries => simp [ConfigDir.entries, husers]

theorem entry_map (f : UserEntry F → UserEntry F) (hf : ∀ e, (f e).isNamed name = e.isNamed name) :
    ConfigDir.entry { c with users := c.users.map (·.map f) } name = (c.entry name).map f := by
  rw [ConfigDir.entry, entries_map, List.find?_map, ConfigDir.entry]
  congr 2
  exact funext hf

theorem inside_map {f : UserEntry F → UserEntry F} (hf : ∀ e, (f e).inside = e.inside)
    (h : ∀ e ∈ c.entries, e.inside = true) :
    ∀ e ∈ ConfigDir.entries { c with users := c.users.map (·.map f) }, e.inside = true := by
  intro e he
  rw [entries_map] at he
  obtain ⟨old, hold, rfl⟩ := List.mem_map.mp he
  rw [hf, h old hold]

theorem withKeys_isNamed {secret publicKey : Bytes} (e : UserEntry F) :
    (UserEntry.withKeys username secret publicKey e).isNamed name = e.isNamed name := by
  rw [UserEntry.withKeys]
  split
  · rfl
  · rfl

theorem withoutKeys_isNamed (e : UserEntry F) :
    (UserEntry.withoutKeys username e).isNamed name = e.isNamed name := by
  rw [UserEntry.withoutKeys]
  split
  · rfl
  · rfl

theorem entry_isNamed (h : c.entry name = some e) : e.isNamed name = true := by
  have hfound : c.entries.find? (fun e => e.isNamed name) = some e := h
  simpa using List.find?_some hfound

/-- A new directory has no secret. -/
theorem makeUserDir_spec {hvalid : ValidName username}
    (hmade : makeUserDir c username hvalid = some s) :
    (∀ name, secretOf s name = secretOf c name) ∧
    (∃ e, s.entry username = some e ∧ e.isDir = true) ∧
      ((∀ e ∈ c.entries, e.inside = true) → ∀ e ∈ s.entries, e.inside = true) := by
  rw [makeUserDir] at hmade
  cases hentry : c.entry username with
  | some e =>
    simp only [hentry, Option.ite_none_right_eq_some, Option.some.injEq] at hmade
    obtain ⟨hdir, rfl⟩ := hmade
    exact ⟨fun _ => rfl, ⟨e, hentry, hdir⟩, id⟩
  | none =>
    rw [hentry] at hmade
    obtain rfl := Option.some.inj hmade
    have hnew : (UserEntry.new F username hvalid).isNamed username = true :=
      isNamed_iff.mpr ⟨username, rfl, rfl⟩
    have happend : ∀ name,
        ConfigDir.entry { c with users := some (c.entries ++ [UserEntry.new F username hvalid]) }
          name =
          (c.entry name).or (if (UserEntry.new F username hvalid).isNamed name
            then some (UserEntry.new F username hvalid) else none) := by
      intro name
      show (c.entries ++ [UserEntry.new F username hvalid]).find? (fun e => e.isNamed name) = _
      rw [List.find?_append, List.find?_singleton]
      rfl
    refine ⟨?_, ⟨UserEntry.new F username hvalid, ?_, rfl⟩, ?_⟩
    · intro name
      rw [secretOf, happend, secretOf]
      cases hname : c.entry name with
      | some e => rfl
      | none =>
        rw [Option.none_or]
        split
        · rfl
        · rfl
    · rw [happend, hentry, Option.none_or, if_pos hnew]
    · intro hinside e he
      rcases List.mem_append.mp he with hold | hadded
      · exact hinside e hold
      · rw [List.mem_singleton.mp hadded]
        rfl

theorem secretOf_writeKeys {secret publicKey : Bytes}
    (hdir : ∃ e, c.entry username = some e ∧ e.isDir = true) :
    secretOf (writeKeys c username secret publicKey) name =
      if F.key name = F.key username then some secret else secretOf c name := by
  have hentry : (writeKeys c username secret publicKey).entry name =
      (c.entry name).map (UserEntry.withKeys username secret publicKey) :=
    entry_map _ withKeys_isNamed
  by_cases hkey : F.key name = F.key username
  · obtain ⟨e, he, hisDir⟩ := hdir
    have hname : c.entry name = some e := by
      rw [← he, ConfigDir.entry, ConfigDir.entry, funext (isNamed_congr hkey)]
    rw [if_pos hkey, secretOf, hentry, hname, Option.map_some, UserEntry.withKeys,
      if_pos (entry_isNamed he)]
    simp [hisDir]
  · rw [if_neg hkey, secretOf, hentry, secretOf]
    cases hname : c.entry name with
    | none => rfl
    | some e =>
      have hother : ¬ e.isNamed username = true :=
        fun h => hkey (key_of_isNamed (entry_isNamed hname) h)
      rw [Option.map_some, UserEntry.withKeys, if_neg hother]

theorem secretOf_withoutKeys :
    secretOf { c with users := c.users.map (·.map (UserEntry.withoutKeys username)) } name =
      if F.key name = F.key username then none else secretOf c name := by
  rw [secretOf, entry_map _ withoutKeys_isNamed, secretOf]
  cases hname : c.entry name with
  | none => simp
  | some e =>
    by_cases hkey : F.key name = F.key username
    · have hown : e.isNamed username = true := isNamed_congr hkey e ▸ entry_isNamed hname
      rw [if_pos hkey, Option.map_some, UserEntry.withoutKeys, if_pos hown]
      simp
    · have hother : ¬ e.isNamed username = true :=
        fun h => hkey (key_of_isNamed (entry_isNamed hname) h)
      rw [if_neg hkey, Option.map_some, UserEntry.withoutKeys, if_neg hother]

theorem secretOf_removed (h : s.entries = c.entries.filter fun e => !e.isNamed username) :
    secretOf s name = if F.key name = F.key username then none else secretOf c name := by
  by_cases hkey : F.key name = F.key username
  · have hnone : s.entry name = none := by
      rw [ConfigDir.entry, h, List.find?_eq_none]
      intro e he
      rw [isNamed_congr hkey]
      simpa using (List.mem_filter.mp he).2
    rw [if_pos hkey, secretOf, hnone]
    rfl
  · have hkept : s.entry name = c.entry name := by
      rw [ConfigDir.entry, h, List.find?_filter, ConfigDir.entry]
      congr 1
      funext e
      by_cases hname : e.isNamed name = true
      · have hother : ¬ e.isNamed username = true := fun hown => hkey (key_of_isNamed hname hown)
        simp [hname, hother]
      · simp [hname]
    rw [if_neg hkey, secretOf, hkept, secretOf]

/-- Repair writes the pointer or nothing. -/
theorem repairState_result {state : IdentityState} (h : repairState configDir c = .ok (state, s)) :
    s = c ∨ ∃ user, setActiveUser c user = .ok s := by
  have hset : ∀ {user : String} {found : IdentityState},
      (do
        let repaired ← setActiveUser c user
        .ok (found, repaired)) =
          (.ok (state, s) : Except PasskeyError (IdentityState × ConfigDir F)) →
        ∃ user, setActiveUser c user = .ok s := by
    intro user found h
    obtain ⟨repaired, hrepaired, hpair⟩ := bind_eq_ok_iff.mp h
    cases hpair
    exact ⟨user, hrepaired⟩
  rw [repairState] at h
  split at h
  · exact .inr (hset h)
  · exact .inr (hset h)
  · split at h
    · cases h
      exact .inl rfl
    · cases h
      exact .inl rfl
  · cases h
    exact .inl rfl

end

variable {C unwrapAtRest configDir} {s : ConfigDir F} {accounts : Accounts Cert} {username : String}
  {cert : Cert} {identity : Identity Cert} {sealer : Bytes → Except PasskeyError Bytes}

theorem readCert_ok {raw tskBytes : Bytes} (hopen : openCertData unwrapAtRest raw = .ok tskBytes)
    (hcert : C.fromBytes tskBytes = .ok cert) :
    readCert C unwrapAtRest raw = .ok ⟨cert, userIdOf C cert⟩ := by
  rw [readCert, hopen]
  show (C.fromBytes tskBytes).mapError _ >>= _ = _
  rw [hcert]
  rfl

theorem tsk_of_mapError {tskBytes : Bytes} {f : String → PasskeyError}
    (h : (C.tsk cert).mapError f = .ok tskBytes) : C.tsk cert = .ok tskBytes := by
  cases htsk : C.tsk cert with
  | error e =>
    rw [htsk] at h
    cases h
  | ok b =>
    rw [htsk] at h
    exact congrArg Except.ok (Except.ok.inj h)

theorem isOk_mapError {α ε ε' : Type} {r : Except ε α} {f : ε → ε'} :
    (r.mapError f).isOk = r.isOk := by
  cases r with
  | ok a => rfl
  | error e => rfl

theorem Holds.inside_entry {c : ConfigDir F} (h : Holds C unwrapAtRest c accounts) :
    ∀ e ∈ c.entry username, e.inside = true := fun e he => h.inside e (List.mem_of_find?_eq_some he)

theorem Holds.of_entries {c : ConfigDir F} (h : Holds C unwrapAtRest c accounts)
    (hs : s.entries = c.entries) : Holds C unwrapAtRest s accounts := by
  constructor
  · rw [hs]
    exact h.inside
  · intro name
    rw [secretOf_of_entries hs]
    exact h.secrets name

theorem Holds.createUser {c : ConfigDir F} (h : Holds C unwrapAtRest c accounts)
    (hs : GitCellar.createUser configDir c username = .ok s) : Holds C unwrapAtRest s accounts := by
  rw [GitCellar.createUser] at hs
  split at hs
  · cases hs
  · split at hs
    · rename_i made hmade
      obtain rfl := Except.ok.inj hs
      obtain ⟨hsecret, _, hinside⟩ := makeUserDir_spec hmade
      refine ⟨hinside h.inside, ?_⟩
      intro name
      rw [hsecret]
      exact h.secrets name
    · cases hs

/-- A save that succeeds: the user's certificate is there, the others' stay. -/
theorem Holds.saveIdentityFor {c : ConfigDir F} (h : Holds C unwrapAtRest c accounts)
    (hround : ∀ cert b, C.tsk cert = .ok b → C.fromBytes b = .ok cert)
    (hopens : ∀ b sealed, sealer b = .ok sealed → openCertData unwrapAtRest sealed = .ok b)
    (hs : GitCellar.saveIdentityFor C configDir c username identity sealer = .ok s) :
    Holds C unwrapAtRest s (Function.update accounts (F.key username) (some identity.cert)) := by
  rw [GitCellar.saveIdentityFor, saveForUser] at hs
  split at hs
  · cases hs
  · obtain ⟨secret, hsecret, hs⟩ := bind_eq_ok_iff.mp hs
    obtain ⟨tskBytes, htsk, hseal⟩ := bind_eq_ok_iff.mp hsecret
    split at hs
    · rename_i made hmade
      obtain rfl := Except.ok.inj hs
      obtain ⟨hkept, hdir, hinside⟩ := makeUserDir_spec hmade
      have hsame : ∀ e : UserEntry F,
          (UserEntry.withKeys username secret (C.publicBytes identity.cert) e).inside =
          e.inside := by
        intro e
        rw [UserEntry.withKeys]
        split
        · rfl
        · rfl
      refine ⟨inside_map hsame (hinside h.inside), ?_⟩
      intro name
      have hname : secretOf (writeKeys made username secret (C.publicBytes identity.cert)) name =
          _ :=
        secretOf_writeKeys hdir
      rw [hname]
      by_cases hkey : F.key name = F.key username
      · have htsk : C.tsk identity.cert = .ok tskBytes := tsk_of_mapError htsk
        rw [if_pos hkey, hkey, Function.update_self]
        exact congrArg some (readCert_ok (hopens tskBytes secret hseal) (hround _ _ htsk))
      · rw [if_neg hkey, Function.update_of_ne hkey, hkept]
        exact h.secrets name
    · cases hs

theorem Holds.removed {c : ConfigDir F} (h : Holds C unwrapAtRest c accounts)
    (hinside : ∀ e ∈ s.entries, e.inside = true)
    (hs : ∀ name, secretOf s name = if F.key name = F.key username then none else secretOf c name) :
    Holds C unwrapAtRest s (Function.update accounts (F.key username) none) := by
  refine ⟨hinside, ?_⟩
  intro name
  rw [hs]
  by_cases hkey : F.key name = F.key username
  · rw [if_pos hkey, hkey, Function.update_self]
    rfl
  · rw [if_neg hkey, Function.update_of_ne hkey]
    exact h.secrets name

theorem Holds.deleteUser {c : ConfigDir F} (h : Holds C unwrapAtRest c accounts)
    (hs : GitCellar.deleteUser configDir c username = .ok s) :
    Holds C unwrapAtRest s (Function.update accounts (F.key username) none) := by
  obtain ⟨hentries, _⟩ := deleteUser_ok hs
  refine h.removed ?_ fun name => secretOf_removed hentries
  intro e he
  rw [hentries] at he
  exact h.inside e (List.mem_filter.mp he).1

theorem Holds.deleteUserIdentity {c : ConfigDir F} (h : Holds C unwrapAtRest c accounts)
    (hs : GitCellar.deleteUserIdentity configDir c username = .ok s) :
    Holds C unwrapAtRest s (Function.update accounts (F.key username) none) := by
  obtain ⟨_, _, hs⟩ := bind_eq_ok_iff.mp hs
  obtain rfl := Except.ok.inj hs
  have hsame : ∀ e : UserEntry F, (UserEntry.withoutKeys username e).inside = e.inside := by
    intro e
    rw [UserEntry.withoutKeys]
    split
    · rfl
    · rfl
  exact h.removed (inside_map hsame h.inside) fun name => secretOf_withoutKeys

theorem Holds.stepOf {c : ConfigDir F} {r : Except PasskeyError (ConfigDir F)}
    {accounts' : Accounts Cert} (h : Holds C unwrapAtRest c accounts)
    (hs : ∀ s, r = .ok s → Holds C unwrapAtRest s accounts') :
    Holds C unwrapAtRest (GitCellar.stepOf c r).2
      (if (GitCellar.stepOf c r).1.isOk then accounts' else accounts) := by
  cases r with
  | ok s => exact hs s rfl
  | error e => exact h

/-- A call that leaves every account as it is. -/
theorem Holds.keeps {c : ConfigDir F} {r : Except PasskeyError (ConfigDir F)}
    (h : Holds C unwrapAtRest c accounts) (hs : ∀ s, r = .ok s → Holds C unwrapAtRest s accounts) :
    Holds C unwrapAtRest (GitCellar.stepOf c r).2 accounts := by
  cases r with
  | ok s => exact hs s rfl
  | error e => exact h

theorem Holds.setActiveUser {c : ConfigDir F} (h : Holds C unwrapAtRest c accounts)
    (hs : GitCellar.setActiveUser c username = .ok s) : Holds C unwrapAtRest s accounts := by
  obtain ⟨_, rfl, _⟩ := getActiveUser_set hs
  exact h.of_entries rfl

variable (configDir) in
theorem Holds.useDefaultUser {c : ConfigDir F} (h : Holds C unwrapAtRest c accounts) :
    Holds C unwrapAtRest (GitCellar.useDefaultUser configDir c).2 accounts := by
  have hset : ∀ c : ConfigDir F, Holds C unwrapAtRest c accounts →
      Holds C unwrapAtRest
        (GitCellar.stepOf c (GitCellar.setActiveUser c defaultUser)).2 accounts := by
    intro c h
    exact h.keeps fun s hs => h.setActiveUser hs
  rw [GitCellar.useDefaultUser]
  by_cases hexists : userExists configDir c defaultUser = true
  · rw [if_pos hexists]
    exact hset c h
  · rw [if_neg hexists]
    cases hmade : GitCellar.createUser configDir c defaultUser with
    | error e => exact h
    | ok s => exact hset s (h.createUser hmade)

theorem Holds.saveIdentity {c : ConfigDir F} (h : Holds C unwrapAtRest c accounts)
    (hround : ∀ cert b, C.tsk cert = .ok b → C.fromBytes b = .ok cert)
    (hopens : ∀ b sealed, sealer b = .ok sealed → openCertData unwrapAtRest sealed = .ok b) :
    Holds C unwrapAtRest (GitCellar.saveIdentity C configDir c identity sealer).2
      (if (GitCellar.saveIdentity C configDir c identity sealer).1.isOk
        then Function.update accounts (F.key ((getActiveUser c).getD defaultUser))
          (some identity.cert)
        else accounts) := by
  have hsave : ∀ (s : ConfigDir F) (username : String), Holds C unwrapAtRest s accounts →
      Holds C unwrapAtRest
        (GitCellar.stepOf s (GitCellar.saveIdentityFor C configDir s username identity sealer)).2
        (if (GitCellar.stepOf s
            (GitCellar.saveIdentityFor C configDir s username identity sealer)).1.isOk
          then Function.update accounts (F.key username) (some identity.cert) else accounts) := by
    intro s username hs
    exact hs.stepOf fun _ hsaved => hs.saveIdentityFor hround hopens hsaved
  rw [GitCellar.saveIdentity]
  cases hactive : getActiveUser c with
  | some user =>
    have hkept := hsave c user h
    simpa [isOk_mapError] using hkept
  | none =>
    have hdefault := h.useDefaultUser configDir
    cases hchosen : (GitCellar.useDefaultUser configDir c).1 with
    | error e => simpa [hchosen, Except.map, Except.isOk, Except.toBool] using hdefault
    | ok _ =>
      have hkept := hsave (GitCellar.useDefaultUser configDir c).2 defaultUser hdefault
      simpa [hchosen, Except.map, isOk_mapError] using hkept

theorem Holds.repairState {c : ConfigDir F} {state : IdentityState}
    (h : Holds C unwrapAtRest c accounts) (hs : GitCellar.repairState configDir c =
      .ok (state, s)) : Holds C unwrapAtRest s accounts := by
  rcases repairState_result configDir hs with rfl | ⟨user, hset⟩
  · exact h
  · exact h.setActiveUser hset

variable (configDir) in
/-- One call: what its name says of one account, and nothing of the others. -/
theorem Holds.step {c : ConfigDir F} (h : Holds C unwrapAtRest c accounts) (call : AppCall Cert)
    (hround : ∀ cert b, C.tsk cert = .ok b → C.fromBytes b = .ok cert)
    (hopens : call.Opens unwrapAtRest) :
    Holds C unwrapAtRest (appStep C configDir c call).2
      (accounts.after
        ⟨c, call, (appStep C configDir c call).1, (appStep C configDir c call).2⟩) := by
  cases call with
  | createUser username => exact h.keeps fun s hs => h.createUser hs
  | saveForUser username identity sealer =>
    exact h.stepOf fun s hs => h.saveIdentityFor hround hopens hs
  | saveIdentity identity sealer => exact h.saveIdentity hround hopens
  | setActiveUser username => exact h.keeps fun s hs => h.setActiveUser hs
  | clearActiveUser => exact h.of_entries rfl
  | deleteUser username => exact h.stepOf fun s hs => h.deleteUser hs
  | deleteUserIdentity username => exact h.stepOf fun s hs => h.deleteUserIdentity hs
  | repairState =>
    apply h.keeps
    intro s hs
    cases hrepair : GitCellar.repairState configDir c with
    | error e =>
      rw [hrepair] at hs
      cases hs
    | ok found =>
      obtain ⟨state, repaired⟩ := found
      rw [hrepair] at hs
      obtain rfl := Except.ok.inj hs
      exact h.repairState hrepair

variable (configDir) in
theorem Holds.run {c : ConfigDir F} (h : Holds C unwrapAtRest c accounts)
    (calls : List (AppCall Cert)) (hround : ∀ cert b, C.tsk cert = .ok b → C.fromBytes b = .ok cert)
    (hopens : ∀ call ∈ calls, call.Opens unwrapAtRest) :
    Holds C unwrapAtRest (final (appStep C configDir) c calls)
      (accounts.afterRun (trace (appStep C configDir) c calls)) := by
  induction calls generalizing c accounts with
  | nil => exact h
  | cons call calls ih =>
    have hstep := h.step configDir call hround (hopens call List.mem_cons_self)
    exact ih hstep fun call hcall => hopens call (List.mem_cons_of_mem _ hcall)

variable (configDir) in
theorem ValidPointer.stepOf {c : ConfigDir F} (h : ValidPointer c) (call : UserCall) :
    ValidPointer (GitCellar.stepOf c (call.result configDir c)).2 := h.step call

theorem ValidPointer.setActiveUser {c : ConfigDir F}
    (hs : GitCellar.setActiveUser c username = .ok s) :
    ValidPointer s := by
  obtain ⟨hvalid, _, hactive⟩ := getActiveUser_set hs
  intro name hname
  exact Option.some.inj (hactive.symm.trans hname) ▸ hvalid

variable (configDir) in
theorem ValidPointer.useDefaultUser {c : ConfigDir F} (h : ValidPointer c) :
    ValidPointer (GitCellar.useDefaultUser configDir c).2 := by
  rw [GitCellar.useDefaultUser]
  by_cases hexists : userExists configDir c defaultUser = true
  · rw [if_pos hexists]
    exact h.stepOf configDir (.setActiveUser defaultUser)
  · rw [if_neg hexists]
    have hmade := h.stepOf configDir (.createUser defaultUser)
    cases hcreate : GitCellar.createUser configDir c defaultUser with
    | error e => exact h
    | ok s =>
      have hvalid : ValidPointer s := by
        simpa [GitCellar.stepOf, UserCall.result, hcreate] using hmade
      exact hvalid.stepOf configDir (.setActiveUser defaultUser)

/-- Where nobody was selected, the default user is. -/
theorem useDefaultUser_ok {c : ConfigDir F} {made : Unit}
    (h : (useDefaultUser configDir c).1 = .ok made) :
    getActiveUser (useDefaultUser configDir c).2 = some defaultUser := by
  have hset : ∀ c : ConfigDir F, (stepOf c (setActiveUser c defaultUser)).1 = .ok made →
      getActiveUser (stepOf c (setActiveUser c defaultUser)).2 = some defaultUser := by
    intro c hc
    cases hactive : setActiveUser c defaultUser with
    | error e =>
      rw [hactive] at hc
      cases hc
    | ok s => exact (getActiveUser_set hactive).2.2
  rw [useDefaultUser] at h ⊢
  by_cases hexists : userExists configDir c defaultUser = true
  · rw [if_pos hexists] at h ⊢
    exact hset c h
  · rw [if_neg hexists] at h ⊢
    cases hcreate : createUser configDir c defaultUser with
    | error e =>
      rw [hcreate] at h
      cases h
    | ok s =>
      rw [hcreate] at h
      exact hset s h

theorem saveIdentityFor_activeUser {c : ConfigDir F} :
    (stepOf c (saveIdentityFor C configDir c username identity sealer)).2.activeUser =
    c.activeUser := by
  cases hsaved : saveIdentityFor C configDir c username identity sealer with
  | error e => rfl
  | ok s => exact saveForUser_ok hsaved

theorem ValidPointer.of_activeUser {c : ConfigDir F} (h : ValidPointer c)
    (hs : s.activeUser = c.activeUser) :
    ValidPointer s := by
  intro name hname
  rw [getActiveUser_congr hs] at hname
  exact h name hname

/-- Whatever comes of the save, it is the user it was made for who is selected. -/
theorem saveIdentity_spec {c : ConfigDir F} (h : ValidPointer c) :
    ValidPointer (saveIdentity C configDir c identity sealer).2 ∧
      ((saveIdentity C configDir c identity sealer).1.isOk →
        getActiveUser (saveIdentity C configDir c identity sealer).2 =
          some ((getActiveUser c).getD defaultUser)) := by
  rw [saveIdentity]
  cases hactive : getActiveUser c with
  | some user =>
    have hsame : (stepOf c (saveIdentityFor C configDir c user identity sealer)).2.activeUser =
        c.activeUser := saveIdentityFor_activeUser
    refine ⟨h.of_activeUser hsame, fun _ => ?_⟩
    exact (getActiveUser_congr hsame).trans hactive
  | none =>
    have hdefault := h.useDefaultUser configDir
    cases hchosen : (useDefaultUser configDir c).1 with
    | error e => simpa [hchosen, Except.map, Except.isOk, Except.toBool] using hdefault
    | ok made =>
      have hsame : (stepOf (useDefaultUser configDir c).2 (saveIdentityFor C configDir
          (useDefaultUser configDir c).2 defaultUser identity sealer)).2.activeUser =
          (useDefaultUser configDir c).2.activeUser := saveIdentityFor_activeUser
      have hselected := (getActiveUser_congr hsame).trans (useDefaultUser_ok hchosen)
      simpa [hchosen, Except.map] using ⟨hdefault.of_activeUser hsame, fun _ => hselected⟩

variable (C configDir) in
theorem ValidPointer.appStep {c : ConfigDir F} (h : ValidPointer c) (call : AppCall Cert) :
    ValidPointer (GitCellar.appStep C configDir c call).2 := by
  cases call with
  | createUser username => exact h.stepOf configDir (.createUser username)
  | saveForUser username identity sealer => exact h.of_activeUser saveIdentityFor_activeUser
  | saveIdentity identity sealer => exact (saveIdentity_spec h).1
  | setActiveUser username => exact h.stepOf configDir (.setActiveUser username)
  | clearActiveUser => exact h.stepOf configDir .clearActiveUser
  | deleteUser username => exact h.stepOf configDir (.deleteUser username)
  | deleteUserIdentity username =>
    apply h.of_activeUser
    show (GitCellar.stepOf c (deleteUserIdentity configDir c username)).2.activeUser = c.activeUser
    cases hdeleted : deleteUserIdentity configDir c username with
    | error e => rfl
    | ok s =>
      obtain ⟨_, _, hs⟩ := bind_eq_ok_iff.mp hdeleted
      obtain rfl := Except.ok.inj hs
      rfl
  | repairState =>
    show ValidPointer (GitCellar.stepOf c ((repairState configDir c).map Prod.snd)).2
    cases hrepair : repairState configDir c with
    | error e => exact h
    | ok found =>
      obtain ⟨state, repaired⟩ := found
      rcases repairState_result configDir hrepair with hsame | ⟨user, hset⟩
      · exact hsame ▸ h
      · exact ValidPointer.setActiveUser hset

theorem identityExists_iff {c : ConfigDir F} :
    identityExists configDir c = true ↔ usersWithIdentity configDir c ≠ [] := by
  by_cases hnone : usersWithIdentity configDir c = []
  · simp [identityExists, evaluateState_none hnone, hnone]
  · cases hactive : getActiveUser c with
    | none => simp [identityExists, evaluateState_unset hnone hactive]
    | some user =>
      by_cases hmem : user ∈ usersWithIdentity configDir c
      · by_cases hone : (usersWithIdentity configDir c).length = 1
        · simp [identityExists, evaluateState, hnone, hactive, hmem, hone]
        · simp [identityExists, evaluateState_active hactive hmem hone, hnone]
      · simp [identityExists, evaluateState_missing hnone hactive hmem]

theorem Keeps.isSome {raw : Option Bytes} {saved : Option Cert}
    (h : Keeps C unwrapAtRest raw saved) :
    raw.isSome = saved.isSome := by
  have hboth := congrArg Option.isSome h
  rwa [Option.isSome_map, Option.isSome_map] at hboth

theorem Holds.userHasIdentity {c : ConfigDir F} (h : Holds C unwrapAtRest c accounts) :
    GitCellar.userHasIdentity configDir c username = true ↔
      ValidName username ∧ (accounts (F.key username)).isSome := by
  have hsecret : (c.entry username).any (fun e => e.isDir && e.secret.isSome) =
      (accounts (F.key username)).isSome := by
    rw [← (h.secrets username).isSome, secretOf]
    cases c.entry username with
    | none => rfl
    | some e => cases hdir : e.isDir with
      | false => simp [hdir]
      | true => simp [hdir]
  cases hcheck : checkedIdentityDir configDir c username with
  | ok dir =>
    have hvalid := (checkedIdentityDir_eq_ok_iff.mp hcheck).1
    rw [GitCellar.userHasIdentity, hcheck]
    exact ⟨fun hany => ⟨hvalid, hsecret ▸ hany⟩, fun hboth => hsecret ▸ hboth.2⟩
  | error e =>
    rw [GitCellar.userHasIdentity, hcheck]
    constructor
    · intro hfalse
      cases hfalse
    · rintro ⟨hvalid, _⟩
      have hok : checkedIdentityDir configDir c username = .ok _ :=
        checkedIdentityDir_eq_ok_iff.mpr ⟨hvalid, h.inside_entry, rfl⟩
      rw [hcheck] at hok
      cases hok

theorem Holds.loadUser {c : ConfigDir F} (h : Holds C unwrapAtRest c accounts)
    (hvalid : ValidName username) :
    GitCellar.loadUser C unwrapAtRest configDir c username =
    loaded C (accounts (F.key username)) := by
  have hok : checkedIdentityDir configDir c username = .ok _ :=
    checkedIdentityDir_eq_ok_iff.mpr ⟨hvalid, h.inside_entry, rfl⟩
  have hkeeps := h.secrets username
  rw [GitCellar.loadUser, hok]
  show (match secretOf c username with
    | none => Except.error PasskeyError.identityNotFound
    | some raw => readCert C unwrapAtRest raw) = _
  cases hsecret : secretOf c username with
  | none =>
    rw [hsecret] at hkeeps
    rw [Option.map_eq_none_iff.mp hkeeps.symm]
    rfl
  | some raw =>
    rw [hsecret] at hkeeps
    obtain ⟨saved, hsaved, hread⟩ := Option.map_eq_some_iff.mp hkeeps.symm
    rw [hsaved]
    exact hread.symm

variable (configDir) in
theorem Holds.loads {c : ConfigDir F} (h : Holds C unwrapAtRest c accounts)
    (hpointer : ValidPointer c) :
    LoadsSaved C unwrapAtRest configDir c accounts := by
  constructor
  · intro username hvalid
    exact h.loadUser hvalid
  · intro username hactive
    rw [loadActiveIdentity, hactive]
    exact congrArg (Except.mapError EngineError.ofPasskey) (h.loadUser (hpointer username hactive))
  · rw [identityExists_iff]
    constructor
    · intro hsome
      obtain ⟨username, hmem⟩ := List.exists_mem_of_ne_nil _ hsome
      obtain ⟨hlisted, hhas⟩ := List.mem_filter.mp hmem
      exact ⟨username, hlisted, h.userHasIdentity.mp hhas⟩
    · rintro ⟨username, hlisted, hboth⟩
      exact List.ne_nil_of_mem (List.mem_filter.mpr ⟨hlisted, h.userHasIdentity.mpr hboth⟩)

/-- Where one user has an identity, repair makes that user the active one. -/
theorem repairState_only {c : ConfigDir F} (h : usersWithIdentity configDir c = [username]) :
    ∃ s, repairState configDir c = .ok (.ready username, s) ∧
      evaluateState configDir s = .ready username := by
  have hne : usersWithIdentity configDir c ≠ [] := by simp [h]
  obtain ⟨s, hset, hready⟩ := setActiveUser_only h
  cases hactive : getActiveUser c with
  | none =>
    refine ⟨s, ?_, hready⟩
    simp only [repairState, evaluateState_unset hne hactive, h, hset]
    rfl
  | some claimed =>
    by_cases hmem : claimed ∈ usersWithIdentity configDir c
    · obtain rfl : claimed = username := by simpa [h] using hmem
      have hstate := evaluateState_only h hactive
      exact ⟨c, by rw [repairState, hstate], hstate⟩
    · refine ⟨s, ?_, hready⟩
      simp only [repairState, evaluateState_missing hne hactive hmem, h, hset]
      rfl

theorem availableUsers_evaluateState {c : ConfigDir F} :
    (evaluateState configDir c).availableUsers = usersWithIdentity configDir c := by
  by_cases hnone : usersWithIdentity configDir c = []
  · rw [evaluateState_none hnone, hnone]
    rfl
  · cases hactive : getActiveUser c with
    | none =>
      rw [evaluateState_unset hnone hactive]
      rfl
    | some user =>
      by_cases hmem : user ∈ usersWithIdentity configDir c
      · by_cases hone : (usersWithIdentity configDir c).length = 1
        · obtain ⟨only, honly⟩ := List.length_eq_one_iff.mp hone
          obtain rfl : user = only := by simpa [honly] using hmem
          rw [evaluateState_only honly hactive, honly]
          rfl
        · rw [evaluateState_active hactive hmem hone]
          rfl
      · rw [evaluateState_missing hnone hactive hmem]
        rfl

theorem activeUsername_evaluateState {c : ConfigDir F} :
    (evaluateState configDir c).activeUsername = some username ↔
      getActiveUser c = some username ∧ username ∈ usersWithIdentity configDir c := by
  by_cases hnone : usersWithIdentity configDir c = []
  · simp [evaluateState_none hnone, hnone, IdentityState.activeUsername]
  · cases hactive : getActiveUser c with
    | none => simp [evaluateState_unset hnone hactive, IdentityState.activeUsername]
    | some user =>
      by_cases hmem : user ∈ usersWithIdentity configDir c
      · have hstate : (evaluateState configDir c).activeUsername = some user := by
          by_cases hone : (usersWithIdentity configDir c).length = 1
          · simp [evaluateState, hnone, hactive, hmem, hone, IdentityState.activeUsername]
          · rw [evaluateState_active hactive hmem hone]
            rfl
        rw [hstate]
        constructor
        · rintro ⟨⟩
          exact ⟨rfl, hmem⟩
        · exact And.left
      · rw [evaluateState_missing hnone hactive hmem]
        constructor
        · rintro ⟨⟩
        · rintro ⟨⟨⟩, hother⟩
          exact absurd hother hmem

theorem isReady_eq (state : IdentityState) : state.isReady = state.activeUsername.isSome := by
  cases state with
  | noIdentity => rfl
  | ready username => rfl
  | readyMultiUser activeUser users => rfl
  | needsUserSelection users => rfl
  | activeUserMissing claimed available => rfl
  | corrupted reason => rfl

theorem needsAction_eq (state : IdentityState) : state.needsAction = !state.isReady := by
  cases state with
  | noIdentity => rfl
  | ready username => rfl
  | readyMultiUser activeUser users => rfl
  | needsUserSelection users => rfl
  | activeUserMissing claimed available => rfl
  | corrupted reason => rfl

theorem loadActiveIdentity_isOk {c : ConfigDir F}
    (h : LoadsSaved C unwrapAtRest configDir c accounts) :
    (loadActiveIdentity C unwrapAtRest configDir c).isOk = true ↔
      ∃ username, getActiveUser c = some username ∧ (accounts (F.key username)).isSome := by
  cases hactive : getActiveUser c with
  | none => simp [loadActiveIdentity, hactive, Except.isOk, Except.toBool]
  | some username =>
    rw [h.active username hactive, isOk_mapError]
    cases hsaved : accounts (F.key username) with
    | none => simp [loaded, hsaved, Except.isOk, Except.toBool]
    | some cert => simp [loaded, hsaved, Except.isOk, Except.toBool]

/-- Where names that differ are different entries, a directory is listed by its user's name. -/
theorem listed_of_secret {c : ConfigDir F} (hkey : Function.Injective F.key)
    (h : (secretOf c username).isSome = true) : username ∈ listUsers c := by
  rw [secretOf] at h
  cases hentry : c.entry username with
  | none => simp [hentry] at h
  | some e =>
    have hdir : e.isDir = true := by
      by_contra hfile
      simp [hentry, hfile] at h
    obtain ⟨n, hname, hn⟩ := isNamed_iff.mp (entry_isNamed hentry)
    rw [listUsers, List.mem_mergeSort, List.mem_filterMap]
    refine ⟨e, List.mem_of_find?_eq_some hentry, ?_⟩
    rw [if_pos hdir, hname, hkey hn]

variable (configDir) in
theorem Holds.agrees {c : ConfigDir F} (h : Holds C unwrapAtRest c accounts)
    (hpointer : ValidPointer c) :
    StateAgrees C unwrapAtRest configDir c accounts := by
  have hloads := h.loads configDir hpointer
  have hready : ∀ s : ConfigDir F, Holds C unwrapAtRest s accounts → ValidPointer s → ∀ username,
      (evaluateState configDir s).activeUsername = some username → ∃ cert,
        accounts (F.key username) = some cert ∧
          loadActiveIdentity C unwrapAtRest configDir s = .ok ⟨cert, userIdOf C cert⟩ := by
    intro s hs hvalid username hname
    obtain ⟨hactive, hmem⟩ := activeUsername_evaluateState.mp hname
    obtain ⟨_, hsaved⟩ := hs.userHasIdentity.mp (List.mem_filter.mp hmem).2
    obtain ⟨cert, hcert⟩ := Option.isSome_iff_exists.mp hsaved
    refine ⟨cert, hcert, ?_⟩
    rw [(hs.loads configDir hvalid).active username hactive, hcert]
    rfl
  constructor
  · intro username
    rw [availableUsers_evaluateState, usersWithIdentity, List.mem_filter, h.userHasIdentity]
  · exact needsAction_eq _
  · intro hstate
    rw [isReady_eq] at hstate
    obtain ⟨username, hname⟩ := Option.isSome_iff_exists.mp hstate
    obtain ⟨cert, hcert, hload⟩ := hready c h hpointer username hname
    exact ⟨username, cert, hname, hcert, hload⟩
  · intro username honly
    rw [availableUsers_evaluateState] at honly
    obtain ⟨repaired, hrepair, hstate⟩ := repairState_only honly
    have hselected : ValidPointer repaired := by
      have hstep : ValidPointer
          (GitCellar.stepOf c ((GitCellar.repairState configDir c).map Prod.snd)).2 :=
        hpointer.appStep C configDir .repairState
      rw [hrepair] at hstep
      exact hstep
    have hname : (evaluateState configDir repaired).activeUsername = some username := by
      rw [hstate]
      rfl
    obtain ⟨cert, hcert, hload⟩ := hready repaired (h.repairState hrepair) hselected username hname
    exact ⟨cert, repaired, hrepair, hcert, hload⟩
  · intro hkey
    rw [isReady_eq, Option.isSome_iff_exists, loadActiveIdentity_isOk hloads]
    constructor
    · rintro ⟨username, hname⟩
      obtain ⟨hactive, hmem⟩ := activeUsername_evaluateState.mp hname
      exact ⟨username, hactive, (h.userHasIdentity.mp (List.mem_filter.mp hmem).2).2⟩
    · rintro ⟨username, hactive, hsaved⟩
      have hlisted : username ∈ listUsers c :=
        listed_of_secret hkey ((h.secrets username).isSome.trans hsaved)
      have hhas : GitCellar.userHasIdentity configDir c username = true :=
        h.userHasIdentity.mpr ⟨hpointer username hactive, hsaved⟩
      exact ⟨username,
        activeUsername_evaluateState.mpr ⟨hactive, List.mem_filter.mpr ⟨hlisted, hhas⟩⟩⟩

variable (configDir)

/-- After any run of the application's calls, loading finds each user's last save;
what one more `save_identity` stores is what is loaded at the next start. -/
theorem identity_runs (c : ConfigDir F) (calls : List (AppCall Cert))
    (hround : ∀ cert b, C.tsk cert = .ok b → C.fromBytes b = .ok cert)
    (hopens : ∀ call ∈ calls, call.Opens unwrapAtRest) (hholds : Holds C unwrapAtRest c accounts)
    (hpointer : ValidPointer c) :
    LoadsSaved C unwrapAtRest configDir (final (appStep C configDir) c calls)
      (accounts.afterRun (trace (appStep C configDir) c calls)) ∧
    ∀ (identity : Identity Cert) (sealer : Bytes → Except PasskeyError Bytes),
      (AppCall.saveIdentity identity sealer).Opens unwrapAtRest →
      (appStep C configDir (final (appStep C configDir) c calls)
        (.saveIdentity identity sealer)).1 = true →
      loadActiveIdentity C unwrapAtRest configDir
          (appStep C configDir (final (appStep C configDir) c calls)
            (.saveIdentity identity sealer)).2 =
        .ok ⟨identity.cert, userIdOf C identity.cert⟩ := by
  have hrun := hholds.run configDir calls hround hopens
  have hselected : ValidPointer (final (appStep C configDir) c calls) :=
    final_invariant (fun _ call hs => hs.appStep C configDir call) hpointer
  refine ⟨hrun.loads configDir hselected, ?_⟩
  intro identity sealer hseal hsaved
  have hnext := (hrun.step configDir (.saveIdentity identity sealer) hround hseal).loads configDir
    (hselected.appStep C configDir (.saveIdentity identity sealer))
  rw [hnext.active _ ((saveIdentity_spec hselected).2 hsaved)]
  simp only [Accounts.after, AppCall.writes, hsaved, if_true, Function.update_self]
  rfl

/-- What the key of the machine seals it opens. -/
theorem wrapped_opens {A : Aes256Gcm} {tagSize maxMsg : Nat} (hA : A.Lawful tagSize maxMsg)
    {key : Bytes32} {nonce : GcmNonce} {plaintext sealed : Bytes}
    (h : wrapWithKey A plaintext key nonce = .ok sealed) :
    openCertData (GitCellar.unwrapAtRest A (.ok key)) sealed = .ok plaintext := by
  obtain ⟨c, hc, rfl⟩ := wrapWithKey_ok h
  have hopened : GitCellar.unwrapAtRest A (.ok key) (keywrapMagic ++ nonce.val ++ c) =
      .ok plaintext := by
    rw [GitCellar.unwrapAtRest, isWrapped_sealed]
    exact unwrapWithKey_same hA hc
  rw [openCertData, isWrapped_sealed, if_pos rfl, hopened]
  rfl

def machineSealer (plaintext : Bytes) : Except PasskeyError Bytes :=
  wrapWithKey sealAead plaintext mintedKey sealNonce

def machineUnwrap : Bytes → Except PasskeyError Bytes :=
  GitCellar.unwrapAtRest sealAead (.ok mintedKey)

/-- A first identity for `default`, one for `alice`, and `default` deleted. -/
def twoAccounts : List (AppCall Bool) :=
  [.saveIdentity ⟨true, "first"⟩ machineSealer, .saveForUser "alice" ⟨false, "alice"⟩ machineSealer,
    .setActiveUser "alice", .deleteUser "default"]

theorem twoCerts_round (cert : Bool) (b : Bytes) (h : twoCerts.tsk cert = .ok b) :
    twoCerts.fromBytes b = .ok cert := by
  obtain rfl := Except.ok.inj h
  cases cert with
  | false => rfl
  | true => rfl

theorem twoAccounts_opens : ∀ call ∈ twoAccounts, call.Opens machineUnwrap := by
  have hseal : ∀ b sealed, machineSealer b = .ok sealed →
      openCertData machineUnwrap sealed = .ok b :=
    fun b sealed h => wrapped_opens (Aead.tagOnce_unforged mintedKey sealNonce [] [7]).toLawful h
  simp only [twoAccounts, List.forall_mem_cons, AppCall.Opens, true_and]
  exact ⟨hseal, hseal, fun _ h => nomatch h⟩

theorem emptyConfigDir_holds :
    Holds twoCerts machineUnwrap (emptyConfigDir unixFs) (fun _ => none) ∧
      ValidPointer (emptyConfigDir unixFs) := by
  refine ⟨⟨?_, fun _ => rfl⟩, ?_⟩
  · rintro e ⟨⟩
  · rintro username ⟨⟩

theorem identity_runs_sample :
    loadActiveIdentity twoCerts machineUnwrap ⟨none, true, []⟩
        (final (appStep twoCerts ⟨none, true, []⟩) (emptyConfigDir unixFs) twoAccounts) =
      .ok ⟨false, "unknown"⟩ ∧
    loadUser twoCerts machineUnwrap ⟨none, true, []⟩
        (final (appStep twoCerts ⟨none, true, []⟩) (emptyConfigDir unixFs) twoAccounts) "default" =
      .error .identityNotFound := by
  obtain ⟨hloads, _⟩ := identity_runs ⟨none, true, []⟩ (emptyConfigDir unixFs) twoAccounts
    twoCerts_round twoAccounts_opens emptyConfigDir_holds.1 emptyConfigDir_holds.2
  have halice : Accounts.afterRun (fun _ => none)
      (trace (appStep twoCerts ⟨none, true, []⟩) (emptyConfigDir unixFs) twoAccounts) "alice" =
        some false := by
    decide +kernel
  have hdefault : Accounts.afterRun (fun _ => none)
      (trace (appStep twoCerts ⟨none, true, []⟩) (emptyConfigDir unixFs) twoAccounts) "default" =
      none := by
    decide +kernel
  constructor
  · rw [hloads.active "alice" (by decide +kernel)]
    exact congrArg (fun saved => (loaded twoCerts saved).mapError EngineError.ofPasskey) halice
  · rw [hloads.user "default" rfl]
    exact congrArg (loaded twoCerts) hdefault

/-- After any run of the application's calls, the state it is told of is one in which
the identities it names load; where the case of names counts, exactly then. -/
theorem state_runs (c : ConfigDir F) (calls : List (AppCall Cert))
    (hround : ∀ cert b, C.tsk cert = .ok b → C.fromBytes b = .ok cert)
    (hopens : ∀ call ∈ calls, call.Opens unwrapAtRest) (hholds : Holds C unwrapAtRest c accounts)
    (hpointer : ValidPointer c) :
    StateAgrees C unwrapAtRest configDir (final (appStep C configDir) c calls)
      (accounts.afterRun (trace (appStep C configDir) c calls)) := by
  have hselected : ValidPointer (final (appStep C configDir) c calls) :=
    final_invariant (fun _ call hs => hs.appStep C configDir call) hpointer
  exact (hholds.run configDir calls hround hopens).agrees configDir hselected

theorem state_runs_sample :
    (evaluateState ⟨none, true, []⟩
        (final (appStep twoCerts ⟨none, true, []⟩) (emptyConfigDir unixFs) twoAccounts)).isReady =
        true ↔
      (loadActiveIdentity twoCerts machineUnwrap ⟨none, true, []⟩
        (final (appStep twoCerts ⟨none, true, []⟩) (emptyConfigDir unixFs) twoAccounts)).isOk =
        true :=
  (state_runs ⟨none, true, []⟩ (emptyConfigDir unixFs) twoAccounts twoCerts_round twoAccounts_opens
    emptyConfigDir_holds.1 emptyConfigDir_holds.2).caseSensitive Function.injective_id

/-- Selected under another spelling, an identity loads though the state has it missing. -/
example :
    let c : ConfigDir foldingFs :=
      ⟨some "Alice", some [{ UserEntry.new foldingFs "alice" rfl with secret := some [1] }]⟩
    (evaluateState ⟨none, true, []⟩ c).isReady = false ∧
      (loadActiveIdentity twoCerts machineUnwrap ⟨none, true, []⟩ c).isOk = true := by
  decide +kernel

end GitCellar
