import GitCellar.Bytes
import GitCellar.Effects
import Mathlib.Logic.Function.Basic

/-! The session credentials in the OS keyring (`credential_store/`): what a login that stops
on the way, and a logout some of whose deletions fail, leave there. -/

namespace GitCellar

open Effects

inductive KeyringError where
  | noEntry
  | ambiguous (display : String)
  | other (display : String)
  deriving DecidableEq, Repr

def KeyringError.toString : KeyringError → String
  | .noEntry => "No matching entry found in secure storage"
  | .ambiguous display => display
  | .other display => display

/-- The calls on an entry of the store's service. -/
inductive CredOp where
  | newEntry (key : String)
  | setPassword (key value : String)
  | getPassword (key : String)
  | deleteCredential (key : String)
  deriving DecidableEq

@[reducible] def CredReply : CredOp → Type
  | .newEntry _ => Except KeyringError Unit
  | .setPassword _ _ => Except KeyringError Unit
  | .getPassword _ => Except KeyringError String
  | .deleteCredential _ => Except KeyringError Unit

abbrev Cred (α : Type) := Prog CredOp CredReply PasskeyError α

/-- A failing operation may have taken effect all the same. -/
structure CredFault where
  error : KeyringError
  applied : Bool

abbrev Keyring := String → Option String

def Keyring.answer (plan : CredOp → Option CredFault) :
    (op : CredOp) → Keyring → CredReply op × Keyring
  | .newEntry key, s =>
    (match plan (.newEntry key) with | some f => .error f.error | none => .ok (), s)
  | .setPassword key value, s =>
    match plan (.setPassword key value) with
    | some f => (.error f.error, if f.applied then Function.update s key (some value) else s)
    | none => (.ok (), Function.update s key (some value))
  | .getPassword key, s =>
    (match plan (.getPassword key) with
      | some f => .error f.error
      | none => match s key with | some value => .ok value | none => .error .noEntry, s)
  | .deleteCredential key, s =>
    match plan (.deleteCredential key) with
    | some f => (.error f.error, if f.applied then Function.update s key none else s)
    | none =>
      (match s key with | some _ => .ok () | none => .error .noEntry, Function.update s key none)

namespace CredentialStore

def accessTokenKey : String := "access_token"

def refreshTokenKey : String := "refresh_token"

def userIdKey : String := "user_id"

def userEmailKey : String := "user_email"

def tokenExpiresAtKey : String := "token_expires_at"

def recoveryHashKey : String := "recovery_hash"

def newEntry (key : String) : Cred Unit := do
  let entry ← Prog.call (CredOp.newEntry key)
  Prog.orFail (fun e => .credentialStore ("Failed to create entry: " ++ e.toString)) entry

def store (key value : String) : Cred Unit := do
  newEntry key
  let set ← Prog.call (CredOp.setPassword key value)
  Prog.orFail (fun e => .credentialStore ("Failed to set value: " ++ e.toString)) set

def retrieved (key : String) : Except KeyringError String → Except PasskeyError (Option String)
  | .ok value => .ok (some value)
  | .error .noEntry => .ok none
  | .error (.ambiguous _) => .ok none
  | .error (.other display) =>
    .error (.credentialStore ("Failed to retrieve '" ++ key ++ "': " ++ display))

def get (key : String) : Cred (Option String) := do
  newEntry key
  let found ← Prog.call (CredOp.getPassword key)
  Prog.ofExcept (retrieved key found)

/-- A credential that was not there is no error. -/
def deletionResult (key : String) : Except KeyringError Unit → Cred Unit
  | .ok _ => .done ()
  | .error .noEntry => .done ()
  | .error e => .fail (.credentialStore ("Failed to delete '" ++ key ++ "': " ++ e.toString))

def delete (key : String) : Cred Unit := do
  newEntry key
  let deleted ← Prog.call (CredOp.deleteCredential key)
  deletionResult key deleted

def storeAccessToken (token : String) : Cred Unit := store accessTokenKey token

def storeRefreshToken (token : String) : Cred Unit := store refreshTokenKey token

def storeUserId (userId : String) : Cred Unit := store userIdKey userId

def storeUserEmail (email : String) : Cred Unit := store userEmailKey email

def storeTokenExpiresAt (expiresAt : Int) : Cred Unit :=
  store tokenExpiresAtKey (toString expiresAt)

def getAccessToken : Cred (Option String) := get accessTokenKey

/-- `str::parse::<i64>`: a sign or none, then decimal digits. -/
def parseI64 (s : String) : Option Int :=
  let digits := fun cs : List Char =>
    if cs = [] ∨ !cs.all Char.isDigit then none
    else some (cs.foldl (fun n c => 10 * n + (c.toNat - 48)) 0 : Nat)
  let value := match s.toList with
    | '-' :: cs => (digits cs).map fun n => -(n : Int)
    | '+' :: cs => (digits cs).map fun n => (n : Int)
    | cs => (digits cs).map fun n => (n : Int)
  value.filter fun n => -2 ^ 63 ≤ n ∧ n < 2 ^ 63

def parsedExpiry : Option String → Except PasskeyError (Option Int)
  | some s =>
    match parseI64 s with
    | some n => .ok (some n)
    | none => .error (.credentialStore "Invalid expiration timestamp")
  | none => .ok none

def getTokenExpiresAt : Cred (Option Int) := do
  let found ← get tokenExpiresAtKey
  Prog.ofExcept (parsedExpiry found)

def storeAll (accessToken refreshToken userId email : String) (expiresAt : Int) : Cred Unit := do
  storeAccessToken accessToken
  storeRefreshToken refreshToken
  storeUserId userId
  storeUserEmail email
  storeTokenExpiresAt expiresAt
  .done ()

def isLoggedIn : Cred Bool :=
  getAccessToken.catchAll fun
    | .ok found => .done found.isSome
    | .error _ => .done false

def sessionKeys : List String :=
  [accessTokenKey, refreshTokenKey, userIdKey, userEmailKey, tokenExpiresAtKey]

/-- A deletion that fails is passed over. -/
def clearKeys : List String → Cred Unit
  | [] => .done ()
  | key :: rest => (delete key).catchAll fun _ => clearKeys rest

def clearAll : Cred Unit := clearKeys sessionKeys

def sessionEntries (accessToken refreshToken userId email : String) (expiresAt : Int) :
    List (String × String) :=
  [(accessTokenKey, accessToken), (refreshTokenKey, refreshToken), (userIdKey, userId),
    (userEmailKey, email), (tokenExpiresAtKey, toString expiresAt)]

def storeEntries : List (String × String) → Cred Unit
  | [] => .done ()
  | entry :: rest => do
    store entry.1 entry.2
    storeEntries rest

def setEntries (s : Keyring) (entries : List (String × String)) : Keyring :=
  entries.foldl (fun s entry => Function.update s entry.1 (some entry.2)) s

variable (plan : CredOp → Option CredFault)

def Stores (key value : String) : Prop :=
  plan (.newEntry key) = none ∧ plan (.setPassword key value) = none

/-- The write that failed is there. -/
def storedAnyway (key value : String) : Bool :=
  (plan (.newEntry key)).isNone && (plan (.setPassword key value)).any CredFault.applied

/-- A credential that is there is removed, whether or not its deletion reports it. -/
def deletes (key : String) : Bool :=
  (plan (.newEntry key)).isNone && (plan (.deleteCredential key)).all CredFault.applied

variable {plan} {s t : Keyring} {key value : String} {entries done rest : List (String × String)}
  {keys : List String}

theorem storeAll_eq (accessToken refreshToken userId email : String) (expiresAt : Int) :
    storeAll accessToken refreshToken userId email expiresAt =
      storeEntries (sessionEntries accessToken refreshToken userId email expiresAt) := rfl

theorem run_newEntry (h : plan (.newEntry key) = none) :
    (newEntry key).run (Keyring.answer plan) s = (.ok (), s) := by
  show Prog.run _ (Prog.orFail _ (Keyring.answer plan (.newEntry key) s).1) _ = _
  simp only [Keyring.answer, h]
  rfl

theorem run_newEntry_error {fault : CredFault} (h : plan (.newEntry key) = some fault) :
    (newEntry key).run (Keyring.answer plan) s =
      (.error (.credentialStore ("Failed to create entry: " ++ fault.error.toString)), s) := by
  show Prog.run _ (Prog.orFail _ (Keyring.answer plan (.newEntry key) s).1) _ = _
  simp only [Keyring.answer, h]
  rfl

theorem run_store_ok (h : Stores plan key value) :
    (store key value).run (Keyring.answer plan) s =
    (.ok (), Function.update s key (some value)) := by
  rw [store, run_bind_of_ok (run_newEntry h.1)]
  show Prog.run _ (Prog.orFail _ (Keyring.answer plan (.setPassword key value) s).1)
    (Keyring.answer plan (.setPassword key value) s).2 = _
  simp only [Keyring.answer, h.2]
  rfl

theorem run_store_error (h : ¬ Stores plan key value) :
    ∃ e, (store key value).run (Keyring.answer plan) s =
      (.error e,
        if storedAnyway plan key value then Function.update s key (some value) else s) := by
  cases hentry : plan (.newEntry key) with
  | some fault =>
    refine ⟨.credentialStore ("Failed to create entry: " ++ fault.error.toString), ?_⟩
    rw [store, run_bind_of_error (run_newEntry_error hentry), storedAnyway, hentry]
    rfl
  | none =>
    cases hset : plan (.setPassword key value) with
    | none => exact absurd ⟨hentry, hset⟩ h
    | some fault =>
      refine ⟨.credentialStore ("Failed to set value: " ++ fault.error.toString), ?_⟩
      rw [store, run_bind_of_ok (run_newEntry hentry), storedAnyway, hentry, hset]
      show Prog.run _ (Prog.orFail _ (Keyring.answer plan (.setPassword key value) s).1)
        (Keyring.answer plan (.setPassword key value) s).2 = _
      simp only [Keyring.answer, hset]
      rfl

theorem run_storeEntries_ok (h : ∀ e ∈ entries, Stores plan e.1 e.2) :
    (storeEntries entries).run (Keyring.answer plan) s = (.ok (), setEntries s entries) := by
  induction entries generalizing s with
  | nil => rfl
  | cons entry rest ih =>
    rw [storeEntries, run_bind_of_ok (run_store_ok (h entry List.mem_cons_self)),
      ih fun e he => h e (List.mem_cons_of_mem entry he)]
    rfl

/-- A login stops at the first entry that is not stored. -/
theorem run_storeEntries_error (hdone : ∀ e ∈ done, Stores plan e.1 e.2)
    (h : ¬ Stores plan key value) :
    ∃ e, (storeEntries (done ++ (key, value) :: rest)).run (Keyring.answer plan) s =
      (.error e,
        if storedAnyway plan key value then Function.update (setEntries s done) key (some value)
        else setEntries s done) := by
  induction done generalizing s with
  | nil =>
    obtain ⟨e, he⟩ := @run_store_error plan s key value h
    exact ⟨e, run_bind_of_error he⟩
  | cons entry done ih =>
    obtain ⟨e, he⟩ := @ih (Function.update s entry.1 (some entry.2))
      fun e he => hdone e (List.mem_cons_of_mem entry he)
    refine ⟨e, ?_⟩
    rw [List.cons_append, storeEntries,
      run_bind_of_ok (run_store_ok (hdone entry List.mem_cons_self)), he]
    rfl

theorem setEntries_of_notMem (h : key ∉ entries.map Prod.fst) :
    setEntries s entries key = s key := by
  induction entries generalizing s with
  | nil => rfl
  | cons entry rest ih =>
    rw [List.map_cons, List.mem_cons, not_or] at h
    have hrest : setEntries (Function.update s entry.1 (some entry.2)) rest key =
        Function.update s entry.1 (some entry.2) key := ih h.2
    rw [Function.update_of_ne h.1] at hrest
    exact hrest

theorem setEntries_of_mem (hkeys : (entries.map Prod.fst).Nodup) (h : (key, value) ∈ entries) :
    setEntries s entries key = some value := by
  induction entries generalizing s with
  | nil => cases h
  | cons entry rest ih =>
    rw [List.map_cons, List.nodup_cons] at hkeys
    rcases List.mem_cons.mp h with rfl | hrest
    · have hset : setEntries (Function.update s key (some value)) rest key =
          Function.update s key (some value) key := setEntries_of_notMem hkeys.1
      rw [Function.update_self] at hset
      exact hset
    · exact ih hkeys.2 hrest

theorem run_deletionResult {r : Except KeyringError Unit} :
    ∃ result, (deletionResult key r).run (Keyring.answer plan) s = (result, s) := by
  cases r with
  | ok u => exact ⟨_, rfl⟩
  | error e =>
    cases e with
    | noEntry => exact ⟨_, rfl⟩
    | ambiguous display => exact ⟨_, rfl⟩
    | other display => exact ⟨_, rfl⟩

theorem answer_delete_snd : (Keyring.answer plan (.deleteCredential key) s).2 =
    if (plan (.deleteCredential key)).all CredFault.applied then Function.update s key none
    else s := by
  cases hplan : plan (.deleteCredential key) with
  | none => simp [Keyring.answer, hplan]
  | some fault => simp [Keyring.answer, hplan]

theorem run_delete : ∃ result, (delete key).run (Keyring.answer plan) s =
    (result, if deletes plan key then Function.update s key none else s) := by
  cases hentry : plan (.newEntry key) with
  | some fault =>
    refine ⟨.error (.credentialStore ("Failed to create entry: " ++ fault.error.toString)), ?_⟩
    rw [delete, run_bind_of_error (run_newEntry_error hentry), deletes, hentry]
    rfl
  | none =>
    obtain ⟨result, hresult⟩ :=
      @run_deletionResult plan (Keyring.answer plan (.deleteCredential key) s).2
      key (Keyring.answer plan (.deleteCredential key) s).1
    refine ⟨result, ?_⟩
    rw [delete, run_bind_of_ok (run_newEntry hentry), deletes, hentry, Option.isNone_none,
      Bool.true_and, ← answer_delete_snd]
    exact hresult

/-- A logout ends well, and removes what can be deleted. -/
theorem run_clearKeys : ∃ t, (clearKeys keys).run (Keyring.answer plan) s = (.ok (), t) ∧
    ∀ key, t key = if key ∈ keys ∧ deletes plan key = true then none else s key := by
  induction keys generalizing s with
  | nil => exact ⟨s, rfl, fun key => by simp⟩
  | cons first rest ih =>
    obtain ⟨result, hdelete⟩ := @run_delete plan s first
    obtain ⟨t, hrun, ht⟩ := @ih (if deletes plan first then Function.update s first none else s)
    refine ⟨t, ?_, ?_⟩
    · rw [clearKeys, run_catchAll, hdelete]
      exact hrun
    · intro key
      rw [ht key]
      by_cases hrest : key ∈ rest ∧ deletes plan key = true
      · rw [if_pos hrest, if_pos ⟨List.mem_cons_of_mem first hrest.1, hrest.2⟩]
      · rw [if_neg hrest]
        by_cases hfirst : key = first
        · subst hfirst
          by_cases hdeletes : deletes plan key = true
          · rw [if_pos hdeletes, Function.update_self, if_pos ⟨List.mem_cons_self, hdeletes⟩]
          · rw [if_neg hdeletes, if_neg fun h => hdeletes h.2]
        · have hkept : (if deletes plan first then Function.update s first none else s) key =
              s key := by
            by_cases hdeletes : deletes plan first = true
            · rw [if_pos hdeletes, Function.update_of_ne hfirst]
            · rw [if_neg hdeletes]
          rw [hkept, if_neg]
          rintro ⟨hmem, hdeletes⟩
          rcases List.mem_cons.mp hmem with heq | hmem
          · exact hfirst heq
          · exact hrest ⟨hmem, hdeletes⟩

theorem run_ofExcept {α : Type} {r : Except PasskeyError α} :
    (Prog.ofExcept r : Cred α).run (Keyring.answer plan) s = (r, s) := by
  cases r with
  | ok a => rfl
  | error e => rfl

/-- Reading changes nothing, and depends on the one credential. -/
theorem run_get (plan : CredOp → Option CredFault) (key : String) (found : Option String) :
    ∃ r, ∀ s : Keyring, s key = found → (get key).run (Keyring.answer plan) s = (r, s) := by
  cases hentry : plan (.newEntry key) with
  | some fault =>
    refine ⟨.error (.credentialStore ("Failed to create entry: " ++ fault.error.toString)), ?_⟩
    intro s _
    rw [get, run_bind_of_error (run_newEntry_error hentry)]
  | none =>
    let reply : Except KeyringError String :=
      match plan (.getPassword key) with
      | some f => .error f.error
      | none => match found with | some value => .ok value | none => .error .noEntry
    refine ⟨retrieved key reply, ?_⟩
    intro s hs
    have hreply : Keyring.answer plan (.getPassword key) s = (reply, s) := by
      simp only [Keyring.answer, hs, reply]
    rw [get, run_bind_of_ok (run_newEntry hentry)]
    show Prog.run _ (Prog.ofExcept (retrieved key (Keyring.answer plan (.getPassword key) s).1))
      (Keyring.answer plan (.getPassword key) s).2 = _
    rw [hreply]
    exact run_ofExcept

theorem isLoggedIn_congr (h : t accessTokenKey = s accessTokenKey) :
    (isLoggedIn.run (Keyring.answer plan) t).1 = (isLoggedIn.run (Keyring.answer plan) s).1 := by
  obtain ⟨r, hr⟩ := run_get plan accessTokenKey (s accessTokenKey)
  rw [isLoggedIn, getAccessToken, run_catchAll, run_catchAll, hr t h, hr s rfl]
  cases r with
  | ok found => rfl
  | error e => rfl

theorem getTokenExpiresAt_congr (h : t tokenExpiresAtKey = s tokenExpiresAtKey) :
    (getTokenExpiresAt.run (Keyring.answer plan) t).1 =
      (getTokenExpiresAt.run (Keyring.answer plan) s).1 := by
  obtain ⟨r, hr⟩ := run_get plan tokenExpiresAtKey (s tokenExpiresAtKey)
  cases r with
  | ok found =>
    rw [getTokenExpiresAt, run_bind_of_ok (hr t h), run_bind_of_ok (hr s rfl),
      run_ofExcept, run_ofExcept]
  | error e => rw [getTokenExpiresAt, run_bind_of_error (hr t h), run_bind_of_error (hr s rfl)]

structure SessionKept (before after : Keyring) : Prop where
  credentials : ∀ key ∈ sessionKeys, after key = before key
  isLoggedIn : ∀ plan, (isLoggedIn.run (Keyring.answer plan) after).1 =
    (isLoggedIn.run (Keyring.answer plan) before).1
  getTokenExpiresAt : ∀ plan, (getTokenExpiresAt.run (Keyring.answer plan) after).1 =
    (getTokenExpiresAt.run (Keyring.answer plan) before).1

structure LoggedOut (before after : Keyring) : Prop where
  gone : ∀ key ∈ sessionKeys, after key = none
  recoveryHash : after recoveryHashKey = before recoveryHashKey

/-- At the first entry that is not stored, what the login has written was there before. -/
def HarmlessStore (plan : CredOp → Option CredFault) (before : Keyring)
    (entries : List (String × String)) : Prop :=
  ∀ done key value rest, entries = done ++ (key, value) :: rest →
    (∀ e ∈ done, Stores plan e.1 e.2) → ¬ Stores plan key value →
      (∀ e ∈ done, before e.1 = some e.2) ∧
        (storedAnyway plan key value = true → before key = some value)

def HarmlessClear (plan : CredOp → Option CredFault) (before : Keyring) : Prop :=
  ∀ key ∈ sessionKeys, before key ≠ none → deletes plan key = true

theorem setEntries_eq (h : ∀ e ∈ entries, s e.1 = some e.2) : setEntries s entries = s := by
  induction entries with
  | nil => rfl
  | cons entry rest ih =>
    have hset : Function.update s entry.1 (some entry.2) = s := by
      rw [← h entry List.mem_cons_self, Function.update_eq_self]
    have hrest : setEntries (Function.update s entry.1 (some entry.2)) rest = s := by
      rw [hset]
      exact ih fun e he => h e (List.mem_cons_of_mem entry he)
    exact hrest

theorem exists_first_failure (plan : CredOp → Option CredFault) (entries : List (String × String)) :
    (∀ e ∈ entries, Stores plan e.1 e.2) ∨
      ∃ done key value rest, entries = done ++ (key, value) :: rest ∧
        (∀ e ∈ done, Stores plan e.1 e.2) ∧ ¬ Stores plan key value := by
  induction entries with
  | nil => exact .inl fun e he => by cases he
  | cons entry rest ih =>
    by_cases hentry : Stores plan entry.1 entry.2
    · rcases ih with hall | ⟨done, key, value, rest', rfl, hdone, hfail⟩
      · exact .inl (List.forall_mem_cons.mpr ⟨hentry, hall⟩)
      · have hdone' : ∀ e ∈ entry :: done, Stores plan e.1 e.2 :=
          List.forall_mem_cons.mpr ⟨hentry, hdone⟩
        exact .inr ⟨entry :: done, key, value, rest', rfl, hdone', hfail⟩
    · exact .inr ⟨[], entry.1, entry.2, rest, rfl, (by simp), hentry⟩

theorem sessionKept_of (h : ∀ key ∈ sessionKeys, t key = s key) : SessionKept s t where
  credentials := h
  isLoggedIn _ := isLoggedIn_congr (h _ (by decide))
  getTokenExpiresAt _ := getTokenExpiresAt_congr (h _ (by decide))

section

variable {before : Keyring} {accessToken refreshToken userId email : String} {expiresAt : Int}

theorem sessionEntries_keys :
    (sessionEntries accessToken refreshToken userId email expiresAt).map Prod.fst =
    sessionKeys := rfl

theorem sessionEntries_split
    (hsplit : sessionEntries accessToken refreshToken userId email expiresAt =
      done ++ (key, value) :: rest) :
    (done.map Prod.fst).Nodup ∧ (∀ e ∈ done, e.1 ∈ sessionKeys ∧ e.1 ≠ key) ∧
    key ∈ sessionKeys := by
  have hkeys : done.map Prod.fst ++ key :: rest.map Prod.fst = sessionKeys := by
    rw [← @sessionEntries_keys accessToken refreshToken userId email expiresAt, hsplit,
      List.map_append, List.map_cons]
  have hnodup : (done.map Prod.fst ++ key :: rest.map Prod.fst).Nodup := by
    rw [hkeys]
    decide
  obtain ⟨hdistinct, _, hapart⟩ := List.nodup_append.mp hnodup
  rw [← hkeys]
  refine ⟨hdistinct, fun e he => ?_, List.mem_append_right _ List.mem_cons_self⟩
  have hmem := List.mem_map_of_mem (f := Prod.fst) he
  exact ⟨List.mem_append_left _ hmem, hapart e.1 hmem key List.mem_cons_self⟩

theorem harmlessStore_of_kept
    (h : ∀ e t, (storeAll accessToken refreshToken userId email expiresAt).run
      (Keyring.answer plan) before = (.error e, t) → SessionKept before t) :
    HarmlessStore plan before (sessionEntries accessToken refreshToken userId email expiresAt) := by
  intro done key value rest hsplit hdone hfail
  obtain ⟨e, he⟩ := @run_storeEntries_error plan before key value done rest hdone hfail
  have hkept := (h e _ (by rw [storeAll_eq, hsplit]; exact he)).credentials
  obtain ⟨hdistinct, hmem, hkey⟩ := sessionEntries_split hsplit
  constructor
  · intro entry hentry
    have hset : setEntries before done entry.1 = some entry.2 := setEntries_of_mem hdistinct hentry
    rw [← hkept entry.1 (hmem entry hentry).1]
    by_cases hstored : storedAnyway plan key value = true
    · rw [if_pos hstored, Function.update_of_ne (hmem entry hentry).2, hset]
    · rw [if_neg hstored, hset]
  · intro hstored
    rw [← hkept key hkey, if_pos hstored, Function.update_self]

theorem kept_of_harmlessStore
    (h : HarmlessStore plan before (sessionEntries accessToken refreshToken userId email expiresAt))
    {e : PasskeyError} (hrun : (storeAll accessToken refreshToken userId email expiresAt).run
      (Keyring.answer plan) before = (.error e, t)) : t = before := by
  rw [storeAll_eq] at hrun
  rcases exists_first_failure plan
    (sessionEntries accessToken refreshToken userId email expiresAt) with
    hall | ⟨done, key, value, rest, hsplit, hdone, hfail⟩
  · rw [run_storeEntries_ok hall] at hrun
    cases (Prod.mk.inj hrun).1
  · obtain ⟨hthere, hanyway⟩ := h done key value rest hsplit hdone hfail
    obtain ⟨e', he⟩ := @run_storeEntries_error plan before key value done rest hdone hfail
    rw [hsplit, he, setEntries_eq hthere] at hrun
    rw [← (Prod.mk.inj hrun).2]
    by_cases hstored : storedAnyway plan key value = true
    · rw [if_pos hstored, ← hanyway hstored, Function.update_eq_self]
    · rw [if_neg hstored]

theorem storeAll_kept_iff : (∀ e t, (storeAll accessToken refreshToken userId email expiresAt).run
      (Keyring.answer plan) before = (.error e, t) → SessionKept before t) ↔
    HarmlessStore plan before (sessionEntries accessToken refreshToken userId email expiresAt) := by
  constructor
  · exact harmlessStore_of_kept
  · intro h e t hrun
    rw [kept_of_harmlessStore h hrun]
    exact sessionKept_of fun _ _ => rfl

theorem clearAll_loggedOut_iff : (∀ t, clearAll.run (Keyring.answer plan) before = (.ok (), t) →
    LoggedOut before t) ↔ HarmlessClear plan before := by
  obtain ⟨t, hrun, ht⟩ := @run_clearKeys plan before sessionKeys
  have hgone : ∀ key ∈ sessionKeys,
      t key = none ↔ (before key ≠ none → deletes plan key = true) := by
    intro key hkey
    rw [ht key]
    by_cases hdeletes : deletes plan key = true
    · simp [hkey, hdeletes]
    · simp [hdeletes]
  constructor
  · intro h key hkey hthere
    exact (hgone key hkey).mp ((h t hrun).gone key hkey) hthere
  · intro h t' hrun'
    obtain rfl := (Prod.mk.inj (hrun.symm.trans hrun')).2
    refine ⟨fun key hkey => (hgone key hkey).mpr (h key hkey), ?_⟩
    rw [ht, if_neg]
    rintro ⟨hmem, _⟩
    revert hmem
    decide

/-- A failed login leaves the session as it was, and a logout that reports success ends it,
exactly where the failing operations do no harm. -/
theorem session_atomic_iff (plan : CredOp → Option CredFault) (before : Keyring) :
    (∀ accessToken refreshToken userId email expiresAt,
      (∀ e t, (storeAll accessToken refreshToken userId email expiresAt).run
        (Keyring.answer plan) before =
        (.error e, t) → SessionKept before t) ↔
      HarmlessStore plan before (sessionEntries accessToken refreshToken userId email expiresAt)) ∧
    ((∀ t, clearAll.run (Keyring.answer plan) before = (.ok (), t) → LoggedOut before t) ↔
      HarmlessClear plan before) :=
  ⟨fun _ _ _ _ _ => storeAll_kept_iff, clearAll_loggedOut_iff⟩

end

def earlierLogin : Keyring := fun key =>
  if key ∈ sessionKeys then some ("earlier " ++ key) else none

def lockedAt (op : CredOp) : CredOp → Option CredFault := fun op' =>
  if op' = op then some ⟨.other "The keyring is locked", false⟩ else none

/-- The second write of a login fails beside the new access token; the deletion of the access
token fails, and the logout reports success. -/
theorem locked_keyring_mixes :
    ¬ (∀ e t, (storeAll "new" "token" "id" "mail" 0).run
        (Keyring.answer (lockedAt (.setPassword refreshTokenKey "token"))) earlierLogin =
        (.error e, t) →
      SessionKept earlierLogin t) ∧
    ¬ (∀ t, clearAll.run (Keyring.answer (lockedAt (.deleteCredential accessTokenKey)))
      earlierLogin =
        (.ok (), t) → LoggedOut earlierLogin t) := by
  constructor
  · intro h
    have hkept :=
      (h (.credentialStore "Failed to set value: The keyring is locked") _ rfl).credentials
      accessTokenKey (by decide)
    revert hkept
    decide +kernel
  · intro h
    have hgone := (h _ rfl).gone accessTokenKey (by decide)
    revert hgone
    decide +kernel

end CredentialStore

end GitCellar
