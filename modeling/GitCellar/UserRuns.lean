import GitCellar.ActiveUser
import GitCellar.Traces

/-! Runs of the calls that make, fill, select and delete user directories. -/

namespace GitCellar

open Loops Paths Traces

variable {F : Filesystem}

/-- `None` where a file stands in the directory's place. -/
def makeUserDir (c : ConfigDir F) (username : String) (h : ValidName username) :
    Option (ConfigDir F) :=
  match c.entry username with
  | some e => if e.isDir then some c else none
  | none => some { c with users := some (c.entries ++ [UserEntry.new F username h]) }

def UserEntry.withKeys (username : String) (secret publicKey : Bytes) (e : UserEntry F) :
    UserEntry F :=
  if e.isNamed username then { e with secret := some secret, publicKey := some publicKey } else e

def writeKeys (c : ConfigDir F) (username : String) (secret publicKey : Bytes) : ConfigDir F :=
  { c with users := c.users.map (·.map (UserEntry.withKeys username secret publicKey)) }

def removeUserDir (c : ConfigDir F) (username : String) : ConfigDir F :=
  { c with users := c.users.map (·.filter fun e => !e.isNamed username) }

variable (configDir : PathBuf) (c : ConfigDir F)

def createUser (username : String) : Except PasskeyError (ConfigDir F) :=
  match h : checkedUserDir configDir c username with
  | .error e => .error e
  | .ok _ =>
    match makeUserDir c username (checkedUserDir_eq_ok_iff.mp h).1 with
    | some made => .ok made
    | none => .error (.io F.notADirectory)

/-- `sealed` is what sealing the secret key returned; a failed seal writes nothing. -/
def saveForUser (username : String) (sealed : Except PasskeyError Bytes) (publicKey : Bytes) :
    Except PasskeyError (ConfigDir F) :=
  match h : checkedIdentityDir configDir c username with
  | .error e => .error e
  | .ok path => do
    let secret ← sealed
    match makeUserDir c username (checkedIdentityDir_eq_ok_iff.mp h).1 with
    | some made => .ok (writeKeys made username secret publicKey)
    | none =>
      .error (.keySave
        ("Failed to create directory " ++ debugStr (F.showPath path) ++ ": " ++ F.notADirectory))

def deleteUser (username : String) : Except PasskeyError (ConfigDir F) := do
  let _ ← checkedUserDir configDir c username
  let removed ← match c.entry username with
    | none => .ok c
    | some e => if e.isDir then .ok (removeUserDir c username) else .error (.io F.notADirectory)
  if getActiveUser removed = some username then .ok (clearActiveUser removed) else .ok removed

inductive UserCall where
  | createUser (username : String)
  | saveForUser (username : String) (sealed : Except PasskeyError Bytes) (publicKey : Bytes)
  | setActiveUser (username : String)
  | clearActiveUser
  | deleteUser (username : String)

def UserCall.result : UserCall → Except PasskeyError (ConfigDir F)
  | createUser username => GitCellar.createUser configDir c username
  | saveForUser username sealed publicKey =>
    GitCellar.saveForUser configDir c username sealed publicKey
  | setActiveUser username => GitCellar.setActiveUser c username
  | clearActiveUser => .ok (GitCellar.clearActiveUser c)
  | deleteUser username => GitCellar.deleteUser configDir c username

def userStep (call : UserCall) : Except PasskeyError Unit × ConfigDir F :=
  match call.result configDir c with
  | .ok next => (.ok (), next)
  | .error e => (.error e, c)

/-- The entry of `users/` that the pointer leads to. -/
def pointedName : Option String :=
  (getActiveUser c).bind fun text =>
    match parse F.platform text.toList with
    | ⟨none, false, [.normal name]⟩ => some (String.ofList name)
    | _ => none

structure DeleteSound (before after : ConfigDir F) (username : String) : Prop where
  removed : after.entry username = none
  others : after.entries = before.entries.filter fun e => !e.isNamed username
  pointer : (before.entry username).isSome → ∀ name, pointedName after = some name →
    F.key name ≠ F.key username
  kept : ∀ name, pointedName before = some name → F.key name ≠ F.key username →
    after.activeUser = before.activeUser

/-- Where the pointer leads to the directory that a call deletes, it spells its
name as the call does. -/
def Spelled (call : UserCall) : Prop :=
  ∀ username, call = .deleteUser username → (c.entry username).isSome →
    ∀ name, pointedName c = some name → F.key name = F.key username →
    getActiveUser c = some username

variable {configDir c} {username : String} {s : ConfigDir F}

theorem makeUserDir_activeUser {h : ValidName username}
    (hmade : makeUserDir c username h = some s) :
    s.activeUser = c.activeUser := by
  rw [makeUserDir] at hmade
  cases hentry : c.entry username with
  | none =>
    rw [hentry] at hmade
    obtain rfl := Option.some.inj hmade
    rfl
  | some e =>
    simp only [hentry, Option.ite_none_right_eq_some, Option.some.injEq] at hmade
    rw [hmade.2]

theorem createUser_ok (h : createUser configDir c username = .ok s) :
    s.activeUser = c.activeUser := by
  rw [createUser] at h
  split at h
  · cases h
  · split at h
    · next hmade =>
      obtain rfl := Except.ok.inj h
      exact makeUserDir_activeUser hmade
    · cases h

theorem saveForUser_ok {sealed : Except PasskeyError Bytes} {publicKey : Bytes}
    (h : saveForUser configDir c username sealed publicKey = .ok s) :
    s.activeUser = c.activeUser := by
  rw [saveForUser] at h
  split at h
  · cases h
  · cases sealed with
    | error e => cases h
    | ok secret =>
      simp only [bind, Except.bind] at h
      split at h
      · next hmade =>
        obtain rfl := Except.ok.inj h
        have hactive := makeUserDir_activeUser hmade
        exact hactive
      · cases h

theorem deleteUser_ok (h : deleteUser configDir c username = .ok s) :
    s.entries = (c.entries.filter fun e => !e.isNamed username) ∧
      s.activeUser = (if getActiveUser c = some username then none else c.activeUser) := by
  have hremoved : ∀ t : ConfigDir F, t.activeUser = c.activeUser →
      (if getActiveUser t =
        some username then (.ok (clearActiveUser t) : Except PasskeyError (ConfigDir F))
        else .ok t) = .ok s →
      s.entries = t.entries ∧
        s.activeUser = (if getActiveUser c = some username then none else c.activeUser) := by
    intro t ht hs
    have hactive : getActiveUser t = getActiveUser c := by rw [getActiveUser, getActiveUser, ht]
    rw [hactive] at hs
    by_cases hname : getActiveUser c = some username
    · rw [if_pos hname] at hs ⊢
      obtain rfl := Except.ok.inj hs
      exact ⟨rfl, rfl⟩
    · rw [if_neg hname] at hs ⊢
      obtain rfl := Except.ok.inj hs
      exact ⟨rfl, ht⟩
  cases hcheck : checkedUserDir configDir c username with
  | error e =>
    rw [deleteUser, hcheck] at h
    cases h
  | ok dir =>
    rw [deleteUser, hcheck] at h
    cases hentry : c.entry username with
    | none =>
      simp only [hentry, bind, Except.bind] at h
      obtain ⟨hentries, hactive⟩ := hremoved c rfl h
      refine ⟨?_, hactive⟩
      rw [hentries, List.filter_eq_self.mpr]
      intro e he
      simpa using List.find?_eq_none.mp hentry e he
    | some e =>
      simp only [hentry, bind, Except.bind] at h
      by_cases hdir : e.isDir = true
      · simp only [hdir, if_true] at h
        obtain ⟨hentries, hactive⟩ := hremoved (removeUserDir c username) rfl h
        refine ⟨?_, hactive⟩
        rw [hentries]
        cases husers : c.users with
        | none => simp [ConfigDir.entries, removeUserDir, husers]
        | some entries => simp [ConfigDir.entries, removeUserDir, husers]
      · simp only [hdir] at h
        cases h

theorem getActiveUser_congr (h : s.activeUser = c.activeUser) :
    getActiveUser s = getActiveUser c := by
  rw [getActiveUser, getActiveUser, h]

theorem pointedName_congr (h : s.activeUser = c.activeUser) : pointedName s = pointedName c := by
  rw [pointedName, pointedName, getActiveUser_congr h]

theorem pointedName_of_cleared (h : s.activeUser = none) : pointedName s = none := by
  simp [pointedName, getActiveUser, h]

theorem pointedName_valid (h : getActiveUser c = some username) (hvalid : ValidName username) :
    pointedName c = some username := by
  have hplain : parse F.platform username.toList = ⟨none, false, [.normal username.toList]⟩ :=
    hvalid.plain F.platform
  simp [pointedName, h, hplain]

/-- A call that deletes a user keeps its promise exactly when the pointer, if
it leads to that user's directory, spells the name as the call does. -/
theorem deleteUser_sound_iff (h : deleteUser configDir c username = .ok s) :
    DeleteSound c s username ↔ Spelled c (.deleteUser username) := by
  obtain ⟨hentries, hactive⟩ := deleteUser_ok h
  have hvalid : ValidName username := by
    cases hcheck : checkedUserDir configDir c username with
    | error e =>
      rw [deleteUser, hcheck] at h
      cases h
    | ok dir => exact (checkedUserDir_eq_ok_iff.mp hcheck).1
  constructor
  · rintro hsound user ⟨⟩ hexists name hname hkey
    by_contra hother
    rw [if_neg hother] at hactive
    exact hsound.pointer hexists name ((pointedName_congr hactive).trans hname) hkey
  · intro hspelled
    refine ⟨?_, hentries, ?_, ?_⟩
    · rw [ConfigDir.entry, hentries, List.find?_eq_none]
      intro e he
      simpa using (List.mem_filter.mp he).2
    · intro hexists name hname hkey
      by_cases hown : getActiveUser c = some username
      · rw [if_pos hown] at hactive
        rw [pointedName_of_cleared hactive] at hname
        cases hname
      · rw [if_neg hown] at hactive
        rw [pointedName_congr hactive] at hname
        exact hown (hspelled username rfl hexists name hname hkey)
    · intro name hname hkey
      by_cases hown : getActiveUser c = some username
      · obtain rfl := Option.some.inj (hname.symm.trans (pointedName_valid hown hvalid))
        exact absurd rfl hkey
      · rw [hactive, if_neg hown]

/-- A call leaves the pointer, removes it or has it name a valid user. -/
theorem userStep_activeUser (configDir : PathBuf) (c : ConfigDir F) (call : UserCall) :
    (userStep configDir c call).2.activeUser = c.activeUser ∨
      (userStep configDir c call).2.activeUser = none ∨
      ∃ username, ValidName username ∧
      (userStep configDir c call).2.activeUser = some username := by
  cases hresult : call.result configDir c with
  | error e =>
    left
    rw [userStep, hresult]
  | ok next =>
    simp only [userStep, hresult]
    cases call with
    | createUser username => exact .inl (createUser_ok hresult)
    | saveForUser username sealed publicKey => exact .inl (saveForUser_ok hresult)
    | setActiveUser username =>
      obtain ⟨hvalid, rfl, _⟩ := getActiveUser_set hresult
      exact .inr (.inr ⟨username, hvalid, rfl⟩)
    | clearActiveUser =>
      obtain rfl := Except.ok.inj hresult
      exact .inr (.inl rfl)
    | deleteUser username =>
      rw [(deleteUser_ok hresult).2]
      by_cases hown : getActiveUser c = some username
      · exact .inr (.inl (if_pos hown))
      · exact .inl (if_neg hown)

theorem PointerInside.step (call : UserCall) (h : PointerInside F.platform c.activeUser) :
    PointerInside F.platform (userStep configDir c call).2.activeUser := by
  rcases userStep_activeUser configDir c call with hsame | hnone | ⟨username, hvalid, hset⟩
  · rw [hsame]
    exact h
  · rw [hnone]
    intro text htext
    cases htext
  · rw [hset]
    rintro text ⟨⟩
    rw [hvalid.trim_eq]
    exact .inr (hvalid.plain F.platform).oneComponent

/-- The pointer names nobody, or a user as `set_active_user` accepts them. -/
def ValidPointer (c : ConfigDir F) : Prop :=
  ∀ username, getActiveUser c = some username → ValidName username

theorem ValidPointer.step (call : UserCall) (h : ValidPointer c) :
    ValidPointer (userStep configDir c call).2 := by
  intro username hactive
  rcases userStep_activeUser configDir c call with hsame | hnone | ⟨name, hvalid, hset⟩
  · rw [getActiveUser_congr hsame] at hactive
    exact h username hactive
  · simp [getActiveUser, hnone] at hactive
  · obtain ⟨text, htext, htrim, _⟩ := getActiveUser_eq_some.mp hactive
    obtain rfl := Option.some.inj (hset.symm.trans htext)
    rw [hvalid.trim_eq] at htrim
    exact htrim ▸ hvalid

/-- Where names that differ are different entries, the pointer cannot lead to a
directory under another spelling. -/
theorem ValidPointer.spelled (hkey : Function.Injective F.key) (h : ValidPointer c)
    (call : UserCall) :
    Spelled c call := by
  intro username _ _ name hname hsame
  obtain rfl := hkey hsame
  cases hactive : getActiveUser c with
  | none => simp [pointedName, hactive] at hname
  | some pointed => exact (pointedName_valid hactive (h pointed hactive)).symm.trans hname

theorem spelled_of_caseSensitive {calls : List UserCall} (hkey : Function.Injective F.key)
    (h : ValidPointer c) : ∀ e ∈ trace (userStep configDir) c calls, Spelled e.before e.input := by
  have hkept : ∀ (s : ConfigDir F) (call : UserCall), True → ValidPointer s →
      ValidPointer (userStep configDir s call).2 := fun s call _ hs => hs.step call
  intro e he
  exact ((trace_invariant hkept h fun _ _ => trivial).1 e he).1.spelled hkey e.input

/-- Throughout a run the pointer stays inside `users/`, and every user whose
deletion succeeds is gone while nothing else is. -/
def UserRunSound (configDir : PathBuf) (c : ConfigDir F) (calls : List UserCall) : Prop :=
  PointerInside F.platform (final (userStep configDir) c calls).activeUser ∧
    ∀ e ∈ trace (userStep configDir) c calls,
      PointerInside F.platform e.after.activeUser ∧
        ∀ username, e.input = .deleteUser username → e.output = .ok () →
          DeleteSound e.before e.after username

theorem deleteStep_sound_iff {e : Traces.Entry (ConfigDir F) UserCall (Except PasskeyError Unit)}
    (hstep : userStep configDir e.before e.input = (e.output, e.after))
    (hinput : e.input = .deleteUser username) (houtput : e.output = .ok ()) :
    DeleteSound e.before e.after username ↔ Spelled e.before e.input := by
  rw [userStep, hinput, houtput] at hstep
  rw [hinput]
  cases hresult : UserCall.result configDir e.before (.deleteUser username) with
  | error err =>
    simp only [hresult] at hstep
    cases (Prod.mk.inj hstep).1
  | ok next =>
    simp only [hresult] at hstep
    rw [← (Prod.mk.inj hstep).2]
    exact deleteUser_sound_iff hresult

/-- A run from a pointer inside `users/` is sound exactly when each deletion
that succeeds finds the pointer elsewhere, or at the name as it was given. -/
theorem user_runs (configDir : PathBuf) (c : ConfigDir F) (calls : List UserCall)
    (hstart : PointerInside F.platform c.activeUser) :
    UserRunSound configDir c calls ↔
      ∀ e ∈ trace (userStep configDir) c calls, e.output = .ok () → Spelled e.before e.input := by
  have hkept : ∀ (s : ConfigDir F) (call : UserCall), True → PointerInside F.platform s.activeUser →
      PointerInside F.platform (userStep configDir s call).2.activeUser :=
    fun s call _ h => h.step call
  have hrun : (∀ e ∈ trace (userStep configDir) c calls,
      PointerInside F.platform e.before.activeUser ∧ PointerInside F.platform e.after.activeUser) ∧
      PointerInside F.platform (final (userStep configDir) c calls).activeUser :=
    trace_invariant hkept hstart fun _ _ => trivial
  obtain ⟨hinside, hfinal⟩ := hrun
  constructor
  · intro hsound e he houtput username hinput
    exact (deleteStep_sound_iff (mem_trace he).2 hinput houtput).mp
      ((hsound.2 e he).2 username hinput houtput) username hinput
  · intro hspelled
    refine ⟨hfinal, ?_⟩
    intro e he
    refine ⟨(hinside e he).2, ?_⟩
    intro username hinput houtput
    exact (deleteStep_sound_iff (mem_trace he).2 hinput houtput).mpr (hspelled e he houtput)

def emptyConfigDir (F : Filesystem) : ConfigDir F := ⟨none, none⟩

def twoSpellings : List UserCall :=
  [.createUser "Alice", .saveForUser "Alice" (.ok [1]) [2], .setActiveUser "Alice",
    .deleteUser "alice"]

theorem user_runs_sample : UserRunSound ⟨none, true, []⟩ (emptyConfigDir unixFs) twoSpellings := by
  have hstart : PointerInside unix (emptyConfigDir unixFs).activeUser := by
    rintro text ⟨⟩
  have hvalid : ValidPointer (emptyConfigDir unixFs) := by
    rintro username ⟨⟩
  apply (user_runs ⟨none, true, []⟩ (emptyConfigDir unixFs) twoSpellings hstart).mpr
  intro e he _
  exact spelled_of_caseSensitive Function.injective_id hvalid e he

/-- A machine that takes names for the same when they differ in case only. -/
def foldingFs : Filesystem :=
  { unixFs with key := fun name => String.ofList (name.toList.map Unicode.asciiLower) }

/-- The last call of `twoSpellings`, where the case of names does not count. -/
def lowerCaseDeletion : Traces.Entry (ConfigDir foldingFs) UserCall (Except PasskeyError Unit) :=
  let selected := final (userStep ⟨none, true, []⟩) (emptyConfigDir foldingFs) (twoSpellings.take 3)
  let deleted := userStep ⟨none, true, []⟩ selected (.deleteUser "alice")
  ⟨selected, .deleteUser "alice", deleted.1, deleted.2⟩

/-- It succeeds, removes the directory that the pointer leads to and keeps the pointer. -/
theorem deleted_under_pointer_sample :
    lowerCaseDeletion ∈ trace (userStep ⟨none, true, []⟩) (emptyConfigDir foldingFs) twoSpellings ∧
      ¬ DeleteSound lowerCaseDeletion.before lowerCaseDeletion.after "alice" ∧
      ¬ UserRunSound ⟨none, true, []⟩ (emptyConfigDir foldingFs) twoSpellings := by
  have hmem : lowerCaseDeletion ∈
      trace (userStep ⟨none, true, []⟩) (emptyConfigDir foldingFs) twoSpellings :=
    List.mem_cons_of_mem _ (List.mem_cons_of_mem _ (List.mem_cons_of_mem _ List.mem_cons_self))
  have hunsound : ¬ DeleteSound lowerCaseDeletion.before lowerCaseDeletion.after "alice" := by
    intro h
    exact h.pointer (by decide +kernel) "Alice" (by decide +kernel) (by decide +kernel)
  refine ⟨hmem, hunsound, ?_⟩
  intro h
  exact hunsound ((h.2 _ hmem).2 "alice" rfl (by decide +kernel))

end GitCellar
