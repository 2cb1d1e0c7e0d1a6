import GitCellar.IdentityFiles
import GitCellar.UsernameGrammar

/-! The entry points that take a user's name (`multi_user/mod.rs`, `identity/`), call by
call: what a name has to be before any of them reaches the filesystem. -/

namespace GitCellar.UserDirs

open Effects Loops Paths Utf8

structure UserInfo where
  email : String
  username : String
  machineId : String
  userId : String
  deriving DecidableEq, Repr

/-- `serde_json` at `UserInfo`. -/
structure UserInfoJson where
  toStringPretty : UserInfo → Except String String
  fromStr : String → Except String UserInfo

/-- Links resolved, a directory is no child of its base. -/
def leaves : Option PathBuf → Option PathBuf → Bool
  | some base, some real => parent real != some base
  | _, _ => false

variable {Cert : Type} (F : Filesystem) (J : UserInfoJson) (C : CertBytes Cert)
    (configDir : PathBuf)
  (username : String)

def checkedUserDir : Fs PathBuf := do
  Prog.ofExcept (validateUserDirName username)
  let dir := userDir F.platform configDir username
  if stripPrefix dir (usersDir F.platform configDir) ≠ some [.normal username.toList] then
    .fail (escape username)
  else do
    let base ← canonicalize (usersDir F.platform configDir)
    let real ← canonicalize dir
    if leaves base real then .fail (escape username) else .done dir

def checkedIdentityDir : Fs PathBuf := do
  let dir ← checkedUserDir F configDir username
  .done (join F.platform dir "identity".toList)

def activeUserPath : PathBuf := join F.platform configDir "active_user".toList

def getActiveUser : Fs (Option String) := do
  let found ← pathExists (activeUserPath F configDir)
  if !found then .done none
  else do
    let content ← readToString (activeUserPath F configDir)
    .done ((content.toOption.map Unicode.trim).filter (· ≠ ""))

/-- `create_dir_all` of a path's parent, where it has one. -/
def ensureParent (path : PathBuf) : Fs Unit :=
  match parent path with
  | some dir => attempt (.createDirAll dir) .io
  | none => .done ()

def setActiveUser : Fs Unit := do
  Prog.ofExcept (validateUserDirName username)
  ensureParent (activeUserPath F configDir)
  attempt (.write (activeUserPath F configDir) (utf8 username)) .io

/-- `if path.exists() { remove_file(path)? }` -/
def removeIfThere (path : PathBuf) : Fs Unit := do
  let found ← pathExists path
  if found then attempt (.removeFile path) .io else .done ()

def clearActiveUser : Fs Unit := removeIfThere (activeUserPath F configDir)

def userInfoPath (dir : PathBuf) : PathBuf := join F.platform dir "user_info.json".toList

def getUserInfo : Fs (Option UserInfo) :=
  (checkedUserDir F configDir username).catchAll fun
    | .error _ => .done none
    | .ok dir => do
      let found ← pathExists (userInfoPath F dir)
      if !found then .done none
      else do
        let content ← readToString (userInfoPath F dir)
        .done (content.toOption.bind fun text => (J.fromStr text).toOption)

def saveUserInfo (info : UserInfo) : Fs Unit := do
  let dir ← checkedUserDir F configDir username
  ensureParent (userInfoPath F dir)
  let content ← Prog.orFail
    (fun e => .other ("Failed to serialize user info: " ++ e)) (J.toStringPretty info)
  attempt (.write (userInfoPath F dir) (utf8 content)) .io

def createUser : Fs Unit := do
  let dir ← checkedUserDir F configDir username
  attempt (.createDirAll (join F.platform dir "identity".toList)) .io

def deleteUser : Fs Unit := do
  let dir ← checkedUserDir F configDir username
  let found ← pathExists dir
  if found then attempt (.removeDirAll dir) .io else .done ()
  let active ← getActiveUser F configDir
  if active = some username then clearActiveUser F configDir else .done ()

/-- `.map(|d| test(d).exists()).unwrap_or(false)` -/
def existsIn (dir : Fs PathBuf) (test : PathBuf → PathBuf) : Fs Bool :=
  dir.catchAll fun
    | .error _ => .done false
    | .ok d => pathExists (test d)

def userExists : Fs Bool := existsIn (checkedUserDir F configDir username) id

def userHasIdentity : Fs Bool := existsIn (checkedIdentityDir F configDir username) (secretPath F)

def existsForUser : Fs Bool := existsIn (checkedIdentityDir F configDir username) (secretPath F)

def loadUser (unwrapAtRest : Bytes → Except PasskeyError Bytes) : Fs (Identity Cert) := do
  let path ← checkedIdentityDir F configDir username
  loadFrom F C unwrapAtRest path

def saveForUser (unix : Bool) (identity : Identity Cert)
    (sealer : Bytes → Except PasskeyError Bytes) :
    Fs Unit := do
  let path ← checkedIdentityDir F configDir username
  saveToWithSealer F C unix identity path sealer

def deleteIdentityAt (path : PathBuf) : Fs Unit := do
  removeIfThere (secretPath F path)
  removeIfThere (publicPath F path)

def deleteUserIdentity : Fs Unit := do
  let path ← checkedIdentityDir F configDir username
  deleteIdentityAt F path

def ensureIdentityDir : Fs Unit := do
  let path ← checkedIdentityDir F configDir username
  attempt (.createDirAll path) .io

/-- Every call on the name ends with `e` or finds nothing, and asks for nothing. -/
structure RefusedUnasked (e : PasskeyError) : Prop where
  setActiveUser : setActiveUser F configDir username = .fail e
  createUser : createUser F configDir username = .fail e
  deleteUser : deleteUser F configDir username = .fail e
  saveUserInfo : ∀ info, saveUserInfo F J configDir username info = .fail e
  loadUser : ∀ unwrapAtRest, loadUser F C configDir username unwrapAtRest = .fail e
  saveForUser : ∀ unix identity sealer,
    saveForUser F C configDir username unix identity sealer = .fail e
  deleteUserIdentity : deleteUserIdentity F configDir username = .fail e
  ensureIdentityDir : ensureIdentityDir F configDir username = .fail e
  getUserInfo : getUserInfo F J configDir username = .done none
  userExists : userExists F configDir username = .done false
  userHasIdentity : userHasIdentity F configDir username = .done false
  existsForUser : existsForUser F configDir username = .done false

section

variable {F J C configDir username} {name : String} {dir : PathBuf} {e : PasskeyError} {σ : Type}
  {answer : (call : FsCall) → σ → FsReply call × σ} {s t : σ}

theorem validName_iff : ValidName name ↔ IsAccountName name ∨ name ∈ reservedUserDirNames := by
  rw [ValidName, validateUserDirName]
  by_cases hreserved : name ∈ reservedUserDirNames
  · simp [hreserved]
  · simp [hreserved, validateUsername_iff]

theorem checkedUserDir_refused (h : validateUserDirName username = .error e) :
    checkedUserDir F configDir username = .fail e := by
  rw [checkedUserDir, h]
  rfl

theorem checkedIdentityDir_refused (h : validateUserDirName username = .error e) :
    checkedIdentityDir F configDir username = .fail e := by
  rw [checkedIdentityDir, checkedUserDir_refused h]
  rfl

theorem refusedUnasked (h : validateUserDirName username = .error e) :
    RefusedUnasked F J C configDir username e := by
  have huser := @checkedUserDir_refused F configDir username e h
  have hidentity := @checkedIdentityDir_refused F configDir username e h
  constructor
  · rw [setActiveUser, h]
    rfl
  · rw [createUser, huser]
    rfl
  · rw [deleteUser, huser]
    rfl
  · intro info
    rw [saveUserInfo, huser]
    rfl
  · intro unwrapAtRest
    rw [loadUser, hidentity]
    rfl
  · intro unix identity sealer
    rw [saveForUser, hidentity]
    rfl
  · rw [deleteUserIdentity, hidentity]
    rfl
  · rw [ensureIdentityDir, hidentity]
    rfl
  · rw [getUserInfo, huser]
    rfl
  · rw [userExists, huser]
    rfl
  · rw [userHasIdentity, hidentity]
    rfl
  · rw [existsForUser, hidentity]
    rfl

theorem checkedUserDir_of_valid (h : ValidName username) : checkedUserDir F configDir username =
    (do
      let base ← canonicalize (usersDir F.platform configDir)
      let real ← canonicalize (userDir F.platform configDir username)
      if leaves base real then .fail (escape username)
      else .done (userDir F.platform configDir username)) := by
  have hvalid : validateUserDirName username = .ok () := h
  rw [checkedUserDir, hvalid]
  show (if stripPrefix (userDir F.platform configDir username) (usersDir F.platform configDir) ≠
      some [.normal username.toList] then _ else _) = _
  rw [if_neg (not_not.mpr (stripPrefix_userDir (h.plain F.platform)))]

/-- What the two questions about links tell of the user's directory. -/
def linkLeaves (F : Filesystem) (configDir : PathBuf) (username : String)
    (answer : (call : FsCall) → σ → FsReply call × σ) (s : σ) : Bool :=
  let base := answer (.canonicalize (usersDir F.platform configDir)) s
  let real := answer (.canonicalize (userDir F.platform configDir username)) base.2
  leaves base.1 real.1

theorem checkedUserDir_run (h : ValidName username) :
    ((checkedUserDir F configDir username).run answer s).1 =
    if linkLeaves F configDir username answer s then .error (escape username)
    else .ok (userDir F.platform configDir username) := by
  rw [checkedUserDir_of_valid h]
  show (Prog.run answer (if linkLeaves F configDir username answer s then _ else _) _).1 = _
  by_cases hlink : linkLeaves F configDir username answer s = true
  · rw [if_pos hlink, if_pos hlink]
    rfl
  · rw [if_neg hlink, if_neg hlink]
    rfl

/-- The check by calls is the check on the entries of `users/`, where links lead as the
entries say. -/
theorem checkedUserDir_refines (c : ConfigDir F)
    (hlinks : linkLeaves F configDir username answer s =
      (c.entry username).any fun e => !e.inside) :
    ((checkedUserDir F configDir username).run answer s).1 =
      GitCellar.checkedUserDir configDir c username := by
  cases hvalid : validateUserDirName username with
  | error e =>
    rw [checkedUserDir_refused hvalid, GitCellar.checkedUserDir, hvalid]
    rfl
  | ok u =>
    have hstrip := @stripPrefix_userDir F configDir username (ValidName.plain F.platform hvalid)
    rw [checkedUserDir_run hvalid, hlinks, GitCellar.checkedUserDir, hvalid]
    show _ =
      (if stripPrefix (userDir F.platform configDir username) (usersDir F.platform configDir) ≠
      some [.normal username.toList] then _ else _)
    rw [if_neg (not_not.mpr hstrip)]

theorem checkedUserDir_ok (h : (checkedUserDir F configDir username).run answer s = (.ok dir, t)) :
    ValidName username ∧ dir = userDir F.platform configDir username := by
  cases hvalid : validateUserDirName username with
  | error e =>
    rw [checkedUserDir_refused hvalid] at h
    cases (Prod.mk.inj h).1
  | ok u =>
    refine ⟨hvalid, ?_⟩
    have hrun := @checkedUserDir_run F configDir username σ answer s hvalid
    rw [h] at hrun
    by_cases hlink : linkLeaves F configDir username answer s = true
    · rw [if_pos hlink] at hrun
      cases hrun
    · rw [if_neg hlink] at hrun
      exact Except.ok.inj hrun

end

/-- The directory is `users/` and one normal component behind it. -/
structure ChildOfUsers (dir : PathBuf) (name : String) : Prop where
  drive : dir.drive = (usersDir F.platform configDir).drive
  root : dir.root = (usersDir F.platform configDir).root
  comps : dir.comps = (usersDir F.platform configDir).comps ++ [.normal name.toList]

/-- Names are held to the grammar, and keep to their own directory under `users/` or
reach nothing. -/
theorem username_containment :
    (∀ name, validateUsername name = .ok () ↔ IsAccountName name) ∧
    (∀ (σ : Type) (answer : (call : FsCall) → σ → FsReply call × σ) (s t : σ) name dir,
      (checkedUserDir F configDir name).run answer s = (.ok dir, t) →
        (IsAccountName name ∨ name ∈ reservedUserDirNames) ∧ ChildOfUsers F configDir dir name) ∧
    (∀ name other dir,
      ChildOfUsers F configDir dir name → ChildOfUsers F configDir dir other → name = other) ∧
    ∀ name, ¬ IsAccountName name → name ∉ reservedUserDirNames →
      ∃ e, RefusedUnasked F J C configDir name e := by
  refine ⟨fun _ => validateUsername_iff, ?_, ?_, ?_⟩
  · intro σ answer s t name dir h
    obtain ⟨hvalid, rfl⟩ := checkedUserDir_ok h
    have hdir : userDir F.platform configDir name = _ := join_plain (hvalid.plain F.platform)
    refine ⟨validName_iff.mp hvalid, ?_⟩
    rw [hdir]
    exact ⟨rfl, rfl, rfl⟩
  · intro name other dir hname hother
    have hlast := List.append_cancel_left (hname.comps.symm.trans hother.comps)
    injection hlast with hnormal _
    injection hnormal with hchars
    exact String.toList_inj.mp hchars
  · intro name haccount hreserved
    cases hvalid : validateUserDirName name with
    | error e => exact ⟨e, refusedUnasked hvalid⟩
    | ok u =>
      rcases validName_iff.mp hvalid with h | h
      · exact absurd h haccount
      · exact absurd h hreserved

end GitCellar.UserDirs
