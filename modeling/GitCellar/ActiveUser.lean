import GitCellar.MultiUser

/-! The paths of the current user's files, and where the pointer file can take them. -/

namespace GitCellar

open Paths

variable {F : Filesystem} (configDir : PathBuf) (c : ConfigDir F)

def identityDir : PathBuf :=
  match getActiveUser c with
  | some username =>
    match checkedIdentityDir configDir c username with
    | .ok dir => dir
    | .error _ => join F.platform configDir "identity".toList
  | none => join F.platform configDir "identity".toList

/-- The first directory of `users/` whose name is Unicode. -/
def firstUser : Option String := c.entries.findSome? fun e => if e.isDir then e.name else none

def userDataPath (subpath : String) : PathBuf :=
  match getActiveUser c with
  | some username => join F.platform (userDir F.platform configDir username) subpath.toList
  | none =>
    if isMultiUser c then
      match firstUser c with
      | some name => join F.platform (userDir F.platform configDir name) subpath.toList
      | none => join F.platform configDir subpath.toList
    else join F.platform configDir subpath.toList

def keyringDir : PathBuf := userDataPath configDir c "keyring"

def registryPath : PathBuf := userDataPath configDir c "registry.db"

def userInfoPath : PathBuf :=
  if (getActiveUser c).isSome ∨ isMultiUser c then userDataPath configDir c "user_info.json"
  else join F.platform (join F.platform configDir "identity".toList) "user_info.json".toList

def below (rel : List String) : PathBuf :=
  ⟨configDir.drive, configDir.root, configDir.comps ++ rel.map fun n => .normal n.toList⟩

def belowUser (name : List Char) (rel : List String) : PathBuf :=
  ⟨configDir.drive, configDir.root,
    configDir.comps ++ [.normal "users".toList, .normal name] ++ rel.map fun n => .normal n.toList⟩

/-- `rel` of one user's directory, or one of the places older layouts have. -/
def Confined (path : PathBuf) (rel : List String) (legacy : List (List String)) : Prop :=
  (∃ name, path = belowUser configDir name rel) ∨ ∃ old ∈ legacy, path = below configDir old

structure AllConfined (subpath : String) : Prop where
  identityDir : Confined configDir (identityDir configDir c) ["identity"] [["identity"]]
  userDataPath : Confined configDir (userDataPath configDir c subpath) [subpath] [[subpath]]
  keyringDir : Confined configDir (keyringDir configDir c) ["keyring"] [["keyring"]]
  registryPath : Confined configDir (registryPath configDir c) ["registry.db"] [["registry.db"]]
  userInfoPath : Confined configDir (userInfoPath configDir c) ["user_info.json"]
    [["identity", "user_info.json"], ["user_info.json"]]

/-- The pointer file, where it holds a text, names one entry of `users/`. -/
def PointerInside (P : Platform) (activeUser : Option String) : Prop :=
  ∀ text, activeUser = some text →
    Unicode.trim text = "" ∨ OneComponent P (Unicode.trim text).toList

variable {configDir c} {subpath username : String} {base : PathBuf}

theorem getActiveUser_eq_some : getActiveUser c = some username ↔
    ∃ text, c.activeUser = some text ∧ Unicode.trim text = username ∧ username ≠ "" := by
  simp only [getActiveUser, Option.filter_eq_some_iff, Option.map_eq_some_iff, decide_eq_true_eq]
  constructor
  · rintro ⟨⟨text, htext, htrim⟩, hne⟩
    exact ⟨text, htext, htrim, hne⟩
  · rintro ⟨text, htext, htrim, hne⟩
    exact ⟨⟨text, htext, htrim⟩, hne⟩

theorem join_below (h : Plain F.platform subpath.toList) :
    join F.platform base subpath.toList = below base [subpath] := join_plain h

theorem join_userDir {name : List Char} (hsub : Plain F.platform subpath.toList)
    (hname : parse F.platform username.toList = ⟨none, false, [.normal name]⟩) :
    join F.platform (userDir F.platform configDir username) subpath.toList =
      belowUser configDir name [subpath] := by
  rw [userDir, join_relative hname, usersDir_eq, join_plain hsub]
  simp [belowUser]

theorem firstUser_plain {name : String} (h : firstUser c = some name) :
    Plain F.platform name.toList := by
  obtain ⟨e, _, he⟩ := List.exists_of_findSome?_eq_some h
  by_cases hdir : e.isDir = true
  · rw [if_pos hdir] at he
    exact e.plain name he
  · rw [if_neg hdir] at he
    cases he

/-- With no pointer the path is that of a directory that exists, or the old one. -/
theorem userDataPath_confined_of_none (h : getActiveUser c = none)
    (hsub : Plain F.platform subpath.toList) :
    Confined configDir (userDataPath configDir c subpath) [subpath] [[subpath]] := by
  have hlegacy : Confined configDir (join F.platform configDir subpath.toList) [subpath]
      [[subpath]] :=
    .inr ⟨[subpath], List.mem_singleton.mpr rfl, join_below hsub⟩
  rw [userDataPath, h]
  by_cases hmulti : isMultiUser c = true
  · simp only [hmulti, if_true]
    cases hfirst : firstUser c with
    | none => exact hlegacy
    | some name => exact .inl ⟨name.toList, join_userDir hsub (firstUser_plain hfirst)⟩
  · simp only [hmulti]
    exact hlegacy

theorem userDataPath_confined (h : PointerInside F.platform c.activeUser)
    (hsub : Plain F.platform subpath.toList) :
    Confined configDir (userDataPath configDir c subpath) [subpath] [[subpath]] := by
  cases hactive : getActiveUser c with
  | none => exact userDataPath_confined_of_none hactive hsub
  | some username =>
    obtain ⟨text, htext, rfl, hne⟩ := getActiveUser_eq_some.mp hactive
    obtain ⟨name, hname⟩ := (h text htext).resolve_left hne
    refine .inl ⟨name, ?_⟩
    rw [userDataPath, hactive]
    exact join_userDir hsub hname

theorem identityDir_confined :
    Confined configDir (identityDir configDir c) ["identity"] [["identity"]] := by
  have hplain : Plain F.platform "identity".toList :=
    plain_of_isPlainText (by decide)
  have hlegacy : Confined configDir (join F.platform configDir "identity".toList) ["identity"]
      [["identity"]] :=
    .inr ⟨["identity"], List.mem_singleton.mpr rfl, join_below hplain⟩
  cases hactive : getActiveUser c with
  | none =>
    simp only [identityDir, hactive]
    exact hlegacy
  | some username =>
    cases hcheck : checkedIdentityDir configDir c username with
    | error e =>
      simp only [identityDir, hactive, hcheck]
      exact hlegacy
    | ok dir =>
      simp only [identityDir, hactive, hcheck]
      obtain ⟨hvalid, _, rfl⟩ := checkedIdentityDir_eq_ok_iff.mp hcheck
      exact .inl ⟨username.toList, join_userDir hplain (hvalid.plain F.platform)⟩

theorem userInfoPath_confined (h : PointerInside F.platform c.activeUser) :
    Confined configDir (userInfoPath configDir c) ["user_info.json"]
      [["identity", "user_info.json"], ["user_info.json"]] := by
  have hidentity : Plain F.platform "identity".toList :=
    plain_of_isPlainText (by decide)
  have hinfo : Plain F.platform "user_info.json".toList :=
    plain_of_isPlainText (by decide)
  rw [userInfoPath]
  by_cases hmulti : (getActiveUser c).isSome = true ∨ isMultiUser c = true
  · rw [if_pos hmulti]
    have hdata : Confined configDir (userDataPath configDir c "user_info.json") ["user_info.json"]
        [["user_info.json"]] := userDataPath_confined h hinfo
    rcases hdata with hname | ⟨old, hold, hpath⟩
    · exact .inl hname
    · exact .inr ⟨old, List.mem_cons_of_mem _ hold, hpath⟩
  · rw [if_neg hmulti, join_below hidentity, join_below hinfo]
    refine .inr ⟨["identity", "user_info.json"], List.mem_cons_self, ?_⟩
    simp [below]

/-- From a path that has neither drive, root nor components, only a name that
is one component leads to a user's directory. -/
theorem oneComponent_of_confined (hsub : Plain F.platform subpath.toList)
    (h : Confined ⟨none, false, []⟩
      (join F.platform (userDir F.platform ⟨none, false, []⟩ username) subpath.toList) [subpath]
      [[subpath]]) :
    OneComponent F.platform username.toList := by
  rw [userDir, usersDir_eq, join_plain hsub] at h
  rcases h with ⟨name, hpath⟩ | ⟨old, hold, hpath⟩
  · obtain ⟨hdrive, hroot, hcomps⟩ := PathBuf.mk.inj hpath
    have hdir : join F.platform ⟨none, false, [.normal "users".toList]⟩ username.toList =
        ⟨none, false, [.normal "users".toList, .normal name]⟩ :=
      PathBuf.ext hdrive hroot (List.append_inj_left' hcomps rfl)
    obtain ⟨rest, hrest, hout⟩ := join_eq_relative hdir
    obtain rfl := List.cons.inj hout |>.2
    exact ⟨name, hrest⟩
  · obtain rfl := List.mem_singleton.mp hold
    obtain ⟨hdrive, hroot, hcomps⟩ := PathBuf.mk.inj hpath
    have hdir : join F.platform ⟨none, false, [.normal "users".toList]⟩ username.toList =
        ⟨none, false, []⟩ := PathBuf.ext hdrive hroot (List.append_inj_left' hcomps rfl)
    obtain ⟨rest, _, hout⟩ := join_eq_relative hdir
    cases hout

/-- A machine that tells apart the names that differ. -/
def unixFs : Filesystem where
  platform := unix
  key := id
  showPath path := String.ofList (path.comps.flatMap fun
    | .parentDir => "/..".toList
    | .normal name => '/' :: name)
  notADirectory := "Not a directory (os error 20)"

def pointingAt (text : String) : ConfigDir unixFs := ⟨some text, none⟩

/-- The five paths stay in the configuration directory, wherever that is,
exactly when the pointer names one entry of `users/`. -/
theorem active_user_confinement (c : ConfigDir F) (hsub : Plain F.platform subpath.toList) :
    (∀ configDir, AllConfined configDir c subpath) ↔ PointerInside F.platform c.activeUser := by
  constructor
  · intro h text htext
    by_cases hempty : Unicode.trim text = ""
    · exact .inl hempty
    · right
      have hactive : getActiveUser c = some (Unicode.trim text) :=
        getActiveUser_eq_some.mpr ⟨text, htext, rfl, hempty⟩
      have hdata := (h ⟨none, false, []⟩).userDataPath
      simp only [userDataPath, hactive] at hdata
      exact oneComponent_of_confined hsub hdata
  · intro h configDir
    exact {
      identityDir := identityDir_confined
      userDataPath := userDataPath_confined h hsub
      keyringDir := userDataPath_confined h (plain_of_isPlainText (by decide))
      registryPath := userDataPath_confined h (plain_of_isPlainText (by decide))
      userInfoPath := userInfoPath_confined h }

theorem active_user_confinement_sample :
    AllConfined ⟨none, true, [.normal "config".toList]⟩ (pointingAt " alice\n") "keyring" := by
  have hplain : Plain unix "keyring".toList :=
    plain_of_isPlainText (by decide)
  apply (active_user_confinement (F := unixFs) (pointingAt " alice\n") hplain).mpr
  rintro text ⟨⟩
  exact .inr ⟨"alice".toList, by decide +kernel⟩

/-- `..` in the pointer takes the key ring out of the configuration directory. -/
theorem keyring_escapes_sample :
    keyringDir ⟨none, true, [.normal "config".toList]⟩ (pointingAt "../../x") =
        ⟨none, true, [.normal "config".toList, .normal "users".toList, .parentDir, .parentDir,
          .normal "x".toList, .normal "keyring".toList]⟩ ∧
      ¬ AllConfined ⟨none, true, [.normal "config".toList]⟩ (pointingAt "../../x") "keyring" := by
  have hkeyring : keyringDir ⟨none, true, [.normal "config".toList]⟩ (pointingAt "../../x") =
      ⟨none, true, [.normal "config".toList, .normal "users".toList, .parentDir, .parentDir,
        .normal "x".toList, .normal "keyring".toList]⟩ := by decide +kernel
  refine ⟨hkeyring, ?_⟩
  intro h
  rcases hkeyring ▸ h.keyringDir with ⟨name, hpath⟩ | ⟨old, hold, hpath⟩
  · have hlength := congrArg (fun p => p.comps.length) hpath
    cases hlength
  · obtain rfl := List.mem_singleton.mp hold
    have hlength := congrArg (fun p => p.comps.length) hpath
    cases hlength

end GitCellar
