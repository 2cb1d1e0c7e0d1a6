import GitCellar.Usernames

/-! The configuration directory of several users: `users/<name>/` for each and
the pointer file `active_user`. -/

namespace GitCellar

open Loops Paths

/-- How a machine reads paths, which names it takes for the same entry, how it
shows a path and what it says of a file that stands where a directory is needed. -/
structure Filesystem where
  platform : Platform
  key : String → String
  showPath : PathBuf → String
  notADirectory : String

/-- An entry of `users/`, links resolved. A name that is not Unicode is `none`. -/
structure UserEntry (F : Filesystem) where
  name : Option String
  plain : ∀ n, name = some n → Plain F.platform n.toList
  isDir : Bool
  /-- Resolved, it is still a child of `users/`. -/
  inside : Bool
  secret : Option Bytes
  publicKey : Option Bytes

/-- `activeUser` is the text of the pointer file, `none` when there is none to
read; `users` the entries of `users/`. -/
structure ConfigDir (F : Filesystem) where
  activeUser : Option String
  users : Option (List (UserEntry F))

variable {F : Filesystem}

def UserEntry.isNamed (e : UserEntry F) (username : String) : Bool :=
  e.name.any fun n => F.key n == F.key username

def ConfigDir.entries (c : ConfigDir F) : List (UserEntry F) := c.users.getD []

def ConfigDir.entry (c : ConfigDir F) (username : String) : Option (UserEntry F) :=
  c.entries.find? (·.isNamed username)

/-- A user's directory as `create_dir_all` makes it. -/
def UserEntry.new (F : Filesystem) (username : String) (h : ValidName username) : UserEntry F :=
  { name := some username
    plain := fun _ hn => Option.some.inj hn ▸ h.plain F.platform
    isDir := true
    inside := true
    secret := none
    publicKey := none }

section Paths

variable (P : Platform) (configDir : PathBuf)

def usersDir : PathBuf := join P configDir "users".toList

def userDir (username : String) : PathBuf := join P (usersDir P configDir) username.toList

/-- `Path::strip_prefix`, as components. -/
def stripPrefix (path base : PathBuf) : Option (List Component) :=
  if path.drive = base.drive ∧ path.root = base.root ∧ base.comps.isPrefixOf path.comps then
    some (path.comps.drop base.comps.length)
  else none

end Paths

def escape (username : String) : PasskeyError :=
  invalidUsername username "the user directory would fall outside users/"

variable (configDir : PathBuf) (c : ConfigDir F)

def checkedUserDir (username : String) : Except PasskeyError PathBuf := do
  validateUserDirName username
  let dir := userDir F.platform configDir username
  if stripPrefix dir (usersDir F.platform configDir) ≠ some [.normal username.toList] then
    .error (escape username)
  else if (c.entry username).any (fun e => !e.inside) then .error (escape username)
  else .ok dir

def checkedIdentityDir (username : String) : Except PasskeyError PathBuf := do
  let dir ← checkedUserDir configDir c username
  .ok (join F.platform dir "identity".toList)

def isMultiUser : Bool := c.users.any (·.any (·.isDir))

def getActiveUser : Option String := (c.activeUser.map Unicode.trim).filter (· ≠ "")

def setActiveUser (username : String) : Except PasskeyError (ConfigDir F) := do
  validateUserDirName username
  .ok { c with activeUser := some username }

def clearActiveUser : ConfigDir F := { c with activeUser := none }

def listUsers : List String :=
  (c.entries.filterMap fun e => if e.isDir then e.name else none).mergeSort fun a b =>
    decide (a ≤ b)

def userExists (username : String) : Bool :=
  match checkedUserDir configDir c username with
  | .ok _ => (c.entry username).isSome
  | .error _ => false

def userHasIdentity (username : String) : Bool :=
  match checkedIdentityDir configDir c username with
  | .ok _ => (c.entry username).any fun e => e.isDir && e.secret.isSome
  | .error _ => false

variable {configDir c} {username : String} {dir : PathBuf}

theorem usersDir_eq : usersDir F.platform configDir =
    ⟨configDir.drive, configDir.root, configDir.comps ++ [.normal "users".toList]⟩ :=
  join_plain (plain_of_isPlainText (by decide))

theorem userDir_eq (h : Plain F.platform username.toList) : userDir F.platform configDir username =
    ⟨configDir.drive, configDir.root,
      configDir.comps ++ [.normal "users".toList, .normal username.toList]⟩ := by
  rw [userDir, join_plain h, usersDir_eq]
  simp

theorem stripPrefix_userDir (h : Plain F.platform username.toList) :
    stripPrefix (userDir F.platform configDir username) (usersDir F.platform configDir) =
      some [.normal username.toList] := by
  rw [userDir_eq h, usersDir_eq, stripPrefix, if_pos]
  · simp
  · simp

theorem checkedUserDir_eq_ok_iff : checkedUserDir configDir c username = .ok dir ↔
    ValidName username ∧ (∀ e ∈ c.entry username, e.inside = true) ∧
      dir = userDir F.platform configDir username := by
  refine Iff.trans check_bind_eq_ok_iff ?_
  apply and_congr_right
  intro hvalid
  have hstrip : stripPrefix (userDir F.platform configDir username)
      (usersDir F.platform configDir) =
      some [.normal username.toList] := stripPrefix_userDir (ValidName.plain F.platform hvalid)
  have hinside : (c.entry username).any (fun e => !e.inside) = true ↔
      ¬ ∀ e ∈ c.entry username, e.inside = true := by
    simp [Option.any_eq_true]
  simp only [hstrip, ne_eq, not_true_eq_false, if_false, ite_error_eq_ok_iff, hinside, not_not,
    Except.ok.injEq]
  exact and_congr_right fun _ => eq_comm

theorem checkedIdentityDir_eq_ok_iff : checkedIdentityDir configDir c username = .ok dir ↔
    ValidName username ∧ (∀ e ∈ c.entry username, e.inside = true) ∧
      dir = join F.platform (userDir F.platform configDir username) "identity".toList := by
  have hcheck := @checkedUserDir_eq_ok_iff F configDir c username
  cases h : checkedUserDir configDir c username with
  | error e =>
    simp only [h, reduceCtorEq, false_iff, not_and] at hcheck
    constructor
    · intro hd
      rw [checkedIdentityDir, h] at hd
      cases hd
    · rintro ⟨hvalid, hinside, _⟩
      exact absurd rfl (hcheck hvalid hinside)
  | ok d =>
    obtain ⟨hvalid, hinside, rfl⟩ := hcheck.mp h
    rw [checkedIdentityDir, h]
    constructor
    · intro hd
      exact ⟨hvalid, hinside, (Except.ok.inj hd).symm⟩
    · rintro ⟨_, _, rfl⟩
      rfl

theorem getActiveUser_set {s : ConfigDir F} (h : setActiveUser c username = .ok s) :
    ValidName username ∧ s = { c with activeUser := some username } ∧
    getActiveUser s = some username := by
  obtain ⟨hvalid, hs⟩ := check_bind_eq_ok_iff.mp h
  obtain rfl := Except.ok.inj hs
  have hname : ValidName username := hvalid
  refine ⟨hname, rfl, ?_⟩
  simp [getActiveUser, hname.trim_eq, hname.chars.1]

end GitCellar
