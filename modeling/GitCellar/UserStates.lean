import GitCellar.ActiveUser

/-! What an application is told about the identities in its configuration
directory, and what repairing that state does. -/

namespace GitCellar

open Paths

inductive IdentityState where
  | noIdentity
  | ready (username : String)
  | readyMultiUser (activeUser : String) (users : List String)
  | needsUserSelection (users : List String)
  | activeUserMissing (claimed : String) (available : List String)
  | corrupted (reason : String)
  deriving DecidableEq, Repr

def IdentityState.isReady : IdentityState → Bool
  | ready _ => true
  | readyMultiUser _ _ => true
  | _ => false

def IdentityState.needsAction : IdentityState → Bool
  | noIdentity => true
  | needsUserSelection _ => true
  | activeUserMissing _ _ => true
  | corrupted _ => true
  | _ => false

def IdentityState.activeUsername : IdentityState → Option String
  | ready username => some username
  | readyMultiUser activeUser _ => some activeUser
  | _ => none

def IdentityState.availableUsers : IdentityState → List String
  | ready username => [username]
  | readyMultiUser _ users => users
  | needsUserSelection users => users
  | activeUserMissing _ available => available
  | _ => []

variable {F : Filesystem} (configDir : PathBuf) (c : ConfigDir F)

def usersWithIdentity : List String := (listUsers c).filter (userHasIdentity configDir c)

def evaluateState : IdentityState :=
  let users := usersWithIdentity configDir c
  if users.isEmpty then .noIdentity
  else
    match getActiveUser c with
    | none => if users.length = 1 then .needsUserSelection users else .needsUserSelection users
    | some username =>
      if username ∈ users then
        if users.length = 1 then .ready username else .readyMultiUser username users
      else .activeUserMissing username users

def repairState : Except PasskeyError (IdentityState × ConfigDir F) :=
  match evaluateState configDir c with
  | .needsUserSelection [user] => do
    let repaired ← setActiveUser c user
    .ok (.ready user, repaired)
  | .activeUserMissing _ [user] => do
    let repaired ← setActiveUser c user
    .ok (.ready user, repaired)
  | .activeUserMissing claimed available =>
    if available.isEmpty then .ok (.activeUserMissing claimed available, c)
    else .ok (.needsUserSelection available, c)
  | state => .ok (state, c)

/-- What repair returns is what a new evaluation finds, and repairing again
changes nothing. -/
def RepairAgrees : Prop :=
  ∀ state repaired, repairState configDir c = .ok (state, repaired) →
    evaluateState configDir repaired = state ∧
    repairState configDir repaired = .ok (state, repaired)

/-- The pointer names someone without an identity, and two or more have one. -/
def Ambiguous : Prop :=
  ∃ claimed, getActiveUser c = some claimed ∧ claimed ∉ usersWithIdentity configDir c ∧
    2 ≤ (usersWithIdentity configDir c).length

variable {configDir c} {user : String} {users : List String}

theorem usersWithIdentity_set {s : ConfigDir F} (h : setActiveUser c user = .ok s) :
    usersWithIdentity configDir s = usersWithIdentity configDir c := by
  obtain ⟨_, rfl, _⟩ := getActiveUser_set h
  rfl

theorem userHasIdentity_valid (h : userHasIdentity configDir c user = true) : ValidName user := by
  rw [userHasIdentity] at h
  cases hcheck : checkedIdentityDir configDir c user with
  | error e => simp [hcheck] at h
  | ok dir => exact (checkedIdentityDir_eq_ok_iff.mp hcheck).1

theorem evaluateState_none (h : usersWithIdentity configDir c = []) :
    evaluateState configDir c = .noIdentity := by
  simp [evaluateState, h]

theorem evaluateState_unset (hne : usersWithIdentity configDir c ≠ [])
    (h : getActiveUser c = none) :
    evaluateState configDir c = .needsUserSelection (usersWithIdentity configDir c) := by
  simp [evaluateState, hne, h]

theorem evaluateState_missing (hne : usersWithIdentity configDir c ≠ [])
    (h : getActiveUser c = some user) (hmem : user ∉ usersWithIdentity configDir c) :
    evaluateState configDir c = .activeUserMissing user (usersWithIdentity configDir c) := by
  simp [evaluateState, hne, h, hmem]

theorem evaluateState_only (h : usersWithIdentity configDir c = [user])
    (hactive : getActiveUser c = some user) :
    evaluateState configDir c = .ready user := by
  simp [evaluateState, h, hactive]

theorem evaluateState_active (h : getActiveUser c = some user)
    (hmem : user ∈ usersWithIdentity configDir c)
    (hlen : (usersWithIdentity configDir c).length ≠ 1) :
    evaluateState configDir c = .readyMultiUser user (usersWithIdentity configDir c) := by
  have hne := List.ne_nil_of_mem hmem
  simp [evaluateState, hne, h, hmem, hlen]

theorem setActiveUser_only (h : usersWithIdentity configDir c = [user]) :
    ∃ s, setActiveUser c user = .ok s ∧ evaluateState configDir s = .ready user := by
  have hmem : user ∈ usersWithIdentity configDir c := by
    rw [h]
    exact List.mem_singleton.mpr rfl
  have hvalid := userHasIdentity_valid (List.mem_filter.mp hmem).2
  have hset : setActiveUser c user = .ok { c with activeUser := some user } :=
    Loops.check_bind_eq_ok_iff.mpr ⟨hvalid, rfl⟩
  exact ⟨_, hset,
    evaluateState_only ((usersWithIdentity_set hset).trans h) (getActiveUser_set hset).2.2⟩

/-- Repair leaves the state alone, makes the only user the active one, or
announces a selection while the pointer stays where it is. -/
theorem repairState_cases (configDir : PathBuf) (c : ConfigDir F) :
    (repairState configDir c = .ok (evaluateState configDir c, c) ∧ ¬ Ambiguous configDir c) ∨
      (∃ user s, usersWithIdentity configDir c = [user] ∧ evaluateState configDir s = .ready user ∧
        repairState configDir c = .ok (.ready user, s)) ∨
      (∃ claimed, repairState configDir c =
        .ok (.needsUserSelection (usersWithIdentity configDir c), c) ∧
        evaluateState configDir c = .activeUserMissing claimed (usersWithIdentity configDir c) ∧
        Ambiguous configDir c) := by
  match hu : usersWithIdentity configDir c with
  | [] =>
    refine .inl ⟨by rw [repairState, evaluateState_none hu], ?_⟩
    rintro ⟨claimed, _, _, hlen⟩
    simp [hu] at hlen
  | [user] =>
    have hne : usersWithIdentity configDir c ≠ [] := by simp [hu]
    have hclear : ¬ Ambiguous configDir c := by
      rintro ⟨claimed, _, _, hlen⟩
      simp [hu] at hlen
    obtain ⟨s, hset, hready⟩ := setActiveUser_only hu
    cases hactive : getActiveUser c with
    | none =>
      refine .inr (.inl ⟨user, s, rfl, hready, ?_⟩)
      simp only [repairState, evaluateState_unset hne hactive, hu, hset]
      rfl
    | some claimed =>
      by_cases hmem : claimed ∈ usersWithIdentity configDir c
      · obtain rfl : claimed = user := by simpa [hu] using hmem
        exact .inl ⟨by rw [repairState, evaluateState_only hu hactive], hclear⟩
      · refine .inr (.inl ⟨user, s, rfl, hready, ?_⟩)
        simp only [repairState, evaluateState_missing hne hactive hmem, hu, hset]
        rfl
  | first :: second :: rest =>
    have hne : usersWithIdentity configDir c ≠ [] := by simp [hu]
    have hlen : 2 ≤ (usersWithIdentity configDir c).length := by simp [hu]
    cases hactive : getActiveUser c with
    | none =>
      refine .inl ⟨by rw [repairState, evaluateState_unset hne hactive, hu], ?_⟩
      rintro ⟨claimed, hclaimed, _⟩
      rw [hactive] at hclaimed
      cases hclaimed
    | some claimed =>
      by_cases hmem : claimed ∈ usersWithIdentity configDir c
      · refine .inl ⟨by rw [repairState, evaluateState_active hactive hmem (by omega)], ?_⟩
        rintro ⟨other, hother, hnone, _⟩
        obtain rfl := Option.some.inj (hactive.symm.trans hother)
        exact hnone hmem
      · have hstate := evaluateState_missing hne hactive hmem
        refine .inr (.inr ⟨claimed, ?_, by rw [hstate, hu], claimed, hactive, hmem, hlen⟩)
        rw [repairState, hstate, hu]
        rfl

theorem repairState_returns (configDir : PathBuf) (c : ConfigDir F) :
    ∃ state repaired, repairState configDir c = .ok (state, repaired) := by
  rcases repairState_cases configDir c with ⟨h, _⟩ | ⟨user, s, _, _, h⟩ | ⟨claimed, h, _, _⟩
  · exact ⟨_, _, h⟩
  · exact ⟨_, _, h⟩
  · exact ⟨_, _, h⟩

/-- Several users and a pointer at none of them: repair announces a selection
that a new evaluation does not find. -/
theorem disagrees_of_announced {claimed : String}
    (h : repairState configDir c = .ok (.needsUserSelection users, c))
    (hstate : evaluateState configDir c = .activeUserMissing claimed users) :
    ¬ RepairAgrees configDir c := by
  intro hagrees
  have heval := (hagrees _ _ h).1
  rw [hstate] at heval
  cases heval

/-- Repair and evaluation agree exactly when the pointer is not left at
someone without an identity while two or more users have one. -/
theorem repair_agreement (configDir : PathBuf) (c : ConfigDir F) :
    RepairAgrees configDir c ↔ ¬ Ambiguous configDir c := by
  rcases repairState_cases configDir c with
    ⟨h, hclear⟩ | ⟨user, s, hu, hready, h⟩ | ⟨claimed, h, hstate, hambiguous⟩
  · refine iff_of_true ?_ hclear
    intro state repaired hr
    obtain ⟨rfl, rfl⟩ := Prod.mk.inj (Except.ok.inj (h.symm.trans hr))
    exact ⟨rfl, h⟩
  · apply iff_of_true
    · intro state repaired hr
      obtain ⟨rfl, rfl⟩ := Prod.mk.inj (Except.ok.inj (h.symm.trans hr))
      exact ⟨hready, by rw [repairState, hready]⟩
    · rintro ⟨claimed, _, _, hlen⟩
      simp [hu] at hlen
  · exact iff_of_false (disagrees_of_announced h hstate) (not_not.mpr hambiguous)

def alice : UserEntry unixFs := { UserEntry.new unixFs "alice" rfl with secret := some [1] }

def bob : UserEntry unixFs := { UserEntry.new unixFs "bob" rfl with secret := some [2] }

def pointingAtCarol : ConfigDir unixFs := ⟨some "carol", some [bob, alice]⟩

theorem usersWithIdentity_carol :
    usersWithIdentity ⟨none, true, []⟩ pointingAtCarol = ["alice", "bob"] := by
  have hsort : ["bob", "alice"].mergeSort (fun a b => decide (a ≤ b)) = ["alice", "bob"] := by
    simp [List.mergeSort]
  show (["bob", "alice"].mergeSort _).filter _ = ["alice", "bob"]
  rw [hsort]
  decide +kernel

/-- Two users with identities and a pointer at a third name: the selection that
repair announces is not what the next evaluation finds. -/
theorem repair_disagrees_sample :
    repairState ⟨none, true, []⟩ pointingAtCarol =
        .ok (.needsUserSelection ["alice", "bob"], pointingAtCarol) ∧
      evaluateState ⟨none, true, []⟩ pointingAtCarol = .activeUserMissing "carol" ["alice", "bob"] ∧
      ¬ RepairAgrees ⟨none, true, []⟩ pointingAtCarol := by
  have hactive : getActiveUser pointingAtCarol = some "carol" := by decide +kernel
  have hstate : evaluateState ⟨none, true, []⟩ pointingAtCarol =
      .activeUserMissing "carol" ["alice", "bob"] := by
    simp [evaluateState, usersWithIdentity_carol, hactive]
  have hrepair : repairState ⟨none, true, []⟩ pointingAtCarol =
      .ok (.needsUserSelection ["alice", "bob"], pointingAtCarol) := by
    rw [repairState, hstate]
    rfl
  exact ⟨hrepair, hstate, disagrees_of_announced hrepair hstate⟩

end GitCellar
