import GitCellar.CredentialStore
import Mathlib.Data.Finset.Card
import Mathlib.Data.List.AList

/-! The two backends of `CredentialBackend`: what the OS keyring answers when some
of its operations fail is what the in-memory store answers without those calls. -/

namespace GitCellar

open Effects

abbrev MemoryCredentialStore := AList fun _ : String => String

namespace MemoryCredentialStore

def new : MemoryCredentialStore := ∅

def store (m : MemoryCredentialStore) (key value : String) : MemoryCredentialStore :=
  m.insert key value

def get (m : MemoryCredentialStore) (key : String) : Option String := m.lookup key

def delete (m : MemoryCredentialStore) (key : String) : MemoryCredentialStore := m.erase key

def contains (m : MemoryCredentialStore) (key : String) : Bool := decide (key ∈ m)

def clear (_ : MemoryCredentialStore) : MemoryCredentialStore := ∅

def len (m : MemoryCredentialStore) : Nat := m.keys.length

def isEmpty (m : MemoryCredentialStore) : Bool := m.len == 0

end MemoryCredentialStore

/-- The calls of the trait `CredentialBackend`. -/
inductive BackendCall where
  | store (key value : String)
  | get (key : String)
  | delete (key : String)
  deriving DecidableEq

inductive BackendAnswer where
  | done
  | found (value : Option String)
  | failed (e : PasskeyError)
  deriving DecidableEq

def BackendAnswer.ofUnit : Except PasskeyError Unit → BackendAnswer
  | .ok _ => .done
  | .error e => .failed e

def BackendAnswer.ofFound : Except PasskeyError (Option String) → BackendAnswer
  | .ok value => .found value
  | .error e => .failed e

def BackendAnswer.Failed (a : BackendAnswer) : Prop := ∃ e, a = .failed e

def memoryStep (m : MemoryCredentialStore) : BackendCall → BackendAnswer × MemoryCredentialStore
  | .store key value => (.done, m.store key value)
  | .get key => (.found (m.get key), m)
  | .delete key => (.done, m.delete key)

def memoryRun (m : MemoryCredentialStore) :
    List BackendCall → List BackendAnswer × MemoryCredentialStore
  | [] => ([], m)
  | call :: rest =>
    let (answer, m) := memoryStep m call
    let (answers, m) := memoryRun m rest
    (answer :: answers, m)

abbrev FaultPlan := CredOp → Option CredFault

def keyringStep (plan : FaultPlan) (s : Keyring) : BackendCall → BackendAnswer × Keyring
  | .store key value =>
    let (r, s) := (CredentialStore.store key value).run (Keyring.answer plan) s
    (.ofUnit r, s)
  | .get key =>
    let (r, s) := (CredentialStore.get key).run (Keyring.answer plan) s
    (.ofFound r, s)
  | .delete key =>
    let (r, s) := (CredentialStore.delete key).run (Keyring.answer plan) s
    (.ofUnit r, s)

/-- A call with the faults it meets. -/
structure KeyringCall where
  call : BackendCall
  plan : FaultPlan

def keyringRun (s : Keyring) : List KeyringCall → List (KeyringCall × BackendAnswer) × Keyring
  | [] => ([], s)
  | c :: rest =>
    let (answer, s) := keyringStep c.plan s c.call
    let (answers, s) := keyringRun s rest
    ((c, answer) :: answers, s)

def BackendCall.key : BackendCall → String
  | .store key _ => key
  | .get key => key
  | .delete key => key

namespace KeyringCall

/-- The call reaches the stored credential: it is written, read or removed. -/
def reaches (c : KeyringCall) : Bool :=
  (c.plan (.newEntry c.call.key)).isNone &&
    match c.call with
    | .store key value => (c.plan (.setPassword key value)).all CredFault.applied
    | .get key => (c.plan (.getPassword key)).isNone
    | .delete key => (c.plan (.deleteCredential key)).all CredFault.applied

/-- The keyring answers by mistake that it has no such credential, or has several and
the backend takes that for none. -/
def Denies (c : KeyringCall) : Prop :=
  (∃ key fault, c.call = .get key ∧ c.plan (.getPassword key) = some fault ∧
      (fault.error = .noEntry ∨ ∃ display, fault.error = .ambiguous display)) ∨
    ∃ key fault, c.call = .delete key ∧ c.plan (.deleteCredential key) = some fault ∧
      fault.error = .noEntry

end KeyringCall

/-- The calls that reach the store. -/
def reaching (calls : List KeyringCall) : List KeyringCall := calls.filter KeyringCall.reaches

/-- Both stores hold the same credentials. -/
def SameCredentials (m : MemoryCredentialStore) (s : Keyring) : Prop := ∀ key, s key = m.get key

namespace CredentialStore

variable {plan : FaultPlan} {s : Keyring} {key value : String}

theorem reaches_of_stores (h : Stores plan key value) :
    KeyringCall.reaches ⟨.store key value, plan⟩ = true := by
  simp only [KeyringCall.reaches, BackendCall.key, h.1, h.2]
  rfl

theorem reaches_of_not_stores (h : ¬ Stores plan key value) :
    KeyringCall.reaches ⟨.store key value, plan⟩ = storedAnyway plan key value := by
  simp only [KeyringCall.reaches, BackendCall.key, storedAnyway]
  cases hentry : plan (.newEntry key) with
  | some fault => rfl
  | none =>
    cases hset : plan (.setPassword key value) with
    | some fault => rfl
    | none => exact absurd ⟨hentry, hset⟩ h

theorem run_get_ok (h : plan (.newEntry key) = none) : (get key).run (Keyring.answer plan) s =
    (retrieved key (Keyring.answer plan (.getPassword key) s).1, s) := by
  rw [get, run_bind_of_ok (run_newEntry h)]
  show Prog.run _ (Prog.ofExcept (retrieved key (Keyring.answer plan (.getPassword key) s).1))
    (Keyring.answer plan (.getPassword key) s).2 = _
  rw [run_ofExcept]
  rfl

theorem run_deletionResult_fst (r : Except KeyringError Unit) (s t : Keyring) :
    ((deletionResult key r).run (Keyring.answer plan) s).1 =
      ((deletionResult key r).run (Keyring.answer plan) t).1 := by
  cases r with
  | ok u => rfl
  | error e => cases e <;> rfl

theorem run_delete_ok (h : plan (.newEntry key) = none) :
    ((delete key).run (Keyring.answer plan) s).1 =
    ((deletionResult key (Keyring.answer plan (.deleteCredential key) s).1).run
      (Keyring.answer plan) s).1 := by
  rw [delete, run_bind_of_ok (run_newEntry h)]
  exact run_deletionResult_fst _ _ _

end CredentialStore

section

open CredentialStore

variable {m : MemoryCredentialStore} {s : Keyring} {key value : String} {calls : List KeyringCall}

theorem SameCredentials.insert (h : SameCredentials m s) :
    SameCredentials (m.store key value) (Function.update s key (some value)) := by
  intro other
  by_cases hkey : other = key
  · subst hkey
    rw [Function.update_self]
    exact (AList.lookup_insert m).symm
  · rw [Function.update_of_ne hkey, h other]
    exact (AList.lookup_insert_ne hkey).symm

theorem SameCredentials.erase (h : SameCredentials m s) :
    SameCredentials (m.delete key) (Function.update s key none) := by
  intro other
  by_cases hkey : other = key
  · subst hkey
    rw [Function.update_self]
    exact (AList.lookup_erase other m).symm
  · rw [Function.update_of_ne hkey, h other]
    exact (AList.lookup_erase_ne hkey).symm

/-- One call leaves the stores equal if the memory is given those that reach. -/
theorem SameCredentials.step (h : SameCredentials m s) (c : KeyringCall) :
    SameCredentials (if c.reaches then (memoryStep m c.call).2 else m)
      (keyringStep c.plan s c.call).2 := by
  obtain ⟨call, plan⟩ := c
  cases call with
  | store key value =>
    by_cases hstores : Stores plan key value
    · simp only [keyringStep, run_store_ok hstores, reaches_of_stores hstores, if_true]
      exact h.insert
    · obtain ⟨e, he⟩ := @run_store_error plan s key value hstores
      simp only [keyringStep, he, reaches_of_not_stores hstores]
      by_cases hanyway : storedAnyway plan key value = true
      · rw [if_pos hanyway, if_pos hanyway]
        exact h.insert
      · rw [if_neg hanyway, if_neg hanyway]
        exact h
  | get key =>
    have hkept : (keyringStep plan s (.get key)).2 = s := by
      obtain ⟨r, hr⟩ := run_get plan key (s key)
      simp only [keyringStep, hr s rfl]
    rw [hkept]
    by_cases hreaches : KeyringCall.reaches ⟨.get key, plan⟩ = true
    · rw [if_pos hreaches]
      exact h
    · rw [if_neg hreaches]
      exact h
  | delete key =>
    obtain ⟨r, hr⟩ := @run_delete plan s key
    have hreaches : KeyringCall.reaches ⟨.delete key, plan⟩ = deletes plan key := rfl
    simp only [keyringStep, hr, hreaches]
    by_cases hdeletes : deletes plan key = true
    · rw [if_pos hdeletes, if_pos hdeletes]
      exact h.erase
    · rw [if_neg hdeletes, if_neg hdeletes]
      exact h

theorem SameCredentials.answer_reached (h : SameCredentials m s) {c : KeyringCall}
    (hreaches : c.reaches = true) :
    (keyringStep c.plan s c.call).1 = (memoryStep m c.call).1 ∨
    (keyringStep c.plan s c.call).1.Failed := by
  obtain ⟨call, plan⟩ := c
  rw [KeyringCall.reaches, Bool.and_eq_true, Option.isNone_iff_eq_none] at hreaches
  obtain ⟨hentry, hreaches⟩ := hreaches
  cases call with
  | store key value =>
    by_cases hstores : Stores plan key value
    · left
      simp only [keyringStep, run_store_ok hstores]
      rfl
    · obtain ⟨e, he⟩ := @run_store_error plan s key value hstores
      right
      simp only [keyringStep, he]
      exact ⟨e, rfl⟩
  | get key =>
    have hnew : plan (.newEntry key) = none := hentry
    have hget : plan (.getPassword key) = none := Option.isNone_iff_eq_none.mp hreaches
    left
    simp only [keyringStep, memoryStep, run_get_ok hnew, Keyring.answer, hget, h key]
    cases m.get key with
    | none => rfl
    | some value => rfl
  | delete key =>
    have hnew : plan (.newEntry key) = none := hentry
    simp only [keyringStep, run_delete_ok hnew]
    cases hdelete : plan (.deleteCredential key) with
    | none =>
      left
      simp only [Keyring.answer, hdelete]
      cases s key with
      | none => rfl
      | some value => rfl
    | some fault =>
      simp only [Keyring.answer, hdelete]
      cases herror : fault.error with
      | noEntry => exact .inl rfl
      | ambiguous display => exact .inr ⟨_, rfl⟩
      | other display => exact .inr ⟨_, rfl⟩

theorem answer_unreached {c : KeyringCall} (hreaches : ¬ c.reaches = true) :
    (keyringStep c.plan s c.call).1.Failed ∨ c.Denies := by
  obtain ⟨call, plan⟩ := c
  cases call with
  | store key value =>
    by_cases hstores : Stores plan key value
    · exact absurd (reaches_of_stores hstores) hreaches
    · obtain ⟨e, he⟩ := @run_store_error plan s key value hstores
      left
      simp only [keyringStep, he]
      exact ⟨e, rfl⟩
  | get key =>
    cases hentry : plan (.newEntry key) with
    | some fault =>
      left
      simp only [keyringStep, CredentialStore.get, run_bind_of_error (run_newEntry_error hentry)]
      exact ⟨_, rfl⟩
    | none =>
      cases hget : plan (.getPassword key) with
      | none =>
        exact absurd
          (by simp only [KeyringCall.reaches, BackendCall.key, hentry, hget]; rfl) hreaches
      | some fault =>
        cases herror : fault.error with
        | noEntry => exact .inr (.inl ⟨key, fault, rfl, hget, .inl herror⟩)
        | ambiguous display => exact .inr (.inl ⟨key, fault, rfl, hget, .inr ⟨display, herror⟩⟩)
        | other display =>
          left
          simp only [keyringStep, run_get_ok hentry, Keyring.answer, hget, herror]
          exact ⟨_, rfl⟩
  | delete key =>
    cases hentry : plan (.newEntry key) with
    | some fault =>
      left
      simp only [keyringStep, CredentialStore.delete, run_bind_of_error (run_newEntry_error hentry)]
      exact ⟨_, rfl⟩
    | none =>
      cases hdelete : plan (.deleteCredential key) with
      | none =>
        exact absurd
          (by simp only [KeyringCall.reaches, BackendCall.key, hentry, hdelete]; rfl) hreaches
      | some fault =>
        cases herror : fault.error with
        | noEntry => exact .inr (.inr ⟨key, fault, rfl, hdelete, herror⟩)
        | ambiguous display =>
          left
          simp only [keyringStep, run_delete_ok hentry, Keyring.answer, hdelete, herror]
          exact ⟨_, rfl⟩
        | other display =>
          left
          simp only [keyringStep, run_delete_ok hentry, Keyring.answer, hdelete, herror]
          exact ⟨_, rfl⟩

/-- The answer of the keyring to a call that the memory answers with the other. -/
def AnswersAs (given : KeyringCall × BackendAnswer) (answer : BackendAnswer) : Prop :=
  given.2 = answer ∨ given.2.Failed

/-- A run on the keyring is the run of the calls that reach it on the memory. -/
structure Simulated (m : MemoryCredentialStore) (s : Keyring) (calls : List KeyringCall) :
    Prop where
  same : SameCredentials (memoryRun m ((reaching calls).map KeyringCall.call)).2
    (keyringRun s calls).2
  answers : List.Forall₂ AnswersAs ((keyringRun s calls).1.filter fun given => given.1.reaches)
    (memoryRun m ((reaching calls).map KeyringCall.call)).1
  unreached : ∀ given ∈ (keyringRun s calls).1, given.1.reaches = false →
    given.2.Failed ∨ given.1.Denies

theorem memoryRun_cons (m : MemoryCredentialStore) (call : BackendCall) (rest : List BackendCall) :
    (memoryRun m (call :: rest)).1 =
    (memoryStep m call).1 :: (memoryRun (memoryStep m call).2 rest).1 ∧
      (memoryRun m (call :: rest)).2 = (memoryRun (memoryStep m call).2 rest).2 := ⟨rfl, rfl⟩

theorem keyringRun_cons (s : Keyring) (c : KeyringCall) (rest : List KeyringCall) :
    (keyringRun s (c :: rest)).1 =
        (c, (keyringStep c.plan s c.call).1) ::
        (keyringRun (keyringStep c.plan s c.call).2 rest).1 ∧
      (keyringRun s (c :: rest)).2 = (keyringRun (keyringStep c.plan s c.call).2 rest).2 :=
    ⟨rfl, rfl⟩

theorem SameCredentials.run (h : SameCredentials m s) (calls : List KeyringCall) :
    Simulated m s calls := by
  induction calls generalizing m s with
  | nil => exact ⟨h, .nil, fun given hgiven => absurd hgiven List.not_mem_nil⟩
  | cons c calls ih =>
    have hstep := h.step c
    by_cases hreaches : c.reaches = true
    · rw [if_pos hreaches] at hstep
      obtain ⟨hsame, hanswers, hunreached⟩ := ih hstep
      have hkept : reaching (c :: calls) = c :: reaching calls := List.filter_cons_of_pos hreaches
      constructor
      · rw [hkept]
        exact hsame
      · rw [hkept, List.map_cons, (memoryRun_cons m _ _).1, (keyringRun_cons s _ _).1,
          List.filter_cons, if_pos hreaches]
        exact .cons (h.answer_reached hreaches) hanswers
      · intro given hgiven hnot
        rcases List.mem_cons.mp hgiven with rfl | hrest
        · exact absurd hreaches (Bool.eq_false_iff.mp hnot)
        · exact hunreached given hrest hnot
    · rw [if_neg hreaches] at hstep
      obtain ⟨hsame, hanswers, hunreached⟩ := ih hstep
      have hkept : reaching (c :: calls) = reaching calls := List.filter_cons_of_neg hreaches
      constructor
      · rw [hkept]
        exact hsame
      · rw [hkept, (keyringRun_cons s _ _).1, List.filter_cons, if_neg hreaches]
        exact hanswers
      · intro given hgiven hnot
        rcases List.mem_cons.mp hgiven with rfl | hrest
        · exact answer_unreached hreaches
        · exact hunreached given hrest hnot

theorem keyringRun_calls (s : Keyring) (calls : List KeyringCall) :
    (keyringRun s calls).1.map Prod.fst = calls := by
  induction calls generalizing s with
  | nil => rfl
  | cons c calls ih => rw [(keyringRun_cons s _ _).1, List.map_cons, ih]

/-- Without an error and without a denial every call reached the keyring. -/
theorem reaching_eq (h : Simulated m s calls)
    (hclean : ∀ given ∈ (keyringRun s calls).1, ¬ given.2.Failed ∧ ¬ given.1.Denies) :
    reaching calls = calls ∧
      ((keyringRun s calls).1.filter fun given => given.1.reaches) = (keyringRun s calls).1 := by
  have hall : ∀ given ∈ (keyringRun s calls).1, given.1.reaches = true := by
    intro given hgiven
    by_contra hnot
    rcases h.unreached given hgiven (Bool.eq_false_iff.mpr hnot) with hfailed | hdenies
    · exact (hclean given hgiven).1 hfailed
    · exact (hclean given hgiven).2 hdenies
  refine ⟨?_, List.filter_eq_self.mpr hall⟩
  rw [reaching, List.filter_eq_self]
  intro c hc
  rw [← keyringRun_calls s calls] at hc
  obtain ⟨given, hgiven, rfl⟩ := List.mem_map.mp hc
  exact hall given hgiven

theorem answers_eq {given : List (KeyringCall × BackendAnswer)} {answers : List BackendAnswer}
    (h : List.Forall₂ AnswersAs given answers) (hclean : ∀ g ∈ given, ¬ g.2.Failed) :
    given.map Prod.snd = answers := by
  induction h with
  | nil => rfl
  | cons hfirst _ ih =>
    rw [List.forall_mem_cons] at hclean
    rw [List.map_cons, hfirst.resolve_right hclean.1, ih hclean.2]

theorem SameCredentials.mem (h : SameCredentials m s) : key ∈ m ↔ (s key).isSome = true := by
  rw [h key]
  exact AList.lookup_isSome.symm

theorem SameCredentials.contains (h : SameCredentials m s) : m.contains key = (s key).isSome := by
  rw [MemoryCredentialStore.contains, Bool.eq_iff_iff, decide_eq_true_iff, h.mem]

/-- The number of credentials of the keyring is the memory's `len`. -/
theorem SameCredentials.len (h : SameCredentials m s) :
    ∃ keys : Finset String, (∀ key, key ∈ keys ↔ (s key).isSome = true) ∧ keys.card = m.len := by
  refine ⟨m.keys.toFinset, ?_, List.toFinset_card_of_nodup m.keys_nodup⟩
  intro key
  rw [List.mem_toFinset, ← h.mem]
  rfl

theorem SameCredentials.isEmpty (h : SameCredentials m s) :
    m.isEmpty = true ↔ ∀ key, s key = none := by
  obtain ⟨keys, hkeys, hcard⟩ := h.len
  rw [MemoryCredentialStore.isEmpty, beq_iff_eq, ← hcard, Finset.card_eq_zero,
    Finset.eq_empty_iff_forall_notMem]
  refine forall_congr' fun key => ?_
  rw [hkeys, Bool.not_eq_true, Option.isSome_eq_false_iff, Option.isNone_iff_eq_none]

theorem sameCredentials_clear (m : MemoryCredentialStore) : SameCredentials m.clear fun _ => none :=
  fun _ => rfl

/-- The backends are one store. Whatever faults a run on the keyring meets, it is a
run of the memory in which some calls that were not answered well are missing;
where every answer is a good one, the memory gives the same answers. -/
theorem backends_agree (h : SameCredentials m s) (calls : List KeyringCall) :
    Simulated m s calls ∧
      ((∀ given ∈ (keyringRun s calls).1, ¬ given.2.Failed ∧ ¬ given.1.Denies) →
        (keyringRun s calls).1.map Prod.snd = (memoryRun m (calls.map KeyringCall.call)).1 ∧
          SameCredentials (memoryRun m (calls.map KeyringCall.call)).2 (keyringRun s calls).2) := by
  have hrun := h.run calls
  refine ⟨hrun, ?_⟩
  intro hclean
  obtain ⟨hcalls, hgiven⟩ := reaching_eq hrun hclean
  obtain ⟨hsame, hanswers, _⟩ := hrun
  rw [hcalls] at hsame hanswers
  rw [hgiven] at hanswers
  exact ⟨answers_eq hanswers fun g hg => (hclean g hg).1, hsame⟩

end

/-- A login that meets a fault: the write that fails has taken place. -/
def faultyLogin : List KeyringCall :=
  [⟨.store "access_token" "a", fun _ => none⟩,
    ⟨.store "refresh_token" "b", fun
      | .setPassword _ _ => some ⟨.other "locked", true⟩
      | _ => none⟩,
    ⟨.get "refresh_token", fun _ => none⟩]

theorem backends_agree_sample :
    SameCredentials (memoryRun .new ((reaching faultyLogin).map KeyringCall.call)).2
        (keyringRun (fun _ => none) faultyLogin).2 ∧
      (keyringRun (fun _ => none) faultyLogin).1.map Prod.snd =
        [.done, .failed (.credentialStore "Failed to set value: locked"), .found (some "b")] :=
  ⟨(backends_agree (sameCredentials_clear .new) faultyLogin).1.same, rfl⟩

end GitCellar
