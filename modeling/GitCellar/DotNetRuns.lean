import GitCellar.DotNetSpecs
import Mathlib.Data.List.GetD

/-! Threads that run scripts of .NET method calls over engines they share: however they
interleave, each gets what it would get alone, and what is left on the heap is what
was not disposed of. -/

namespace GitCellar

open Effects Ownership Loops

/-- An engine variable: never set, set to a disposed engine, or to a live one. -/
inductive ObjectState (E : Type) where
  | null
  | disposed
  | live (engine : E)

structure Objects (A C : Type) where
  aes : List A
  chunkers : List C

abbrev NetObjects := Objects (Option NetObject) (Option NetObject)

abbrev ObjectStates := Objects (ObjectState AesEncryptionEngine) (ObjectState SizedConfig)

/-- An engine of all threads, or one of the thread's own. -/
inductive Ref where
  | shared (i : Nat)
  | own (i : Nat)

def Ref.get {E : Type} (unset : E) (shared own : List E) : Ref → E
  | .shared i => shared.getD i unset
  | .own i => own.getD i unset

/-- A method call; only a thread's own engines are its to dispose of. -/
inductive NetOp where
  | generateKey (drawn : Digest)
  | generateSalt (drawn : Vector UInt8 16)
  | deriveKey (passphrase salt : Option NetBytes)
  | newAes (key : Option NetBytes)
  | encrypt (self : Ref) (plaintext : Option NetBytes) (drawn : AesNonce)
  | decrypt (self : Ref) (ciphertext : Option NetBytes)
  | disposeAes (i : Nat)
  | newChunker
  | newCustomChunker (minSize avgSize maxSize : Int)
  | chunk (self : Ref) (data : Option NetBytes)
  | computeHash (data : Option NetBytes)
  | disposeChunker (i : Nat)

inductive NetValue where
  | nothing
  | bytes (value : NetBytes)
  | text (value : String)
  | chunks (value : List NetChunk)

/-- The call with its exception caught. -/
def caught {α β : Type} (p : Net α) (f : Except NetError α → β) : Net β :=
  p.catchAll fun r => .done (f r)

/-- A variable that a constructor is assigned to: still null when the constructor throws. -/
def assigned {α E : Type} (unset : E) (set : α → E) : Except NetError α → E
  | .ok a => set a
  | .error _ => unset

def updated {α E : Type} (xs : List E) (i : Nat) (set : α → E) : Except NetError α → List E
  | .ok a => xs.set i (set a)
  | .error _ => xs

def nothingElse {α : Type} (r : Except NetError α) : Except NetError NetValue :=
  r.map fun _ => .nothing

def netStep (shared own : NetObjects) : NetOp → Net (Except NetError NetValue × NetObjects)
  | .generateKey drawn => caught (AesEngine.generateKey drawn) fun r => (r.map .bytes, own)
  | .generateSalt drawn => caught (AesEngine.generateSalt drawn) fun r => (r.map .bytes, own)
  | .deriveKey passphrase salt =>
    caught (AesEngine.deriveKey passphrase salt) fun r => (r.map .bytes, own)
  | .newAes key => caught (AesEngine.new key) fun r =>
    (nothingElse r, { own with aes := own.aes ++ [assigned none some r] })
  | .encrypt self plaintext drawn =>
    caught (AesEngine.encrypt (self.get none shared.aes own.aes) plaintext drawn) fun r =>
      (r.map .bytes, own)
  | .decrypt self ciphertext =>
    caught (AesEngine.decrypt (self.get none shared.aes own.aes) ciphertext) fun r =>
      (r.map .bytes, own)
  | .disposeAes i => caught (AesEngine.dispose (own.aes.getD i none)) fun r =>
    (nothingElse r, { own with aes := updated own.aes i some r })
  | .newChunker => caught NetChunkEngine.new fun r =>
    (nothingElse r, { own with chunkers := own.chunkers ++ [assigned none some r] })
  | .newCustomChunker lo avg hi => caught (NetChunkEngine.newCustom lo avg hi) fun r =>
    (nothingElse r, { own with chunkers := own.chunkers ++ [assigned none some r] })
  | .chunk self data =>
    caught (NetChunkEngine.chunk (self.get none shared.chunkers own.chunkers) data) fun r =>
      (r.map .chunks, own)
  | .computeHash data => caught (NetChunkEngine.computeHash data) fun r => (r.map .text, own)
  | .disposeChunker i => caught (NetChunkEngine.dispose (own.chunkers.getD i none)) fun r =>
    (nothingElse r, { own with chunkers := updated own.chunkers i some r })

def runScript (shared : NetObjects) :
    List NetOp → NetObjects → Net (List (Except NetError NetValue) × NetObjects)
  | [], own => .done ([], own)
  | op :: ops, own => do
    let r ← netStep shared own op
    let rs ← runScript shared ops r.2
    return (r.1 :: rs.1, rs.2)

/-- `ThrowIfNull`, as a value. -/
def given {α β : Type} (param : String) (arg : Option α) (f : α → Except NetError β) :
    Except NetError β :=
  match arg with
  | none => .error (.argumentNull param)
  | some arg => f arg

def ObjectState.use {E α : Type} (f : E → Except NetError α) : ObjectState E → Except NetError α
  | .null => .error .nullReference
  | .disposed => .error .objectDisposed
  | .live e => f e

def ObjectState.dispose {E : Type} : ObjectState E → Except NetError (ObjectState E)
  | .null => .error .nullReference
  | _ => .ok .disposed

/-- The same calls over values: no heap, no handles, no last error, no other thread. -/
def valueStep (P : NativePlatform) (shared own : ObjectStates) :
    NetOp → Except NetError NetValue × ObjectStates
  | .generateKey drawn => ((toArray drawn.toList).map .bytes, own)
  | .generateSalt drawn => ((toArray drawn.toList).map .bytes, own)
  | .deriveKey passphrase salt =>
    ((given "passphrase" passphrase fun p => given "salt" salt (derivedFrom P p)).map .bytes, own)
  | .newAes key =>
    let r := given "key" key (createdFrom P)
    (nothingElse r, { own with aes := own.aes ++ [assigned .null .live r] })
  | .encrypt self plaintext drawn =>
    (((self.get .null shared.aes own.aes).use fun e => given "plaintext" plaintext
      (appliedTo "Encrypt" fun v => e.encrypt P.aes v drawn)).map .bytes, own)
  | .decrypt self ciphertext =>
    (((self.get .null shared.aes own.aes).use fun e => given "ciphertext" ciphertext
      (appliedTo "Decrypt" (e.decrypt P.aes))).map .bytes, own)
  | .disposeAes i =>
    let r := (own.aes.getD i .null).dispose
    (nothingElse r, { own with aes := updated own.aes i id r })
  | .newChunker => (.ok .nothing, { own with chunkers := own.chunkers ++ [.live .default] })
  | .newCustomChunker lo avg hi =>
    let r := customConfig lo avg hi
    (nothingElse r, { own with chunkers := own.chunkers ++ [assigned .null .live r] })
  | .chunk self data =>
    (((self.get .null shared.chunkers own.chunkers).use fun c =>
      given "data" data (chunkedFrom P c)).map .chunks, own)
  | .computeHash data =>
    ((given "data" data fun b => .ok (computeHash P.hashes b.bytes)).map .text, own)
  | .disposeChunker i =>
    let r := (own.chunkers.getD i .null).dispose
    (nothingElse r, { own with chunkers := updated own.chunkers i id r })

def valueScript (P : NativePlatform) (shared : ObjectStates) :
    List NetOp → ObjectStates → List (Except NetError NetValue) × ObjectStates
  | [], own => ([], own)
  | op :: ops, own =>
    let r := valueStep P shared own op
    let rs := valueScript P shared ops r.2
    (r.1 :: rs.1, rs.2)

def aesCell (e : AesEncryptionEngine) : Cell := .aesEngine e

def chunkerCell (P : NativePlatform) (c : SizedConfig) : Cell := .chunkEngine (c.engine P)

def ObjectState.cells {E : Type} (cell : E → Cell) : ObjectState E → Multiset Cell
  | .live e => {cell e}
  | _ => 0

/-- What the live engines occupy. -/
def ObjectStates.cells (P : NativePlatform) (states : ObjectStates) : Multiset Cell :=
  (states.aes.map (ObjectState.cells aesCell)).sum +
    (states.chunkers.map (ObjectState.cells (chunkerCell P))).sum

/-- An engine variable, and where its engine is. -/
abbrev Tracked (E : Type) := ObjectState E × Addr

namespace Tracked

variable {E : Type}

def net : Tracked E → Option NetObject
  | (.null, _) => none
  | (.disposed, _) => some ⟨0, true⟩
  | (.live _, a) => some ⟨a, false⟩

def blocks (cell : E → Cell) : Tracked E → Multiset (Block Cell)
  | (.live e, a) => {(a, cell e)}
  | _ => 0

def unset : Tracked E := (.null, 0)

def Kept (t : Tracked E) : Prop := ∀ e, t.1 = .live e → t.2 ≠ 0

end Tracked

structure HeldObjects where
  aes : List (Tracked AesEncryptionEngine)
  chunkers : List (Tracked SizedConfig)
  aes_kept : ∀ t ∈ aes, t.Kept
  chunkers_kept : ∀ t ∈ chunkers, t.Kept

namespace HeldObjects

def none : HeldObjects := ⟨[], [], List.forall_mem_nil _, List.forall_mem_nil _⟩

def net (o : HeldObjects) : NetObjects := ⟨o.aes.map Tracked.net, o.chunkers.map Tracked.net⟩

def states (o : HeldObjects) : ObjectStates := ⟨o.aes.map Prod.fst, o.chunkers.map Prod.fst⟩

def blocks (P : NativePlatform) (o : HeldObjects) : Multiset (Block Cell) :=
  (o.aes.map (Tracked.blocks aesCell)).sum + (o.chunkers.map (Tracked.blocks (chunkerCell P))).sum

end HeldObjects

variable {P : NativePlatform} {S own : Multiset (Block Cell)} {l : Option String} {a : Addr}
    {α β E : Type}

theorem ObjectState.dispose_of_ne_null {state : ObjectState E} (h : state ≠ .null) :
    state.dispose = .ok .disposed := by
  cases state with
  | null => exact absurd rfl h
  | disposed => rfl
  | live e => rfl

theorem Ref.get_map {D F : Type} (f : D → F) (unset : D) (shared own : List D) (r : Ref) :
    r.get (f unset) (shared.map f) (own.map f) = f (r.get unset shared own) := by
  cases r with
  | shared i => exact List.getD_map shared unset f
  | own i => exact List.getD_map own unset f

theorem caught_safe {p : Net α} {f : Except NetError α → β}
    {post : Except NetError β → Option String → Multiset (Block Cell) → Prop}
    (h : Safe (answerNative P) S (fun r => post (.ok (f r))) p l own) :
    Safe (answerNative P) S post (caught p f) l own :=
  Safe.catchAll h

section

variable {cell : E → Cell} {t : Tracked E} {ts : List (Tracked E)}

theorem Tracked.kept_unset : (Tracked.unset : Tracked E).Kept := fun _ h => nomatch h

theorem Tracked.kept_getD (h : ∀ t ∈ ts, t.Kept) (i : Nat) : (ts.getD i .unset).Kept := by
  by_cases hi : i < ts.length
  · rw [List.getD_eq_getElem _ _ hi]
    exact h _ (List.getElem_mem hi)
  · rw [List.getD_eq_default _ _ (Nat.le_of_not_lt hi)]
    exact Tracked.kept_unset

theorem Tracked.blocks_getD_subset (i : Nat) :
    (ts.getD i .unset).blocks cell ⊆ (ts.map (Tracked.blocks cell)).sum := by
  by_cases hi : i < ts.length
  · rw [List.getD_eq_getElem _ _ hi]
    exact subset_sum_of_mem _ (List.getElem_mem hi)
  · rw [List.getD_eq_default _ _ (Nat.le_of_not_lt hi)]
    exact fun b hb => absurd hb (Multiset.notMem_zero b)

theorem Ref.kept_get {ss : List (Tracked E)} (hs : ∀ t ∈ ss, t.Kept)
    (ht : ∀ t ∈ ts, t.Kept) (r : Ref) :
    (r.get .unset ss ts).Kept := by
  cases r with
  | shared i => exact Tracked.kept_getD hs i
  | own i => exact Tracked.kept_getD ht i

theorem Ref.blocks_get_subset {ss : List (Tracked E)} {R T : Multiset (Block Cell)}
    (hs : (ss.map (Tracked.blocks cell)).sum ⊆ R)
    (ht : (ts.map (Tracked.blocks cell)).sum ⊆ T) (r : Ref) :
    (r.get .unset ss ts).blocks cell ⊆ R + T := by
  cases r with
  | shared i => exact fun b hb => Multiset.mem_add.mpr (.inl (hs (Tracked.blocks_getD_subset i hb)))
  | own i => exact fun b hb => Multiset.mem_add.mpr (.inr (ht (Tracked.blocks_getD_subset i hb)))

theorem Tracked.sum_set {i : Nat} (t : Tracked E) (hi : i < ts.length) :
    (ts.map (Tracked.blocks cell)).sum + t.blocks cell =
      (ts.getD i .unset).blocks cell + ((ts.set i t).map (Tracked.blocks cell)).sum := by
  induction ts generalizing i with
  | nil => cases hi
  | cons x ts ih =>
    cases i with
    | zero =>
      simp only [List.map_cons, List.sum_cons, List.getD_cons_zero, List.set_cons_zero]
      abel
    | succ i =>
      have hrest := ih (Nat.lt_of_succ_lt_succ hi)
      simp only [List.map_cons, List.sum_cons, List.getD_cons_succ, List.set_cons_succ]
      rw [add_assoc, hrest]
      abel

/-- A method of an engine does what it does of a live one, or throws. -/
theorem use_safe (cell : E → Cell) (method : Option NetObject → Net α) {f : E → Except NetError α}
    {post : Except NetError α → Option String → Multiset (Block Cell) → Prop} (ht : t.Kept)
    (hmem : t.blocks cell ⊆ S + own) (hnull : method none = .fail .nullReference)
    (hdisposed : method (some ⟨0, true⟩) = .fail .objectDisposed)
    (hlive : ∀ e a, a ≠ 0 → (a, cell e) ∈ S + own → (∀ l', post (f e) l' own) →
      Safe (answerNative P) S post (method (some ⟨a, false⟩)) l own)
    (h : ∀ l', post (t.1.use f) l' own) : Safe (answerNative P) S post (method t.net) l own := by
  obtain ⟨state, a⟩ := t
  cases state with
  | null =>
    show Safe (answerNative P) S post (method none) l own
    rw [hnull]
    exact h l
  | disposed =>
    show Safe (answerNative P) S post (method (some ⟨0, true⟩)) l own
    rw [hdisposed]
    exact h l
  | live e => exact hlive e a (ht e rfl) (hmem (Multiset.mem_singleton_self _)) h

/-- Disposing of a live engine frees it; the variable keeps the disposed object. -/
theorem dispose_safe (cell : E → Cell) {free : Addr → Net Unit} {i : Nat}
    {post : Except NetError NetObject → Option String → Multiset (Block Cell) → Prop}
    (hkept : ∀ t ∈ ts, t.Kept)
    (hfree : ∀ e a own' (post' : Except NetError Unit → Option String →
      Multiset (Block Cell) → Prop), a ≠ 0 → post' (.ok ()) l own' →
      Safe (answerNative P) S post' (free a) l ({(a, cell e)} + own'))
    (hnull : (ts.getD i .unset).1 = .null → post (.error .nullReference) l
      ((ts.map (Tracked.blocks cell)).sum + own))
    (hdone : (ts.getD i .unset).1 ≠ .null → post (.ok ⟨0, true⟩) l
      (((ts.set i (.disposed, 0)).map (Tracked.blocks cell)).sum + own)) :
    Safe (answerNative P) S post (GitCellar.dispose free (ts.getD i .unset).net) l
      ((ts.map (Tracked.blocks cell)).sum + own) := by
  have hi : (ts.getD i .unset).1 ≠ .null → i < ts.length := by
    intro hne
    by_contra hge
    rw [List.getD_eq_default _ _ (Nat.le_of_not_lt hge)] at hne
    exact hne rfl
  have hset : i < ts.length →
      (ts.map (Tracked.blocks cell)).sum + Tracked.blocks cell (.disposed, 0) =
      (ts.getD i .unset).blocks cell + ((ts.set i (.disposed, 0)).map (Tracked.blocks cell)).sum :=
    Tracked.sum_set (.disposed, 0)
  have hkeep := Tracked.kept_getD hkept i
  generalize ts.getD i .unset = t at *
  obtain ⟨state, a⟩ := t
  cases state with
  | null => exact hnull rfl
  | disposed =>
    have hsame := hset (hi (fun h => nomatch h))
    have hpost := hdone (fun h => nomatch h)
    simp only [Tracked.blocks, add_zero, zero_add] at hsame
    rw [← hsame] at hpost
    exact hpost
  | live e =>
    have hsplit := hset (hi (fun h => nomatch h))
    have hpost := hdone (fun h => nomatch h)
    simp only [Tracked.blocks, add_zero] at hsplit
    have ha : a ≠ 0 := hkeep e rfl
    rw [hsplit, add_assoc]
    show Safe (answerNative P) S post (if a = 0 then _ else _) _ _
    rw [if_neg ha]
    exact Safe.bind (hfree e a _ _ ha hpost)

end

section

variable {shared : HeldObjects} {o : HeldObjects}
  {post : Except NetError (Except NetError NetValue × NetObjects) → Option String →
    Multiset (Block Cell) → Prop}

def HeldObjects.addAes (o : HeldObjects) (t : Tracked AesEncryptionEngine) (ht : t.Kept) :
    HeldObjects :=
  { o with
    aes := o.aes ++ [t]
    aes_kept := List.forall_mem_append.mpr ⟨o.aes_kept, List.forall_mem_singleton.mpr ht⟩ }

def HeldObjects.addChunker (o : HeldObjects) (t : Tracked SizedConfig) (ht : t.Kept) :
    HeldObjects :=
  { o with
    chunkers := o.chunkers ++ [t]
    chunkers_kept :=
      List.forall_mem_append.mpr ⟨o.chunkers_kept, List.forall_mem_singleton.mpr ht⟩ }

theorem HeldObjects.blocks_addAes {t : Tracked AesEncryptionEngine} (ht : t.Kept) :
    (o.addAes t ht).blocks P = t.blocks aesCell + o.blocks P := by
  simp only [HeldObjects.blocks, HeldObjects.addAes, List.map_append, List.map_cons, List.map_nil,
    List.sum_append, List.sum_cons, List.sum_nil]
  abel

theorem HeldObjects.blocks_addChunker {t : Tracked SizedConfig} (ht : t.Kept) :
    (o.addChunker t ht).blocks P = t.blocks (chunkerCell P) + o.blocks P := by
  simp only [HeldObjects.blocks, HeldObjects.addChunker, List.map_append,
    List.map_cons, List.map_nil, List.sum_append, List.sum_cons, List.sum_nil]
  abel

theorem HeldObjects.net_addAes {t : Tracked AesEncryptionEngine} (ht : t.Kept) :
    (o.addAes t ht).net = { o.net with aes := o.net.aes ++ [t.net] } := by
  simp [HeldObjects.net, HeldObjects.addAes]

theorem HeldObjects.states_addAes {t : Tracked AesEncryptionEngine} (ht : t.Kept) :
    (o.addAes t ht).states = { o.states with aes := o.states.aes ++ [t.1] } := by
  simp [HeldObjects.states, HeldObjects.addAes]

theorem HeldObjects.net_addChunker {t : Tracked SizedConfig} (ht : t.Kept) :
    (o.addChunker t ht).net = { o.net with chunkers := o.net.chunkers ++ [t.net] } := by
  simp [HeldObjects.net, HeldObjects.addChunker]

theorem HeldObjects.states_addChunker {t : Tracked SizedConfig} (ht : t.Kept) :
    (o.addChunker t ht).states = { o.states with chunkers := o.states.chunkers ++ [t.1] } := by
  simp [HeldObjects.states, HeldObjects.addChunker]

theorem Tracked.kept_live {E : Type} {e : E} {a : Addr} (ha : a ≠ 0) : Tracked.Kept (.live e, a) :=
  fun _ _ => ha

theorem Tracked.kept_set {E : Type} {ts : List (Tracked E)} (h : ∀ t ∈ ts, t.Kept) (i : Nat) :
    ∀ t ∈ ts.set i (.disposed, 0), t.Kept := by
  intro t ht e he
  rcases List.mem_or_eq_of_mem_set ht with hmem | rfl
  · exact h t hmem e he
  · cases he

def HeldObjects.disposeAes (o : HeldObjects) (i : Nat) : HeldObjects :=
  { o with
    aes := o.aes.set i (.disposed, 0)
    aes_kept := Tracked.kept_set o.aes_kept i }

def HeldObjects.disposeChunker (o : HeldObjects) (i : Nat) : HeldObjects :=
  { o with
    chunkers := o.chunkers.set i (.disposed, 0)
    chunkers_kept := Tracked.kept_set o.chunkers_kept i }

theorem HeldObjects.aes_subset : (o.aes.map (Tracked.blocks aesCell)).sum ⊆ o.blocks P :=
  fun _ hb =>
  Multiset.mem_add.mpr (.inl hb)

theorem HeldObjects.chunkers_subset :
    (o.chunkers.map (Tracked.blocks (chunkerCell P))).sum ⊆ o.blocks P := fun _ hb =>
  Multiset.mem_add.mpr (.inr hb)

theorem useAes_safe (hshared : shared.blocks P ⊆ S) (self : Ref) (method : Option NetObject → Net α)
    {f : AesEncryptionEngine → Except NetError α}
    {post : Except NetError α → Option String → Multiset (Block Cell) → Prop}
    (hnull : method none = .fail .nullReference)
    (hdisposed : method (some ⟨0, true⟩) = .fail .objectDisposed)
    (hlive : ∀ e a, a ≠ 0 → (a, Cell.aesEngine e) ∈ S + o.blocks P →
      (∀ l', post (f e) l' (o.blocks P)) →
      Safe (answerNative P) S post (method (some ⟨a, false⟩)) l (o.blocks P))
    (h : ∀ l', post ((self.get .null shared.states.aes o.states.aes).use f) l' (o.blocks P)) :
    Safe (answerNative P) S post (method (self.get none shared.net.aes o.net.aes))
      l (o.blocks P) := by
  have hnet : self.get none shared.net.aes o.net.aes = (self.get .unset shared.aes o.aes).net :=
    Ref.get_map Tracked.net Tracked.unset shared.aes o.aes self
  have hstate : self.get .null shared.states.aes o.states.aes =
      (self.get .unset shared.aes o.aes).1 :=
    Ref.get_map Prod.fst Tracked.unset shared.aes o.aes self
  rw [hnet]
  rw [hstate] at h
  exact use_safe aesCell method (self.kept_get shared.aes_kept o.aes_kept)
    (self.blocks_get_subset (Multiset.Subset.trans HeldObjects.aes_subset hshared)
      HeldObjects.aes_subset)
    hnull hdisposed hlive h

theorem useChunker_safe (hshared : shared.blocks P ⊆ S) (self : Ref)
    (method : Option NetObject → Net α) {f : SizedConfig → Except NetError α}
    {post : Except NetError α → Option String → Multiset (Block Cell) → Prop}
    (hnull : method none = .fail .nullReference)
    (hdisposed : method (some ⟨0, true⟩) = .fail .objectDisposed)
    (hlive : ∀ c a, a ≠ 0 → (a, Cell.chunkEngine (c.engine P)) ∈ S + o.blocks P →
      (∀ l', post (f c) l' (o.blocks P)) →
      Safe (answerNative P) S post (method (some ⟨a, false⟩)) l (o.blocks P))
    (h : ∀ l', post ((self.get .null shared.states.chunkers o.states.chunkers).use f) l'
      (o.blocks P)) :
    Safe (answerNative P) S post (method (self.get none shared.net.chunkers o.net.chunkers)) l
      (o.blocks P) := by
  have hnet : self.get none shared.net.chunkers o.net.chunkers =
      (self.get .unset shared.chunkers o.chunkers).net :=
    Ref.get_map Tracked.net Tracked.unset shared.chunkers o.chunkers self
  have hstate : self.get .null shared.states.chunkers o.states.chunkers =
      (self.get .unset shared.chunkers o.chunkers).1 :=
    Ref.get_map Prod.fst Tracked.unset shared.chunkers o.chunkers self
  rw [hnet]
  rw [hstate] at h
  exact use_safe (chunkerCell P) method (self.kept_get shared.chunkers_kept o.chunkers_kept)
    (self.blocks_get_subset (Multiset.Subset.trans HeldObjects.chunkers_subset hshared)
      HeldObjects.chunkers_subset)
    hnull hdisposed hlive h

/-- A constructor adds a variable: null when it throws. -/
theorem HeldObjects.blocks_addAes_unset :
    (o.addAes .unset Tracked.kept_unset).blocks P = o.blocks P := by
  rw [HeldObjects.blocks_addAes Tracked.kept_unset]
  exact zero_add _

theorem HeldObjects.blocks_addChunker_unset :
    (o.addChunker .unset Tracked.kept_unset).blocks P = o.blocks P := by
  rw [HeldObjects.blocks_addChunker Tracked.kept_unset]
  exact zero_add _

/-- `post` holds of any variables with the states that a call's values lead to. -/
def StepPost (P : NativePlatform) (shared o : HeldObjects) (op : NetOp)
    (post : Except NetError (Except NetError NetValue × NetObjects) → Option String →
      Multiset (Block Cell) → Prop) : Prop :=
  ∀ (o' : HeldObjects) (l' : Option String),
    o'.states = (valueStep P shared.states o.states op).2 →
    post (.ok ((valueStep P shared.states o.states op).1, o'.net)) l' (o'.blocks P)

theorem newAes_safe {key : Option NetBytes} (h : StepPost P shared o (.newAes key) post) :
    Safe (answerNative P) S post (netStep shared.net o.net (.newAes key)) l (o.blocks P) := by
  have hfail : ∀ e, given "key" key (createdFrom P) = .error e → ∀ l', post (.ok (nothingElse
      (.error e : Except NetError NetObject), { o.net with aes := o.net.aes ++ [none] })) l'
      (o.blocks P) := fun e he l' => by
    have hpost := h (o.addAes .unset Tracked.kept_unset) l' (by
      rw [HeldObjects.states_addAes, valueStep, he]
      rfl)
    rw [HeldObjects.net_addAes, HeldObjects.blocks_addAes_unset, valueStep, he] at hpost
    exact hpost
  have hnew : ∀ e a, given "key" key (createdFrom P) = .ok e → a ≠ 0 → ∀ l', post (.ok (nothingElse
      (.ok ⟨a, false⟩ : Except NetError NetObject),
      { o.net with aes := o.net.aes ++ [some ⟨a, false⟩] })) l'
      ({(a, .aesEngine e)} + o.blocks P) := fun e a he ha l' => by
    have hpost := h (o.addAes (.live e, a) (Tracked.kept_live ha)) l' (by
      rw [HeldObjects.states_addAes, valueStep, he]
      rfl)
    rw [HeldObjects.net_addAes, HeldObjects.blocks_addAes, valueStep, he] at hpost
    exact hpost
  refine caught_safe ?_
  cases key with
  | none => exact hfail _ rfl l
  | some key => exact new_safe hfail hnew

theorem newCustomChunker_safe {lo avg hi : Int}
    (h : StepPost P shared o (.newCustomChunker lo avg hi) post) :
    Safe (answerNative P) S post (netStep shared.net o.net (.newCustomChunker lo avg hi)) l
      (o.blocks P) := by
  refine caught_safe (chunkerCustom_safe (fun e he l' => ?_) fun c a hc ha l' => ?_)
  · have hpost := h (o.addChunker .unset Tracked.kept_unset) l' (by
      rw [HeldObjects.states_addChunker, valueStep, he]
      rfl)
    rw [HeldObjects.net_addChunker, HeldObjects.blocks_addChunker_unset, valueStep, he] at hpost
    exact hpost
  · have hpost := h (o.addChunker (.live c, a) (Tracked.kept_live ha)) l' (by
      rw [HeldObjects.states_addChunker, valueStep, hc]
      rfl)
    rw [HeldObjects.net_addChunker, HeldObjects.blocks_addChunker, valueStep, hc] at hpost
    exact hpost

theorem HeldObjects.net_disposeAes (i : Nat) : (o.disposeAes i).net =
    { o.net with aes := o.net.aes.set i (some ⟨0, true⟩) } := by
  simp [HeldObjects.net, HeldObjects.disposeAes, Tracked.net]

theorem HeldObjects.net_disposeChunker (i : Nat) : (o.disposeChunker i).net =
    { o.net with chunkers := o.net.chunkers.set i (some ⟨0, true⟩) } := by
  simp [HeldObjects.net, HeldObjects.disposeChunker, Tracked.net]

theorem disposeAes_safe {i : Nat} (h : StepPost P shared o (.disposeAes i) post) :
    Safe (answerNative P) S post (netStep shared.net o.net (.disposeAes i)) l (o.blocks P) := by
  have hnet : o.net.aes.getD i none = (o.aes.getD i .unset).net :=
    List.getD_map o.aes Tracked.unset Tracked.net
  have hstate : o.states.aes.getD i .null = (o.aes.getD i .unset).1 :=
    List.getD_map o.aes Tracked.unset Prod.fst
  refine caught_safe ?_
  rw [hnet]
  refine dispose_safe aesCell o.aes_kept
    (fun e a own' post' ha hpost => Safe.call (vaultAesFree_spec ha rfl hpost))
    (fun hnull => ?_) fun hne => ?_
  · have hpost := h o l (by rw [valueStep, hstate, hnull]; rfl)
    rw [valueStep, hstate, hnull] at hpost
    exact hpost
  · have hdisposed := ObjectState.dispose_of_ne_null hne
    have hpost := h (o.disposeAes i) l (by
      rw [valueStep, hstate, hdisposed]
      simp [HeldObjects.states, HeldObjects.disposeAes, updated])
    rw [valueStep, hstate, hdisposed, HeldObjects.net_disposeAes] at hpost
    exact hpost

theorem disposeChunker_safe {i : Nat} (h : StepPost P shared o (.disposeChunker i) post) :
    Safe (answerNative P) S post (netStep shared.net o.net (.disposeChunker i)) l (o.blocks P) := by
  have hnet : o.net.chunkers.getD i none = (o.chunkers.getD i .unset).net :=
    List.getD_map o.chunkers Tracked.unset Tracked.net
  have hstate : o.states.chunkers.getD i .null = (o.chunkers.getD i .unset).1 :=
    List.getD_map o.chunkers Tracked.unset Prod.fst
  have hcomm : ∀ ts : List (Tracked SizedConfig), (o.aes.map (Tracked.blocks aesCell)).sum +
      (ts.map (Tracked.blocks (chunkerCell P))).sum =
      (ts.map (Tracked.blocks (chunkerCell P))).sum + (o.aes.map (Tracked.blocks aesCell)).sum :=
    fun ts => add_comm _ _
  refine caught_safe ?_
  rw [hnet, HeldObjects.blocks, hcomm]
  refine dispose_safe (chunkerCell P) o.chunkers_kept
    (fun c a own' post' ha hpost => Safe.call (vaultChunkerFree_spec ha rfl hpost))
    (fun hnull => ?_) fun hne => ?_
  · have hpost := h o l (by rw [valueStep, hstate, hnull]; rfl)
    rw [valueStep, hstate, hnull] at hpost
    rw [← hcomm]
    exact hpost
  · have hdisposed := ObjectState.dispose_of_ne_null hne
    have hpost := h (o.disposeChunker i) l (by
      rw [valueStep, hstate, hdisposed]
      simp [HeldObjects.states, HeldObjects.disposeChunker, updated])
    rw [valueStep, hstate, hdisposed, HeldObjects.net_disposeChunker] at hpost
    rw [← hcomm]
    exact hpost

/-- One call does to the heap and the variables what it does to their values. -/
theorem netStep_safe (hshared : shared.blocks P ⊆ S) (op : NetOp)
    (h : StepPost P shared o op post) :
    Safe (answerNative P) S post (netStep shared.net o.net op) l (o.blocks P) := by
  cases op with
  | generateKey drawn => exact caught_safe (generateKey_safe fun l' => h o l' rfl)
  | generateSalt drawn => exact caught_safe (generateSalt_safe fun l' => h o l' rfl)
  | deriveKey passphrase salt =>
    refine caught_safe ?_
    cases passphrase with
    | none => exact h o l rfl
    | some p =>
      cases salt with
      | none => exact h o l rfl
      | some s => exact deriveKey_safe fun l' => h o l' rfl
  | newAes key => exact newAes_safe h
  | encrypt self plaintext drawn =>
    refine caught_safe (useAes_safe hshared self
      (fun self => AesEngine.encrypt self plaintext drawn) rfl rfl
      (fun e a ha he hpost => ?_) fun l' => h o l' rfl)
    cases plaintext with
    | none => exact hpost l
    | some b => exact encrypt_safe ha he hpost
  | decrypt self ciphertext =>
    refine caught_safe (useAes_safe hshared self
      (fun self => AesEngine.decrypt self ciphertext) rfl rfl
      (fun e a ha he hpost => ?_) fun l' => h o l' rfl)
    cases ciphertext with
    | none => exact hpost l
    | some b => exact decrypt_safe ha he hpost
  | disposeAes i => exact disposeAes_safe h
  | newChunker =>
    refine caught_safe (chunkerNew_safe fun a ha l' => ?_)
    have hpost := h (o.addChunker (.live .default, a) (Tracked.kept_live ha)) l' (by
      rw [HeldObjects.states_addChunker]
      rfl)
    rw [HeldObjects.net_addChunker, HeldObjects.blocks_addChunker] at hpost
    exact hpost
  | newCustomChunker lo avg hi => exact newCustomChunker_safe h
  | chunk self data =>
    refine caught_safe (useChunker_safe hshared self
      (fun self => NetChunkEngine.chunk self data) rfl rfl
      (fun c a ha he hpost => ?_) fun l' => h o l' rfl)
    cases data with
    | none => exact hpost l
    | some b => exact chunk_safe ha he hpost
  | computeHash data =>
    refine caught_safe ?_
    cases data with
    | none => exact h o l rfl
    | some b => exact computeHash_safe fun l' => h o l' rfl
  | disposeChunker i => exact disposeChunker_safe h

end

theorem runScript_safe {shared : HeldObjects} (hshared : shared.blocks P ⊆ S) (ops : List NetOp)
    (o : HeldObjects)
    {post : Except NetError (List (Except NetError NetValue) × NetObjects) → Option String →
      Multiset (Block Cell) → Prop}
    (h : ∀ (o' : HeldObjects) (l' : Option String),
      o'.states = (valueScript P shared.states ops o.states).2 →
      post (.ok ((valueScript P shared.states ops o.states).1, o'.net)) l' (o'.blocks P)) :
    Safe (answerNative P) S post (runScript shared.net ops o.net) l (o.blocks P) := by
  induction ops generalizing o l post with
  | nil => exact h o l rfl
  | cons op ops ih =>
    refine Safe.bind
      (netStep_safe hshared op fun o₁ l₁ ho₁ => Safe.bind (ih o₁ fun o₂ l₂ ho₂ => ?_))
    rw [ho₁] at ho₂ ⊢
    exact h o₂ l₂ ho₂

theorem Tracked.map_blocks (cell : E → Cell) (ts : List (Tracked E)) :
    ((ts.map (Tracked.blocks cell)).sum).map Prod.snd =
      ((ts.map Prod.fst).map (ObjectState.cells cell)).sum := by
  induction ts with
  | nil => rfl
  | cons t ts ih =>
    have hone : (t.blocks cell).map Prod.snd = t.1.cells cell := by
      obtain ⟨state, a⟩ := t
      cases state with
      | null => rfl
      | disposed => rfl
      | live e => rfl
    simp only [List.map_cons, List.sum_cons, Multiset.map_add]
    rw [ih, hone]

theorem HeldObjects.map_blocks (o : HeldObjects) :
    (o.blocks P).map Prod.snd = o.states.cells P := by
  rw [HeldObjects.blocks, Multiset.map_add, Tracked.map_blocks, Tracked.map_blocks]
  rfl

/-- Each thread is at the start of its script. -/
def scriptPool {ι : Type} (shared : HeldObjects) (scripts : ι → List NetOp)
    (lastErrors : ι → Option String) :
    ι → Thread NativeCall NativeReply (Option String) NetError
      (List (Except NetError NetValue) × NetObjects) :=
  fun i => ⟨runScript shared.net (scripts i) HeldObjects.none.net, lastErrors i⟩

/-- What a thread's script gives as values. -/
def scriptValue (P : NativePlatform) (shared : HeldObjects) (ops : List NetOp) :
    List (Except NetError NetValue) × ObjectStates :=
  valueScript P shared.states ops HeldObjects.none.states

/-- No call of any thread faults, each script gets the values it would get alone, and the
heap grows by the engines that were not disposed of; under a fair schedule all end. -/
theorem bindings_safe {ι : Type} [Fintype ι] [DecidableEq ι] (P : NativePlatform)
    (shared : HeldObjects) (scripts : ι → List NetOp) (lastErrors : ι → Option String)
    (h : Heap Cell) (hvalid : Valid h) (hshared : ∀ b ∈ shared.blocks P, b ∈ h) (turn : Nat → ι) :
    (∀ n, ∃ pool h' new,
      runPool (answerNative P) ((List.range n).map turn) (scriptPool shared scripts lastErrors) h =
        .ok (pool, h') ∧
      (h' : Multiset (Block Cell)) = h + new ∧
      (∀ i r, (pool i).result = some r →
        ∃ objects, r = .ok ((scriptValue P shared (scripts i)).1, objects)) ∧
      ((∀ i, (pool i).result.isSome) →
        new.map Prod.snd = ∑ i, (scriptValue P shared (scripts i)).2.cells P)) ∧
    ((∀ i k, ∃ m, k ≤ m ∧ turn m = i) → ∃ n, ∀ m, n ≤ m → ∀ pool h',
      runPool (answerNative P) ((List.range m).map turn) (scriptPool shared scripts lastErrors) h =
        .ok (pool, h') → ∀ i, (pool i).result.isSome) := by
  have hsubset : shared.blocks P ⊆ (h : Multiset (Block Cell)) := fun b hb =>
    Multiset.mem_coe.mpr (hshared b hb)
  have hsafe : PoolSafe (answerNative P) (h : Multiset (Block Cell))
      (fun i r _ own => ∃ o : HeldObjects, r = .ok ((scriptValue P shared (scripts i)).1, o.net) ∧
        o.states = (scriptValue P shared (scripts i)).2 ∧ own = o.blocks P)
      (scriptPool shared scripts lastErrors) (fun _ => 0) h :=
    { valid := hvalid
      heap := by rw [Finset.sum_const_zero, add_zero]
      safe :=
        fun i => runScript_safe hsubset (scripts i) .none fun o' l' ho' => ⟨o', rfl, ho', rfl⟩ }
  refine ⟨fun n => ?_, hsafe.all_end⟩
  obtain ⟨pool, h', own, hrun, hend⟩ := runPool_safe hsafe ((List.range n).map turn)
  refine ⟨pool, h', ∑ i, own i, hrun, hend.heap, fun i r hr => ?_, fun hall => ?_⟩
  · obtain ⟨o, hvalue, _, _⟩ := hend.post_of_result hr
    exact ⟨o.net, hvalue⟩
  · have hown : ∀ i, (own i).map Prod.snd = (scriptValue P shared (scripts i)).2.cells P :=
      fun i => by
      obtain ⟨r, hr⟩ := Option.isSome_iff_exists.mp (hall i)
      obtain ⟨o, _, hstates, hblocks⟩ := hend.post_of_result hr
      rw [hblocks, o.map_blocks, hstates]
    have hsum := map_sum (Multiset.mapAddMonoidHom (Prod.snd : Block Cell → Cell)) own Finset.univ
    exact hsum.trans (Finset.sum_congr rfl fun i _ => hown i)

def samplePlatform : NativePlatform where
  allocator := .next Cell
  spare _ := 0
  aes := AesEncryptionEngine.sampleAesCipher
  hashes := inlineHashes
  argon2id _ salt :=
    if salt.length < 8 then .error "salt is too short" else .ok (Vector.replicate 32 3)

/-- One engine for both threads. -/
def sampleShared : HeldObjects :=
  ⟨[(.live AesEncryptionEngine.sampleAesEngine, 5)], [], by
    simp [Tracked.Kept], List.forall_mem_nil _⟩

def sampleScripts (i : Bool) : List NetOp :=
  if i then [.encrypt (.shared 0)
    (some ⟨[104, 105], by decide⟩) AesEncryptionEngine.sampleAesNonce, .newChunker]
  else [.decrypt (.shared 0) (some ⟨[1, 2, 3], by decide⟩), .newAes none, .disposeAes 0]

def sampleHeap : Heap Cell :=
  [(5, .aesEngine AesEncryptionEngine.sampleAesEngine), (6, .cstring "left over")]

/-- The threads take turns. -/
def sampleTurn (k : Nat) : Bool := k % 2 == 0

theorem bindings_safe_sample : ∃ n pool h',
    runPool (answerNative samplePlatform) ((List.range n).map sampleTurn)
      (scriptPool sampleShared sampleScripts fun _ => none) sampleHeap = .ok (pool, h') ∧
    ∀ i, (pool i).result.isSome := by
  have hshared : ∀ b ∈ sampleShared.blocks samplePlatform, b ∈ sampleHeap := by
    intro b hb
    simp only [sampleShared, HeldObjects.blocks, Tracked.blocks, List.map_cons, List.map_nil,
      List.sum_cons, List.sum_nil, add_zero, Multiset.mem_singleton] at hb
    rw [hb]
    exact List.mem_cons_self
  have hfair : ∀ i k, ∃ m, k ≤ m ∧ sampleTurn m = i := by
    intro i k
    cases i with
    | true => exact ⟨2 * k, by omega, by simp [sampleTurn]⟩
    | false => exact ⟨2 * k + 1, by omega, by simp [sampleTurn]⟩
  obtain ⟨hruns, hends⟩ := bindings_safe samplePlatform sampleShared sampleScripts (fun _ => none)
    sampleHeap (show [5, 6].Nodup by decide) hshared sampleTurn
  obtain ⟨n, hn⟩ := hends hfair
  obtain ⟨pool, h', _, hrun, _⟩ := hruns n
  exact ⟨n, pool, h', hrun, hn n (le_refl n) pool h' hrun⟩

end GitCellar
