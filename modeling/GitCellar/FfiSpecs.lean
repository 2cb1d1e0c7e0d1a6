import GitCellar.Ffi

/-! What each C function takes from the heap and leaves on it. -/

namespace GitCellar

open Loops Ownership

variable {P : NativePlatform} {S own own' : Multiset (Block Cell)} {l : Option String} {a d : Addr}
  {v : Bytes} {text msg : String}

def vecBlocks (d : Addr) (v : Bytes) (capacity : Nat) : Multiset (Block Cell) :=
  if capacity = 0 then 0 else {(d, .vec v capacity)}

/-- A `VaultBuffer` at `a` whose bytes are at `d`. -/
def bufferBlocks (P : NativePlatform) (v : Bytes) (a d : Addr) : Multiset (Block Cell) :=
  {(a, .buffer d v.length (P.capacity v))} + vecBlocks d v (P.capacity v)

def sliceBlocks {α : Type} (cell : List α → Cell) (xs : List α) (a : Addr) :
    Multiset (Block Cell) :=
  if xs.length = 0 then 0 else {(a, cell xs)}

theorem subset_sum_of_mem {W : Type} (blocks : W → Multiset (Block Cell)) {ws : List W} {w : W}
    (hw : w ∈ ws) : blocks w ⊆ (ws.map blocks).sum := by
  induction ws with
  | nil => cases hw
  | cons x ws ih =>
    rw [List.map_cons, List.sum_cons]
    intro b hb
    rcases List.mem_cons.mp hw with rfl | hw
    · exact Multiset.mem_add.mpr (.inl hb)
    · exact Multiset.mem_add.mpr (.inr (ih hw hb))

section

variable {post : Unit → Option String → Multiset (Block Cell) → Prop}
  {postAddr : Addr → Option String → Multiset (Block Cell) → Prop}

theorem fromVec_spec (h : ∀ a d, a ≠ 0 → postAddr a l (bufferBlocks P v a d + own)) :
    Spec S l own (VaultBuffer.fromVec P v) postAddr := by
  rw [VaultBuffer.fromVec]
  by_cases hc : P.capacity v = 0
  · rw [if_pos hc]
    refine Spec.bind (Spec.pure (Spec.alloc fun a ha => ?_))
    have hpost := h a danglingAddr ha
    rwa [bufferBlocks, vecBlocks, if_pos hc, add_zero] at hpost
  · rw [if_neg hc]
    refine Spec.bind (Spec.alloc fun d _ => Spec.alloc fun a ha => ?_)
    have hpost := h a d ha
    rwa [bufferBlocks, vecBlocks, if_neg hc, add_assoc] at hpost

theorem vaultBufferFree_spec (ha : a ≠ 0) (hown : own = bufferBlocks P v a d + own')
    (h : post () l own') : Spec S l own (vaultBufferFree a) post := by
  have hbuffer : own =
      {(a, .buffer d v.length (P.capacity v))} + (vecBlocks d v (P.capacity v) + own') := by
    rw [hown, bufferBlocks, add_assoc]
  have hmem : (a, Cell.buffer d v.length (P.capacity v)) ∈ S + own := by simp [hbuffer]
  rw [vaultBufferFree, if_neg ha]
  refine Spec.bind (Spec.loadAs hmem rfl (Spec.bind (Spec.freeAs hbuffer rfl ?_)))
  by_cases hc : P.capacity v = 0
  · rw [vecBlocks, if_pos hc, zero_add]
    simp only [hc, if_true]
    exact Spec.pure h
  · rw [vecBlocks, if_neg hc]
    simp only [hc, if_false]
    exact Spec.freeAs rfl (by simp [Cell.asVec]) h

theorem intoCString_spec (hnul : '\x00' ∉ text.toList)
    {post : Option Addr → Option String → Multiset (Block Cell) → Prop}
    (h : ∀ a, a ≠ 0 → post (some a) l ({(a, .cstring text)} + own)) :
    Spec S l own (intoCString P text) post := by
  have hmap : (some <$> alloc P.allocator (Cell.cstring text) : Ffi (Option Addr)) =
      (alloc P.allocator (Cell.cstring text) >>= fun a => pure (some a)) := map_eq_pure_bind some _
  rw [intoCString, if_neg hnul, hmap]
  exact Spec.bind (Spec.alloc fun a ha => Spec.pure (h a ha))

theorem vaultErrorFree_spec (ha : a ≠ 0) (hown : own = {(a, .cstring text)} + own')
    (h : post () l own') : Spec S l own (vaultErrorFree a) post := by
  rw [vaultErrorFree, if_neg ha]
  exact Spec.freeAs hown rfl h

theorem vaultLastError_spec {r : Option String}
    (hnone : r = none → postAddr 0 r own)
    (hnul : ∀ msg, r = some msg → '\x00' ∈ msg.toList → postAddr 0 r own)
    (htext : ∀ msg, r = some msg → '\x00' ∉ msg.toList →
      ∀ a, a ≠ 0 → postAddr a r ({(a, .cstring msg)} + own)) :
    Spec S r own (vaultLastError P) postAddr := by
  refine Spec.bind (Spec.getLocal ?_)
  cases r with
  | none => exact Spec.pure (hnone rfl)
  | some msg =>
    by_cases hmsg : '\x00' ∈ msg.toList
    · refine Spec.bind ?_
      rw [intoCString, if_pos hmsg]
      exact Spec.pure (Spec.pure (hnul msg rfl hmsg))
    · exact Spec.bind (intoCString_spec hmsg fun a ha => Spec.pure (htext msg rfl hmsg a ha))

theorem vaultAesFree_spec {e : AesEncryptionEngine} (ha : a ≠ 0)
    (hown : own = {(a, .aesEngine e)} + own') (h : post () l own') :
    Spec S l own (vaultAesFree a) post := by
  rw [vaultAesFree, if_neg ha]
  exact Spec.freeAs hown rfl h

theorem vaultChunkerFree_spec {e : ChunkEngine} (ha : a ≠ 0)
    (hown : own = {(a, .chunkEngine e)} + own') (h : post () l own') :
    Spec S l own (vaultChunkerFree a) post := by
  rw [vaultChunkerFree, if_neg ha]
  exact Spec.freeAs hown rfl h

theorem refusedWith_spec (h : postAddr 0 (some msg) own) :
    Spec S l own (refusedWith msg) postAddr :=
  Spec.bind (Spec.setLocal (Spec.pure h))

/-- What `answered` makes of a result or an error. -/
theorem answered_spec {α : Type} {r : Run VaultError α} {ok : α → Ffi Addr} (hr : Loops.Answers r)
    (hok : ∀ x, r = .ok x → Spec S l own (ok x) postAddr)
    (herr : ∀ e, r = fail e → postAddr 0 (some e.toString) own) :
    Spec S l own (answered r ok) postAddr := by
  rcases hr with ⟨x, rfl⟩ | ⟨e, rfl⟩
  · exact hok x rfl
  · exact refusedWith_spec (herr e rfl)

/-- The loop keeps for each element what it allocated for it. -/
theorem collect_spec {α β W : Type} {f : α → Ffi β} (value : α × W → β)
    (blocks : α × W → Multiset (Block Cell)) (good : α × W → Prop) {xs : List α}
    (hf : ∀ x ∈ xs,
      ∀ (own : Multiset (Block Cell)) (post : β → Option String → Multiset (Block Cell) → Prop),
      (∀ w, good (x, w) → post (value (x, w)) l (blocks (x, w) + own)) → Spec S l own (f x) post)
    {post : List β → Option String → Multiset (Block Cell) → Prop}
    (h : ∀ ws : List (α × W), ws.map Prod.fst = xs → (∀ p ∈ ws, good p) →
      post (ws.map value) l ((ws.map blocks).sum + own)) :
    Spec S l own (collect f xs) post := by
  induction xs generalizing own post with
  | nil =>
    have hnil := h [] rfl (fun p hp => nomatch hp)
    simp only [List.map_nil, List.sum_nil, zero_add] at hnil
    exact Spec.pure hnil
  | cons x xs ih =>
    refine Spec.bind (hf x List.mem_cons_self own _ fun w hw => Spec.bind ?_)
    refine ih (fun y hy => hf y (List.mem_cons_of_mem _ hy)) fun ws hws hgood => Spec.pure ?_
    have hcons := h ((x, w) :: ws) (by rw [List.map_cons, hws]) fun p hp => by
      rcases List.mem_cons.mp hp with rfl | hp
      · exact hw
      · exact hgood p hp
    have hsum : ((((x, w) :: ws).map blocks).sum + own : Multiset (Block Cell)) =
        (ws.map blocks).sum + (blocks (x, w) + own) := by
      rw [List.map_cons, List.sum_cons]
      abel
    rwa [hsum] at hcons

/-- A loop that frees what belongs to one element after the other, and reads the
blocks `keep` for it. -/
theorem eachOf_spec {W : Type} {f : Nat → Ffi Unit} {blocks : W → Multiset (Block Cell)}
    (keep : Multiset (Block Cell)) {ws : List W}
    (hf : ∀ (i : Nat) (w : W) (own own' : Multiset (Block Cell)), ws[i]? = some w →
      own = blocks w + own' → keep ⊆ own' →
      ∀ post : Unit → Option String → Multiset (Block Cell) → Prop, post () l own' →
      Spec S l own (f i) post)
    (hown : own = (ws.map blocks).sum + own') (hkeep : keep ⊆ own') (h : post () l own') :
    Spec S l own (eachOf f (List.range ws.length)) post := by
  have hfrom : ∀ (rest : List W) (k : Nat) (own : Multiset (Block Cell)),
      (∀ j, rest[j]? = ws[k + j]?) →
      own = (rest.map blocks).sum + own' →
      Spec S l own (eachOf f (List.range' k rest.length)) post := by
    intro rest
    induction rest with
    | nil =>
      intro k own _ hown
      rw [hown, List.map_nil, List.sum_nil, zero_add]
      exact Spec.pure h
    | cons w rest ih =>
      intro k own hrest hown
      have hw : ws[k]? = some w := (hrest 0).symm
      have hsplit : own = blocks w + ((rest.map blocks).sum + own') := by
        rw [hown, List.map_cons, List.sum_cons, add_assoc]
      refine Spec.bind
        (hf k w own _ hw hsplit (fun b hb => Multiset.mem_add.mpr (.inr (hkeep hb))) _ ?_)
      refine ih (k + 1) _ (fun j => ?_) rfl
      have hj := hrest (j + 1)
      rwa [List.getElem?_cons_succ, show k + (j + 1) = k + 1 + j by omega] at hj
  have hall := hfrom ws 0 own (fun j => by rw [Nat.zero_add]) hown
  rwa [← List.range_eq_range'] at hall

theorem boxSlice_spec {α : Type} {cell : List α → Cell} {xs : List α}
    (h : ∀ a, postAddr a l (sliceBlocks cell xs a + own)) :
    Spec S l own (boxSlice P cell xs) postAddr := by
  by_cases hxs : xs.length = 0
  · rw [boxSlice, if_pos hxs]
    have hdangling := h danglingAddr
    rw [sliceBlocks, if_pos hxs, zero_add] at hdangling
    exact Spec.pure hdangling
  · rw [boxSlice, if_neg hxs]
    refine Spec.alloc fun a _ => ?_
    have hcell := h a
    rwa [sliceBlocks, if_neg hxs] at hcell

theorem dropSlice_spec {α : Type} {cell : List α → Cell}
    {view : Cell → Option (List α)} {xs : List α} {count : Nat} (hview : view (cell xs) = some xs)
    (hcount : count = xs.length) (hown : own = sliceBlocks cell xs a + own') (h : post () l own') :
    Spec S l own (dropSlice view a count) post := by
  subst hcount
  by_cases hxs : xs.length = 0
  · rw [sliceBlocks, if_pos hxs, zero_add] at hown
    rw [dropSlice, if_pos hxs, hown]
    exact Spec.pure h
  · rw [sliceBlocks, if_neg hxs] at hown
    rw [dropSlice, if_neg hxs]
    exact Spec.freeAs hown (by simp [hview]) h

theorem elementAt_spec {α : Type} {cell : List α → Cell}
    {view : Cell → Option (List α)} {xs : List α} {i : Nat} {x : α}
    {post : α → Option String → Multiset (Block Cell) → Prop} (hview : view (cell xs) = some xs)
    (hx : xs[i]? = some x) (hmem : sliceBlocks cell xs a ⊆ S + own) (h : post x l own) :
    Spec S l own (elementAt view a i) post := by
  have hlen : xs.length ≠ 0 := by
    intro hzero
    rw [List.length_eq_zero_iff.mp hzero] at hx
    cases hx
  have hslice : (a, cell xs) ∈ S + own := by
    refine hmem ?_
    rw [sliceBlocks, if_neg hlen]
    exact Multiset.mem_singleton_self _
  refine Spec.bind (Spec.loadAs hslice hview ?_)
  rw [hx]
  exact Spec.pure h

end

end GitCellar
