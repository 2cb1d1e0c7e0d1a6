import GitCellar.Effects
import Mathlib.Algebra.BigOperators.Group.Finset.Piecewise
import Mathlib.Algebra.Order.Group.Multiset
import Mathlib.Data.Finset.Lattice.Fold
import Mathlib.Data.Multiset.Filter
import Mathlib.Data.Multiset.ZeroCons
import Mathlib.Data.Nat.Find
import Mathlib.Tactic.Abel

/-! Memory that is freed by hand: what a call takes and leaves, and threads that
share one heap. -/

namespace Ownership

open Effects

abbrev Addr := Nat

abbrev Block (Cell : Type) := Addr × Cell

/-- The live blocks. Address 0 is the null pointer. -/
abbrev Heap (Cell : Type) := List (Block Cell)

inductive Fault where
  | dangling (a : Addr)
  | mismatch (a : Addr)
  | outOfBounds
  | abort
  deriving DecidableEq, Repr

structure Allocator (Cell : Type) where
  pick : Heap Cell → Addr
  ne_null : ∀ h, pick h ≠ 0
  fresh : ∀ h, pick h ∉ h.map Prod.fst

/-- The address behind the largest one in use. -/
def Allocator.next (Cell : Type) : Allocator Cell where
  pick h := (h.map Prod.fst).foldr max 0 + 1
  ne_null _ := Nat.succ_ne_zero _
  fresh h hmem := by
    have hmax : ∀ (as : List Addr) (a : Addr), a ∈ as → a ≤ as.foldr max 0 := by
      intro as
      induction as with
      | nil => exact fun a ha => nomatch ha
      | cons b as ih =>
        intro a ha
        rw [List.foldr_cons]
        rcases List.mem_cons.mp ha with rfl | ha
        · exact le_max_left _ _
        · exact (ih a ha).trans (le_max_right _ _)
    exact absurd (hmax _ _ hmem) (Nat.not_succ_le_self _)

/-- Code of one thread: it has a local state of its own and shares the heap. -/
abbrev Mem (L Cell : Type) := StateT (L × Heap Cell) (Except Fault)

section

variable {L Cell α β : Type}

def alloc (A : Allocator Cell) (c : Cell) : Mem L Cell Addr := fun s =>
  .ok (A.pick s.2, s.1, (A.pick s.2, c) :: s.2)

def loadAs (view : Cell → Option α) (a : Addr) : Mem L Cell α := fun s =>
  match s.2.lookup a with
  | none => .error (.dangling a)
  | some c =>
    match view c with
    | none => .error (.mismatch a)
    | some b => .ok (b, s)

/-- Frees a block the caller takes for one that `fits`. -/
def freeAs (fits : Cell → Bool) (a : Addr) : Mem L Cell Unit := fun s =>
  match s.2.lookup a with
  | none => .error (.dangling a)
  | some c =>
    if fits c then .ok ((), s.1, s.2.filter fun b => b.1 != a) else .error (.mismatch a)

def getLocal : Mem L Cell L := fun s => .ok (s.1, s)

def setLocal (l : L) : Mem L Cell Unit := fun s => .ok ((), l, s.2)

def faulty (f : Fault) : Mem L Cell α := fun _ => .error f

def Valid (h : Heap Cell) : Prop := (h.map Prod.fst).Nodup

/-- From the local state `l` and the blocks `own`, and whatever else is on the heap,
`m` ends without a fault, leaves the blocks `S` and the others alone, and holds
what `post` says. -/
def Spec (S : Multiset (Block Cell)) (l : L) (own : Multiset (Block Cell)) (m : Mem L Cell α)
    (post : α → L → Multiset (Block Cell) → Prop) : Prop :=
  ∀ h rest, Valid h → (h : Multiset (Block Cell)) = S + own + rest →
    ∃ a l' h' own', m (l, h) = .ok (a, l', h') ∧ Valid h' ∧
      (h' : Multiset (Block Cell)) = S + own' + rest ∧ post a l' own'

variable {S own : Multiset (Block Cell)} {l : L} {m : Mem L Cell α}
  {post : α → L → Multiset (Block Cell) → Prop}

theorem valid_iff {h : Heap Cell} :
    Valid h ↔ ((h : Multiset (Block Cell)).map Prod.fst).Nodup := by
  rw [Multiset.map_coe, Multiset.coe_nodup, Valid]

theorem lookup_of_mem {h : Heap Cell} (hv : Valid h) {a : Addr} {c : Cell} (hmem : (a, c) ∈ h) :
    h.lookup a = some c := by
  induction h with
  | nil => cases hmem
  | cons b h ih =>
    obtain ⟨a', c'⟩ := b
    have hnodup := List.nodup_cons.mp hv
    rcases List.mem_cons.mp hmem with heq | hmem
    · obtain ⟨rfl, rfl⟩ := Prod.mk.inj heq
      exact List.lookup_cons_self
    · have hkey : a ∈ h.map Prod.fst := List.mem_map.mpr ⟨(a, c), hmem, rfl⟩
      have hne : a ≠ a' := fun heq => hnodup.1 (heq ▸ hkey)
      rw [List.lookup_cons, beq_eq_false_iff_ne.mpr hne]
      exact ih hnodup.2 hmem

theorem Spec.pure {a : α} (h : post a l own) : Spec S l own (pure a) post := fun heap _ hv he =>
  ⟨a, l, heap, own, rfl, hv, he, h⟩

theorem Spec.bind {f : α → Mem L Cell β} {post : β → L → Multiset (Block Cell) → Prop}
    (hm : Spec S l own m fun a l' own' => Spec S l' own' (f a) post) :
    Spec S l own (m >>= f) post := by
  intro h rest hv he
  obtain ⟨a, l₁, h₁, own₁, hrun, hv₁, he₁, hf⟩ := hm h rest hv he
  obtain ⟨b, l₂, h₂, own₂, hrun₂, hv₂, he₂, hpost⟩ := hf h₁ rest hv₁ he₁
  refine ⟨b, l₂, h₂, own₂, ?_, hv₂, he₂, hpost⟩
  show (m (l, h) >>= fun r => f r.1 r.2) = _
  rw [hrun]
  exact hrun₂

theorem Spec.mono {post' : α → L → Multiset (Block Cell) → Prop} (hm : Spec S l own m post)
    (h : ∀ a l' own', post a l' own' → post' a l' own') : Spec S l own m post' := by
  intro heap rest hv he
  obtain ⟨a, l', h', own', hrun, hv', he', hpost⟩ := hm heap rest hv he
  exact ⟨a, l', h', own', hrun, hv', he', h a l' own' hpost⟩

theorem Spec.alloc {A : Allocator Cell} {c : Cell} {post : Addr → L → Multiset (Block Cell) → Prop}
    (h : ∀ a, a ≠ 0 → post a l ({(a, c)} + own)) : Spec S l own (alloc A c) post := by
  intro heap rest hv he
  refine ⟨A.pick heap, l, (A.pick heap, c) :: heap, {(A.pick heap, c)} + own, rfl,
    List.nodup_cons.mpr ⟨A.fresh heap, hv⟩, ?_, h _ (A.ne_null heap)⟩
  rw [← Multiset.cons_coe, he, ← Multiset.singleton_add]
  abel

theorem Spec.loadAs {view : Cell → Option β} {a : Addr} {c : Cell} {b : β}
    {post : β → L → Multiset (Block Cell) → Prop} (hmem : (a, c) ∈ S + own)
    (hview : view c = some b) (h : post b l own) : Spec S l own (loadAs view a) post := by
  intro heap rest hv he
  have hheap : (a, c) ∈ (heap : Multiset (Block Cell)) := by
    rw [he]
    exact Multiset.mem_add.mpr (.inl hmem)
  have hlookup := lookup_of_mem hv (Multiset.mem_coe.mp hheap)
  refine ⟨b, l, heap, own, ?_, hv, he, h⟩
  simp only [Ownership.loadAs, hlookup, hview]

theorem Spec.freeAs {fits : Cell → Bool} {a : Addr} {c : Cell} {own' : Multiset (Block Cell)}
    {post : Unit → L → Multiset (Block Cell) → Prop} (hown : own = {(a, c)} + own')
    (hfits : fits c = true) (h : post () l own') : Spec S l own (freeAs fits a) post := by
  intro heap rest hv he
  have hcons : (heap : Multiset (Block Cell)) = (a, c) ::ₘ (S + own' + rest) := by
    rw [he, hown, ← Multiset.singleton_add]
    abel
  have hmem : (a, c) ∈ heap := by
    rw [← Multiset.mem_coe, hcons]
    exact Multiset.mem_cons_self _ _
  have hnodup := valid_iff.mp hv
  rw [hcons, Multiset.map_cons, Multiset.nodup_cons] at hnodup
  have hkeep : ((heap.filter fun b => b.1 != a : Heap Cell) : Multiset (Block Cell)) =
      S + own' + rest := by
    have hother : ∀ b ∈ S + own' + rest, b.1 ≠ a := fun b hb heq =>
      hnodup.1 (Multiset.mem_map.mpr ⟨b, hb, heq⟩)
    have hfilter : ((heap.filter fun b => b.1 != a : Heap Cell) : Multiset (Block Cell)) =
        Multiset.filter (fun b => b.1 ≠ a) (heap : Multiset (Block Cell)) := by
      rw [Multiset.filter_coe]
      refine congrArg _ (List.filter_congr fun b _ => ?_)
      by_cases hb : b.1 = a
      · simp [hb]
      · simp [hb]
    rw [hfilter, hcons, Multiset.filter_cons_of_neg _ (by simp), Multiset.filter_eq_self.mpr hother]
  refine ⟨(), l, heap.filter fun b => b.1 != a, own', ?_, ?_, hkeep, h⟩
  · simp only [Ownership.freeAs, lookup_of_mem hv hmem, hfits, if_true]
  · rw [valid_iff, hkeep]
    exact hnodup.2

theorem Spec.getLocal {post : L → L → Multiset (Block Cell) → Prop} (h : post l l own) :
    Spec S l own getLocal post := fun heap _ hv he => ⟨l, l, heap, own, rfl, hv, he, h⟩

theorem Spec.setLocal {l' : L} {post : Unit → L → Multiset (Block Cell) → Prop}
    (h : post () l' own) :
    Spec S l own (setLocal l') post := fun heap _ hv he => ⟨(), l', heap, own, rfl, hv, he, h⟩

end

section

variable {Call : Type} {Reply : Call → Type} {L Cell ε α β : Type}

/-- Run from `l` while holding `own`, the program never faults, whatever other threads
do between its calls, and ends as `post` says. -/
def Safe (answer : (call : Call) → Mem L Cell (Reply call)) (S : Multiset (Block Cell))
    (post : Except ε α → L → Multiset (Block Cell) → Prop) :
    Prog Call Reply ε α → L → Multiset (Block Cell) → Prop
  | .done a, l, own => post (.ok a) l own
  | .fail e, l, own => post (.error e) l own
  | .ask call next, l, own =>
    Spec S l own (answer call) fun r l' own' => Safe answer S post (next r) l' own'

variable {answer : (call : Call) → Mem L Cell (Reply call)} {S own : Multiset (Block Cell)}
  {l : L} {p : Prog Call Reply ε α} {post : Except ε α → L → Multiset (Block Cell) → Prop}

theorem Safe.mono {post' : Except ε α → L → Multiset (Block Cell) → Prop}
    (hp : Safe answer S post p l own) (h : ∀ r l' own', post r l' own' → post' r l' own') :
    Safe answer S post' p l own := by
  induction p generalizing l own with
  | done a => exact h _ _ _ hp
  | fail e => exact h _ _ _ hp
  | ask call next ih => exact hp.mono fun r _ _ hnext => ih r hnext

/-- What a program has to leave to the one behind it. -/
def leaving (answer : (call : Call) → Mem L Cell (Reply call)) (S : Multiset (Block Cell))
    (f : α → Prog Call Reply ε β) (post : Except ε β → L → Multiset (Block Cell) → Prop) :
    Except ε α → L → Multiset (Block Cell) → Prop
  | .ok a, l, own => Safe answer S post (f a) l own
  | .error e, l, own => post (.error e) l own

theorem Safe.bind {f : α → Prog Call Reply ε β}
    {post : Except ε β → L → Multiset (Block Cell) → Prop}
    (hp : Safe answer S (leaving answer S f post) p l own) :
    Safe answer S post (p >>= f) l own := by
  induction p generalizing l own with
  | done a => exact hp
  | fail e => exact hp
  | ask call next ih => exact Spec.mono hp fun r _ _ hnext => ih r hnext

theorem Safe.catchAll {f : Except ε α → Prog Call Reply ε β}
    {post : Except ε β → L → Multiset (Block Cell) → Prop}
    (hp : Safe answer S (fun r l' own' => Safe answer S post (f r) l' own') p l own) :
    Safe answer S post (p.catchAll f) l own := by
  induction p generalizing l own with
  | done a => exact hp
  | fail e => exact hp
  | ask call next ih => exact Spec.mono hp fun r _ _ hnext => ih r hnext

theorem Safe.call {call : Call} {post : Except ε (Reply call) → L → Multiset (Block Cell) → Prop}
    (h : Spec S l own (answer call) fun r => post (.ok r)) :
    Safe answer S post (Prog.call call) l own := h

/-- The program with nobody else on the heap. -/
def runAlone (answer : (call : Call) → Mem L Cell (Reply call)) :
    Prog Call Reply ε α → Mem L Cell (Except ε α)
  | .done a => pure (.ok a)
  | .fail e => pure (.error e)
  | .ask call next => do
    let r ← answer call
    runAlone answer (next r)

theorem Safe.runAlone (hp : Safe answer S post p l own) :
    Spec S l own (runAlone answer p) post := by
  induction p generalizing l own with
  | done a => exact Spec.pure hp
  | fail e => exact Spec.pure hp
  | ask call next ih => exact Spec.bind (Spec.mono hp fun r _ _ hnext => ih r hnext)

structure Thread (Call : Type) (Reply : Call → Type) (L ε α : Type) where
  prog : Prog Call Reply ε α
  state : L

/-- One call of a thread, if it has one to make. -/
def Thread.step (answer : (call : Call) → Mem L Cell (Reply call)) (t : Thread Call Reply L ε α)
    (h : Heap Cell) : Except Fault (Thread Call Reply L ε α × Heap Cell) :=
  match t.prog with
  | .done _ => .ok (t, h)
  | .fail _ => .ok (t, h)
  | .ask call next => (answer call (t.state, h)).map fun r => (⟨next r.1, r.2.1⟩, r.2.2)

variable {ι : Type} [DecidableEq ι]

/-- The threads of a pool take their calls in the order of `schedule`. -/
def runPool (answer : (call : Call) → Mem L Cell (Reply call)) :
    List ι → (ι → Thread Call Reply L ε α) → Heap Cell →
      Except Fault ((ι → Thread Call Reply L ε α) × Heap Cell)
  | [], pool, h => .ok (pool, h)
  | i :: schedule, pool, h => do
    let (t, h') ← (pool i).step answer h
    runPool answer schedule (Function.update pool i t) h'

/-- Each thread of the pool is safe with its own share of the heap. -/
structure PoolSafe [Fintype ι] (answer : (call : Call) → Mem L Cell (Reply call))
    (S : Multiset (Block Cell)) (post : ι → Except ε α → L → Multiset (Block Cell) → Prop)
    (pool : ι → Thread Call Reply L ε α) (own : ι → Multiset (Block Cell)) (h : Heap Cell) :
    Prop where
  valid : Valid h
  heap : (h : Multiset (Block Cell)) = S + ∑ i, own i
  safe : ∀ i, Safe answer S (post i) (pool i).prog (pool i).state (own i)

theorem sum_update [Fintype ι] {M : Type} [AddCommMonoid M] (f : ι → M) (i : ι) :
    ∃ rest, ∑ j, f j = f i + rest ∧ ∀ b, ∑ j, Function.update f i b j = b + rest := by
  refine ⟨∑ j ∈ Finset.univ \ {i}, f j, ?_, fun b =>
    Finset.sum_update_of_mem (Finset.mem_univ i) f b⟩
  have h := Finset.sum_update_of_mem (Finset.mem_univ i) f (f i)
  rwa [Function.update_eq_self] at h

theorem PoolSafe.step [Fintype ι] {post : ι → Except ε α → L → Multiset (Block Cell) → Prop}
    {pool : ι → Thread Call Reply L ε α} {own : ι → Multiset (Block Cell)} {h : Heap Cell}
    (hp : PoolSafe answer S post pool own h) (i : ι) :
    ∃ t h' own', (pool i).step answer h = .ok (t, h') ∧
      PoolSafe answer S post (Function.update pool i t) (Function.update own i own') h' := by
  obtain ⟨rest, hsum, hupdate⟩ := sum_update own i
  have hupdated : ∀ (t : Thread Call Reply L ε α) (h' : Heap Cell) (own' : Multiset (Block Cell)),
      Valid h' → (h' : Multiset (Block Cell)) = S + own' + rest →
      Safe answer S (post i) t.prog t.state own' →
      PoolSafe answer S post (Function.update pool i t) (Function.update own i own') h' := by
    intro t h' own' hv he hsafe
    refine ⟨hv, by rw [he, hupdate, add_assoc], fun j => ?_⟩
    by_cases hj : j = i
    · subst hj
      rw [Function.update_self, Function.update_self]
      exact hsafe
    · rw [Function.update_of_ne hj, Function.update_of_ne hj]
      exact hp.safe j
  have hheap : (h : Multiset (Block Cell)) = S + own i + rest := by rw [hp.heap, hsum, add_assoc]
  have hsafe := hp.safe i
  cases hprog : (pool i).prog with
  | done a =>
    refine ⟨pool i, h, own i, ?_, hupdated _ _ _ hp.valid hheap hsafe⟩
    simp only [Thread.step, hprog]
  | fail e =>
    refine ⟨pool i, h, own i, ?_, hupdated _ _ _ hp.valid hheap hsafe⟩
    simp only [Thread.step, hprog]
  | ask call next =>
    rw [hprog] at hsafe
    obtain ⟨r, l', h', own', hrun, hv', he', hnext⟩ := hsafe h rest hp.valid hheap
    refine ⟨⟨next r, l'⟩, h', own', ?_, hupdated _ _ _ hv' he' hnext⟩
    simp only [Thread.step, hprog, hrun]
    rfl

/-- Threads that are safe on their own are safe together, however they interleave. -/
theorem runPool_safe [Fintype ι] {post : ι → Except ε α → L → Multiset (Block Cell) → Prop}
    {pool : ι → Thread Call Reply L ε α} {own : ι → Multiset (Block Cell)} {h : Heap Cell}
    (hp : PoolSafe answer S post pool own h) (schedule : List ι) :
    ∃ pool' h' own', runPool answer schedule pool h = .ok (pool', h') ∧
      PoolSafe answer S post pool' own' h' := by
  induction schedule generalizing pool own h with
  | nil => exact ⟨pool, h, own, rfl, hp⟩
  | cons i schedule ih =>
    obtain ⟨t, h₁, own₁, hstep, hp₁⟩ := hp.step i
    obtain ⟨pool', h', own', hrun, hp'⟩ := ih hp₁
    refine ⟨pool', h', own', ?_, hp'⟩
    simp only [runPool, hstep]
    exact hrun

/-- How a thread ended. -/
def Thread.result (t : Thread Call Reply L ε α) : Option (Except ε α) :=
  match t.prog with
  | .done a => some (.ok a)
  | .fail e => some (.error e)
  | .ask _ _ => none

omit [DecidableEq ι] in
theorem PoolSafe.post_of_result [Fintype ι]
    {post : ι → Except ε α → L → Multiset (Block Cell) → Prop} {pool : ι → Thread Call Reply L ε α}
    {own : ι → Multiset (Block Cell)} {h : Heap Cell} (hp : PoolSafe answer S post pool own h)
    {i : ι} {r : Except ε α} (hr : (pool i).result = some r) :
    post i r (pool i).state (own i) := by
  have hsafe := hp.safe i
  cases hprog : (pool i).prog with
  | done a =>
    simp only [Thread.result, hprog, Option.some.injEq] at hr
    rw [hprog] at hsafe
    exact hr ▸ hsafe
  | fail e =>
    simp only [Thread.result, hprog, Option.some.injEq] at hr
    rw [hprog] at hsafe
    exact hr ▸ hsafe
  | ask call next => simp [Thread.result, hprog] at hr

theorem runPool_append (xs ys : List ι) (pool : ι → Thread Call Reply L ε α) (h : Heap Cell) :
    runPool answer (xs ++ ys) pool h =
      (runPool answer xs pool h >>= fun r => runPool answer ys r.1 r.2) := by
  induction xs generalizing pool h with
  | nil => rfl
  | cons i xs ih =>
    simp only [List.cons_append, runPool]
    cases (pool i).step answer h with
    | error f => rfl
    | ok r => exact ih _ _

/-- A thread that is not scheduled, or has ended, stays as it is. -/
theorem runPool_keeps {i : ι} {schedule : List ι} {pool pool' : ι → Thread Call Reply L ε α}
    {h h' : Heap Cell} (hrun : runPool answer schedule pool h = .ok (pool', h'))
    (hkeep : (pool i).result.isSome ∨ i ∉ schedule) : pool' i = pool i := by
  induction schedule generalizing pool h with
  | nil =>
    obtain ⟨rfl, _⟩ := Prod.mk.inj (Except.ok.inj hrun)
    rfl
  | cons j schedule ih =>
    cases hstep : (pool j).step answer h with
    | error f =>
      simp only [runPool, hstep] at hrun
      cases hrun
    | ok r =>
      simp only [runPool, hstep] at hrun
      have hsame : Function.update pool j r.1 i = pool i := by
        by_cases hij : i = j
        · subst hij
          have hsome := hkeep.resolve_right (fun hnot => hnot List.mem_cons_self)
          cases hprog : (pool i).prog with
          | done a =>
            simp only [Thread.step, hprog] at hstep
            rw [Function.update_self, ← Except.ok.inj hstep]
          | fail e =>
            simp only [Thread.step, hprog] at hstep
            rw [Function.update_self, ← Except.ok.inj hstep]
          | ask call next => simp [Thread.result, hprog] at hsome
        · exact Function.update_of_ne hij _ _
      rw [← hsame]
      refine ih hrun (hkeep.imp (fun hsome => ?_) fun hnot => ?_)
      · rw [hsame]
        exact hsome
      · exact fun hmem => hnot (List.mem_cons_of_mem _ hmem)

/-- A thread that gets its turn again and again ends. -/
theorem PoolSafe.ends [Fintype ι] {post : ι → Except ε α → L → Multiset (Block Cell) → Prop} {i : ι}
    {turn : Nat → ι} (hfair : ∀ k, ∃ m, k ≤ m ∧ turn m = i) {pool : ι → Thread Call Reply L ε α}
    {own : ι → Multiset (Block Cell)} {h : Heap Cell}
    (hp : PoolSafe answer S post pool own h) (k : Nat) :
    ∃ n, ∀ pool' h', runPool answer ((List.range' k n).map turn) pool h = .ok (pool', h') →
      (pool' i).result.isSome := by
  generalize hprog : (pool i).prog = prog
  induction prog generalizing pool own h k with
  | done a =>
    refine ⟨0, fun pool' h' hrun => ?_⟩
    obtain ⟨rfl, _⟩ := Prod.mk.inj (Except.ok.inj hrun)
    simp [Thread.result, hprog]
  | fail e =>
    refine ⟨0, fun pool' h' hrun => ?_⟩
    obtain ⟨rfl, _⟩ := Prod.mk.inj (Except.ok.inj hrun)
    simp [Thread.result, hprog]
  | ask call next ih =>
    -- up to its next turn the thread stays where it is
    classical
    have hturn := Nat.find_spec (hfair k)
    generalize hm : Nat.find (hfair k) = m at hturn
    have hbefore : i ∉ (List.range' k (m - k)).map turn := by
      intro hmem
      obtain ⟨j, hj, hji⟩ := List.mem_map.mp hmem
      have hrange := List.mem_range'_1.mp hj
      have hmin := Nat.find_min' (hfair k) ⟨hrange.1, hji⟩
      omega
    obtain ⟨pool₁, h₁, own₁, hrun₁, hp₁⟩ := runPool_safe hp ((List.range' k (m - k)).map turn)
    have hsame : (pool₁ i).prog = .ask call next := by
      rw [runPool_keeps hrun₁ (.inr hbefore), hprog]
    have hspec := hp₁.safe i
    rw [hsame] at hspec
    obtain ⟨t, h₂, own₂, hstep, hp₂⟩ := hp₁.step i
    have hnext : ∃ r, t.prog = next r := by
      simp only [Thread.step, hsame] at hstep
      cases hanswer : answer call ((pool₁ i).state, h₁) with
      | error f =>
        rw [hanswer] at hstep
        cases hstep
      | ok r =>
        rw [hanswer] at hstep
        have ht := (Prod.mk.inj (Except.ok.inj hstep)).1
        exact ⟨r.1, by rw [← ht]⟩
    obtain ⟨r, hr⟩ := hnext
    have hprog₂ : (Function.update pool₁ i t i).prog = next r := by rw [Function.update_self, hr]
    obtain ⟨n, hn⟩ := ih r hp₂ (m + 1) hprog₂
    refine ⟨(m - k) + (1 + n), fun pool' h' hrun => hn pool' h' ?_⟩
    have hsplit : (List.range' k ((m - k) + (1 + n))).map turn =
        (List.range' k (m - k)).map turn ++ i :: (List.range' (m + 1) n).map turn := by
      rw [← List.range'_append_1, List.map_append, show k + (m - k) = m by omega, Nat.add_comm 1 n,
        List.range'_succ, List.map_cons, hturn.2]
    rw [hsplit, runPool_append, hrun₁] at hrun
    simp only [Bind.bind, Except.bind, runPool, hstep] at hrun
    exact hrun

/-- Under a fair schedule every thread of a safe pool ends. -/
theorem PoolSafe.all_end [Fintype ι] {post : ι → Except ε α → L → Multiset (Block Cell) → Prop}
    {turn : Nat → ι} (hfair : ∀ i k, ∃ m, k ≤ m ∧ turn m = i) {pool : ι → Thread Call Reply L ε α}
    {own : ι → Multiset (Block Cell)} {h : Heap Cell} (hp : PoolSafe answer S post pool own h) :
    ∃ n, ∀ m, n ≤ m → ∀ pool' h',
      runPool answer ((List.range m).map turn) pool h = .ok (pool', h') →
      ∀ i, (pool' i).result.isSome := by
  choose n hn using fun i => hp.ends (hfair i) 0
  refine ⟨Finset.univ.sup n, fun m hm pool' h' hrun i => ?_⟩
  have hle : n i ≤ m := (Finset.le_sup (Finset.mem_univ i)).trans hm
  have hsplit : (List.range m).map turn =
      (List.range' 0 (n i)).map turn ++ (List.range' (0 + n i) (m - n i)).map turn := by
    rw [List.range_eq_range', ← List.map_append, List.range'_append_1,
      show n i + (m - n i) = m by omega]
  rw [hsplit, runPool_append] at hrun
  cases hfirst : runPool answer ((List.range' 0 (n i)).map turn) pool h with
  | error f =>
    rw [hfirst] at hrun
    cases hrun
  | ok r =>
    rw [hfirst] at hrun
    have hended := hn i r.1 r.2 hfirst
    rw [runPool_keeps hrun (.inl hended)]
    exact hended

end

end Ownership
