import Mathlib.Tactic.Common

/-! Programs that reach the world by asking: what becomes of a state that answers them. -/

namespace Effects

/-- A program that ends with a value or an error, or asks for `op` and goes on with the answer. -/
inductive Prog (Op : Type) (Reply : Op → Type) (ε α : Type) where
  | done (a : α)
  | fail (e : ε)
  | ask (op : Op) (next : Reply op → Prog Op Reply ε α)

variable {Op : Type} {Reply : Op → Type} {ε α β σ : Type}

namespace Prog

def bind : Prog Op Reply ε α → (α → Prog Op Reply ε β) → Prog Op Reply ε β
  | done a, f => f a
  | fail e, _ => fail e
  | ask op next, f => ask op fun r => (next r).bind f

instance : Monad (Prog Op Reply ε) where
  pure := done
  bind := bind

def call (op : Op) : Prog Op Reply ε (Reply op) := ask op done

/-- A computation that asks for nothing. -/
def ofExcept : Except ε α → Prog Op Reply ε α
  | .ok a => done a
  | .error e => fail e

/-- `map_err(..)?` -/
def orFail {δ : Type} (f : δ → ε) : Except δ α → Prog Op Reply ε α
  | .ok a => done a
  | .error e => fail (f e)

/-- The result of a program, kept as a value. -/
def catchAll (p : Prog Op Reply ε α) (f : Except ε α → Prog Op Reply ε β) : Prog Op Reply ε β :=
  match p with
  | done a => f (.ok a)
  | fail e => f (.error e)
  | ask op next => ask op fun r => (next r).catchAll f

/-- A run over a state that answers each request and may change with it. -/
def run (answer : (op : Op) → σ → Reply op × σ) : Prog Op Reply ε α → σ → Except ε α × σ
  | done a, s => (.ok a, s)
  | fail e, s => (.error e, s)
  | ask op next, s => run answer (next (answer op s).1) (answer op s).2

/-- What holds of the result and the last state of a run. -/
def wp (answer : (op : Op) → σ → Reply op × σ) (p : Prog Op Reply ε α)
    (post : Except ε α → σ → Prop) (s : σ) : Prop :=
  post (p.run answer s).1 (p.run answer s).2

/-- What a program has to leave to the one behind it. -/
def leaving (answer : (op : Op) → σ → Reply op × σ) (f : α → Prog Op Reply ε β)
    (post : Except ε β → σ → Prop) : Except ε α → σ → Prop
  | .ok a, s => (f a).wp answer post s
  | .error e, s => post (.error e) s

end Prog

open Prog

variable {answer : (op : Op) → σ → Reply op × σ} {p : Prog Op Reply ε α} {f : α → Prog Op Reply ε β}
  {post : Except ε β → σ → Prop} {s : σ} {a : α} {e : ε}

theorem done_bind (a : α) (f : α → Prog Op Reply ε β) : (done a : Prog Op Reply ε α) >>= f = f a :=
  rfl

theorem wp_bind : wp answer (p >>= f) post s ↔ wp answer p (leaving answer f post) s := by
  induction p generalizing s with
  | done a => exact Iff.rfl
  | fail e => exact Iff.rfl
  | ask op next ih => exact ih (answer op s).1

theorem run_bind_of_ok {t : σ} (h : run answer p s = (.ok a, t)) :
    run answer (p >>= f) s = run answer (f a) t := by
  induction p generalizing s with
  | done b =>
    obtain ⟨hb, rfl⟩ := Prod.mk.inj h
    obtain rfl := Except.ok.inj hb
    rfl
  | fail e => cases (Prod.mk.inj h).1
  | ask op next ih => exact ih _ h

theorem run_bind_of_error {t : σ} (h : run answer p s = (.error e, t)) :
    run answer (p >>= f) s = (.error e, t) := by
  induction p generalizing s with
  | done b => cases (Prod.mk.inj h).1
  | fail e' =>
    obtain ⟨he, rfl⟩ := Prod.mk.inj h
    obtain rfl := Except.error.inj he
    rfl
  | ask op next ih => exact ih _ h

theorem run_catchAll {g : Except ε α → Prog Op Reply ε β} :
    run answer (p.catchAll g) s = run answer (g (run answer p s).1) (run answer p s).2 := by
  induction p generalizing s with
  | done a => rfl
  | fail e => rfl
  | ask op next ih => exact ih _

end Effects
