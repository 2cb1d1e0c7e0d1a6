import GitCellar.Bytes

/-! Reading the body of a response without ever holding more of it than a ceiling. -/

namespace GitCellar

open Utf8

/-- What a provider sends: a status, the length it declares, true or not, the chunks as
they arrive, and the error the transfer breaks off with, if it does. -/
structure Response where
  status : Nat
  statusText : String
  declared : Option Nat
  chunks : List Bytes
  failure : Option String

def Response.isSuccess (r : Response) : Bool := 200 ≤ r.status && r.status < 300

inductive BoundedReadError where
  | declaredTooLarge (declared max : Nat)
  | streamedTooLarge (max : Nat)
  | io (msg : String)
  deriving DecidableEq, Repr

def BoundedReadError.toString : BoundedReadError → String
  | declaredTooLarge declared max =>
    "response declared " ++ Nat.repr declared ++ " bytes, over the " ++ Nat.repr max ++
      "-byte ceiling"
  | streamedTooLarge max =>
    "response body exceeded the " ++ Nat.repr max ++
      "-byte ceiling (a declared length, if any, was a lie)"
  | io msg => "failed to read response body: " ++ msg

/-- A read: what the buffer held at each turn of the loop, and what came of it. -/
structure BodyRead where
  buffers : List Bytes
  result : Except BoundedReadError Bytes

/-- What the end of the transfer makes of the bytes read. -/
def finishRead (failure : Option String) (data : Bytes) : Except BoundedReadError Bytes :=
  match failure with
  | some msg => .error (.io msg)
  | none => .ok data

def readChunks (max : Nat) (failure : Option String) (data : Bytes) : List Bytes → BodyRead
  | [] => ⟨[data], finishRead failure data⟩
  | chunk :: chunks =>
    -- Both lengths are of buffers in memory, so their sum as `u64` does not wrap.
    if max < data.length + chunk.length then ⟨[data], .error (.streamedTooLarge max)⟩
    else
      let read := readChunks max failure (data ++ chunk) chunks
      ⟨data :: read.buffers, read.result⟩

def readBody (r : Response) (max : Nat) : BodyRead :=
  match r.declared with
  | some declared =>
    if max < declared then ⟨[], .error (.declaredTooLarge declared max)⟩
    else readChunks max r.failure [] r.chunks
  | none => readChunks max r.failure [] r.chunks

def readBodyBounded (r : Response) (max : Nat) : Except BoundedReadError Bytes :=
  (readBody r max).result

def maxDiagnosticBytes : Nat := 64 * 1024

def readTextBounded (r : Response) (max : Nat) : String :=
  match readBodyBounded r max with
  | .ok bytes => fromUtf8Lossy bytes
  | .error (.declaredTooLarge declared max) =>
    "<error body suppressed: declared " ++ Nat.repr declared ++ " bytes, over the " ++
      Nat.repr max ++
      "-byte diagnostic ceiling>"
  | .error (.streamedTooLarge max) =>
    "<error body truncated at the " ++ Nat.repr max ++ "-byte diagnostic ceiling>"
  | .error e => "<error body unreadable: " ++ e.toString ++ ">"

def Response.body (r : Response) : Bytes := r.chunks.flatten

/-- Nothing declared, or a length within the ceiling. -/
def Response.DeclaresAtMost (r : Response) (max : Nat) : Prop :=
  ∀ declared, r.declared = some declared → declared ≤ max

/-- A body that may be read: no lie about its length that shows, no failure, no byte too many. -/
def Response.Fits (r : Response) (max : Nat) : Prop :=
  r.DeclaresAtMost max ∧ r.failure = none ∧ r.body.length ≤ max

variable {r : Response} {max : Nat} {failure : Option String} {data : Bytes}
  {chunks : List Bytes}

/-- However the body is cut into chunks, its length decides. -/
theorem readChunks_result (h : data.length ≤ max) : (readChunks max failure data chunks).result =
    if max < data.length + chunks.flatten.length then .error (.streamedTooLarge max)
    else finishRead failure (data ++ chunks.flatten) := by
  induction chunks generalizing data with
  | nil =>
    have hfits : ¬ max < data.length + ([] : List Bytes).flatten.length := Nat.not_lt.mpr h
    rw [if_neg hfits, List.flatten_nil, List.append_nil]
    rfl
  | cons chunk chunks ih =>
    rw [List.flatten_cons, List.length_append, ← Nat.add_assoc]
    by_cases hover : max < data.length + chunk.length
    · have htotal : max < data.length + chunk.length + chunks.flatten.length := by omega
      rw [readChunks, if_pos hover, if_pos htotal]
    · have hnext : (data ++ chunk).length ≤ max := by
        rw [List.length_append]
        omega
      have hrest := ih hnext
      rw [List.length_append, List.append_assoc] at hrest
      rw [readChunks, if_neg hover]
      exact hrest

theorem readChunks_buffers (h : data.length ≤ max) :
    ∀ buffer ∈ (readChunks max failure data chunks).buffers, buffer.length ≤ max := by
  have hsingle : ∀ buffer ∈ [data], buffer.length ≤ max := List.forall_mem_singleton.mpr h
  induction chunks generalizing data with
  | nil => exact hsingle
  | cons chunk chunks ih =>
    by_cases hover : max < data.length + chunk.length
    · rw [readChunks, if_pos hover]
      exact hsingle
    · have hnext : (data ++ chunk).length ≤ max := by
        rw [List.length_append]
        omega
      rw [readChunks, if_neg hover]
      intro buffer hbuffer
      rcases List.mem_cons.mp hbuffer with rfl | hrest
      · exact h
      · exact ih hnext (List.forall_mem_singleton.mpr hnext) buffer hrest

/-- What becomes of a response, in the order the guards stand. -/
theorem readBodyBounded_result (r : Response) (max : Nat) :
    (∃ declared, r.declared = some declared ∧ max < declared ∧
        readBodyBounded r max = .error (.declaredTooLarge declared max)) ∨
      r.DeclaresAtMost max ∧ readBodyBounded r max =
        if max < r.body.length then .error (.streamedTooLarge max)
        else finishRead r.failure r.body := by
  have hloop : (readChunks max r.failure [] r.chunks).result =
      if max < r.body.length then .error (.streamedTooLarge max)
      else finishRead r.failure r.body := by
    have hresult := @readChunks_result max r.failure [] r.chunks (Nat.zero_le max)
    rwa [List.length_nil, Nat.zero_add, List.nil_append] at hresult
  cases hdeclared : r.declared with
  | none =>
    refine .inr ⟨?_, ?_⟩
    · intro declared h
      rw [hdeclared] at h
      cases h
    · simp only [readBodyBounded, readBody, hdeclared]
      exact hloop
  | some declared =>
    by_cases hover : max < declared
    · refine .inl ⟨declared, rfl, hover, ?_⟩
      simp only [readBodyBounded, readBody, hdeclared, if_pos hover]
    · refine .inr ⟨?_, ?_⟩
      · intro n h
        rw [hdeclared] at h
        obtain rfl := Option.some.inj h
        exact Nat.not_lt.mp hover
      · simp only [readBodyBounded, readBody, hdeclared, if_neg hover]
        exact hloop

theorem readBodyBounded_eq_ok_iff {d : Bytes} :
    readBodyBounded r max = .ok d ↔ r.Fits max ∧ d = r.body := by
  rcases readBodyBounded_result r max with ⟨declared, hdeclared, hover, hresult⟩ |
    ⟨hdeclared, hresult⟩
  · rw [hresult]
    refine iff_of_false (by simp) ?_
    rintro ⟨⟨hfits, _⟩, _⟩
    exact Nat.not_lt.mpr (hfits declared hdeclared) hover
  · rw [hresult, Loops.ite_error_eq_ok_iff, Nat.not_lt, Response.Fits, and_iff_right hdeclared]
    cases hfailure : r.failure with
    | some msg => simp [finishRead]
    | none =>
      simp only [finishRead, Except.ok.injEq, true_and]
      exact and_congr_right fun _ => eq_comm

theorem readBody_buffers :
    ∀ buffer ∈ (readBody r max).buffers, buffer.length ≤ max := by
  have hloop := @readChunks_buffers max r.failure [] r.chunks (Nat.zero_le max)
  cases hdeclared : r.declared with
  | none =>
    simp only [readBody, hdeclared]
    exact hloop
  | some declared =>
    by_cases hover : max < declared
    · simp only [readBody, hdeclared, if_pos hover]
      intro buffer hbuffer
      cases hbuffer
    · simp only [readBody, hdeclared, if_neg hover]
      exact hloop

theorem readTextBounded_of_error {e : BoundedReadError}
    (h : readBodyBounded r max = .error e) :
    ∃ why, readTextBounded r max = "<error body " ++ why ++ ">" := by
  have hceiling : "-byte diagnostic ceiling>" = "-byte diagnostic ceiling" ++ ">" := by
    decide +kernel
  rw [readTextBounded, h]
  cases e with
  | declaredTooLarge declared max =>
    refine ⟨"suppressed: declared " ++ Nat.repr declared ++ " bytes, over the " ++ Nat.repr max ++
      "-byte diagnostic ceiling", ?_⟩
    have hopening : "<error body suppressed: declared " =
        "<error body " ++ "suppressed: declared " := by
      decide +kernel
    simp only [hopening, hceiling, String.append_assoc]
  | streamedTooLarge max =>
    refine ⟨"truncated at the " ++ Nat.repr max ++ "-byte diagnostic ceiling", ?_⟩
    have hopening : "<error body truncated at the " = "<error body " ++ "truncated at the " := by
      decide +kernel
    simp only [hopening, hceiling, String.append_assoc]
  | io msg =>
    refine ⟨"unreadable: " ++ (BoundedReadError.io msg).toString, ?_⟩
    have hopening : "<error body unreadable: " = "<error body " ++ "unreadable: " := by
      decide +kernel
    simp only [hopening, String.append_assoc]

/-- The bounded read accepts what fits, however it is cut into chunks, and never holds
more than the ceiling; its text form gives the body's text, or a marker in its place. -/
theorem boundedRead_spec (r : Response) (max : Nat) :
    (∀ d, readBodyBounded r max = .ok d ↔ r.Fits max ∧ d = r.body) ∧
    (∀ buffer ∈ (readBody r max).buffers, buffer.length ≤ max) ∧
    (r.DeclaresAtMost max → r.failure = none → r.body.length = max →
      readBodyBounded r max = .ok r.body) ∧
    (r.Fits max → readTextBounded r max = fromUtf8Lossy r.body) ∧
    (¬ r.Fits max → ∃ why, readTextBounded r max = "<error body " ++ why ++ ">") := by
  refine ⟨fun d => readBodyBounded_eq_ok_iff, readBody_buffers, ?_, ?_, ?_⟩
  · intro hdeclared hfailure hlen
    exact readBodyBounded_eq_ok_iff.mpr ⟨⟨hdeclared, hfailure, Nat.le_of_eq hlen⟩, rfl⟩
  · intro hfits
    rw [readTextBounded, readBodyBounded_eq_ok_iff.mpr ⟨hfits, rfl⟩]
  · intro hfits
    cases hresult : readBodyBounded r max with
    | ok d => exact absurd (readBodyBounded_eq_ok_iff.mp hresult).1 hfits
    | error e => exact readTextBounded_of_error hresult

end GitCellar
