import GitCellar.Bytes
import GitCellar.Framing

/-! Packing sealed chunks into padded blobs (`pack.rs`): the ladder, the pack
loop and the slice that reads a chunk back. -/

namespace GitCellar

open Loops

/-- A generator with state `σ`, as `rand` documents it. -/
structure Rng (σ : Type) where
  fillBytes : σ → Nat → Bytes × σ
  length_fillBytes : ∀ s n, (fillBytes s n).1.length = n
  shuffle : {α : Type} → σ → List α → List α × σ
  shuffle_perm : ∀ {α : Type} (s : σ) (xs : List α), (shuffle s xs).1.Perm xs

variable {σ : Type}

def padLadderFloor : Nat := 256 * 1024

structure PadLadder where
  floor : Nat
  growthNum : Nat
  growthDen : Nat
  deriving DecidableEq, Repr

def PadLadder.default : PadLadder := ⟨padLadderFloor, 5, 4⟩

/-- The next step; a ratio at or below one moves by one byte instead. -/
def PadLadder.grow (ladder : PadLadder) (step : Nat) : Nat :=
  let next := min (step * ladder.growthNum / max ladder.growthDen 1) usizeMax
  if step < next then next else step + 1

theorem PadLadder.lt_grow (ladder : PadLadder) (step : Nat) : step < ladder.grow step := by
  simp only [PadLadder.grow]
  split <;> omega

def PadLadder.stepFrom (ladder : PadLadder) (len step : Nat) : Nat :=
  if step < len then ladder.stepFrom len (ladder.grow step) else step
termination_by len - step
decreasing_by
  have hgrow := ladder.lt_grow step
  omega

def PadLadder.stepFor (ladder : PadLadder) (len : Nat) : Nat :=
  ladder.stepFrom len (max ladder.floor 1)

def padPack (rng : Rng σ) (bytes : Bytes) (ladder : PadLadder) (s : σ) : Bytes × σ :=
  let step := ladder.stepFor bytes.length
  if bytes.length < step then
    let (filler, s) := rng.fillBytes s (step - bytes.length)
    (bytes ++ filler, s)
  else (bytes, s)

structure PackLocation where
  packId : String
  offset : UInt64
  length : UInt32
  deriving DecidableEq, Repr

structure BuiltPack where
  packId : String
  bytes : Bytes
  deriving DecidableEq, Repr

structure PackSet where
  packs : List BuiltPack
  index : List (String × PackLocation)
  deriving DecidableEq, Repr

def randomPackId (rng : Rng σ) (s : σ) : String × σ :=
  let (raw, s) := rng.fillBytes s 32
  (hexEncode raw, s)

/-- The locals of the pack loop: what is built, and the pack being filled. -/
structure Packing (σ : Type) where
  packs : List BuiltPack
  index : List (String × PackLocation)
  seen : List String
  curId : Option String
  curBytes : Bytes
  rng : σ

def Packing.start (s : σ) : Packing σ := ⟨[], [], [], none, [], s⟩

def Packing.push (t : Packing σ) (packId : String) (padded : Bytes × σ) : Packing σ :=
  { t with
    packs := t.packs ++ [⟨packId, padded.1⟩]
    curId := none
    curBytes := []
    rng := padded.2 }

/-- `cur_id.take().expect(..)`: without an open pack this panics. -/
def Packing.sealOpen (rng : Rng σ) (t : Packing σ) : Run VaultError (Packing σ) :=
  match t.curId with
  | none => .error .panic
  | some packId => .ok (t.push packId (padPack rng t.curBytes .default t.rng))

def Packing.place (rng : Rng σ) (t : Packing σ) (name : String) (blob : Bytes) : Packing σ :=
  let (packId, s) := match t.curId with
    | some packId => (packId, t.rng)
    | none => randomPackId rng t.rng
  let loc := ⟨packId, UInt64.ofNat t.curBytes.length, UInt32.ofNat blob.length⟩
  { t with
    curId := some packId
    curBytes := t.curBytes ++ blob
    index := t.index ++ [(name, loc)]
    rng := s }

def Packing.add (rng : Rng σ) (target : Nat) (t : Packing σ) (chunk : String × Bytes) :
    Run VaultError (Packing σ) :=
  let (name, blob) := chunk
  if name ∈ t.seen then .ok t
  else do
    let t := { t with seen := name :: t.seen }
    let t ← if t.curBytes ≠ [] ∧ target < t.curBytes.length + blob.length then t.sealOpen rng
      else .ok t
    return t.place rng name blob

def Packing.flush (rng : Rng σ) (t : Packing σ) : Packing σ :=
  match t.curId with
  | none => t
  | some packId =>
    if t.curBytes = [] then { t with curId := none }
    else t.push packId (padPack rng t.curBytes .default t.rng)

def packChunks (rng : Rng σ) (chunks : List (String × Bytes)) (targetPackSize : UInt64) (s : σ) :
    Run VaultError (PackSet × σ) := do
  let target := max targetPackSize.toNat 1
  let (chunks, s) := rng.shuffle s chunks
  let t ← chunks.foldlM (Packing.add rng target) (Packing.start s)
  let t := t.flush rng
  return (⟨t.packs, t.index⟩, t.rng)

def sliceChunk (packBytes : Bytes) (loc : PackLocation) : Run VaultError Bytes :=
  let start := loc.offset.toNat
  let stop := start + loc.length.toNat
  if usizeMax < start then
    fail (.decryption ("pack offset " ++ toString loc.offset ++ " overflows usize"))
  else if usizeMax < stop then
    fail (.decryption ("pack slice end overflows (offset " ++ toString loc.offset ++
      " + length " ++ toString loc.length ++ ")"))
  else if packBytes.length < stop then
    fail (.decryption ("pack slice [" ++ toString start ++ ".." ++ toString stop ++
      "] out of bounds for pack of " ++ toString packBytes.length ++ " bytes (pack_id " ++
      loc.packId ++ "): corrupt or mismatched manifest"))
  else byteRange packBytes start stop

end GitCellar
