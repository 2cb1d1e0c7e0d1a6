import GitCellar.Bytes
import GitCellar.Framing
import Mathlib.Data.Nat.Log

/-! Content-defined chunking: the gear boundary search, chunk names, the
one-shot engine and the streaming chunker of `vault-core/src/chunking.rs`. -/

namespace GitCellar

open Loops Framing Utf8

abbrev GearTable := Vector UInt64 256

abbrev Digest := Vector UInt8 32

structure Hashes where
  sha256 : Bytes → Digest
  hmacSha256 : Digest → Bytes → Digest
  blake3Keyed : Digest → Bytes → Digest

/-- Stand-ins that keep inputs of at most 31 bytes apart. -/
def inlineDigest (data : Bytes) : Digest :=
  if h : data.length ≤ 31 then
    ⟨(UInt8.ofNat data.length :: data ++ List.replicate (31 - data.length) 0).toArray,
      by simp; omega⟩
  else Vector.replicate 32 255

def inlineHashes : Hashes := ⟨inlineDigest, fun _ => inlineDigest, fun _ => inlineDigest⟩

def unkeyedGearKey : Digest :=
  ⟨(utf8 "gitcellar/unkeyed-cdc/gear/v1!!!").toArray, by decide⟩

def deriveGearTable (h : Hashes) (key : Digest) : GearTable :=
  Vector.ofFn fun i : Fin 256 =>
    UInt64.ofNat (ofLeBytes
      ((h.blake3Keyed key (utf8 "gear-table" ++ leBytes 4 i)).toList.take 8))

def topBitsMask (n : Nat) : UInt64 :=
  if n = 0 then 0
  else if 64 ≤ n then 0xFFFFFFFFFFFFFFFF
  else 0xFFFFFFFFFFFFFFFF <<< UInt64.ofNat (64 - n)

/-- `Ord::clamp`, which panics on an empty range. -/
def clamp {ε : Type} (x lo hi : Nat) : Run ε Nat :=
  if hi < lo then .error .panic
  else .ok (if x < lo then lo else if hi < x then hi else x)

/-- `steps` rounds of a `while` of the boundary search from position `i`:
where it cuts, or the fingerprint it leaves to the next `while`. -/
def scan (gear : GearTable) (data : Bytes) (mask : UInt64) :
    Nat → Nat → UInt64 → Run VaultError (Nat ⊕ UInt64)
  | 0, _, fp => .ok (.inr fp)
  | steps + 1, i, fp => do
    let b ← byteAt data i
    let next := (fp <<< 1) + gear.get ⟨b.toNat, UInt8.toNat_lt b⟩
    if next &&& mask = 0 then return .inl i
    else scan gear data mask steps (i + 1) next

-- `63 - avg.max(2).leading_zeros()`
def targetBits (avg : Nat) : Nat := Nat.log2 (max avg 2)

def fastcdcBoundary (gear : GearTable) (data : Bytes) (minSize avgSize maxSize : Nat) :
    Run VaultError Nat := do
  let len := data.length
  if len ≤ minSize then return len
  let cap := min maxSize len
  let normal ← clamp avgSize minSize cap
  let maskS := topBitsMask (targetBits avgSize + 1)
  let maskL := topBitsMask (targetBits avgSize - 1)
  match ← scan gear data maskS (normal - minSize) minSize 0 with
  | .inl i => return i
  | .inr fp =>
    match ← scan gear data maskL (cap - normal) normal fp with
    | .inl i => return i
    | .inr _ => return cap

structure ChunkKeying where
  gear : GearTable
  idKey : Digest

def ChunkKeying.derive (h : Hashes) (boundaryKeyRepo idKeyRepo : Digest) : ChunkKeying :=
  ⟨deriveGearTable h boundaryKeyRepo, idKeyRepo⟩

structure ChunkConfig where
  minSize : Nat
  avgSize : Nat
  maxSize : Nat
  deriving DecidableEq, Repr

/-- `ChunkConfig::new`, whose two `assert!`s panic. -/
def ChunkConfig.new (minSize avgSize maxSize : Nat) : Run VaultError ChunkConfig :=
  if minSize ≤ avgSize then
    if avgSize ≤ maxSize then .ok ⟨minSize, avgSize, maxSize⟩ else .error .panic
  else .error .panic

def ChunkConfig.e1Keyed : ChunkConfig := ⟨16 * 1024, 64 * 1024, 256 * 1024⟩

structure Chunk where
  hash : String
  data : Bytes
  size : Nat
  offset : Nat
  deriving DecidableEq, Repr

/-- The digest a chunk is named by: keyed HMAC, or SHA-256 without keying. -/
def nameDigest (h : Hashes) (keying : Option ChunkKeying) (data : Bytes) : Digest :=
  match keying with
  | some k => h.hmacSha256 k.idKey data
  | none => h.sha256 data

def chunkName (h : Hashes) (keying : Option ChunkKeying) (data : Bytes) : String :=
  hexEncode (nameDigest h keying data).toList

def decodeName (name : String) : Option Bytes :=
  if (utf8 name).length ≠ 64 then none else hexDecode name

/-- `ChunkEngine::verify_name`; the constant-time comparisons are equality. -/
def verifyName (h : Hashes) (keying : Option ChunkKeying) (name : String) (plaintext : Bytes) :
    Bool :=
  match decodeName name with
  | none => false
  | some expected => expected == (nameDigest h keying plaintext).toList

structure ChunkEngine where
  config : ChunkConfig
  gear : GearTable
  keying : Option ChunkKeying

def ChunkEngine.new (h : Hashes) (config : ChunkConfig) : ChunkEngine :=
  ⟨config, deriveGearTable h unkeyedGearKey, none⟩

def ChunkEngine.newKeyed (config : ChunkConfig) (keying : ChunkKeying) : ChunkEngine :=
  ⟨config, keying.gear, some keying⟩

def ChunkEngine.findChunkBoundary (e : ChunkEngine) (data : Bytes) : Run VaultError Nat :=
  fastcdcBoundary e.gear data e.config.minSize e.config.avgSize e.config.maxSize

/-- The `while offset < data.len()` loop of `chunk_data`. -/
def ChunkEngine.chunkLoop (h : Hashes) (e : ChunkEngine) (data : Bytes) :
    Nat → Nat → List Chunk → Run VaultError (List Chunk)
  | 0, _, _ => .error .outOfFuel
  | fuel + 1, offset, chunks =>
    if offset < data.length then do
      let chunkSize ← e.findChunkBoundary (data.drop offset)
      let chunkData ← byteRange data offset (min (offset + chunkSize) data.length)
      e.chunkLoop h data fuel (offset + chunkSize)
        (chunks ++ [⟨chunkName h e.keying chunkData, chunkData, chunkData.length, offset⟩])
    else .ok chunks

def ChunkEngine.chunkData (h : Hashes) (e : ChunkEngine) (data : Bytes) (fuel : Nat) :
    Run VaultError (List Chunk) :=
  if data = [] then .ok [] else e.chunkLoop h data fuel 0 []

structure StreamChunker where
  config : ChunkConfig
  gear : GearTable
  keying : Option ChunkKeying
  buffer : Bytes
  offset : Nat
  chunks : List Chunk

def StreamChunker.start (config : ChunkConfig) (gear : GearTable) (keying : Option ChunkKeying) :
    StreamChunker :=
  ⟨config, gear, keying, [], 0, []⟩

def StreamChunker.new (h : Hashes) (config : ChunkConfig) : StreamChunker :=
  .start config (deriveGearTable h unkeyedGearKey) none

def StreamChunker.newKeyed (config : ChunkConfig) (keying : ChunkKeying) : StreamChunker :=
  .start config keying.gear (some keying)

def StreamChunker.findBoundary (s : StreamChunker) : Run VaultError Nat :=
  fastcdcBoundary s.gear s.buffer s.config.minSize s.config.avgSize s.config.maxSize

def StreamChunker.emitChunks (h : Hashes) : Nat → StreamChunker → Run VaultError StreamChunker
  | 0, _ => .error .outOfFuel
  | fuel + 1, s =>
    if s.buffer.length ≤ s.config.minSize then .ok s
    else do
      let boundary ← s.findBoundary
      -- no boundary yet and room for more bytes: wait for the next feed
      if s.buffer.length ≤ boundary ∧ s.buffer.length < s.config.maxSize then return s
      let chunkSize := min boundary s.buffer.length
      let chunkData := s.buffer.take chunkSize
      emitChunks h fuel
        { s with
          buffer := s.buffer.drop chunkSize
          chunks :=
            s.chunks ++ [⟨chunkName h s.keying chunkData, chunkData, chunkData.length, s.offset⟩]
          offset := s.offset + chunkData.length }

def StreamChunker.feed (h : Hashes) (fuel : Nat) (s : StreamChunker) (data : Bytes) :
    Run VaultError StreamChunker :=
  emitChunks h fuel { s with buffer := s.buffer ++ data }

def StreamChunker.finalize (h : Hashes) (s : StreamChunker) : List Chunk :=
  if s.buffer = [] then s.chunks
  else s.chunks ++ [⟨chunkName h s.keying s.buffer, s.buffer, s.buffer.length, s.offset⟩]

def StreamChunker.chunkStream (h : Hashes) (s : StreamChunker) (feeds : List Bytes) (fuel : Nat) :
    Run VaultError (List Chunk) :=
  (fun t => t.finalize h) <$> feeds.foldlM (StreamChunker.feed h fuel) s

end GitCellar
