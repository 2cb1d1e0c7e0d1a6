import GitCellar.AesEngine
import GitCellar.ChunkTiling
import GitCellar.ChunkerProgress
import GitCellar.Ownership

/-! The C interface over a heap that its callers free by hand (`vault-core/src/ffi.rs`). -/

namespace GitCellar

open Loops AuthEnc Ownership AesEncryptionEngine

structure VaultChunkInfo where
  hash : Addr
  size : Nat
  offset : Nat
  deriving DecidableEq, Repr

/-- What a live block holds. The engines and the texts own what is inside them. -/
inductive Cell where
  | vec (bytes : Bytes) (capacity : Nat)
  | buffer (data : Addr) (len capacity : Nat)
  | cstring (text : String)
  | aesEngine (inner : AesEncryptionEngine)
  | chunkEngine (inner : ChunkEngine)
  | chunkInfos (infos : List VaultChunkInfo)
  | dataBuffers (buffers : List Addr)
  | chunkList (chunks : Addr) (count : Nat) (data : Addr)

def Cell.asVec : Cell → Option (Bytes × Nat)
  | .vec bytes capacity => some (bytes, capacity)
  | _ => none

def Cell.asBuffer : Cell → Option (Addr × Nat × Nat)
  | .buffer data len capacity => some (data, len, capacity)
  | _ => none

def Cell.asCString : Cell → Option String
  | .cstring text => some text
  | _ => none

def Cell.asAesEngine : Cell → Option AesEncryptionEngine
  | .aesEngine inner => some inner
  | _ => none

def Cell.asChunkEngine : Cell → Option ChunkEngine
  | .chunkEngine inner => some inner
  | _ => none

def Cell.asChunkInfos : Cell → Option (List VaultChunkInfo)
  | .chunkInfos infos => some infos
  | _ => none

def Cell.asDataBuffers : Cell → Option (List Addr)
  | .dataBuffers buffers => some buffers
  | _ => none

def Cell.asChunkList : Cell → Option (Addr × Nat × Addr)
  | .chunkList chunks count data => some (chunks, count, data)
  | _ => none

/-- What the library is built on: the allocator, the capacity a vector gets beyond its
length, the ciphers and hashes. -/
structure NativePlatform where
  allocator : Allocator Cell
  spare : Bytes → Nat
  aes : AesGcm
  hashes : Hashes
  argon2id : Bytes → Bytes → Except String Digest

def NativePlatform.capacity (P : NativePlatform) (v : Bytes) : Nat := v.length + P.spare v

/-- The local state is the thread's `LAST_ERROR`. -/
abbrev Ffi := Mem (Option String) Cell

/-- A pointer into the caller's own memory: null, or to these bytes. -/
abbrev CallerPtr := Option Bytes

/-- `NonNull::dangling`, what an empty vector or slice points at. -/
def danglingAddr : Addr := 1

def setLastError (msg : String) : Ffi Unit := setLocal (some msg)

def clearLastError : Ffi Unit := setLocal none

def sliceFromRawParts (ptr : CallerPtr) (len : Nat) : Ffi Bytes :=
  match ptr with
  | none => faulty (.dangling 0)
  | some bytes => if len ≤ bytes.length then pure (bytes.take len) else faulty .outOfBounds

/-- `Err(e) => { set_last_error(e.to_string()); null }`; a panic may not cross the C boundary. -/
def answered {α : Type} (r : Run VaultError α) (ok : α → Ffi Addr) : Ffi Addr :=
  match r with
  | .ok a => ok a
  | .error (.error e) => do
    setLastError e.toString
    return 0
  | .error _ => faulty .abort

def refusedWith (msg : String) : Ffi Addr := do
  setLastError msg
  return 0

section

variable (P : NativePlatform)

def VaultBuffer.fromVec (v : Bytes) : Ffi Addr := do
  -- a vector without capacity has no storage
  let data ←
    if P.capacity v = 0 then pure danglingAddr else alloc P.allocator (.vec v (P.capacity v))
  alloc P.allocator (.buffer data v.length (P.capacity v))

/-- `VaultBuffer::into_vec` of a live buffer, and the drop of the vector. -/
def VaultBuffer.dropVec (ptr : Addr) : Ffi Unit := do
  let (data, len, capacity) ← loadAs Cell.asBuffer ptr
  freeAs (fun c => c.asBuffer.isSome) ptr
  if capacity = 0 then pure ()
  else freeAs (fun c => c.asVec.any fun v => v.2 = capacity ∧ len ≤ v.1.length) data

def vaultBufferFree (buffer : Addr) : Ffi Unit :=
  if buffer = 0 then pure () else VaultBuffer.dropVec buffer

/-- `CString::new(..)`, an error for a text with a NUL in it. -/
def intoCString (text : String) : Ffi (Option Addr) :=
  if '\x00' ∈ text.toList then pure none else some <$> alloc P.allocator (.cstring text)

def vaultLastError : Ffi Addr := do
  match ← getLocal with
  | none => return 0
  | some msg => return (← intoCString P msg).getD 0

def vaultErrorFree (error : Addr) : Ffi Unit :=
  if error = 0 then pure () else freeAs (fun c => c.asCString.isSome) error

def vaultAesGenerateKey (key : Digest) : Ffi Addr := do
  clearLastError
  VaultBuffer.fromVec P key.toList

def vaultAesGenerateSalt (salt : Vector UInt8 16) : Ffi Addr := do
  clearLastError
  VaultBuffer.fromVec P salt.toList

def vaultAesDeriveKey (passphrase : CallerPtr) (passphraseLen : Nat) (salt : CallerPtr)
    (saltLen : Nat) : Ffi Addr := do
  clearLastError
  if passphrase = none ∨ salt = none then refusedWith "Null pointer argument"
  else
    let passphraseSlice ← sliceFromRawParts passphrase passphraseLen
    let saltSlice ← sliceFromRawParts salt saltLen
    answered (AesEncryptionEngine.deriveKey P.argon2id passphraseSlice saltSlice) fun key =>
      VaultBuffer.fromVec P key.toList

def vaultAesCreate (key : CallerPtr) (keyLen : Nat) : Ffi Addr := do
  clearLastError
  if key = none then refusedWith "Null key pointer"
  else
    let keySlice ← sliceFromRawParts key keyLen
    answered (AesEncryptionEngine.new P.hashes keySlice) fun engine =>
      alloc P.allocator (.aesEngine engine)

def vaultAesFree (engine : Addr) : Ffi Unit :=
  if engine = 0 then pure () else freeAs (fun c => c.asAesEngine.isSome) engine

/-- The body of `vault_aes_encrypt` and `vault_aes_decrypt`. -/
def vaultAesApply (cipher : AesEncryptionEngine → Bytes → Run VaultError Bytes) (engine : Addr)
    (input : CallerPtr) (len : Nat) : Ffi Addr := do
  clearLastError
  if engine = 0 ∨ input = none then refusedWith "Null pointer argument"
  else
    let inner ← loadAs Cell.asAesEngine engine
    let slice ← sliceFromRawParts input len
    answered (cipher inner slice) (VaultBuffer.fromVec P)

def vaultAesEncrypt (engine : Addr) (plaintext : CallerPtr) (len : Nat) (nonce : AesNonce) :
    Ffi Addr :=
  vaultAesApply P (fun e slice => e.encrypt P.aes slice nonce) engine plaintext len

def vaultAesDecrypt (engine : Addr) (ciphertext : CallerPtr) (len : Nat) : Ffi Addr :=
  vaultAesApply P (fun e slice => e.decrypt P.aes slice) engine ciphertext len

def ChunkConfig.default : ChunkConfig := ⟨512 * 1024, 1024 * 1024, 2 * 1024 * 1024⟩

def vaultChunkerCreate : Ffi Addr := do
  clearLastError
  alloc P.allocator (.chunkEngine (.new P.hashes .default))

def vaultChunkerCreateCustomHandle (minSize avgSize maxSize : Nat) : Ffi Addr := do
  clearLastError
  answered (vaultChunkerCreateCustom P.hashes minSize avgSize maxSize) fun engine =>
    match engine with
    | none => pure 0
    | some inner => alloc P.allocator (.chunkEngine inner)

def vaultChunkerFree (engine : Addr) : Ffi Unit :=
  if engine = 0 then pure () else freeAs (fun c => c.asChunkEngine.isSome) engine

/-- The slice of a call that takes a null pointer for no bytes. -/
def optionalSlice (data : CallerPtr) (len : Nat) : Ffi Bytes :=
  if 0 < len then sliceFromRawParts data len else pure []

def chunkInfo (c : Chunk) : Ffi VaultChunkInfo := do
  match ← intoCString P c.hash with
  | none => faulty .abort
  | some hash => return ⟨hash, c.size, c.offset⟩

/-- The loop over the chunks, one allocation or two for each. -/
def collect {α β : Type} (f : α → Ffi β) : List α → Ffi (List β)
  | [] => pure []
  | x :: xs => do
    let y ← f x
    let ys ← collect f xs
    return y :: ys

/-- A boxed slice; an empty one has no storage. -/
def boxSlice {α : Type} (cell : List α → Cell) (xs : List α) : Ffi Addr :=
  if xs.length = 0 then pure danglingAddr else alloc P.allocator (cell xs)

def vaultChunkerChunk (engine : Addr) (data : CallerPtr) (len : Nat) : Ffi Addr := do
  clearLastError
  if engine = 0 ∨ (data = none ∧ 0 < len) then refusedWith "Null pointer argument"
  else
    let inner ← loadAs Cell.asChunkEngine engine
    let slice ← optionalSlice data len
    answered (inner.chunkData P.hashes slice (slice.length + 1)) fun chunks => do
      let infos ← collect (chunkInfo P) chunks
      let buffers ← collect (fun c => VaultBuffer.fromVec P c.data) chunks
      let chunksAt ← boxSlice P .chunkInfos infos
      let dataAt ← boxSlice P .dataBuffers buffers
      alloc P.allocator (.chunkList chunksAt chunks.length dataAt)

/-- Element `i` of a boxed slice. -/
def elementAt {α : Type} (view : Cell → Option (List α)) (slice : Addr) (i : Nat) : Ffi α := do
  let xs ← loadAs view slice
  match xs[i]? with
  | none => faulty .outOfBounds
  | some x => return x

def eachOf (f : Nat → Ffi Unit) : List Nat → Ffi Unit
  | [] => pure ()
  | i :: rest => do
    f i
    eachOf f rest

/-- `Vec::from_raw_parts(.., count, count)` dropped. -/
def dropSlice {α : Type} (view : Cell → Option (List α)) (slice : Addr) (count : Nat) : Ffi Unit :=
  if count = 0 then pure () else freeAs (fun c => (view c).any fun xs => xs.length = count) slice

def vaultChunkListFree (list : Addr) : Ffi Unit :=
  if list = 0 then pure ()
  else do
    let (chunks, count, data) ← loadAs Cell.asChunkList list
    eachOf (fun i => do
      let info ← elementAt Cell.asChunkInfos chunks i
      vaultErrorFree info.hash) (List.range count)
    eachOf (fun i => do
      let buffer ← elementAt Cell.asDataBuffers data i
      vaultBufferFree buffer) (List.range count)
    dropSlice Cell.asChunkInfos chunks count
    dropSlice Cell.asDataBuffers data count
    -- the box goes out of scope
    freeAs (fun c => c.asChunkList.isSome) list

def vaultComputeHash (data : CallerPtr) (len : Nat) : Ffi Addr := do
  clearLastError
  if data = none ∧ 0 < len then refusedWith "Null pointer argument"
  else
    let slice ← optionalSlice data len
    match ← intoCString P (computeHash P.hashes slice) with
    | none => faulty .abort
    | some hash => return hash

end

end GitCellar
