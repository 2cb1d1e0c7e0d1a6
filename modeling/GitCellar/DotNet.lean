import GitCellar.FfiCalls

/-! The .NET bindings (`vault-core/bindings/dotnet/VaultCore.Native`): what their
methods ask of the C interface and of `Marshal`. -/

namespace GitCellar

open Effects Ownership Loops

/-- The P/Invoke declarations of `NativeMethods`, and the reads of `Marshal`. A key, a salt
or a nonce in a call is what the native random generator draws in it. -/
inductive NativeCall where
  | lastError
  | errorFree (error : Addr)
  | bufferFree (buffer : Addr)
  | aesGenerateKey (drawn : Digest)
  | aesGenerateSalt (drawn : Vector UInt8 16)
  | aesDeriveKey (passphrase : CallerPtr) (passphraseLen : Nat) (salt : CallerPtr) (saltLen : Nat)
  | aesCreate (key : CallerPtr) (keyLen : Nat)
  | aesFree (engine : Addr)
  | aesEncrypt (engine : Addr) (plaintext : CallerPtr) (len : Nat) (drawn : AesNonce)
  | aesDecrypt (engine : Addr) (ciphertext : CallerPtr) (len : Nat)
  | chunkerCreate
  | chunkerCreateCustom (minSize avgSize maxSize : Nat)
  | chunkerFree (engine : Addr)
  | chunkerChunk (engine : Addr) (data : CallerPtr) (len : Nat)
  | chunkListFree (list : Addr)
  | computeHash (data : CallerPtr) (len : Nat)
  | ptrToBuffer (a : Addr)
  | ptrToChunkList (a : Addr)
  | ptrToChunkInfo (chunks : Addr) (i : Nat)
  | readIntPtr (slice : Addr) (i : Nat)
  | ptrToString (a : Addr)
  | copy (source : Addr) (len : Nat)

def NativeReply : NativeCall → Type
  | .errorFree _ | .bufferFree _ | .aesFree _ | .chunkerFree _ | .chunkListFree _ => Unit
  | .ptrToBuffer _ => Addr × Nat × Nat
  | .ptrToChunkList _ => Addr × Nat × Addr
  | .ptrToChunkInfo _ _ => VaultChunkInfo
  | .ptrToString _ => Option String
  | .copy _ _ => Bytes
  | _ => Addr

/-- `Marshal.PtrToStringAnsi`: no string for a null pointer. -/
def ptrToStringAnsi (a : Addr) : Ffi (Option String) :=
  if a = 0 then pure none else some <$> loadAs Cell.asCString a

/-- `Marshal.Copy` of `len` bytes. -/
def marshalCopy (source : Addr) (len : Nat) : Ffi Bytes :=
  if len = 0 then pure []
  else do
    let v ← loadAs Cell.asVec source
    if len ≤ v.1.length then return v.1.take len else faulty .outOfBounds

def answerNative (P : NativePlatform) : (c : NativeCall) → Ffi (NativeReply c)
  | .lastError => vaultLastError P
  | .errorFree error => vaultErrorFree error
  | .bufferFree buffer => vaultBufferFree buffer
  | .aesGenerateKey drawn => vaultAesGenerateKey P drawn
  | .aesGenerateSalt drawn => vaultAesGenerateSalt P drawn
  | .aesDeriveKey passphrase n salt m => vaultAesDeriveKey P passphrase n salt m
  | .aesCreate key n => vaultAesCreate P key n
  | .aesFree engine => vaultAesFree engine
  | .aesEncrypt engine plaintext n drawn => vaultAesEncrypt P engine plaintext n drawn
  | .aesDecrypt engine ciphertext n => vaultAesDecrypt P engine ciphertext n
  | .chunkerCreate => vaultChunkerCreate P
  | .chunkerCreateCustom lo avg hi => vaultChunkerCreateCustomHandle P lo avg hi
  | .chunkerFree engine => vaultChunkerFree engine
  | .chunkerChunk engine data n => vaultChunkerChunk P engine data n
  | .chunkListFree list => vaultChunkListFree list
  | .computeHash data n => vaultComputeHash P data n
  | .ptrToBuffer a => loadAs Cell.asBuffer a
  | .ptrToChunkList a => loadAs Cell.asChunkList a
  | .ptrToChunkInfo chunks i => elementAt Cell.asChunkInfos chunks i
  | .readIntPtr slice i => elementAt Cell.asDataBuffers slice i
  | .ptrToString a => ptrToStringAnsi a
  | .copy source n => marshalCopy source n

/-- The exceptions of the bindings and of the runtime below them. -/
inductive NetError where
  | vault (message : String)
  | argument (message param : String)
  | argumentNull (param : String)
  | argumentOutOfRange
  | copyOutOfBounds
  | objectDisposed
  | nullReference
  | overflow
  | outOfMemory
  deriving DecidableEq, Repr

abbrev Net := Prog NativeCall NativeReply NetError

def native (c : NativeCall) : Net (NativeReply c) := Prog.call c

/-- A `byte[]` or a span of bytes: its length is an `int`. -/
structure NetBytes where
  bytes : Bytes
  length_lt : bytes.length < 2 ^ 31

def NetBytes.length (b : NetBytes) : Nat := b.bytes.length

/-- `fixed (byte* p = data)`: a null pointer for no bytes. -/
def NetBytes.pinned (b : NetBytes) : CallerPtr := if b.bytes = [] then none else some b.bytes

/-- The cast `(int)x` of a `nuint`. -/
def toInt32 (n : Nat) : Int := if n % 2 ^ 32 < 2 ^ 31 then n % 2 ^ 32 else n % 2 ^ 32 - 2 ^ 32

/-- `Array.MaxLength`. -/
def arrayMaxLength : Nat := 0x7FFFFFC7

structure ArrayLength where
  length : Nat
  le_max : length ≤ arrayMaxLength

/-- `new byte[n]`. -/
def checkArrayLength (n : Int) : Except NetError ArrayLength :=
  if n < 0 then .error .overflow
  else if h : n.toNat ≤ arrayMaxLength then .ok ⟨n.toNat, h⟩
  else .error .outOfMemory

def NetBytes.ofPrefix (bytes : Bytes) (n : ArrayLength) : NetBytes :=
  ⟨bytes.take n.length, by
    have hle := n.le_max
    rw [List.length_take]
    simp only [arrayMaxLength] at hle
    omega⟩

/-- `new byte[(int)len]` filled by `Marshal.Copy(source, .., 0, (int)len)`. -/
def copyOut (source : Addr) (len : Nat) : Net NetBytes := do
  let n ← Prog.ofExcept (checkArrayLength (toInt32 len))
  let bytes : Bytes ← native (.copy source n.length)
  return .ofPrefix bytes n

/-- `try { .. } finally { .. }`. -/
def tryFinally {α : Type} (body : Net α) (last : Net Unit) : Net α :=
  body.catchAll fun r => do
    last
    Prog.ofExcept r

/-- `throw VaultException.FromLastError(operation)`. -/
def throwLastError {α : Type} (operation : String) : Net α := do
  let errorPtr : Addr ← native .lastError
  if errorPtr = 0 then .fail (.vault (operation ++ " failed (no error message)"))
  else do
    let message : Option String ← tryFinally (native (.ptrToString errorPtr))
        (native (.errorFree errorPtr))
    .fail (.vault (operation ++ " failed: " ++ message.getD ""))

def bufferToByteArray (bufferPtr : Addr) : Net NetBytes := do
  let buffer : Addr × Nat × Nat ← native (.ptrToBuffer bufferPtr)
  copyOut buffer.1 buffer.2.1

/-- What each method makes of the buffer it gets: the bytes, or the last error. -/
def takeBuffer (operation : String) (bufferPtr : Addr) : Net NetBytes :=
  if bufferPtr = 0 then throwLastError operation
  else tryFinally (bufferToByteArray bufferPtr) (native (.bufferFree bufferPtr))

/-- An instance of one of the two engine classes. -/
structure NetObject where
  handle : Addr
  disposed : Bool
  deriving DecidableEq, Repr

/-- `this` may be null, then disposed. -/
def withHandle {α : Type} (self : Option NetObject) (body : Addr → Net α) : Net α :=
  match self with
  | none => .fail .nullReference
  | some self => if self.disposed then .fail .objectDisposed else body self.handle

/-- `ArgumentNullException.ThrowIfNull`. -/
def notNull {α β : Type} (param : String) (arg : Option α) (body : α → Net β) : Net β :=
  match arg with
  | none => .fail (.argumentNull param)
  | some arg => body arg

def newObject (operation : String) (handle : Addr) : Net NetObject :=
  if handle = 0 then throwLastError operation else .done ⟨handle, false⟩

/-- `Dispose`, with the native function that frees the handle. -/
def dispose (free : Addr → Net Unit) (self : Option NetObject) : Net NetObject :=
  match self with
  | none => .fail .nullReference
  | some self =>
    if self.disposed then .done self
    else if self.handle = 0 then .done ⟨self.handle, true⟩
    else do
      free self.handle
      return ⟨0, true⟩

namespace AesEngine

def keySize : Nat := 32

def new (key : Option NetBytes) : Net NetObject :=
  notNull "key" key fun key =>
    if key.length ≠ keySize then
      .fail
        (.argument ("Key must be " ++ toString keySize ++ " bytes, got " ++ toString key.length)
          "key")
    else do
      let handle : Addr ← native (.aesCreate key.pinned key.length)
      newObject "Create AES engine" handle

def generateKey (drawn : Digest) : Net NetBytes := do
  let bufferPtr ← native (.aesGenerateKey drawn)
  takeBuffer "Generate key" bufferPtr

def generateSalt (drawn : Vector UInt8 16) : Net NetBytes := do
  let bufferPtr ← native (.aesGenerateSalt drawn)
  takeBuffer "Generate salt" bufferPtr

def deriveKey (passphrase salt : Option NetBytes) : Net NetBytes :=
  notNull "passphrase" passphrase fun passphrase =>
    notNull "salt" salt fun salt => do
      let bufferPtr ← native
        (.aesDeriveKey passphrase.pinned passphrase.length salt.pinned salt.length)
      takeBuffer "Derive key" bufferPtr

def encrypt (self : Option NetObject) (plaintext : Option NetBytes) (drawn : AesNonce) :
    Net NetBytes :=
  withHandle self fun handle =>
    notNull "plaintext" plaintext fun plaintext => do
      let bufferPtr ← native (.aesEncrypt handle plaintext.pinned plaintext.length drawn)
      takeBuffer "Encrypt" bufferPtr

def decrypt (self : Option NetObject) (ciphertext : Option NetBytes) : Net NetBytes :=
  withHandle self fun handle =>
    notNull "ciphertext" ciphertext fun ciphertext => do
      let bufferPtr ← native (.aesDecrypt handle ciphertext.pinned ciphertext.length)
      takeBuffer "Decrypt" bufferPtr

def dispose (self : Option NetObject) : Net NetObject :=
  GitCellar.dispose (fun handle => native (.aesFree handle)) self

end AesEngine

/-- The class `Chunk`; `Size` is the length of its data. -/
structure NetChunk where
  hash : String
  data : NetBytes
  offset : Nat

namespace NetChunkEngine

def new : Net NetObject := do
  let handle ← native .chunkerCreate
  newObject "Create chunk engine" handle

def newCustom (minSize avgSize maxSize : Int) : Net NetObject :=
  if minSize ≤ 0 then .fail (.argument "minSize must be positive" "minSize")
  else if avgSize < minSize then .fail (.argument "avgSize must be >= minSize" "avgSize")
  else if maxSize < avgSize then .fail (.argument "maxSize must be >= avgSize" "maxSize")
  else do
    let handle ← native (.chunkerCreateCustom minSize.toNat avgSize.toNat maxSize.toNat)
    newObject "Create chunk engine" handle

def forSmallFiles : Net NetObject := newCustom (64 * 1024) (256 * 1024) (512 * 1024)

def forLargeFiles : Net NetObject := newCustom (1024 * 1024) (4 * 1024 * 1024) (8 * 1024 * 1024)

/-- The body of the loop of `ParseChunkList`. -/
def parseChunk (chunks data : Addr) (i : Nat) : Net NetChunk := do
  let info : VaultChunkInfo ← native (.ptrToChunkInfo chunks i)
  let bufferPtr ← native (.readIntPtr data i)
  let bytes ← bufferToByteArray bufferPtr
  let hash : Option String ← native (.ptrToString info.hash)
  return ⟨hash.getD "", bytes, info.offset⟩

def parseChunks (chunks data : Addr) : List Nat → Net (List NetChunk)
  | [] => .done []
  | i :: rest => do
    let chunk ← parseChunk chunks data i
    let parsed ← parseChunks chunks data rest
    return chunk :: parsed

def parseChunkList (listPtr : Addr) : Net (List NetChunk) := do
  let list : Addr × Nat × Addr ← native (.ptrToChunkList listPtr)
  -- the capacity of the `List<Chunk>`
  if toInt32 list.2.1 < 0 then .fail .argumentOutOfRange
  else parseChunks list.1 list.2.2 (List.range list.2.1)

def chunk (self : Option NetObject) (data : Option NetBytes) : Net (List NetChunk) :=
  withHandle self fun handle =>
    notNull "data" data fun data =>
      if data.length = 0 then .done []
      else do
        let listPtr : Addr ← native (.chunkerChunk handle data.pinned data.length)
        if listPtr = 0 then throwLastError "Chunk data"
        else tryFinally (parseChunkList listPtr) (native (.chunkListFree listPtr))

def computeHash (data : Option NetBytes) : Net String :=
  notNull "data" data fun data => do
    let hashPtr : Addr ← native (.computeHash data.pinned data.length)
    if hashPtr = 0 then throwLastError "Compute hash"
    else do
      let hash : Option String ← tryFinally (native (.ptrToString hashPtr))
          (native (.errorFree hashPtr))
      return hash.getD ""

def dispose (self : Option NetObject) : Net NetObject :=
  GitCellar.dispose (fun handle => native (.chunkerFree handle)) self

/-- `Buffer.BlockCopy(source, 0, result, offset, source.Length)`. -/
def blockCopy (source result : Bytes) (offset : Int) : Except NetError Bytes :=
  if offset < 0 then .error .argumentOutOfRange
  else if result.length < offset.toNat + source.length then .error .copyOutOfBounds
  else .ok (result.take offset.toNat ++ source ++ result.drop (offset.toNat + source.length))

/-- An unchecked sum of two `int`s. -/
def addInt32 (a : Int) (b : Nat) : Int := toInt32 ((a % 2 ^ 32).toNat + b)

def copyChunks : List NetChunk → Bytes → Int → Except NetError Bytes
  | [], result, _ => .ok result
  | c :: chunks, result, offset => do
    copyChunks chunks (← blockCopy c.data.bytes result offset) (addInt32 offset c.data.length)

def reassemble (chunks : Option (List NetChunk)) : Except NetError Bytes :=
  match chunks with
  | none => .error (.argumentNull "chunks")
  | some chunks => do
    let totalSize ← checkArrayLength (chunks.foldl (fun total c => addInt32 total c.data.length) 0)
    copyChunks chunks (List.replicate totalSize.length 0) 0

end NetChunkEngine

end GitCellar
