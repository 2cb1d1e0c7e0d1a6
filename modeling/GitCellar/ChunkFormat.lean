import GitCellar.AuthEnc
import GitCellar.Chunking

/-! Chunk format v3: the version byte, the associated data that names a chunk,
and the sealing engine (`chunk_format.rs`, `encryption.rs`). -/

namespace GitCellar

open Loops Framing AuthEnc Utf8

def v1XChaCha20Poly1305 : UInt8 := 1
def v2KeyedCdcNaming : UInt8 := 2
def v3RepoUidKeyVersion : UInt8 := 3

inductive ChunkFormatVersion where
  | repoUidKeyVersionV3
  deriving DecidableEq, Repr

def ChunkFormatVersion.asByte : ChunkFormatVersion → UInt8
  | .repoUidKeyVersionV3 => v3RepoUidKeyVersion

def ChunkFormatVersion.isXChaCha20Poly1305Layout : ChunkFormatVersion → Bool
  | .repoUidKeyVersionV3 => true

def parseVersion (byte : UInt8) : Run VaultError ChunkFormatVersion :=
  if byte = v3RepoUidKeyVersion then .ok .repoUidKeyVersionV3
  else if byte = v1XChaCha20Poly1305 ∨ byte = v2KeyedCdcNaming then
    fail (.decryption ("retired chunk-format version byte 0x" ++ hexEncode [byte] ++
      ": its AAD bound the repository name and no key version; only v3 is read " ++
      "(no compatibility reader — regenerate the data)"))
  else
    fail (.decryption ("unknown chunk-format version byte 0x" ++ hexEncode [byte] ++
      ": not a recognized/implemented GitCellar chunk format — refusing to misparse"))

def versionOf (chunk : Bytes) : Run VaultError ChunkFormatVersion :=
  match chunk.head? with
  | none => fail (.decryption "empty chunk: missing format-version byte")
  | some first => parseVersion first

structure ChunkAad where
  repoUid : String
  chunkName : String
  keyVersion : UInt32
  streamOffset : UInt64
  size : UInt64
  deriving DecidableEq, Repr

def ChunkAad.check (a : ChunkAad) : Run VaultError Unit :=
  if (0 : UInt8) ∈ utf8 a.repoUid then
    fail (.encryption ("chunk AAD refused: repo_uid contains a NUL byte, which would make the " ++
      "canonical AAD encoding ambiguous"))
  else if (0 : UInt8) ∈ utf8 a.chunkName then
    fail (.encryption ("chunk AAD refused: chunk_name contains a NUL byte, which would make the " ++
      "canonical AAD encoding ambiguous"))
  else .ok ()

def ChunkAad.new (repoUid chunkName : String) (keyVersion : UInt32) (streamOffset size : UInt64) :
    Run VaultError ChunkAad := do
  let aad : ChunkAad := ⟨repoUid, chunkName, keyVersion, streamOffset, size⟩
  aad.check
  return aad

def ChunkAad.content (repoUid chunkName : String) (keyVersion : UInt32) (size : UInt64) :
    Run VaultError ChunkAad :=
  ChunkAad.new repoUid chunkName keyVersion 0 size

def ChunkAad.named (repoUid objectName : String) (keyVersion : UInt32) : Run VaultError ChunkAad :=
  ChunkAad.new repoUid objectName keyVersion 0 0

def ChunkAad.canonicalAadBytes (a : ChunkAad) : Bytes :=
  utf8 a.repoUid ++ 0 :: (utf8 a.chunkName ++ 0 ::
    (leBytes 4 a.keyVersion.toNat ++ leBytes 8 a.streamOffset.toNat ++ leBytes 8 a.size.toNat))

abbrev XNonce := Vector UInt8 24

abbrev XChaCha20Poly1305 := Aead Digest XNonce

namespace XChaChaChunkEngine

def nonceSize : Nat := 24
def tagSize : Nat := 16
def versionSize : Nat := 1
def keySize : Nat := 32
def overhead : Nat := versionSize + nonceSize + tagSize

/-- What the cipher seals: below `2^32 - 1` blocks of 64 bytes. -/
def maxPlaintext : Nat := 64 * (2 ^ 32 - 1)

end XChaChaChunkEngine

open XChaChaChunkEngine

/-- An engine emits v3: no constructor sets another version byte. -/
structure XChaChaChunkEngine where
  contentKey : Digest
  emitVersion : UInt8
  emit_v3 : emitVersion = v3RepoUidKeyVersion

def XChaChaChunkEngine.fromContentKey (contentKey : Bytes) : Run VaultError XChaChaChunkEngine :=
  if h : contentKey.length = keySize then
    .ok ⟨⟨contentKey.toArray, by simpa [keySize] using h⟩, v3RepoUidKeyVersion, rfl⟩
  else
    fail (.key ("XChaCha20-Poly1305 content key must be " ++ toString keySize ++ " bytes, got " ++
      toString contentKey.length))

def XChaChaChunkEngine.withFormatVersion (e : XChaChaChunkEngine) (version : ChunkFormatVersion) :
    Run VaultError XChaChaChunkEngine :=
  if version.isXChaCha20Poly1305Layout then
    .ok { e with emitVersion := version.asByte, emit_v3 := by cases version; rfl }
  else
    fail (.encryption ("XChaChaChunkEngine cannot emit version 0x" ++ hexEncode [version.asByte] ++
      ": not an XChaCha20-Poly1305 layout"))

def cipherAad (versionByte : UInt8) (aad : ChunkAad) : Run VaultError Bytes := do
  aad.check
  return versionByte :: aad.canonicalAadBytes

/-- `XNonce::from_slice`, which panics on any other length. -/
def xnonceFromSlice (bytes : Bytes) : Run VaultError XNonce :=
  if h : bytes.length = 24 then .ok ⟨bytes.toArray, by simpa using h⟩ else .error .panic

def XChaChaChunkEngine.encryptWithNonce (A : XChaCha20Poly1305) (e : XChaChaChunkEngine)
    (plaintext : Bytes) (nonce : XNonce) (aad : ChunkAad) : Run VaultError Bytes := do
  let bound ← cipherAad e.emitVersion aad
  match A.encrypt e.contentKey nonce bound plaintext with
  | none => fail (.encryption "XChaCha20-Poly1305 encryption failed: aead::Error")
  | some ctAndTag => return e.emitVersion :: (nonce.toList ++ ctAndTag)

/-- The layout and length checks both `decrypt_with_aad` and `decrypt` make first. -/
def XChaChaChunkEngine.checkLayout (data : Bytes) : Run VaultError Unit := do
  let version ← versionOf data
  if version.isXChaCha20Poly1305Layout = false then
    fail (.decryption ("chunk version 0x" ++ hexEncode [version.asByte] ++
      " is not an XChaCha20-Poly1305 layout; XChaChaChunkEngine cannot decrypt it"))
  else if data.length < overhead then
    fail (.decryption ("chunk too short: " ++ toString data.length ++ " bytes < minimum " ++
      toString overhead ++ " (version+nonce+tag)"))
  else return ()

def XChaChaChunkEngine.decryptWithAad (A : XChaCha20Poly1305) (e : XChaChaChunkEngine)
    (data : Bytes) (aad : ChunkAad) : Run VaultError Bytes := do
  checkLayout data
  let versionByte ← byteAt data 0
  let bound ← cipherAad versionByte aad
  let nonceBytes ← byteRange data 1 (1 + nonceSize)
  let nonce ← xnonceFromSlice nonceBytes
  let ctAndTag ← byteRange data (1 + nonceSize) data.length
  match A.decrypt e.contentKey nonce bound ctAndTag with
  | some plaintext => return plaintext
  | none => fail (.decryption ("XChaCha20-Poly1305 authentication failed " ++
      "(tampered, wrong key, or chunk-identity/AAD mismatch)"))

/-- The raw seal without associated data, under the nonce it draws. -/
def XChaChaChunkEngine.encrypt (A : XChaCha20Poly1305) (e : XChaChaChunkEngine)
    (plaintext : Bytes) (nonce : XNonce) : Run VaultError Bytes :=
  match A.encrypt e.contentKey nonce [] plaintext with
  | none => fail (.encryption "XChaCha20-Poly1305 encryption failed: aead::Error")
  | some ctAndTag => .ok (e.emitVersion :: (nonce.toList ++ ctAndTag))

def XChaChaChunkEngine.decrypt (A : XChaCha20Poly1305) (e : XChaChaChunkEngine)
    (data : Bytes) : Run VaultError Bytes := do
  checkLayout data
  let nonceBytes ← byteRange data 1 (1 + nonceSize)
  let nonce ← xnonceFromSlice nonceBytes
  let ctAndTag ← byteRange data (1 + nonceSize) data.length
  match A.decrypt e.contentKey nonce [] ctAndTag with
  | some plaintext => return plaintext
  | none => fail (.decryption "XChaCha20-Poly1305 authentication failed (tampered or wrong key)")

end GitCellar
