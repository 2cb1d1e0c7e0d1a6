import GitCellar.Chunking
import GitCellar.Splitting
import GitCellar.Boundary
import GitCellar.Streaming
import GitCellar.ChunkerProgress
import GitCellar.AuthEnc
import GitCellar.ChunkFormat
import GitCellar.ChunkSeal
import GitCellar.Pack
import GitCellar.Tiling
import GitCellar.PackInvariant
import GitCellar.PackIndex
import GitCellar.PushPull
import GitCellar.Decimal
import GitCellar.Json
import GitCellar.Cbor
import GitCellar.Canonical
import GitCellar.GrantSigning
import GitCellar.Certificates
import GitCellar.IdentitySuccession
import GitCellar.Broadcast
import GitCellar.ActionUrl
import GitCellar.HexText
import GitCellar.Challenges
import GitCellar.MachineId
import GitCellar.BodyRead
import GitCellar.Effects
import GitCellar.UsernameGrammar
import GitCellar.FsCalls
import GitCellar.SignedStatements
import GitCellar.Base64
import GitCellar.Signing
import GitCellar.GrantGate
import GitCellar.ManifestGate
import GitCellar.ManifestRuns
import GitCellar.Keywrap
import GitCellar.LpkPolicy
import GitCellar.LpkRace
import GitCellar.PackSizes
import GitCellar.AtRest
import GitCellar.AtRestRuns
import GitCellar.Ed25519
import GitCellar.DeviceAuthority
import GitCellar.SuccessionRuns
import GitCellar.Keystore
import GitCellar.KeystoreRuns
import GitCellar.KeystoreRace
import GitCellar.Paths
import GitCellar.Usernames
import GitCellar.MultiUser
import GitCellar.ActiveUser
import GitCellar.UserStates
import GitCellar.UserRuns
import GitCellar.Joined
import GitCellar.ObjectKeys
import GitCellar.DirTree
import GitCellar.FileStorage
import GitCellar.S3Storage
import GitCellar.StorageRuns
import GitCellar.ChunkNames
import GitCellar.ChunkTiling
import GitCellar.RoundUp
import GitCellar.Ladders
import GitCellar.Words
import GitCellar.Recovery
import GitCellar.Occurrence
import GitCellar.JsonText
import GitCellar.KeyFile
import GitCellar.KeyRestore
import GitCellar.Tasks
import GitCellar.BatchSeal
import GitCellar.IdentityFiles
import GitCellar.UserDirs
import GitCellar.SealedFormat
import GitCellar.HeadlessLpk
import GitCellar.CredentialStore
import GitCellar.CloudBackup
import GitCellar.EditDistance
import GitCellar.TypoSuggestion
import GitCellar.AesEngine
import GitCellar.Ffi
import GitCellar.Ownership
import GitCellar.FfiSpecs
import GitCellar.FfiCalls
import GitCellar.DotNet
import GitCellar.DotNetSpecs
import GitCellar.DotNetRuns
import GitCellar.DotNetRoundTrip
import GitCellar.PgpKeys
import GitCellar.KeyHolders
import GitCellar.SigningOracle
import GitCellar.LowerWords
import GitCellar.RecoveryDisplay
import GitCellar.S3Signing
import GitCellar.CredentialBackends
import GitCellar.LegacyExtract
import GitCellar.IdentityRuns
import GitCellar.CborReading
import GitCellar.CertificateWire
import GitCellar.CertificateStore
