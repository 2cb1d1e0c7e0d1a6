import GitCellar.ActiveUser
import GitCellar.AtRest
import GitCellar.FsCalls
import GitCellar.KeyFile

/-! The two files of an identity (`identity/mod.rs`): reading `secret.pgp`, and what a
save that stops on the way leaves of `secret.pgp` and `public.pgp`. -/

namespace GitCellar

open Effects Paths Utf8

def secretKeyFile : String := "secret.pgp"

def publicKeyFile : String := "public.pgp"

/-- Certificates in binary form, with the display of the library's errors. -/
structure CertBytes (Cert : Type) where
  tsk : Cert → Except String Bytes
  publicBytes : Cert → Bytes
  fromBytes : Bytes → Except String Cert
  firstUserId : Cert → Option Bytes

variable {Cert : Type} (F : Filesystem) (C : CertBytes Cert)

def secretPath (path : PathBuf) : PathBuf := join F.platform path secretKeyFile.toList

def publicPath (path : PathBuf) : PathBuf := join F.platform path publicKeyFile.toList

/-- A certificate whose first user ID is not there, or not UTF-8, is `unknown`'s. -/
def userIdOf (cert : Cert) : String :=
  ((C.firstUserId cert).bind fun raw => if h : IsText raw then some (toText raw h) else none).getD
    "unknown"

def openCertData (unwrapAtRest : Bytes → Except PasskeyError Bytes) (raw : Bytes) :
    Except PasskeyError Bytes :=
  if isWrapped raw then
    (unwrapAtRest raw).mapError fun e =>
      .keyLoad ("Failed to open sealed secret key: " ++ e.toString)
  else .ok raw

def loadFrom (unwrapAtRest : Bytes → Except PasskeyError Bytes) (path : PathBuf) :
    Fs (Identity Cert) := do
  let found ← pathExists (secretPath F path)
  if !found then .fail .identityNotFound
  else do
    let raw ← readBytes (secretPath F path)
    let raw ← Prog.orFail
      (fun e => .keyLoad ("Failed to read " ++ F.showPath (secretPath F path) ++ ": " ++ e)) raw
    let certData ← Prog.ofExcept (openCertData unwrapAtRest raw)
    let cert ← Prog.orFail (fun e => .keyLoad ("Failed to parse certificate: " ++ e))
        (C.fromBytes certData)
    .done ⟨cert, userIdOf C cert⟩

/-- Only Unix has modes to set. -/
def restrictPermissions (unix : Bool) (path : PathBuf) : Fs Unit :=
  if unix then do
    attempt (.metadata path) .io
    attempt (.setPermissions path 0o600) .io
  else .done ()

def saveToWithSealer (unix : Bool) (identity : Identity Cert) (path : PathBuf)
    (sealer : Bytes → Except PasskeyError Bytes) : Fs Unit := do
  let tskBytes ← Prog.orFail (fun e => .keySave ("Failed to write secret key: " ++ e))
      (C.tsk identity.cert)
  let secretToWrite ← Prog.ofExcept (sealer tskBytes)
  attempt (.createDirAll path)
    fun e => .keySave ("Failed to create directory " ++ debugStr (F.showPath path) ++ ": " ++ e)
  attempt (.write (secretPath F path) secretToWrite)
    fun e => .keySave ("Failed to create " ++ F.showPath (secretPath F path) ++ ": " ++ e)
  restrictPermissions unix (secretPath F path)
  attempt (.create (publicPath F path))
    fun e => .keySave ("Failed to create " ++ F.showPath (publicPath F path) ++ ": " ++ e)
  attempt (.append (publicPath F path) (C.publicBytes identity.cert))
    fun e => .keySave ("Failed to write public key: " ++ e)

/-- After an error both files are as they were; after `Ok` they are those of one
certificate. -/
structure SavedOrKept (identity : Identity Cert) (sealer : Bytes → Except PasskeyError Bytes)
    (path : PathBuf) (before : Disk) (result : Except PasskeyError Unit) (after : Disk) : Prop where
  kept : ∀ e, result = .error e →
    after.files (secretPath F path) = before.files (secretPath F path) ∧
    after.files (publicPath F path) = before.files (publicPath F path)
  saved : result = .ok () → ∃ tskBytes secret, C.tsk identity.cert = .ok tskBytes ∧
    sealer tskBytes = .ok secret ∧ after.contents (secretPath F path) = some secret ∧
      after.contents (publicPath F path) = some (C.publicBytes identity.cert)

/-- The steps on `secret.pgp` once it is written. -/
def Restricted (unix : Bool) (plan : FileOp → Option FsFault) (path : PathBuf) : Prop :=
  unix = true → plan (.metadata path) = none ∧ plan (.setPermissions path 0o600) = none

/-- A file that holds `secret` with the mode a save gives it. -/
def HoldsSecret (unix : Bool) (before : Disk) (path : PathBuf) (secret : Bytes) : Prop :=
  before.contents path = some secret ∧ (unix = true → before.files path = some ⟨secret, 0o600⟩)

/-- Where a step fails that has changed a file, or follows one that has, the files held
already what was written by then. -/
structure HarmlessFaults (unix : Bool) (plan : FileOp → Option FsFault) (before : Disk)
    (secretPath publicPath : PathBuf) (secret publicBytes : Bytes) : Prop where
  writing : ∀ fault, plan (.write secretPath secret) = some fault → ∀ n, fault.written = some n →
    before.contents secretPath = some (secret.take n)
  restricting : plan (.write secretPath secret) = none → ¬ Restricted unix plan secretPath →
    before.contents secretPath = some secret
  creating : plan (.write secretPath secret) = none → Restricted unix plan secretPath →
    plan (.create publicPath) ≠ none → HoldsSecret unix before secretPath secret
  appending : plan (.write secretPath secret) = none → Restricted unix plan secretPath →
    plan (.create publicPath) = none → ∀ fault, plan (.append publicPath publicBytes) = some fault →
      HoldsSecret unix before secretPath secret ∧
        before.contents publicPath = some (publicBytes.take (fault.written.getD 0))

section

variable {F C} {unix : Bool} {newMode mode : Nat} {plan : FileOp → Option FsFault} {d : Disk}
  {identity : Identity Cert} {sealer : Bytes → Except PasskeyError Bytes} {path : PathBuf}
  {secret bytes : Bytes} {post : Except PasskeyError Unit → Disk → Prop}

theorem secretPath_ne_publicPath : secretPath F path ≠ publicPath F path := by
  rw [secretPath, publicPath, join_plain (plain_of_isPlainText (by decide)),
    join_plain (plain_of_isPlainText (by decide))]
  intro h
  have hcomps := List.append_cancel_left (PathBuf.mk.inj h).2.2
  revert hcomps
  decide

def restrictedDisk (unix : Bool) (d : Disk) (path : PathBuf) : Disk :=
  if unix then d.protect path 0o600 else d

theorem wp_restrictPermissions {kept : Prop} (hfail : ∀ e, post (.error e) d ↔ kept) :
    (restrictPermissions unix path).wp (Disk.answer newMode plan) post d ↔
      (¬ Restricted unix plan path → kept) ∧
        (Restricted unix plan path → post (.ok ()) (restrictedDisk unix d path)) := by
  cases unix with
  | false =>
    have hr : Restricted false plan path := by simp [Restricted]
    simp only [hr, not_true_eq_false, false_implies, true_and, true_implies]
    exact Iff.rfl
  | true =>
    have hr : Restricted true plan path ↔
        plan (.metadata path) = none ∧ plan (.setPermissions path 0o600) = none := by
      simp [Restricted]
    rw [restrictPermissions, if_pos rfl, wp_bind, Disk.wp_attempt, hr]
    simp only [Prog.leaving, Disk.wp_attempt, Disk.stop, Disk.finish, hfail]
    cases hmeta : plan (.metadata path) with
    | some fault => simp
    | none =>
      cases hset : plan (.setPermissions path 0o600) with
      | some fault => simp
      | none => simp [restrictedDisk]

theorem savedOrKept_error {e : PasskeyError} {after : Disk} :
    SavedOrKept F C identity sealer path d (.error e) after ↔
      after.files (secretPath F path) = d.files (secretPath F path) ∧
        after.files (publicPath F path) = d.files (publicPath F path) := by
  constructor
  · intro h
    exact h.kept e rfl
  · intro h
    exact ⟨fun _ _ => h, fun hok => nomatch hok⟩

theorem restrictedDisk_files_iff {file : PathBuf} :
    (restrictedDisk unix (Disk.put newMode d file secret) file).files file = d.files file ↔
      HoldsSecret unix d file secret := by
  cases unix with
  | false =>
    rw [HoldsSecret, ← @Disk.put_files_eq_iff newMode d file secret]
    simp [restrictedDisk]
  | true =>
    have hfiles : (restrictedDisk true (Disk.put newMode d file secret) file).files file =
        some ⟨secret, 0o600⟩ := Disk.protect_files Disk.put_files
    rw [hfiles, HoldsSecret]
    constructor
    · intro h
      refine ⟨?_, fun _ => h.symm⟩
      rw [Disk.contents, ← h]
      rfl
    · intro h
      exact (h.2 rfl).symm

theorem restrictedDisk_files_of_ne {file other : PathBuf} (h : other ≠ file) :
    (restrictedDisk unix d file).files other = d.files other := by
  cases unix with
  | false => rfl
  | true => exact Disk.protect_files_of_ne h

theorem restrictedDisk_contents {file : PathBuf} :
    (restrictedDisk unix (Disk.put newMode d file secret) file).contents file = some secret := by
  cases unix with
  | false =>
    rw [restrictedDisk, if_neg Bool.false_ne_true, Disk.contents, Disk.put_files, Option.map_some]
  | true =>
    rw [restrictedDisk, if_pos rfl, Disk.contents, Disk.protect_files Disk.put_files,
      Option.map_some]

/-- The two steps on `public.pgp`, from a disk that differs from `d` in `secret.pgp` alone. -/
theorem savePublic_keeps_iff {f g : String → PasskeyError} {d' : Disk}
    {tskBytes : Bytes} {held : Prop} (htsk : C.tsk identity.cert = .ok tskBytes)
    (hseal : sealer tskBytes = .ok secret)
    (hheld : d'.files (secretPath F path) = d.files (secretPath F path) ↔ held)
    (hsecret : d'.contents (secretPath F path) = some secret)
    (hpublic : d'.files (publicPath F path) = d.files (publicPath F path)) :
    ((attempt (.create (publicPath F path)) f >>= fun _ =>
        attempt (.append (publicPath F path) (C.publicBytes identity.cert)) g).wp
          (Disk.answer newMode plan) (SavedOrKept F C identity sealer path d) d') ↔
      (plan (.create (publicPath F path)) ≠ none → held) ∧
      (plan (.create (publicPath F path)) = none →
        ∀ fault, plan (.append (publicPath F path) (C.publicBytes identity.cert)) = some fault →
          held ∧ d.contents (publicPath F path) =
            some ((C.publicBytes identity.cert).take (fault.written.getD 0))) := by
  have hne : secretPath F path ≠ publicPath F path := secretPath_ne_publicPath
  have hcontents : d'.contents (publicPath F path) = d.contents (publicPath F path) := by
    rw [Disk.contents, hpublic, Disk.contents]
  have hput : ∀ bytes, (Disk.put newMode d' (publicPath F path) bytes).files (secretPath F path) =
      d.files (secretPath F path) ↔ held := by
    intro bytes
    rw [Disk.put_files_of_ne hne, hheld]
  have hkept : ∀ bytes, (Disk.put newMode d' (publicPath F path) bytes).files (publicPath F path) =
      d.files (publicPath F path) ↔ d.contents (publicPath F path) = some bytes := by
    intro bytes
    rw [← hpublic, Disk.put_files_eq_iff, hcontents]
  have hsaved : SavedOrKept F C identity sealer path d (.ok ())
      (Disk.put newMode d' (publicPath F path) (C.publicBytes identity.cert)) := by
    refine ⟨?_, fun _ => ⟨tskBytes, secret, htsk, hseal, ?_, Disk.put_contents⟩⟩
    · intro e he
      cases he
    · rw [Disk.contents, Disk.put_files_of_ne hne]
      exact hsecret
  rw [wp_bind, Disk.wp_attempt]
  simp only [Prog.leaving, Disk.wp_attempt, savedOrKept_error, Disk.stop_append_create,
    Disk.finish_append_create, hput, hkept, hsaved, implies_true, and_true]
  refine and_congr_left fun _ => ?_
  have hcreate : ∀ written, Disk.stop newMode d' written (.create (publicPath F path)) = d' :=
    fun _ => rfl
  simp only [hcreate, hheld, hpublic, and_true]
  constructor
  · intro h hplan
    obtain ⟨fault, hfault⟩ := Option.ne_none_iff_exists'.mp hplan
    exact h fault hfault
  · intro h fault hfault
    exact h (by simp [hfault])

section

variable {f g h : String → PasskeyError} {d' : Disk} {tskBytes : Bytes} {e : PasskeyError}

/-- A write of `secret.pgp` keeps what it finds there. -/
theorem savedOrKept_put_iff (hfiles : d'.files = d.files) :
    SavedOrKept F C identity sealer path d (.error e)
      (Disk.put newMode d' (secretPath F path) bytes) ↔
      d.contents (secretPath F path) = some bytes := by
  have hne : publicPath F path ≠ secretPath F path := secretPath_ne_publicPath.symm
  rw [savedOrKept_error, Disk.put_files_of_ne hne, ← hfiles, Disk.put_files_eq_iff, Disk.contents,
    Disk.contents, hfiles]
  exact and_iff_left rfl

theorem savedOrKept_stop_iff (hfiles : d'.files = d.files) (written : Option Nat) :
    SavedOrKept F C identity sealer path d (.error e)
        (Disk.stop newMode d' written (.write (secretPath F path) secret)) ↔
      ∀ n, written = some n → d.contents (secretPath F path) = some (secret.take n) := by
  cases written with
  | none =>
    rw [savedOrKept_error]
    simp [Disk.stop, hfiles]
  | some n =>
    simp only [Option.some.injEq, forall_eq']
    exact savedOrKept_put_iff hfiles

theorem saveRestricted_keeps_iff (htsk : C.tsk identity.cert = .ok tskBytes)
    (hseal : sealer tskBytes = .ok secret) (hfiles : d'.files = d.files) :
    ((restrictPermissions unix (secretPath F path) >>= fun _ =>
        attempt (.create (publicPath F path)) g >>= fun _ =>
        attempt (.append (publicPath F path) (C.publicBytes identity.cert)) h).wp
          (Disk.answer newMode plan)
          (SavedOrKept F C identity sealer path d)
          (Disk.put newMode d' (secretPath F path) secret)) ↔
      (¬ Restricted unix plan (secretPath F path) → d.contents (secretPath F path) = some secret) ∧
      (Restricted unix plan (secretPath F path) →
        (plan (.create (publicPath F path)) ≠ none →
          HoldsSecret unix d (secretPath F path) secret) ∧
        (plan (.create (publicPath F path)) = none →
          ∀ fault, plan (.append (publicPath F path) (C.publicBytes identity.cert)) = some fault →
            HoldsSecret unix d (secretPath F path) secret ∧ d.contents (publicPath F path) =
              some ((C.publicBytes identity.cert).take (fault.written.getD 0)))) := by
  have hne : publicPath F path ≠ secretPath F path := secretPath_ne_publicPath.symm
  let restricted :=
    restrictedDisk unix (Disk.put newMode d' (secretPath F path) secret) (secretPath F path)
  have hheld : restricted.files (secretPath F path) = d.files (secretPath F path) ↔
      HoldsSecret unix d (secretPath F path) secret := by
    rw [← hfiles, restrictedDisk_files_iff, HoldsSecret, HoldsSecret, Disk.contents,
      Disk.contents, hfiles]
  have hother : restricted.files (publicPath F path) = d.files (publicPath F path) := by
    rw [restrictedDisk_files_of_ne hne, Disk.put_files_of_ne hne, hfiles]
  refine (wp_bind.trans (wp_restrictPermissions fun e => savedOrKept_put_iff hfiles)).trans ?_
  refine and_congr Iff.rfl (imp_congr_right fun _ => ?_)
  exact savePublic_keeps_iff htsk hseal hheld restrictedDisk_contents hother

/-- The steps from the write of `secret.pgp` on, from a disk with the files of `d`. -/
theorem saveFiles_keeps_iff (htsk : C.tsk identity.cert = .ok tskBytes)
    (hseal : sealer tskBytes = .ok secret) (hfiles : d'.files = d.files) :
    ((attempt (.write (secretPath F path) secret) f >>= fun _ =>
        restrictPermissions unix (secretPath F path) >>= fun _ =>
        attempt (.create (publicPath F path)) g >>= fun _ =>
        attempt (.append (publicPath F path) (C.publicBytes identity.cert)) h).wp
          (Disk.answer newMode plan) (SavedOrKept F C identity sealer path d) d') ↔
      HarmlessFaults unix plan d (secretPath F path) (publicPath F path) secret
        (C.publicBytes identity.cert) := by
  have hwriting := fun fault (_ : plan (.write (secretPath F path) secret) = some fault) =>
    @savedOrKept_stop_iff Cert F C newMode d identity sealer path secret d' (f fault.msg)
      hfiles fault.written
  refine (wp_bind.trans Disk.wp_attempt).trans ?_
  refine (and_congr (forall_congr' fun fault => imp_congr_right (hwriting fault))
    (imp_congr_right fun _ => saveRestricted_keeps_iff htsk hseal hfiles)).trans ?_
  constructor
  · rintro ⟨hcut, hafter⟩
    refine ⟨hcut, fun hw => (hafter hw).1, ?_, ?_⟩
    · exact fun hw hr => ((hafter hw).2 hr).1
    · exact fun hw hr => ((hafter hw).2 hr).2
  · intro hharmless
    refine ⟨hharmless.writing, fun hw => ⟨hharmless.restricting hw, fun hr => ?_⟩⟩
    exact ⟨hharmless.creating hw hr, hharmless.appending hw hr⟩

end

/-- Saving is atomic exactly where the steps that fail are harmless. -/
theorem saveToWithSealer_keeps_iff : (saveToWithSealer F C unix identity path sealer).wp
      (Disk.answer newMode plan) (SavedOrKept F C identity sealer path d) d ↔
    ∀ tskBytes, C.tsk identity.cert = .ok tskBytes → ∀ secret, sealer tskBytes = .ok secret →
      plan (.createDirAll path) = none → HarmlessFaults unix plan d (secretPath F path)
        (publicPath F path) secret (C.publicBytes identity.cert) := by
  have hkept : ∀ e, SavedOrKept F C identity sealer path d (.error e) d :=
    fun e => savedOrKept_error.mpr ⟨rfl, rfl⟩
  rw [saveToWithSealer]
  cases htsk : C.tsk identity.cert with
  | error e =>
    simp only [reduceCtorEq, false_implies, implies_true, iff_true]
    exact hkept _
  | ok tskBytes =>
    cases hseal : sealer tskBytes with
    | error e =>
      simp only [Except.ok.injEq, forall_eq', hseal, reduceCtorEq, false_implies,
        implies_true, iff_true, Prog.orFail, Prog.ofExcept, done_bind]
      exact hkept e
    | ok secret =>
      simp only [Except.ok.injEq, forall_eq', hseal, Prog.orFail, Prog.ofExcept, done_bind]
      refine (wp_bind.trans Disk.wp_attempt).trans ?_
      refine (and_iff_right fun _ _ => hkept _).trans ?_
      exact imp_congr_right fun _ => saveFiles_keeps_iff htsk hseal rfl

end

def twoCerts : CertBytes Bool where
  tsk cert := .ok [cert.toUInt8]
  publicBytes cert := [cert.toUInt8]
  fromBytes bytes := if bytes = [0] then .ok false else .ok true
  firstUserId _ := none

def identityHome : PathBuf := ⟨none, true, [.normal "identity".toList]⟩

def diskWith (cert : Bool) : Disk where
  files path :=
    if path = secretPath unixFs identityHome then some ⟨[cert.toUInt8], 0o600⟩
    else if path = publicPath unixFs identityHome then some ⟨[cert.toUInt8], 0o644⟩
    else none
  dirs path := path = identityHome

def publicRefused : FileOp → Option FsFault
  | .create _ => some ⟨"Permission denied (os error 13)", none⟩
  | _ => none

/-- Replacing one identity by another fails at `public.pgp`, with `secret.pgp` replaced. -/
theorem save_over_identity_mixes :
    ¬ (saveToWithSealer unixFs twoCerts true ⟨true, "bob"⟩ identityHome .ok).wp
      (Disk.answer 0o644 publicRefused)
      (SavedOrKept unixFs twoCerts ⟨true, "bob"⟩ .ok identityHome (diskWith false))
      (diskWith false) := by
  intro h
  have hresult : ((saveToWithSealer unixFs twoCerts true ⟨true, "bob"⟩ identityHome .ok).run
      (Disk.answer 0o644 publicRefused) (diskWith false)).1 =
      .error
        (.keySave "Failed to create /identity/public.pgp: Permission denied (os error 13)") := by
    decide +kernel
  have hkept := (h.kept _ hresult).1
  revert hkept
  decide +kernel

end GitCellar
