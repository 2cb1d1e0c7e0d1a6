import GitCellar.Bytes
import GitCellar.Effects
import GitCellar.Paths

/-! The filesystem calls that user directories and identity files are kept with, and a
disk that answers them, failing where a plan says so. -/

namespace GitCellar

open Effects Paths Utf8

inductive FileOp where
  | createDirAll (path : PathBuf)
  | removeDirAll (path : PathBuf)
  | removeFile (path : PathBuf)
  | write (path : PathBuf) (data : Bytes)
  | metadata (path : PathBuf)
  | setPermissions (path : PathBuf) (mode : Nat)
  | create (path : PathBuf)
  | append (path : PathBuf) (data : Bytes)
  deriving DecidableEq

inductive FsCall where
  | pathExists (path : PathBuf)
  | canonicalize (path : PathBuf)
  | read (path : PathBuf)
  | readToString (path : PathBuf)
  | act (op : FileOp)
  deriving DecidableEq

@[reducible] def FsReply : FsCall → Type
  | .pathExists _ => Bool
  | .canonicalize _ => Option PathBuf
  | .read _ => Except String Bytes
  | .readToString _ => Except String String
  | .act _ => Except String Unit

abbrev Fs (α : Type) := Prog FsCall FsReply PasskeyError α

def pathExists (path : PathBuf) : Fs Bool := Prog.call (FsCall.pathExists path)

def canonicalize (path : PathBuf) : Fs (Option PathBuf) := Prog.call (FsCall.canonicalize path)

def readBytes (path : PathBuf) : Fs (Except String Bytes) := Prog.call (FsCall.read path)

def readToString (path : PathBuf) : Fs (Except String String) :=
  Prog.call (FsCall.readToString path)

def attempt (op : FileOp) (f : String → PasskeyError) : Fs Unit := do
  let reply ← Prog.call (.act op)
  Prog.orFail f reply

structure DiskFile where
  bytes : Bytes
  mode : Nat
  deriving DecidableEq

/-- Files and directories, none of them a link. -/
structure Disk where
  files : PathBuf → Option DiskFile
  dirs : PathBuf → Bool

/-- A failing call says `msg`. One that writes may have opened its file and got as far as
`written` bytes into it. -/
structure FsFault where
  msg : String
  written : Option Nat

def under (dir path : PathBuf) : Bool :=
  decide (path.drive = dir.drive) && path.root == dir.root && dir.comps.isPrefixOf path.comps

namespace Disk

def contents (d : Disk) (path : PathBuf) : Option Bytes := (d.files path).map DiskFile.bytes

/-- Opened for writing, a file that is there keeps its permissions. -/
def put (newMode : Nat) (d : Disk) (path : PathBuf) (bytes : Bytes) : Disk :=
  let file : DiskFile := ⟨bytes, (d.files path).elim newMode DiskFile.mode⟩
  { d with files := Function.update d.files path (some file) }

def protect (d : Disk) (path : PathBuf) (mode : Nat) : Disk :=
  let file := (d.files path).map fun f => ⟨f.bytes, mode⟩
  { d with files := Function.update d.files path file }

def finish (newMode : Nat) (d : Disk) : FileOp → Disk
  | .createDirAll path => { d with dirs := fun q => d.dirs q || under q path }
  | .removeDirAll path =>
    ⟨fun q => if under path q then none else d.files q, fun q => d.dirs q && !under path q⟩
  | .removeFile path => { d with files := Function.update d.files path none }
  | .write path data => put newMode d path data
  | .metadata _ => d
  | .setPermissions path mode => d.protect path mode
  | .create path => put newMode d path []
  | .append path data => put newMode d path ((d.contents path).getD [] ++ data)

def stop (newMode : Nat) (d : Disk) (written : Option Nat) : FileOp → Disk
  | .write path data => written.elim d fun n => put newMode d path (data.take n)
  | .append path data =>
    written.elim d fun n => put newMode d path ((d.contents path).getD [] ++ data.take n)
  | _ => d

def answer (newMode : Nat) (plan : FileOp → Option FsFault) :
    (call : FsCall) → Disk → FsReply call × Disk
  | .pathExists path, d => ((d.files path).isSome || d.dirs path, d)
  | .canonicalize path, d => (if (d.files path).isSome || d.dirs path then some path else none, d)
  | .read path, d =>
    (match d.contents path with
      | some bytes => .ok bytes
      | none => .error "entity not found", d)
  | .readToString path, d =>
    (match d.contents path with
      | some bytes =>
        if h : IsText bytes then .ok (toText bytes h)
        else .error "stream did not contain valid UTF-8"
      | none => .error "entity not found", d)
  | .act op, d =>
    match plan op with
    | none => (.ok (), finish newMode d op)
    | some fault => (.error fault.msg, stop newMode d fault.written op)

variable {newMode : Nat} {d : Disk} {path other : PathBuf} {bytes : Bytes} {op : FileOp}
  {plan : FileOp → Option FsFault} {f : String → PasskeyError}
  {post : Except PasskeyError Unit → Disk → Prop}

theorem wp_attempt : (attempt op f).wp (answer newMode plan) post d ↔
    (∀ fault, plan op = some fault →
      post (.error (f fault.msg)) (stop newMode d fault.written op)) ∧
      (plan op = none → post (.ok ()) (finish newMode d op)) := by
  have hrun : (attempt op f).wp (answer newMode plan) post d ↔
      Prog.wp (answer newMode plan) (Prog.orFail f (answer newMode plan (.act op) d).1) post
        (answer newMode plan (.act op) d).2 := Iff.rfl
  rw [hrun]
  cases h : plan op with
  | none =>
    simp only [answer, h, reduceCtorEq, false_implies, implies_true, true_and, true_implies]
    exact Iff.rfl
  | some fault =>
    simp only [answer, h, Option.some.injEq, reduceCtorEq, false_implies, and_true, forall_eq']
    exact Iff.rfl

theorem put_files : (put newMode d path bytes).files path =
    some ⟨bytes, (d.files path).elim newMode DiskFile.mode⟩ := Function.update_self ..

theorem put_files_of_ne (h : other ≠ path) :
    (put newMode d path bytes).files other = d.files other :=
  Function.update_of_ne h ..

theorem put_contents : (put newMode d path bytes).contents path = some bytes := by
  rw [contents, put_files, Option.map_some]

theorem put_put {bytes' : Bytes} :
    put newMode (put newMode d path bytes) path bytes' = put newMode d path bytes' := by
  have hmode : ((put newMode d path bytes).files path).elim newMode DiskFile.mode =
      (d.files path).elim newMode DiskFile.mode := by rw [put_files, Option.elim_some]
  rw [put, hmode, put, put]
  simp only [Function.update_idem]

/-- A file opened afresh, and what an append that was cut short has put into it. -/
theorem stop_append_create {written : Option Nat} :
    stop newMode (finish newMode d (.create path)) written (.append path bytes) =
      put newMode d path (bytes.take (written.getD 0)) := by
  cases written with
  | none => rw [Option.getD_none, List.take_zero]; rfl
  | some n =>
    show put newMode (put newMode d path []) path
      (((put newMode d path []).contents path).getD [] ++ bytes.take n) = _
    rw [put_contents, put_put]
    rfl

theorem finish_append_create :
    finish newMode (finish newMode d (.create path)) (.append path bytes) =
    put newMode d path bytes := by
  show put newMode (put newMode d path []) path
    (((put newMode d path []).contents path).getD [] ++ bytes) = _
  rw [put_contents, put_put]
  rfl

theorem protect_files_of_ne {mode : Nat} (h : other ≠ path) :
    (d.protect path mode).files other = d.files other :=
  Function.update_of_ne h ..

theorem protect_files {mode : Nat} {file : DiskFile} (h : d.files path = some file) :
    (d.protect path mode).files path = some ⟨file.bytes, mode⟩ := by
  have hfile : (d.protect path mode).files path = (d.files path).map fun f => ⟨f.bytes, mode⟩ :=
    Function.update_self ..
  rw [hfile, h]
  rfl

/-- Writing changes nothing only where it writes what is there. -/
theorem put_files_eq_iff :
    (put newMode d path bytes).files path = d.files path ↔ d.contents path = some bytes := by
  rw [put_files, contents]
  cases d.files path with
  | none => simp
  | some file =>
    rw [Option.elim_some, Option.map_some, Option.some_inj, Option.some_inj]
    constructor
    · intro h
      rw [← h]
    · intro h
      rw [← h]

end Disk

end GitCellar
