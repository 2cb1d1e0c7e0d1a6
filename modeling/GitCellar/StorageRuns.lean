import GitCellar.S3Storage
import GitCellar.Traces

/-! The two storages side by side, over runs of uploads, downloads, lookups,
listings and deletions. -/

namespace GitCellar

open DirTree Utf8 Traces

inductive StorageCall where
  | upload (k : ObjectKey) (data : Bytes)
  | download (k : ObjectKey)
  | exists_ (k : ObjectKey)
  | list (p : ObjectPrefix)
  | delete (k : ObjectKey)

inductive StorageReply where
  | done
  | bytes (data : Bytes)
  | flag (found : Bool)
  | names (names : List String)
  deriving DecidableEq

abbrev StorageAnswer := Except VaultError StorageReply

def StorageCall.key : StorageCall → Option ObjectKey
  | upload k _ => some k
  | download k => some k
  | exists_ k => some k
  | list _ => none
  | delete k => some k

def done (r : Except VaultError Unit) : StorageAnswer := r.map fun _ => .done

def FileStorage.call (s : FileStorage) (t : FileTree) : StorageCall → StorageAnswer × FileTree
  | .upload k data => (done (s.upload t k data).1, (s.upload t k data).2)
  | .download k => ((s.download t k).map .bytes, t)
  | .exists_ k => ((FileStorage.exists t k).map .flag, t)
  | .list p => ((s.list t p).map .names, t)
  | .delete k => (done (s.delete t k).1, (s.delete t k).2)

def S3Storage.call (s : S3Storage) (b : Bucket) (moment : Nat) :
    StorageCall → StorageAnswer × Bucket
  | .upload k data => (done (s.upload b moment k.text data).1, (s.upload b moment k.text data).2)
  | .download k => ((s.download b moment k.text).map .bytes, b)
  | .exists_ k => ((s.exists b moment k.text).map .flag, b)
  | .list p => ((s.list b moment p.text).map .names, b)
  | .delete k => (done (s.delete b moment k.text).1, (s.delete b moment k.text).2)

def KeyMap.call (m : KeyMap) : StorageCall → KeyMap
  | .upload k data => Function.update m k (some data)
  | .delete k => Function.update m k none
  | _ => m

/-- `moment` counts the calls, for what the server says of the time. -/
structure StorageWorld where
  tree : FileTree
  bucket : Bucket
  map : KeyMap
  moment : Nat

/-- A storage root just made, and a bucket with the objects of others. -/
def StorageWorld.fresh (bucket : Bucket) : StorageWorld := ⟨Tree.empty, bucket, fun _ => none, 0⟩

variable (file : FileStorage) (s3 : S3Storage)

def storageStep (w : StorageWorld) (call : StorageCall) :
    (StorageAnswer × StorageAnswer) × StorageWorld :=
  (((file.call w.tree call).1, (s3.call w.bucket w.moment call).1),
    ⟨(file.call w.tree call).2, (s3.call w.bucket w.moment call).2, w.map.call call, w.moment + 1⟩)

/-- The answer the map gives. A deletion of a missing key may be answered either way. -/
def Answers (m : KeyMap) (answer : StorageAnswer) : StorageCall → Prop
  | .upload _ _ => answer = .ok .done
  | .download k =>
    (∀ data ∈ m k, answer = .ok (.bytes data)) ∧ (m k = none → ∃ e, answer = .error e)
  | .exists_ k => answer = .ok (.flag (m k).isSome)
  | .list p => ∃ names, answer = .ok (.names names) ∧ Lists m p names
  | .delete k => (m k).isSome → answer = .ok .done

/-- Alike but for the order of listed names and the texts of errors. -/
def Agree : StorageAnswer → StorageAnswer → Prop
  | .ok (.names xs), .ok (.names ys) => xs.Perm ys
  | .ok r, .ok r' => r = r'
  | .error _, .error _ => True
  | _, _ => False

abbrev StorageEntry := Traces.Entry StorageWorld StorageCall (StorageAnswer × StorageAnswer)

/-- Both answers are the map's, they agree, and a deleted key is gone from both storages. -/
structure StepSound (cfg : S3Config) (e : StorageEntry) : Prop where
  file : Answers e.before.map e.output.1 e.input
  s3 : Answers e.before.map e.output.2 e.input
  agree : Agree e.output.1 e.output.2
  absent : ∀ k, e.input = .delete k →
    e.after.tree.files.lookup k.segments = none ∧
    e.after.bucket.lookup (cfg.objectKey k.text) = none

def RunSound (bucket : Bucket) (calls : List StorageCall) : Prop :=
  ∀ e ∈ trace (storageStep file s3) (.fresh bucket) calls, StepSound s3.config e

/-- Downloads are of objects under the ceiling, listings are whole on both
sides, and deletions are of stored keys. -/
def Meets (w : StorageWorld) : StorageCall → Prop
  | .download k => ∀ data ∈ w.map k, data.length ≤ s3.config.maxObjectBytes
  | .list p => FileStorage.Listable w.tree p ∧ s3.Listable w.bucket w.moment p
  | .delete k => (w.map k).isSome
  | _ => True

structure BothHold (keys : List ObjectKey) (w : StorageWorld) : Prop where
  file : FileHolds keys w.tree w.map
  s3 : BucketHolds s3.config w.bucket w.map

variable {file s3} {keys : List ObjectKey} {w : StorageWorld} {call : StorageCall}

theorem Lists.perm {m : KeyMap} {p : ObjectPrefix} {xs ys : List String} (hx : Lists m p xs)
    (hy : Lists m p ys) : xs.Perm ys :=
  (List.perm_ext_iff_of_nodup hx.1 hy.1).mpr fun text => (hx.2 text).trans (hy.2 text).symm

theorem BothHold.upload (h : BothHold s3 keys w) (hapart : KeysApart keys) {k : ObjectKey}
    (hk : k ∈ keys) (data : Bytes) :
    BothHold s3 keys (storageStep file s3 w (.upload k data)).2 ∧
      (storageStep file s3 w (.upload k data)).1 = (.ok .done, .ok .done) := by
  obtain ⟨hfile, htree⟩ := @FileHolds.upload file w.tree keys w.map k h.file hapart hk data
  refine ⟨⟨htree, h.s3.insert k data⟩, ?_⟩
  show (done (file.upload w.tree k data).1, _) = _
  rw [hfile]
  rfl

theorem BothHold.delete (h : BothHold s3 keys w) {k : ObjectKey} (hk : (w.map k).isSome) :
    BothHold s3 keys (storageStep file s3 w (.delete k)).2 ∧
      (storageStep file s3 w (.delete k)).1 = (.ok .done, .ok .done) := by
  obtain ⟨hfile, htree⟩ := @FileHolds.delete_stored file w.tree keys w.map k h.file hk
  refine ⟨⟨htree, h.s3.erase k⟩, ?_⟩
  show (done (file.delete w.tree k).1, _) = _
  rw [hfile]
  rfl

theorem StepSound.of_answers {cfg : S3Config} {after : StorageWorld} {left right : StorageAnswer}
    (hcall : ∀ k, call ≠ .delete k) (hleft : Answers w.map left call)
    (hright : Answers w.map right call) (hagree : Agree left right) :
    StepSound cfg ⟨w, call, (left, right), after⟩ :=
  ⟨hleft, hright, hagree, fun k hk => absurd hk (hcall k)⟩

theorem BothHold.download {k : ObjectKey} (h : BothHold s3 keys w) (hapart : KeysApart keys)
    (hk : k ∈ keys) (hmeets : Meets s3 w (.download k)) :
    StepSound s3.config ⟨w, .download k, (storageStep file s3 w (.download k)).1,
      (storageStep file s3 w (.download k)).2⟩ := by
  show StepSound _
    ⟨w, _, ((file.download w.tree k).map .bytes, (s3.download w.bucket w.moment k.text).map .bytes),
      _⟩
  cases hm : w.map k with
  | none =>
    obtain ⟨e, hfile⟩ := @FileHolds.download_missing file w.tree keys w.map k h.file hapart hk hm
    obtain ⟨e', hs3⟩ : ∃ e, s3.download w.bucket w.moment k.text = .error e :=
      h.s3.download_missing hm
    have hmissing : ∀ err, Answers w.map (.error err) (.download k) := by
      intro err
      refine ⟨?_, fun _ => ⟨err, rfl⟩⟩
      intro data hdata
      rw [hm] at hdata
      cases hdata
    rw [hfile, hs3]
    exact .of_answers (fun _ => nofun) (hmissing e) (hmissing e') trivial
  | some data =>
    have hfile := @FileHolds.download_stored file w.tree keys w.map k data h.file hapart hk hm
    have hs3 : s3.download w.bucket w.moment k.text = .ok data :=
      h.s3.download_stored hm (hmeets data hm)
    have hstored : Answers w.map (.ok (.bytes data)) (.download k) := by
      refine ⟨?_, ?_⟩
      · intro other hother
        obtain rfl := Option.some.inj (hm.symm.trans hother)
        rfl
      · intro hnone
        rw [hm] at hnone
        cases hnone
    rw [hfile, hs3]
    exact .of_answers (fun _ => nofun) hstored hstored rfl

theorem BothHold.step (h : BothHold s3 keys w) (hapart : KeysApart keys)
    (hkeys : ∀ k ∈ call.key, k ∈ keys) (hform : s3.config.KeyForm) (hmeets : Meets s3 w call) :
    BothHold s3 keys (storageStep file s3 w call).2 ∧
      StepSound s3.config
        ⟨w, call, (storageStep file s3 w call).1, (storageStep file s3 w call).2⟩ := by
  cases call with
  | upload k data =>
    obtain ⟨hafter, hanswers⟩ := @BothHold.upload file s3 keys w h hapart k (hkeys k rfl) data
    refine ⟨hafter, ?_⟩
    rw [hanswers]
    exact .of_answers (fun _ => nofun) rfl rfl rfl
  | download k => exact ⟨⟨h.file, h.s3⟩, h.download hapart (hkeys k rfl) hmeets⟩
  | exists_ k =>
    refine ⟨⟨h.file, h.s3⟩, ?_⟩
    have hfile := h.file.exists_eq hapart (hkeys k rfl)
    have hs3 : s3.exists w.bucket w.moment k.text = .ok (w.map k).isSome := h.s3.exists_eq k
    show StepSound _
      ⟨w, _,
        ((FileStorage.exists w.tree k).map .flag, (s3.exists w.bucket w.moment k.text).map .flag),
        _⟩
    rw [hfile, hs3]
    exact .of_answers (fun _ => nofun) rfl rfl rfl
  | list p =>
    refine ⟨⟨h.file, h.s3⟩, ?_⟩
    obtain ⟨xs, hfile, hxs⟩ := @FileHolds.list_ok file w.tree keys w.map p h.file hmeets.1
    obtain ⟨ys, hs3, hys⟩ := h.s3.list_ok hform hmeets.2
    show StepSound _ ⟨w, _,
      ((file.list w.tree p).map .names, (s3.list w.bucket w.moment p.text).map .names), _⟩
    rw [hfile, hs3]
    exact .of_answers (fun _ => nofun) ⟨xs, rfl, hxs⟩ ⟨ys, rfl, hys⟩ (hxs.perm hys)
  | delete k =>
    obtain ⟨hafter, hanswers⟩ := @BothHold.delete file s3 keys w h k hmeets
    refine ⟨hafter, ?_⟩
    rw [hanswers]
    refine ⟨fun _ => rfl, fun _ => rfl, rfl, ?_⟩
    rintro key ⟨⟩
    have hnone : (storageStep file s3 w (.delete k)).2.map k = none := by
      show Function.update w.map k none k = none
      rw [Function.update_self]
    exact ⟨(hafter.file.stored k).trans hnone, (hafter.s3.stored k).trans hnone⟩

theorem BothHold.fresh {bucket : Bucket}
    (hothers : ∀ name ∈ bucket, ¬ (s3.config.objectKey "").toList <+: name.toList) :
    BothHold s3 keys (.fresh bucket) := by
  refine ⟨⟨fun _ => rfl, ?_, ?_⟩, ?_, ?_⟩
  · intro k hk
    cases hk
  · intro d hd
    cases hd
  · intro k
    apply AList.lookup_eq_none.mpr
    intro hmem
    exact hothers _ hmem (objectKey_prefix_iff.mpr (by simp))
  · intro name hname hbegins
    exact absurd hbegins (hothers name hname)

/-- Over every run whose calls all meet the conditions, the file tree and the
bucket answer as one map of keys to bytes. -/
theorem storage_runs (file : FileStorage) (s3 : S3Storage) (bucket : Bucket)
    (calls : List StorageCall) (hapart : KeysApart (calls.filterMap StorageCall.key))
    (hform : s3.config.KeyForm)
    (hothers : ∀ name ∈ bucket, ¬ (s3.config.objectKey "").toList <+: name.toList)
    (hmeets : ∀ e ∈ trace (storageStep file s3) (.fresh bucket) calls, Meets s3 e.before e.input) :
    RunSound file s3 bucket calls := by
  have hkeys : ∀ call ∈ calls, ∀ k ∈ call.key, k ∈ calls.filterMap StorageCall.key :=
    fun call hcall k hk => List.mem_filterMap.mpr ⟨call, hcall, hk⟩
  have hkept : ∀ (w : StorageWorld) (call : StorageCall), call ∈ calls ∧ Meets s3 w call →
      BothHold s3 (calls.filterMap StorageCall.key) w →
      BothHold s3 (calls.filterMap StorageCall.key) (storageStep file s3 w call).2 :=
    fun w call hcall h => (h.step hapart (hkeys call hcall.1) hform hcall.2).1
  have hmet : ∀ e ∈ trace (storageStep file s3) (.fresh bucket) calls,
      e.input ∈ calls ∧ Meets s3 e.before e.input :=
    fun e he => ⟨(mem_trace he).1, hmeets e he⟩
  have hhold := (trace_invariant hkept (.fresh hothers) hmet).1
  intro e he
  obtain ⟨hinput, hmeet⟩ := hmet e he
  have hstep :=
    (@BothHold.step file s3 _ e.before e.input (hhold e he).1 hapart (hkeys e.input hinput)
    hform hmeet).2
  rwa [(mem_trace he).2] at hstep

theorem keyCaptures_drop (n : Nat) (text : List Char) :
    keyCaptures n text = keyCaptures 0 (text.drop n) := by
  induction text generalizing n with
  | nil =>
    rw [List.drop_nil]
    cases n with
    | zero => rfl
    | succ n => rfl
  | cons c text ih =>
    cases n with
    | zero => rfl
    | succ n => exact ih n

def quiet : List Char → Bool
  | [] => true
  | c :: rest => (c != '<' || rest.head?.any (· != 'K')) && quiet rest

theorem keyCaptures_quiet {text rest : List Char} (h : quiet text = true) :
    keyCaptures 0 (text ++ rest) = keyCaptures 0 rest := by
  induction text with
  | nil => rfl
  | cons c text ih =>
    simp only [quiet, Bool.and_eq_true, Bool.or_eq_true, bne_iff_ne] at h
    obtain ⟨hhead, htail⟩ := h
    have hnone : keyAt (c :: (text ++ rest)) = none := by
      rcases hhead with hc | hnext
      · simp [keyAt, List.isPrefixOf, Ne.symm hc]
      · cases text with
        | nil => cases hnext
        | cons d text =>
          have hd : d ≠ 'K' := by simpa using hnext
          simp [keyAt, List.isPrefixOf, Ne.symm hd]
    rw [List.cons_append, keyCaptures, hnone]
    exact ih htail

theorem keyAt_key {name : List Char} (rest : List Char) (hne : name ≠ []) (hname : '<' ∉ name) :
    keyAt ("<Key>".toList ++ (name ++ ("</Key>".toList ++ rest))) = some name := by
  have hbegins :
      "<Key>".toList.isPrefixOf ("<Key>".toList ++ (name ++ ("</Key>".toList ++ rest))) = true := by
    rw [List.isPrefixOf_iff_prefix]
    exact List.prefix_append _ _
  have hname' : ("<Key>".toList ++ (name ++ ("</Key>".toList ++ rest))).drop 5 =
      name ++ ("</Key>".toList ++ rest) := List.drop_left' rfl
  have htake : (name ++ ("</Key>".toList ++ rest)).takeWhile (· != '<') = name := by
    rw [List.takeWhile_append_of_pos]
    · simp
    · intro c hc
      rw [bne_iff_ne]
      rintro rfl
      exact hname hc
  have hend : ("<Key>".toList ++ (name ++ ("</Key>".toList ++ rest))).drop (5 + name.length) =
      "</Key>".toList ++ rest := by
    rw [← List.drop_drop, hname', List.drop_left]
  have hclosed : "</Key>".toList.isPrefixOf ("</Key>".toList ++ rest) = true := by
    rw [List.isPrefixOf_iff_prefix]
    exact List.prefix_append _ _
  rw [keyAt, if_pos hbegins]
  simp only [hname', htake, hend, hclosed, ne_eq, hne, not_false_eq_true, and_self, if_true]

theorem keyCaptures_found {c : Char} {name rest : List Char} (h : keyAt (c :: rest) = some name) :
    keyCaptures 0 (c :: rest) = name :: keyCaptures (name.length + 10) rest := by
  rw [keyCaptures, h]

theorem keyCaptures_key {name : List Char} (rest : List Char) (hne : name ≠ [])
    (hname : '<' ∉ name) :
    keyCaptures 0 ("<Key>".toList ++ (name ++ ("</Key>".toList ++ rest))) =
    name :: keyCaptures 0 rest := by
  have hat := keyAt_key rest hne hname
  have hend :
      (['K', 'e', 'y', '>'] ++ (name ++ ("</Key>".toList ++ rest))).drop (name.length + 10) =
      rest := by
    have hsplit : name.length + 10 = (['K', 'e', 'y', '>'] ++ name ++ "</Key>".toList).length := by
      simp only [List.length_append]
      show name.length + 10 = 4 + name.length + 6
      omega
    rw [hsplit, ← List.append_assoc, ← List.append_assoc, List.drop_left]
  have hfound : keyCaptures 0
      ('<' :: (['K', 'e', 'y', '>'] ++ (name ++ ("</Key>".toList ++ rest)))) =
      name :: keyCaptures (name.length + 10)
        (['K', 'e', 'y', '>'] ++ (name ++ ("</Key>".toList ++ rest))) :=
    keyCaptures_found hat
  rw [keyCaptures_drop (name.length + 10), hend] at hfound
  exact hfound

theorem keyCaptures_entry {before name after rest : List Char} (hbefore : quiet before = true)
    (hne : name ≠ []) (hname : '<' ∉ name) (hafter : quiet after = true) :
    keyCaptures 0 (before ++ ("<Key>".toList ++ (name ++ ("</Key>".toList ++ after))) ++ rest) =
      name :: keyCaptures 0 rest := by
  rw [List.append_assoc, keyCaptures_quiet hbefore, List.append_assoc, List.append_assoc,
    List.append_assoc, keyCaptures_key _ hne hname, keyCaptures_quiet hafter]

theorem quiet_append {text rest : List Char} (htext : quiet text = true)
    (hrest : quiet rest = true) :
    quiet (text ++ rest) = true := by
  induction text with
  | nil => exact hrest
  | cons c text ih =>
    simp only [List.cons_append, quiet, Bool.and_eq_true, Bool.or_eq_true] at htext ⊢
    obtain ⟨hhead, htail⟩ := htext
    refine ⟨hhead.imp_right fun hnext => ?_, ih htail⟩
    cases text with
    | nil => cases hnext
    | cons d text => exact hnext

theorem quiet_of_notMem {text : List Char} (h : '<' ∉ text) : quiet text = true := by
  induction text with
  | nil => rfl
  | cons c text ih =>
    have hc : (c != '<') = true := bne_iff_ne.mpr (Ne.symm (List.ne_of_not_mem_cons h))
    rw [quiet, hc, ih (List.not_mem_of_not_mem_cons h)]
    rfl

/-- The end of an entry: the object's size. -/
def sizeXml (b : Bucket) (name : String) : List Char :=
  "<Size>".toList ++
    (Nat.toDigits 10 ((b.lookup name).getD []).length ++ "</Size></Contents>".toList)

def entryXml (b : Bucket) (name : String) : List Char :=
  "<Contents>".toList ++ ("<Key>".toList ++ (name.toList ++ ("</Key>".toList ++ sizeXml b name)))

def resultXml (b : Bucket) (names : List String) (truncated : Bool) : String :=
  String.ofList ("<ListBucketResult><IsTruncated>".toList ++
    ((if truncated then "true" else "false").toList ++ ("</IsTruncated>".toList ++
      (names.flatMap (entryXml b) ++ "</ListBucketResult>".toList))))

theorem quiet_sizeXml (b : Bucket) (name : String) : quiet (sizeXml b name) = true := by
  have hopen : quiet "<Size>".toList = true := by decide +kernel
  have hclose : quiet "</Size></Contents>".toList = true := by decide +kernel
  have hdigits : '<' ∉ Nat.toDigits 10 ((b.lookup name).getD []).length := by
    intro h
    exact absurd (Nat.isDigit_of_mem_toDigits (by decide) (by decide) h) (by decide)
  exact quiet_append hopen (quiet_append (quiet_of_notMem hdigits) hclose)

theorem keyCaptures_entries {b : Bucket} {names : List String} {rest : List Char}
    (hrest : quiet rest = true) (hplain : ∀ name ∈ names, PlainName name) :
    keyCaptures 0 (names.flatMap (entryXml b) ++ rest) = names.map String.toList := by
  induction names with
  | nil =>
    have hquiet := @keyCaptures_quiet rest [] hrest
    rwa [List.append_nil] at hquiet
  | cons name names ih =>
    have hnames := ih fun n hn => hplain n (List.mem_cons_of_mem name hn)
    obtain ⟨hne, hchars⟩ := hplain name List.mem_cons_self
    have hname : '<' ∉ name.toList := by
      intro h
      rcases hchars '<' h with hkey | hslash
      · cases hkey
      · cases hslash
    have hnonempty : name.toList ≠ [] := fun hnil => hne (String.toList_eq_nil_iff.mp hnil)
    have hopen : quiet "<Contents>".toList = true := by decide +kernel
    have hsplit : (name :: names).flatMap (entryXml b) ++ rest =
        entryXml b name ++ (names.flatMap (entryXml b) ++ rest) := by
      rw [List.flatMap_cons, List.append_assoc]
    calc keyCaptures 0 ((name :: names).flatMap (entryXml b) ++ rest)
        = keyCaptures 0 (entryXml b name ++ (names.flatMap (entryXml b) ++ rest)) :=
          congrArg _ hsplit
      _ = name.toList :: keyCaptures 0 (names.flatMap (entryXml b) ++ rest) :=
          keyCaptures_entry hopen hnonempty hname (quiet_sizeXml b name)
      _ = (name :: names).map String.toList := by rw [hnames, List.map_cons]

theorem keyCaptures_resultXml (b : Bucket) (names : List String) (truncated : Bool)
    (hplain : ∀ name ∈ names, PlainName name) :
    keyCaptures 0 (resultXml b names truncated).toList = names.map String.toList := by
  have hflag : quiet (if truncated then "true" else "false").toList = true := by
    cases truncated with
    | false => decide +kernel
    | true => decide +kernel
  have hopen : quiet "<ListBucketResult><IsTruncated>".toList = true := by decide +kernel
  have hclose : quiet "</IsTruncated>".toList = true := by decide +kernel
  have hend : quiet "</ListBucketResult>".toList = true := by decide +kernel
  calc keyCaptures 0 (resultXml b names truncated).toList
      = keyCaptures 0 ("<ListBucketResult><IsTruncated>".toList ++
          ((if truncated then "true" else "false").toList ++ ("</IsTruncated>".toList ++
            (names.flatMap (entryXml b) ++ "</ListBucketResult>".toList)))) :=
        congrArg _ String.toList_ofList
    _ = keyCaptures 0 ((if truncated then "true" else "false").toList ++ ("</IsTruncated>".toList ++
            (names.flatMap (entryXml b) ++ "</ListBucketResult>".toList))) :=
        keyCaptures_quiet hopen
    _ = keyCaptures 0 ("</IsTruncated>".toList ++
            (names.flatMap (entryXml b) ++ "</ListBucketResult>".toList)) := keyCaptures_quiet hflag
    _ = keyCaptures 0 (names.flatMap (entryXml b) ++ "</ListBucketResult>".toList) :=
      keyCaptures_quiet hclose
    _ = names.map String.toList := keyCaptures_entries hend hplain

def honestServer : S3Server where
  pageSize := 1000
  pageSize_le := Nat.le_refl 1000
  order := id
  order_perm _ := .refl _
  listXml b _ _ names truncated := resultXml b names truncated
  listXml_keys b _ _ names truncated := keyCaptures_resultXml b names truncated
  notFoundBody := []
  statusText := Nat.repr
  send body := (some body.length, [body])
  send_chunks _ := by simp
  send_declared _ _ hn := (Option.some.inj hn).symm

theorem listable_of_dirs {t : FileTree} {p : ObjectPrefix} (hdir : t.IsDir p.path)
    (hdirs : t.dirs = [p.path]) (hlast : p.last = none) : FileStorage.Listable t p := by
  have hpath : p.path = p.dir := by simp [ObjectPrefix.path, hlast]
  rw [FileStorage.Listable, if_pos hdir]
  constructor
  · intro n hn
    rw [hdirs, List.mem_singleton] at hn
    simp at hn
  · rintro path _ ⟨y, rest, rfl, _⟩
    rw [hpath]
    exact List.prefix_append _ _

def chunksSegment : Segment := ⟨"chunks".toList, by decide, by decide, by decide, by decide⟩

def abSegment : Segment := ⟨"ab".toList, by decide, by decide, by decide, by decide⟩

def cdSegment : Segment := ⟨"cd".toList, by decide, by decide, by decide, by decide⟩

def abKey : ObjectKey := ⟨[chunksSegment, abSegment], by decide⟩

def cdKey : ObjectKey := ⟨[chunksSegment, cdSegment], by decide⟩

def localFiles : FileStorage where
  root := "/data"
  ioText
    | .notFound => "No such file or directory (os error 2)"
    | .notADirectory => "Not a directory (os error 20)"
    | .isADirectory => "Is a directory (os error 21)"
    | .alreadyExists => "File exists (os error 17)"
  order := id
  order_perm _ := .refl _

/-- A bucket with `vault/` before every key, over pages of the given size. -/
def vaultBucket (pageSize : Nat) (h : pageSize ≤ 1000) : S3Storage :=
  ⟨⟨"backup", some "vault", 64 * 1024 * 1024⟩,
    { honestServer with pageSize := pageSize, pageSize_le := h }⟩

def storeAndSweep : List StorageCall :=
  [.upload abKey [1, 2], .list ⟨[chunksSegment], none⟩, .download abKey, .exists_ abKey,
    .delete abKey]

theorem storage_runs_sample :
    RunSound localFiles (vaultBucket 1000 (by decide)) ∅ storeAndSweep := by
  have hapart : KeysApart (storeAndSweep.filterMap StorageCall.key) := by
    unfold KeysApart
    decide +kernel
  have hform : (vaultBucket 1000 (by decide)).config.KeyForm := by
    rintro start ⟨⟩
    refine ⟨⟨[⟨"vault".toList, ?_, ?_, ?_, ?_⟩], ?_⟩, ?_⟩ <;> decide +kernel
  apply storage_runs localFiles (vaultBucket 1000 (by decide)) ∅ storeAndSweep hapart hform
  · intro name hname
    exact absurd hname (AList.notMem_empty name)
  · intro e he
    simp only [storeAndSweep, trace, List.mem_cons, List.not_mem_nil, or_false] at he
    rcases he with rfl | rfl | rfl | rfl | rfl
    · trivial
    · refine ⟨listable_of_dirs (by decide +kernel) (by decide +kernel) rfl, ?_, ?_⟩
      · decide +kernel
      · decide +kernel
    · show ∀ data ∈ _, _
      decide +kernel
    · trivial
    · show Option.isSome _ = true
      decide +kernel

theorem not_sound_of_disagreement {bucket : Bucket} {calls : List StorageCall} {e : StorageEntry}
    (he : e ∈ trace (storageStep file s3) (.fresh bucket) calls) {left right : StorageAnswer}
    (hanswers : e.output = (left, right)) (h : ¬ Agree left right) :
    ¬ RunSound file s3 bucket calls := by
  intro hsound
  have hagree := (hsound e he).agree
  rw [hanswers] at hagree
  exact h hagree

theorem listed_disagreement {bucket : Bucket} {calls : List StorageCall} {p : ObjectPrefix}
    {xs ys : List String}
    (he : (⟨w, .list p, (storageStep file s3 w (.list p)).1,
      (storageStep file s3 w (.list p)).2⟩ : StorageEntry) ∈
      trace (storageStep file s3) (.fresh bucket) calls)
    (hfile : file.list w.tree p = .ok xs) (hs3 : s3.list w.bucket w.moment p.text = .ok ys)
    (h : ¬ xs.Perm ys) :
    ¬ RunSound file s3 bucket calls := by
  have hanswers : (storageStep file s3 w (.list p)).1 = (.ok (.names xs), .ok (.names ys)) := by
    show (Except.map StorageReply.names (file.list w.tree p),
      Except.map StorageReply.names (s3.list w.bucket w.moment p.text)) = _
    rw [hfile, hs3]
    rfl
  exact not_sound_of_disagreement he hanswers h

def stored (s3 : S3Storage) (keys : List ObjectKey) : StorageWorld :=
  final (storageStep localFiles s3) (.fresh ∅) (keys.map fun k => .upload k [1])

/-- Deleting a key that is not stored: an error of the one, done for the other.
Listing everything: the directory of the one stored key, and the key. Listing
two keys at one a page: both of them, and the first. -/
theorem storages_disagree_sample :
    ¬ RunSound localFiles (vaultBucket 1000 (by decide)) ∅ [.delete abKey] ∧
      ¬ RunSound localFiles (vaultBucket 1000 (by decide)) ∅ [.upload abKey [1], .list ⟨[], none⟩] ∧
      ¬ RunSound localFiles (vaultBucket 1 (by decide)) ∅
        [.upload abKey [1], .upload cdKey [1], .list ⟨[chunksSegment], none⟩] := by
  refine ⟨?_, ?_, ?_⟩
  · have hanswers :
        (storageStep localFiles (vaultBucket 1000 (by decide)) (.fresh ∅) (.delete abKey)).1 =
        (.error (.storage "File not found: \"/data/chunks/ab\""), .ok .done) := by decide +kernel
    exact not_sound_of_disagreement List.mem_cons_self hanswers not_false
  · have hfile : localFiles.list (stored (vaultBucket 1000 (by decide)) [abKey]).tree ⟨[], none⟩ =
        .ok ["chunks"] := by decide +kernel
    have hs3 :
        (vaultBucket 1000 (by decide)).list (stored (vaultBucket 1000 (by decide)) [abKey]).bucket 1
        (ObjectPrefix.text ⟨[], none⟩) = .ok ["chunks/ab"] := by
      have hpage : (vaultBucket 1000 (by decide)).server.page
          (stored (vaultBucket 1000 (by decide)) [abKey]).bucket
          ((vaultBucket 1000 (by decide)).config.objectKey (ObjectPrefix.text ⟨[], none⟩)) =
          ["vault/chunks/ab"] := by decide +kernel
      have hplain : PlainName "vault/chunks/ab" :=
        plainName_of_all (by decide) (by decide +kernel)
      rw [list_single hpage hplain (by decide +kernel)]
      decide +kernel
    exact listed_disagreement (List.mem_cons_of_mem _ List.mem_cons_self) hfile hs3
      (by decide +kernel)
  · have hfile : localFiles.list (stored (vaultBucket 1 (by decide)) [abKey, cdKey]).tree
        ⟨[chunksSegment], none⟩ = .ok ["chunks/cd", "chunks/ab"] := by decide +kernel
    have hs3 : (vaultBucket 1 (by decide)).list
        (stored (vaultBucket 1 (by decide)) [abKey, cdKey]).bucket 2
        (ObjectPrefix.text ⟨[chunksSegment], none⟩) = .ok ["chunks/cd"] := by
      have hpage : (vaultBucket 1 (by decide)).server.page
          (stored (vaultBucket 1 (by decide)) [abKey, cdKey]).bucket
          ((vaultBucket 1 (by decide)).config.objectKey
            (ObjectPrefix.text ⟨[chunksSegment], none⟩)) =
          ["vault/chunks/cd"] := by decide +kernel
      have hplain : PlainName "vault/chunks/cd" :=
        plainName_of_all (by decide) (by decide +kernel)
      rw [list_single hpage hplain (by decide +kernel)]
      decide +kernel
    exact listed_disagreement
      (List.mem_cons_of_mem _ (List.mem_cons_of_mem _ List.mem_cons_self)) hfile hs3
      (by decide +kernel)

end GitCellar
