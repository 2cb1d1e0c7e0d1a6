import GitCellar.BodyRead
import GitCellar.FileStorage

/-! Keys stored as objects of a bucket, over an S3-compatible server. -/

namespace GitCellar

open Utf8

/-- A match of `<Key>([^<]+)</Key>` at the start of the text. -/
def keyAt (text : List Char) : Option (List Char) :=
  if "<Key>".toList.isPrefixOf text then
    let name := (text.drop 5).takeWhile (· != '<')
    if name ≠ [] ∧ "</Key>".toList.isPrefixOf (text.drop (5 + name.length)) then some name else none
  else none

/-- The captures of all matches; `skip` characters of the last one are left. -/
def keyCaptures : Nat → List Char → List (List Char)
  | _, [] => []
  | skip + 1, _ :: rest => keyCaptures skip rest
  | 0, c :: rest =>
    match keyAt (c :: rest) with
    | some name => name :: keyCaptures (name.length + 10) rest
    | none => keyCaptures 0 rest

abbrev Bucket := AList fun _ : String => Bytes

/-- The requests as the server understands them: a URL names its object, and
every signature is good. -/
inductive S3Request where
  | put (key : String) (data : Bytes)
  | get (key : String)
  | head (key : String)
  | delete (key : String)
  | list (start : String)

/-- A name that XML writes as it stands. -/
def PlainName (name : String) : Prop :=
  name ≠ "" ∧ ∀ c ∈ name.toList, isKeyChar c = true ∨ c = '/'

theorem plainName_of_all {name : String} (hne : name ≠ "")
    (h : (name.toList.all fun c => isKeyChar c || c == '/') = true) : PlainName name := by
  refine ⟨hne, ?_⟩
  intro c hc
  simpa using List.all_eq_true.mp h c hc

/-- An honest server. A listing is one page of the names in the server's order; the XML says
whether there are more, and what it may of the prefix, the objects and the moment. -/
structure S3Server where
  pageSize : Nat
  pageSize_le : pageSize ≤ 1000
  order : List String → List String
  order_perm : ∀ names, (order names).Perm names
  listXml : Bucket → Nat → String → List String → Bool → String
  listXml_keys : ∀ b moment start names truncated, (∀ name ∈ names, PlainName name) →
    keyCaptures 0 (listXml b moment start names truncated).toList = names.map String.toList
  notFoundBody : Bytes
  statusText : Nat → String
  send : Bytes → Option Nat × List Bytes
  send_chunks : ∀ body, (send body).2.flatten = body
  send_declared : ∀ body, ∀ n ∈ (send body).1, n = body.length

def S3Server.respond (srv : S3Server) (status : Nat) (body : Bytes) : Response :=
  ⟨status, srv.statusText status, (srv.send body).1, (srv.send body).2, none⟩

def matchingNames (b : Bucket) (start : String) : List String :=
  b.keys.filter fun name => start.toList.isPrefixOf name.toList

def S3Server.page (srv : S3Server) (b : Bucket) (start : String) : List String :=
  (srv.order (matchingNames b start)).take srv.pageSize

def S3Server.listing (srv : S3Server) (b : Bucket) (moment : Nat) (start : String) : String :=
  srv.listXml b moment start (srv.page b start) (srv.pageSize < (matchingNames b start).length)

def S3Server.handle (srv : S3Server) (b : Bucket) (moment : Nat) : S3Request → Response × Bucket
  | .put key data => (srv.respond 200 [], b.insert key data)
  | .get key =>
    match b.lookup key with
    | some data => (srv.respond 200 data, b)
    | none => (srv.respond 404 srv.notFoundBody, b)
  | .head key => (srv.respond (if (b.lookup key).isSome then 200 else 404) [], b)
  | .delete key => (srv.respond 204 [], b.erase key)
  | .list start => (srv.respond 200 (utf8 (srv.listing b moment start)), b)

structure S3Config where
  bucket : String
  keyPrefix : Option String
  maxObjectBytes : Nat

def S3Config.objectKey (cfg : S3Config) (path : String) : String :=
  match cfg.keyPrefix with
  | some start => start ++ "/" ++ path
  | none => path

/-- `str::strip_prefix`, or the text itself. -/
def stripStart (start text : String) : String :=
  if start.toList.isPrefixOf text.toList then String.ofList
    (text.toList.drop start.toList.length) else text

def S3Config.relative (cfg : S3Config) (key : String) : String :=
  match cfg.keyPrefix with
  | some start => stripStart (start ++ "/") key
  | none => key

structure S3Storage where
  config : S3Config
  server : S3Server

variable (s : S3Storage) (b : Bucket) (moment : Nat)

def S3Storage.shown (key : String) : String := "s3://" ++ s.config.bucket ++ "/" ++ key

def failedWith (action : String) (r : Response) : VaultError :=
  .storage (action ++ " failed with status " ++ r.statusText ++ ": " ++
    readTextBounded r maxDiagnosticBytes)

def S3Storage.upload (path : String) (data : Bytes) : Except VaultError Unit × Bucket :=
  let (response, bucket) := s.server.handle b moment (.put (s.config.objectKey path) data)
  if !response.isSuccess then (.error (failedWith "Upload" response), bucket) else (.ok (), bucket)

def S3Storage.download (path : String) : Except VaultError Bytes :=
  let key := s.config.objectKey path
  let response := (s.server.handle b moment (.get key)).1
  if response.status = 404 then .error (.storage ("Object not found: " ++ s.shown key))
  else if !response.isSuccess then .error (failedWith "Download" response)
  else
    match readBodyBounded response s.config.maxObjectBytes with
    | .ok data => .ok data
    | .error (.io msg) => .error (.network ("Failed to read response body: " ++ msg))
    | .error e => .error (.storage ("refusing " ++ s.shown key ++ ": " ++ e.toString))

def S3Storage.exists (path : String) : Except VaultError Bool :=
  .ok (s.server.handle b moment (.head (s.config.objectKey path))).1.isSuccess

/-- One page, whether or not the server says that there are more. -/
def S3Storage.list (start : String) : Except VaultError (List String) :=
  let response := (s.server.handle b moment (.list (s.config.objectKey start))).1
  if !response.isSuccess then .error (failedWith "List" response)
  else
    match readBodyBounded response s.config.maxObjectBytes with
    | .error e => .error (.network ("Failed to read list response: " ++ e.toString))
    | .ok bytes =>
      .ok ((keyCaptures 0 (fromUtf8Lossy bytes).toList).map fun name =>
        s.config.relative (String.ofList name))

def S3Storage.delete (path : String) : Except VaultError Unit × Bucket :=
  let (response, bucket) := s.server.handle b moment (.delete (s.config.objectKey path))
  if !response.isSuccess ∧ response.status ≠ 404 then
    (.error (failedWith "Delete" response), bucket)
  else (.ok (), bucket)

/-- The configured start of all keys, where there is one, is of key form. -/
def S3Config.KeyForm (cfg : S3Config) : Prop :=
  ∀ start ∈ cfg.keyPrefix, ∃ k : ObjectKey, start = k.text

/-- The bucket holds the map. Other objects may be there, none of them under
the configured start. -/
structure BucketHolds (cfg : S3Config) (b : Bucket) (m : KeyMap) : Prop where
  stored : ∀ k, b.lookup (cfg.objectKey k.text) = m k
  owned : ∀ name ∈ b, (cfg.objectKey "").toList <+: name.toList →
    ∃ k : ObjectKey, name = cfg.objectKey k.text

/-- The matching names fit on one page, and the page under the ceiling. -/
def S3Storage.Listable (p : ObjectPrefix) : Prop :=
  (matchingNames b (s.config.objectKey p.text)).length ≤ s.server.pageSize ∧
    (utf8 (s.server.listing b moment (s.config.objectKey p.text))).length ≤ s.config.maxObjectBytes

variable {s b moment} {m : KeyMap} {k : ObjectKey} {p : ObjectPrefix} {data : Bytes}
    {cfg : S3Config}
  {srv : S3Server}

theorem readBodyBounded_respond {status max : Nat} {body : Bytes} (h : body.length ≤ max) :
    readBodyBounded (srv.respond status body) max = .ok body := by
  have hbody : (srv.respond status body).body = body := srv.send_chunks body
  have hdeclared : (srv.respond status body).DeclaresAtMost max := by
    intro declared hdeclared
    rw [srv.send_declared body declared hdeclared]
    exact h
  have hfits : (srv.respond status body).Fits max := ⟨hdeclared, rfl, by rwa [hbody]⟩
  exact readBodyBounded_eq_ok_iff.mpr ⟨hfits, hbody.symm⟩

theorem objectKey_prefix_iff {start path : String} :
    (cfg.objectKey start).toList <+: (cfg.objectKey path).toList ↔
    start.toList <+: path.toList := by
  cases hprefix : cfg.keyPrefix with
  | none => simp only [S3Config.objectKey, hprefix]
  | some base =>
    simp only [S3Config.objectKey, hprefix, String.toList_append, List.prefix_append_right_inj]

theorem objectKey_injective {path path' : String} (h : cfg.objectKey path = cfg.objectKey path') :
    path = path' := by
  have hto : (cfg.objectKey path).toList <+: (cfg.objectKey path').toList := by rw [h]
  have hfrom : (cfg.objectKey path').toList <+: (cfg.objectKey path).toList := by rw [h]
  exact String.toList_injective
    ((objectKey_prefix_iff.mp hto).eq_of_length_le (objectKey_prefix_iff.mp hfrom).length_le)

theorem stripStart_append (start path : String) : stripStart start (start ++ path) = path := by
  have hbegins : start.toList.isPrefixOf (start ++ path).toList = true := by
    rw [List.isPrefixOf_iff_prefix, String.toList_append]
    exact List.prefix_append _ _
  rw [stripStart, if_pos hbegins, String.toList_append, List.drop_left, String.ofList_toList]

theorem relative_objectKey {path : String} : cfg.relative (cfg.objectKey path) = path := by
  cases hstart : cfg.keyPrefix with
  | none => simp only [S3Config.relative, S3Config.objectKey, hstart]
  | some start =>
    simp only [S3Config.relative, S3Config.objectKey, hstart]
    exact stripStart_append _ _

theorem objectKey_plain (hform : cfg.KeyForm) : PlainName (cfg.objectKey k.text) := by
  cases hstart : cfg.keyPrefix with
  | none =>
    simp only [S3Config.objectKey, hstart]
    exact ⟨text_ne_empty k, text_chars k⟩
  | some start =>
    obtain ⟨base, rfl⟩ := hform start hstart
    simp only [S3Config.objectKey, hstart]
    constructor
    · intro h
      have hlist := congrArg String.toList h
      simp at hlist
    · intro c hc
      simp only [String.toList_append, List.mem_append] at hc
      rcases hc with (hbase | hslash) | hpath
      · exact text_chars base c hbase
      · exact .inr (by simpa using hslash)
      · exact text_chars k c hpath

theorem BucketHolds.mem (h : BucketHolds cfg b m) : cfg.objectKey k.text ∈ b ↔ (m k).isSome := by
  rw [← AList.lookup_isSome, h.stored]

theorem BucketHolds.insert (h : BucketHolds cfg b m) (k : ObjectKey) (data : Bytes) :
    BucketHolds cfg (b.insert (cfg.objectKey k.text) data) (Function.update m k (some data)) := by
  constructor
  · intro k'
    by_cases hsame : k' = k
    · subst hsame
      rw [AList.lookup_insert, Function.update_self]
    · rw [Function.update_of_ne hsame, AList.lookup_insert_ne, h.stored]
      exact fun htext => hsame (ObjectKey.text_injective (objectKey_injective htext))
  · intro name hname hbegins
    rcases (AList.mem_insert _).mp hname with rfl | hold
    · exact ⟨k, rfl⟩
    · exact h.owned name hold hbegins

theorem BucketHolds.erase (h : BucketHolds cfg b m) (k : ObjectKey) :
    BucketHolds cfg (b.erase (cfg.objectKey k.text)) (Function.update m k none) := by
  constructor
  · intro k'
    by_cases hsame : k' = k
    · subst hsame
      rw [AList.lookup_erase, Function.update_self]
    · rw [Function.update_of_ne hsame, AList.lookup_erase_ne, h.stored]
      exact fun htext => hsame (ObjectKey.text_injective (objectKey_injective htext))
  · intro name hname hbegins
    exact h.owned name (AList.mem_erase.mp hname).2 hbegins

theorem BucketHolds.exists_eq (h : BucketHolds s.config b m) (k : ObjectKey) :
    s.exists b moment k.text = .ok (m k).isSome := by
  have hlookup := h.stored k
  simp only [S3Storage.exists, S3Server.handle, hlookup]
  cases m k with
  | none => rfl
  | some data => rfl

theorem BucketHolds.download_stored (h : BucketHolds s.config b m) (hm : m k = some data)
    (hsize : data.length ≤ s.config.maxObjectBytes) : s.download b moment k.text = .ok data := by
  have hlookup : b.lookup (s.config.objectKey k.text) = some data := (h.stored k).trans hm
  have hread : readBodyBounded (s.server.respond 200 data) s.config.maxObjectBytes = .ok data :=
    readBodyBounded_respond hsize
  simp only [S3Storage.download, S3Server.handle, hlookup, hread]
  rfl

theorem BucketHolds.download_missing (h : BucketHolds s.config b m) (hm : m k = none) :
    ∃ e, s.download b moment k.text = .error e := by
  have hlookup : b.lookup (s.config.objectKey k.text) = none := (h.stored k).trans hm
  simp only [S3Storage.download, S3Server.handle, hlookup]
  exact ⟨_, rfl⟩

theorem BucketHolds.mem_matchingNames (h : BucketHolds cfg b m) {name : String} :
    name ∈ matchingNames b (cfg.objectKey p.text) ↔
      ∃ k, (m k).isSome ∧ p.text.toList <+: k.text.toList ∧ name = cfg.objectKey k.text := by
  simp only [matchingNames, List.mem_filter, List.isPrefixOf_iff_prefix]
  constructor
  · rintro ⟨hname, hbegins⟩
    have hroot : (cfg.objectKey "").toList <+: (cfg.objectKey p.text).toList :=
      objectKey_prefix_iff.mpr (by simp)
    obtain ⟨k, rfl⟩ := h.owned name (AList.mem_keys.mpr hname) (hroot.trans hbegins)
    exact ⟨k, h.mem.mp (AList.mem_keys.mpr hname), objectKey_prefix_iff.mp hbegins, rfl⟩
  · rintro ⟨k, hk, hbegins, rfl⟩
    exact ⟨AList.mem_keys.mp (h.mem.mpr hk), objectKey_prefix_iff.mpr hbegins⟩

theorem list_page {start : String}
    (hplain : ∀ name ∈ s.server.page b (s.config.objectKey start), PlainName name)
    (hsize : (utf8 (s.server.listing b moment (s.config.objectKey start))).length ≤
      s.config.maxObjectBytes) :
    s.list b moment start =
      .ok ((s.server.page b (s.config.objectKey start)).map s.config.relative) := by
  have hread : readBodyBounded
      (s.server.respond 200 (utf8 (s.server.listing b moment (s.config.objectKey start))))
      s.config.maxObjectBytes = .ok (utf8 (s.server.listing b moment (s.config.objectKey start))) :=
    readBodyBounded_respond hsize
  have hcaptures : keyCaptures 0 (s.server.listing b moment (s.config.objectKey start)).toList =
      (s.server.page b (s.config.objectKey start)).map String.toList :=
    s.server.listXml_keys _ _ _ _ _ hplain
  have hok : ∀ body, (s.server.respond 200 body).isSuccess = true := fun _ => rfl
  simp only [S3Storage.list, S3Server.handle, hok, hread, fromUtf8Lossy_utf8,
    hcaptures, List.map_map]
  simp [Function.comp_def, String.ofList_toList]

theorem list_single {start name : String}
    (hpage : s.server.page b (s.config.objectKey start) = [name]) (hname : PlainName name)
    (hsize : (utf8 (s.server.listing b moment (s.config.objectKey start))).length ≤
      s.config.maxObjectBytes) :
    s.list b moment start = .ok [s.config.relative name] := by
  have hplain : ∀ listed ∈ s.server.page b (s.config.objectKey start), PlainName listed := by
    rw [hpage]
    exact List.forall_mem_singleton.mpr hname
  rw [list_page hplain hsize, hpage, List.map_singleton]

theorem BucketHolds.list_ok (h : BucketHolds s.config b m) (hform : s.config.KeyForm)
    (hlist : s.Listable b moment p) :
    ∃ names, s.list b moment p.text = .ok names ∧ Lists m p names := by
  obtain ⟨hpage, hsize⟩ := hlist
  have hwhole : s.server.page b (s.config.objectKey p.text) =
      s.server.order (matchingNames b (s.config.objectKey p.text)) := by
    apply List.take_of_length_le
    rw [(s.server.order_perm _).length_eq]
    exact hpage
  have hmem : ∀ name, name ∈ s.server.page b (s.config.objectKey p.text) ↔
      ∃ k, (m k).isSome ∧ p.text.toList <+: k.text.toList ∧ name = s.config.objectKey k.text := by
    intro name
    rw [hwhole, (s.server.order_perm _).mem_iff, h.mem_matchingNames]
  have hplain : ∀ name ∈ s.server.page b (s.config.objectKey p.text), PlainName name := by
    intro name hname
    obtain ⟨k, _, _, rfl⟩ := (hmem name).mp hname
    exact objectKey_plain hform
  have hnodup : (s.server.page b (s.config.objectKey p.text)).Nodup := by
    rw [hwhole, (s.server.order_perm _).nodup_iff]
    exact b.keys_nodup.filter _
  refine ⟨_, list_page hplain hsize, ?_, ?_⟩
  · apply List.Nodup.map_on _ hnodup
    intro x hx y hy hxy
    obtain ⟨k, _, _, rfl⟩ := (hmem x).mp hx
    obtain ⟨k', _, _, rfl⟩ := (hmem y).mp hy
    rw [relative_objectKey, relative_objectKey] at hxy
    rw [hxy]
  · intro text
    simp only [List.mem_map, hmem]
    constructor
    · rintro ⟨name, ⟨k, hk, hbegins, rfl⟩, rfl⟩
      exact ⟨k, hk, hbegins, relative_objectKey⟩
    · rintro ⟨k, hk, hbegins, rfl⟩
      exact ⟨_, ⟨k, hk, hbegins, rfl⟩, relative_objectKey⟩

end GitCellar
