import GitCellar.Broadcast
import GitCellar.Chunking
import GitCellar.HexText
import GitCellar.Joined
import GitCellar.S3Storage
import Mathlib.Data.List.TakeWhile
import Mathlib.Data.String.Basic

/-! The requests of the S3 backend as they leave, each with its AWS Signature
Version 4 (`S3Storage::sign_request`): what an authorization is good for. -/

namespace GitCellar

open Utf8 Joined

structure ParsedUrl where
  host : Option String
  path : String
  query : Option String
  deriving DecidableEq

abbrev FreeOf (c : Char) (s : String) : Prop := c ∉ s.toList

/-- The URL parser, which drops line breaks, the clock's `%Y%m%d` and `%H%M%S`,
and the hashes. -/
structure SigningEnv where
  parseUrl : String → Except String ParsedUrl
  encode : String → String
  dateStamp : DateTime → String
  timeStamp : DateTime → String
  sha256 : Bytes → Digest
  hmacSha256 : Bytes → Bytes → Digest
  host_line : ∀ url u host, parseUrl url = .ok u → u.host = some host → FreeOf '\n' host
  path_line : ∀ url u, parseUrl url = .ok u → FreeOf '\n' u.path
  query_line : ∀ url u query, parseUrl url = .ok u → u.query = some query → FreeOf '\n' query
  dateStamp_line : ∀ t, FreeOf '\n' (dateStamp t) ∧ FreeOf 'T' (dateStamp t)
  timeStamp_line : ∀ t, FreeOf '\n' (timeStamp t)

/-- The rest of the source's `S3Config`. -/
structure S3Account where
  config : S3Config
  endpoint : String
  accessKeyId : String
  secretAccessKey : String
  region : String

def defaultMaxObjectBytes : Nat := 64 * 1024 * 1024

namespace S3Account

def aws (accessKey secretKey bucket region : String) : S3Account where
  config := ⟨bucket, none, defaultMaxObjectBytes⟩
  endpoint := "https://s3." ++ region ++ ".amazonaws.com"
  accessKeyId := accessKey
  secretAccessKey := secretKey
  region := region

def objectUrl (acct : S3Account) (key : String) : String :=
  acct.endpoint ++ "/" ++ acct.config.bucket ++ "/" ++ key

def listUrl (acct : S3Account) (env : SigningEnv) (start : String) : String :=
  acct.endpoint ++ "/" ++ acct.config.bucket ++ "?list-type=2&prefix=" ++
    env.encode (acct.config.objectKey start)

end S3Account

/-- What `sign_request` puts together before it signs. -/
structure SigningInput where
  secret : String
  region : String
  now : DateTime
  method : String
  host : String
  canonicalUri : String
  canonicalQuerystring : String
  payloadHash : String

namespace SigningInput

variable (env : SigningEnv) (c : SigningInput)

def dateStamp : String := env.dateStamp c.now

def amzDate : String := env.dateStamp c.now ++ "T" ++ env.timeStamp c.now ++ "Z"

/-- `canonical_headers.sort()` -/
def canonicalHeaders : List String :=
  ["host:" ++ c.host, "x-amz-content-sha256:" ++ c.payloadHash,
    "x-amz-date:" ++ c.amzDate env].mergeSort fun a b => decide (a ≤ b)

def canonicalHeadersStr : String :=
  String.ofList (['\n'].intercalate ((c.canonicalHeaders env).map String.toList)) ++ "\n"

def signedHeaders : String := "host;x-amz-content-sha256;x-amz-date"

def canonicalRequest : String :=
  c.method ++ "\n" ++ c.canonicalUri ++ "\n" ++ c.canonicalQuerystring ++ "\n" ++
    c.canonicalHeadersStr env ++ "\n" ++ signedHeaders ++ "\n" ++ c.payloadHash

def credentialScope : String := c.dateStamp env ++ "/" ++ c.region ++ "/s3/aws4_request"

def canonicalRequestHash : String := hexEncode (env.sha256 (utf8 (c.canonicalRequest env))).toList

def stringToSign : String :=
  "AWS4-HMAC-SHA256\n" ++ c.amzDate env ++ "\n" ++ c.credentialScope env ++ "\n" ++
    c.canonicalRequestHash env

def signingKey : Bytes :=
  let kDate := env.hmacSha256 (utf8 ("AWS4" ++ c.secret)) (utf8 (c.dateStamp env))
  let kRegion := env.hmacSha256 kDate.toList (utf8 c.region)
  let kService := env.hmacSha256 kRegion.toList (utf8 "s3")
  (env.hmacSha256 kService.toList (utf8 "aws4_request")).toList

def mac : Digest := env.hmacSha256 (c.signingKey env) (utf8 (c.stringToSign env))

def signature : String := hexEncode (c.mac env).toList

def authorization (accessKeyId : String) : String :=
  "AWS4-HMAC-SHA256 Credential=" ++ accessKeyId ++ "/" ++ c.credentialScope env ++
    ", SignedHeaders=" ++ signedHeaders ++ ", Signature=" ++ c.signature env

def headers (accessKeyId : String) : List (String × String) :=
  [("Authorization", c.authorization env accessKeyId), ("x-amz-date", c.amzDate env),
    ("x-amz-content-sha256", c.payloadHash), ("Host", c.host)]

end SigningInput

/-- `sign_request` up to the request's text. -/
def S3Account.signingInput (acct : S3Account) (env : SigningEnv) (now : DateTime)
    (method url payloadHash : String) : Except VaultError SigningInput :=
  match env.parseUrl url with
  | .error e => .error (.network ("Invalid URL: " ++ e))
  | .ok parsedUrl =>
    match parsedUrl.host with
    | none => .error (.network "URL has no host")
    | some host =>
      .ok ⟨acct.secretAccessKey, acct.region, now, method, host, parsedUrl.path,
        parsedUrl.query.getD "", payloadHash⟩

def S3Account.signRequest (acct : S3Account) (env : SigningEnv) (now : DateTime)
    (method url payloadHash : String) : Except VaultError (List (String × String)) :=
  (acct.signingInput env now method url payloadHash).map
    (SigningInput.headers env · acct.accessKeyId)

def payloadHash (env : SigningEnv) (data : Bytes) : String := hexEncode (env.sha256 data).toList

/-- A call of the backend. -/
inductive S3Act where
  | upload (path : String) (data : Bytes)
  | download (path : String)
  | head (path : String)
  | list (start : String)
  | delete (path : String)

structure SentRequest where
  method : String
  url : String
  headers : List (String × String)
  body : Bytes

namespace S3Act

def method : S3Act → String
  | .upload _ _ => "PUT"
  | .download _ => "GET"
  | .head _ => "HEAD"
  | .list _ => "GET"
  | .delete _ => "DELETE"

def url (acct : S3Account) (env : SigningEnv) : S3Act → String
  | .upload path _ => acct.objectUrl (acct.config.objectKey path)
  | .download path => acct.objectUrl (acct.config.objectKey path)
  | .head path => acct.objectUrl (acct.config.objectKey path)
  | .list start => acct.listUrl env start
  | .delete path => acct.objectUrl (acct.config.objectKey path)

def body : S3Act → Bytes
  | .upload _ data => data
  | _ => []

/-- The request that the server sees in it. -/
def request (cfg : S3Config) : S3Act → S3Request
  | .upload path data => .put (cfg.objectKey path) data
  | .download path => .get (cfg.objectKey path)
  | .head path => .head (cfg.objectKey path)
  | .list start => .list (cfg.objectKey start)
  | .delete path => .delete (cfg.objectKey path)

/-- Its path is a key. -/
def Keyed : S3Act → Prop
  | .upload path _ => ∃ k : ObjectKey, path = k.text
  | .download path => ∃ k : ObjectKey, path = k.text
  | .head path => ∃ k : ObjectKey, path = k.text
  | .list _ => True
  | .delete path => ∃ k : ObjectKey, path = k.text

end S3Act

namespace S3Account

variable (acct : S3Account) (env : SigningEnv) (now : DateTime) (act : S3Act)

def signed : Except VaultError SigningInput :=
  acct.signingInput env now act.method (act.url acct env) (payloadHash env act.body)

def send : Except VaultError SentRequest :=
  (acct.signRequest env now act.method (act.url acct env) (payloadHash env act.body)).map
    fun headers => ⟨act.method, act.url acct env, headers, act.body⟩

end S3Account

/-- The two inputs make one of the hashes collide. -/
def Collides (env : SigningEnv) (c c' : SigningInput) (body body' : Bytes) : Prop :=
  (body ≠ body' ∧ env.sha256 body = env.sha256 body') ∨
  (c.canonicalRequest env ≠ c'.canonicalRequest env ∧
    env.sha256 (utf8 (c.canonicalRequest env)) = env.sha256 (utf8 (c'.canonicalRequest env))) ∨
  ((c.signingKey env, c.stringToSign env) ≠ (c'.signingKey env, c'.stringToSign env) ∧
    c.mac env = c'.mac env)

/-- What a signature covers. -/
structure SameCall (env : SigningEnv) (c c' : SigningInput) : Prop where
  method : c.method = c'.method
  host : c.host = c'.host
  canonicalUri : c.canonicalUri = c'.canonicalUri
  canonicalQuerystring : c.canonicalQuerystring = c'.canonicalQuerystring
  payloadHash : c.payloadHash = c'.payloadHash
  amzDate : c.amzDate env = c'.amzDate env
  region : c.region = c'.region

/-- The parts of the text each fill one line. -/
structure SigningInput.Lines (c : SigningInput) : Prop where
  method : FreeOf '\n' c.method
  host : FreeOf '\n' c.host
  canonicalUri : FreeOf '\n' c.canonicalUri
  canonicalQuerystring : FreeOf '\n' c.canonicalQuerystring
  payloadHash : FreeOf '\n' c.payloadHash

variable {env : SigningEnv} {c c' : SigningInput} {acct acct' : S3Account} {now now' : DateTime}
  {act act' : S3Act}

theorem append_lt_append (front : List Char) {s t : List Char} {x y : Char} (h : x < y) :
    front ++ x :: s < front ++ y :: t := by
  induction front with
  | nil => exact List.Lex.rel h
  | cons z front ih => exact List.Lex.cons ih

/-- The headers are written down in the sorted order. -/
theorem canonicalHeaders_eq : c.canonicalHeaders env =
    ["host:" ++ c.host, "x-amz-content-sha256:" ++ c.payloadHash,
      "x-amz-date:" ++ c.amzDate env] := by
  have hle : ∀ {s t : String}, s.toList < t.toList → decide (s ≤ t) = true := by
    intro s t h
    rw [decide_eq_true_iff, String.le_iff_toList_le]
    exact le_of_lt h
  have hhost : ("host:" ++ c.host).toList = [] ++ 'h' :: ("ost:".toList ++ c.host.toList) := by
    rw [String.toList_append]
    rfl
  have hhash : ("x-amz-content-sha256:" ++ c.payloadHash).toList =
      "x-amz-".toList ++ 'c' :: ("ontent-sha256:".toList ++ c.payloadHash.toList) := by
    rw [String.toList_append]
    rfl
  have hdate : ("x-amz-date:" ++ c.amzDate env).toList =
      "x-amz-".toList ++ 'd' :: ("ate:".toList ++ (c.amzDate env).toList) := by
    rw [String.toList_append]
    rfl
  apply List.mergeSort_of_pairwise
  refine List.pairwise_cons.mpr ⟨?_, List.pairwise_cons.mpr ⟨?_, List.pairwise_singleton _ _⟩⟩
  · intro t ht
    simp only [List.mem_cons, List.not_mem_nil, or_false] at ht
    rcases ht with rfl | rfl
    · apply hle
      rw [hhost, hhash]
      exact append_lt_append [] (show 'h' < 'x' by decide)
    · apply hle
      rw [hhost, hdate]
      exact append_lt_append [] (show 'h' < 'x' by decide)
  · intro t ht
    rw [List.mem_singleton.mp ht]
    apply hle
    rw [hhash, hdate]
    exact append_lt_append _ (by decide)

theorem canonicalRequest_lines : (c.canonicalRequest env).toList = ['\n'].intercalate
    [c.method.toList, c.canonicalUri.toList, c.canonicalQuerystring.toList,
      ("host:" ++ c.host).toList, ("x-amz-content-sha256:" ++ c.payloadHash).toList,
      ("x-amz-date:" ++ c.amzDate env).toList, [], SigningInput.signedHeaders.toList,
      c.payloadHash.toList] := by
  have hbreak : "\n".toList = ['\n'] := rfl
  simp only [SigningInput.canonicalRequest, SigningInput.canonicalHeadersStr, canonicalHeaders_eq,
    List.map_cons, List.map_nil, List.intercalate_cons_cons, List.intercalate_singleton,
    String.toList_append, String.toList_ofList, hbreak, List.append_assoc, List.nil_append]

theorem amzDate_line (c : SigningInput) : FreeOf '\n' (c.amzDate env) := by
  have hdate := (env.dateStamp_line c.now).1
  have htime := env.timeStamp_line c.now
  intro hmem
  simp only [SigningInput.amzDate, String.toList_append, List.mem_append] at hmem
  rcases hmem with ((hmem | hmem) | hmem) | hmem
  · exact hdate hmem
  · exact absurd hmem (by decide)
  · exact htime hmem
  · exact absurd hmem (by decide)

theorem dateStamp_of_amzDate (h : c.amzDate env = c'.amzDate env) :
    c.dateStamp env = c'.dateStamp env := by
  have hlist := congrArg String.toList h
  have ht : "T".toList = ['T'] := rfl
  simp only [SigningInput.amzDate, String.toList_append, ht, List.append_assoc,
    List.cons_append] at hlist
  exact String.toList_injective
    (append_sep_inj (env.dateStamp_line c.now).2 (env.dateStamp_line c'.now).2 hlist).1

theorem freeOf_append {sep : Char} {s t : String} (hs : FreeOf sep s) (ht : FreeOf sep t) :
    FreeOf sep (s ++ t) := by
  intro h
  rw [String.toList_append, List.mem_append] at h
  exact h.elim hs ht

theorem SigningInput.Lines.free (h : c.Lines) : ∀ piece ∈
    [c.method.toList, c.canonicalUri.toList, c.canonicalQuerystring.toList,
      ("host:" ++ c.host).toList, ("x-amz-content-sha256:" ++ c.payloadHash).toList,
      ("x-amz-date:" ++ c.amzDate env).toList, [], SigningInput.signedHeaders.toList,
      c.payloadHash.toList], '\n' ∉ piece := by
  have hhost : FreeOf '\n' ("host:" ++ c.host) := freeOf_append (by decide) h.host
  have hhash : FreeOf '\n' ("x-amz-content-sha256:" ++ c.payloadHash) :=
    freeOf_append (by decide) h.payloadHash
  have hdate : FreeOf '\n' ("x-amz-date:" ++ c.amzDate env) :=
    freeOf_append (by decide) (amzDate_line c)
  have hsigned : FreeOf '\n' SigningInput.signedHeaders := by decide
  have hnil : '\n' ∉ ([] : List Char) := List.not_mem_nil
  simp only [List.forall_mem_cons]
  exact ⟨h.method, h.canonicalUri, h.canonicalQuerystring, hhost, hhash, hdate, hnil, hsigned,
    h.payloadHash, by simp⟩

theorem canonicalRequest_inj (hc : c.Lines) (hc' : c'.Lines)
    (h : c.canonicalRequest env = c'.canonicalRequest env) :
    c.method = c'.method ∧ c.canonicalUri = c'.canonicalUri ∧
      c.canonicalQuerystring = c'.canonicalQuerystring ∧ c.host = c'.host ∧
      c.payloadHash = c'.payloadHash := by
  have hlist := congrArg String.toList h
  rw [canonicalRequest_lines, canonicalRequest_lines] at hlist
  have hpieces := joined_injective hc.free hc'.free (by simp) (by simp) hlist
  obtain ⟨hmethod, hpieces⟩ := List.cons.inj hpieces
  obtain ⟨huri, hpieces⟩ := List.cons.inj hpieces
  obtain ⟨hquery, hpieces⟩ := List.cons.inj hpieces
  obtain ⟨hhost, hpieces⟩ := List.cons.inj hpieces
  obtain ⟨hhash, _⟩ := List.cons.inj hpieces
  exact ⟨String.toList_injective hmethod, String.toList_injective huri,
    String.toList_injective hquery, (String.append_right_inj _).mp (String.toList_injective hhost),
    (String.append_right_inj _).mp (String.toList_injective hhash)⟩

theorem region_of_scope (hdate : c.dateStamp env = c'.dateStamp env)
    (h : c.credentialScope env = c'.credentialScope env) : c.region = c'.region := by
  rw [SigningInput.credentialScope, SigningInput.credentialScope, hdate, String.append_left_inj,
    String.append_right_inj] at h
  exact h

/-- The region may be any text: it ends where the fixed end of the scope begins. -/
theorem stringToSign_inj (h : c.stringToSign env = c'.stringToSign env) :
    c.amzDate env = c'.amzDate env ∧ c.region = c'.region ∧
      c.canonicalRequestHash env = c'.canonicalRequestHash env := by
  have hsplit : ∀ c : SigningInput, (c.stringToSign env).toList = "AWS4-HMAC-SHA256\n".toList ++
      ((c.amzDate env).toList ++ '\n' :: ((c.credentialScope env).toList ++
        '\n' :: (c.canonicalRequestHash env).toList)) := by
    intro c
    have hbreak : "\n".toList = ['\n'] := rfl
    delta SigningInput.stringToSign
    simp only [String.toList_append, hbreak, List.append_assoc, List.cons_append, List.nil_append]
  have hlist := congrArg String.toList h
  rw [hsplit, hsplit] at hlist
  obtain ⟨hdate, hrest⟩ :=
    append_sep_inj (amzDate_line c) (amzDate_line c') (List.append_cancel_left hlist)
  have hlength : ('\n' :: (c.canonicalRequestHash env).toList).length =
      ('\n' :: (c'.canonicalRequestHash env).toList).length := by
    simp [SigningInput.canonicalRequestHash, length_hexEncode]
  obtain ⟨hscope, hhash⟩ := List.append_inj' hrest hlength
  have hamz : c.amzDate env = c'.amzDate env := String.toList_injective hdate
  exact ⟨hamz, region_of_scope (dateStamp_of_amzDate hamz) (String.toList_injective hscope),
    String.toList_injective (List.cons.inj hhash).2⟩

theorem digest_of_hexEncode {d d' : Digest} (h : hexEncode d.toList = hexEncode d'.toList) :
    d = d' :=
  Vector.toList_inj.mp (hexEncode_injective h)

theorem mac_binds (hc : c.Lines) (hc' : c'.Lines) (h : c.mac env = c'.mac env)
    (body body' : Bytes) : Collides env c c' body body' ∨ SameCall env c c' := by
  by_cases hinput : (c.signingKey env, c.stringToSign env) =
    (c'.signingKey env, c'.stringToSign env)
  · obtain ⟨hdate, hregion, hhash⟩ := stringToSign_inj (Prod.mk.inj hinput).2
    by_cases hrequest : c.canonicalRequest env = c'.canonicalRequest env
    · obtain ⟨hmethod, huri, hquery, hhost, hpayload⟩ := canonicalRequest_inj hc hc' hrequest
      exact .inr ⟨hmethod, hhost, huri, hquery, hpayload, hdate, hregion⟩
    · exact .inl (.inr (.inl ⟨hrequest, digest_of_hexEncode hhash⟩))
  · exact .inl (.inr (.inr ⟨hinput, h⟩))

theorem eq_of_append_eq {s t u v : String} (hlength : t.toList.length = v.toList.length)
    (h : s ++ t = u ++ v) : t = v := by
  have hlist := congrArg String.toList h
  rw [String.toList_append, String.toList_append] at hlist
  exact String.toList_injective (List.append_inj' hlist hlength).2

/-- The signature is what an authorization ends with. -/
theorem mac_of_authorization {id id' : String}
    (h : c.authorization env id = c'.authorization env id') :
    c.mac env = c'.mac env := by
  have hlength : (c.signature env).toList.length = (c'.signature env).toList.length := by
    simp [SigningInput.signature, length_hexEncode]
  delta SigningInput.authorization at h
  exact digest_of_hexEncode (eq_of_append_eq hlength h)

theorem SameCall.headers {id id' : String} (h : SameCall env c c')
    (hauth : c.authorization env id = c'.authorization env id') :
    c.headers env id = c'.headers env id' := by
  rw [SigningInput.headers, SigningInput.headers, hauth, h.amzDate, h.payloadHash, h.host]

theorem signingInput_ok {method url hash : String}
    (h : acct.signingInput env now method url hash = .ok c) : ∃ u host, env.parseUrl url = .ok u ∧
      u.host = some host ∧
      c = ⟨acct.secretAccessKey, acct.region, now, method, host, u.path,
        u.query.getD "", hash⟩ := by
  rw [S3Account.signingInput] at h
  cases hparse : env.parseUrl url with
  | error e =>
    rw [hparse] at h
    cases h
  | ok u =>
    rw [hparse] at h
    cases hhost : u.host with
    | none =>
      simp only [hhost] at h
      cases h
    | some host =>
      simp only [hhost] at h
      exact ⟨u, host, rfl, hhost, (Except.ok.inj h).symm⟩

theorem S3Act.method_line (act : S3Act) : FreeOf '\n' act.method := by
  have hput : FreeOf '\n' "PUT" := by decide
  have hget : FreeOf '\n' "GET" := by decide
  have hhead : FreeOf '\n' "HEAD" := by decide
  have hdelete : FreeOf '\n' "DELETE" := by decide
  cases act <;> assumption

theorem payloadHash_line (data : Bytes) : FreeOf '\n' (payloadHash env data) :=
  notMem_of_hexDigits (by decide) (hexDigits_hexEncode _).2

theorem signed_lines (h : acct.signed env now act = .ok c) : c.Lines := by
  obtain ⟨u, host, hparse, hhost, rfl⟩ := signingInput_ok h
  refine ⟨act.method_line, env.host_line _ u host hparse hhost, env.path_line _ u hparse, ?_,
    payloadHash_line _⟩
  cases hquery : u.query with
  | none => exact List.not_mem_nil
  | some query => exact env.query_line _ u query hparse hquery

theorem send_ok {r : SentRequest} (h : acct.send env now act = .ok r) : ∃ c,
    acct.signed env now act = .ok c ∧
      r = ⟨act.method, act.url acct env, c.headers env acct.accessKeyId, act.body⟩ := by
  rw [S3Account.send, S3Account.signRequest, ← S3Account.signed] at h
  cases hsigned : acct.signed env now act with
  | error e =>
    rw [hsigned] at h
    cases h
  | ok c =>
    rw [hsigned] at h
    exact ⟨c, rfl, (Except.ok.inj h).symm⟩

/-- The two requests differ at most in how their URLs are written. -/
structure SentRequest.Same (env : SigningEnv) (r r' : SentRequest) : Prop where
  method : r.method = r'.method
  headers : r.headers = r'.headers
  body : r.body = r'.body
  target : ∃ u u', env.parseUrl r.url = .ok u ∧ env.parseUrl r'.url = .ok u' ∧ u.host = u'.host ∧
    u.path = u'.path ∧ u.query.getD "" = u'.query.getD ""

/-- At this endpoint a key stands in the path as it is. -/
structure S3Account.Resolves (acct : S3Account) (env : SigningEnv) (host base : String) : Prop where
  object : ∀ k : ObjectKey, env.parseUrl (acct.objectUrl (acct.config.objectKey k.text)) =
    .ok ⟨some host, base ++ "/" ++ acct.config.objectKey k.text, none⟩
  list : ∀ start, env.parseUrl (acct.listUrl env start) =
    .ok ⟨some host, base, some ("list-type=2&prefix=" ++ env.encode (acct.config.objectKey start))⟩
  encode : Function.Injective env.encode

namespace S3Act

def target (cfg : S3Config) (base : String) : S3Act → String
  | .upload path _ => base ++ "/" ++ cfg.objectKey path
  | .download path => base ++ "/" ++ cfg.objectKey path
  | .head path => base ++ "/" ++ cfg.objectKey path
  | .list _ => base
  | .delete path => base ++ "/" ++ cfg.objectKey path

def query (cfg : S3Config) (env : SigningEnv) : S3Act → Option String
  | .list start => some ("list-type=2&prefix=" ++ env.encode (cfg.objectKey start))
  | _ => none

end S3Act

variable {host base : String}

theorem S3Account.Resolves.parse (h : acct.Resolves env host base) (hkeyed : act.Keyed) :
    env.parseUrl (act.url acct env) =
      .ok ⟨some host, act.target acct.config base, act.query acct.config env⟩ := by
  cases act with
  | upload path data =>
    obtain ⟨k, rfl⟩ := hkeyed
    exact h.object k
  | download path =>
    obtain ⟨k, rfl⟩ := hkeyed
    exact h.object k
  | head path =>
    obtain ⟨k, rfl⟩ := hkeyed
    exact h.object k
  | list start => exact h.list start
  | delete path =>
    obtain ⟨k, rfl⟩ := hkeyed
    exact h.object k

/-- Where keys stand in the URL as they are, every request goes out. -/
theorem S3Account.Resolves.send (h : acct.Resolves env host base) (hkeyed : act.Keyed) :
    acct.send env now act = .ok ⟨act.method, act.url acct env,
      SigningInput.headers env ⟨acct.secretAccessKey, acct.region, now, act.method, host,
        act.target acct.config base, (act.query acct.config env).getD "", payloadHash env act.body⟩
        acct.accessKeyId, act.body⟩ := by
  rw [S3Account.send, S3Account.signRequest, S3Account.signingInput, h.parse hkeyed]
  rfl

/-- Method, path, query and body tell which request it is. -/
theorem S3Act.request_eq {cfg : S3Config} (hencode : Function.Injective env.encode)
    (hmethod : act.method = act'.method) (hbody : act.body = act'.body)
    (htarget : act.target cfg base = act'.target cfg base)
    (hquery : (act.query cfg env).getD "" = (act'.query cfg env).getD "") :
    act.request cfg = act'.request cfg := by
  have hkey : ∀ {key key' : String}, base ++ "/" ++ key = base ++ "/" ++ key' → key = key' :=
    fun h => (String.append_right_inj _).mp h
  have hlist : ∀ {q : String}, "list-type=2&prefix=" ++ q ≠ "" := by
    intro q h
    have hnil := congrArg String.toList h
    rw [String.toList_append] at hnil
    exact absurd (List.append_eq_nil_iff.mp hnil).1 (by decide)
  cases act with
  | upload path data =>
    cases act' with
    | upload path' data' => exact congrArg₂ S3Request.put (hkey htarget) hbody
    | _ => simp [S3Act.method] at hmethod
  | download path =>
    cases act' with
    | download path' => exact congrArg S3Request.get (hkey htarget)
    | list start' => exact absurd hquery.symm hlist
    | _ => simp [S3Act.method] at hmethod
  | head path =>
    cases act' with
    | head path' => exact congrArg S3Request.head (hkey htarget)
    | _ => simp [S3Act.method] at hmethod
  | list start =>
    cases act' with
    | list start' => exact congrArg S3Request.list (hencode ((String.append_right_inj _).mp hquery))
    | download path' => exact absurd hquery hlist
    | _ => simp [S3Act.method] at hmethod
  | delete path =>
    cases act' with
    | delete path' => exact congrArg S3Request.delete (hkey htarget)
    | _ => simp [S3Act.method] at hmethod

theorem payloadHash_inj {data data' : Bytes} (h : payloadHash env data = payloadHash env data') :
    env.sha256 data = env.sha256 data' := digest_of_hexEncode h

/-- An authorization fits one request: another that carries it, of any storage
at any time, makes a hash collide or is the same to the server. -/
theorem authorization_binds {r r' : SentRequest} (h : acct.send env now act = .ok r)
    (h' : acct'.send env now' act' = .ok r')
    (hauth : r.headers.lookup "Authorization" = r'.headers.lookup "Authorization") :
    (∃ c c', acct.signed env now act = .ok c ∧ acct'.signed env now' act' = .ok c' ∧
        Collides env c c' act.body act'.body) ∨
      (r.Same env r' ∧ acct.region = acct'.region ∧
        (acct = acct' → acct.Resolves env host base → act.Keyed → act'.Keyed →
          act.request acct.config = act'.request acct.config)) := by
  obtain ⟨c, hsigned, rfl⟩ := send_ok h
  obtain ⟨c', hsigned', rfl⟩ := send_ok h'
  have hwhole : c.authorization env acct.accessKeyId = c'.authorization env acct'.accessKeyId :=
    Option.some.inj hauth
  rcases mac_binds (signed_lines hsigned) (signed_lines hsigned') (mac_of_authorization hwhole)
    act.body act'.body with hcollides | hcall
  · exact .inl ⟨c, c', hsigned, hsigned', hcollides⟩
  obtain ⟨u, hostOf, hparse, hhost, rfl⟩ := signingInput_ok hsigned
  obtain ⟨u', hostOf', hparse', hhost', rfl⟩ := signingInput_ok hsigned'
  by_cases hbody : act.body = act'.body
  · right
    refine ⟨⟨hcall.method, hcall.headers hwhole, hbody, u, u', hparse, hparse', ?_,
      hcall.canonicalUri, hcall.canonicalQuerystring⟩, hcall.region, ?_⟩
    · rw [hhost, hhost']
      exact congrArg some hcall.host
    · rintro rfl hresolves hkeyed hkeyed'
      rw [hresolves.parse hkeyed] at hparse
      rw [hresolves.parse hkeyed'] at hparse'
      cases hparse
      cases hparse'
      exact S3Act.request_eq hresolves.encode hcall.method hbody hcall.canonicalUri
        hcall.canonicalQuerystring
  · exact .inl ⟨_, _, hsigned, hsigned', .inl ⟨hbody, payloadHash_inj hcall.payloadHash⟩⟩

def sampleOrigin : String := "https://s3.us-east-1.amazonaws.com"

/-- A parser of the URLs of one server. -/
def sampleParse (url : String) : Except String ParsedUrl :=
  let cs := url.toList.filter (· != '\n')
  if sampleOrigin.toList.isPrefixOf cs then
    let rest := cs.drop sampleOrigin.toList.length
    .ok ⟨some "s3.us-east-1.amazonaws.com", String.ofList (rest.takeWhile (· != '?')),
      if '?' ∈ rest then some (String.ofList (rest.dropWhile (· != '?')).tail) else none⟩
  else .error "relative URL without a base"

theorem sampleParse_ok {url : String} {u : ParsedUrl} (h : sampleParse url = .ok u) :
    ∃ rest : List Char, '\n' ∉ rest ∧ u = ⟨some "s3.us-east-1.amazonaws.com",
      String.ofList (rest.takeWhile (· != '?')),
      if '?' ∈ rest then some (String.ofList (rest.dropWhile (· != '?')).tail) else none⟩ := by
  rw [sampleParse] at h
  split at h
  · refine ⟨_, ?_, (Except.ok.inj h).symm⟩
    intro hmem
    simpa using List.mem_of_mem_drop hmem
  · cases h

def sampleSigningEnv : SigningEnv where
  parseUrl := sampleParse
  encode s := hexEncode (utf8 s)
  dateStamp _ := "19700101"
  timeStamp _ := "000000"
  sha256 := inlineDigest
  hmacSha256 _ := inlineDigest
  host_line url u host h hhost := by
    obtain ⟨rest, _, rfl⟩ := sampleParse_ok h
    cases hhost
    decide
  path_line url u h := by
    obtain ⟨rest, hrest, rfl⟩ := sampleParse_ok h
    rw [FreeOf, String.toList_ofList]
    exact fun hmem => hrest (List.takeWhile_subset _ hmem)
  query_line url u query h hquery := by
    obtain ⟨rest, hrest, rfl⟩ := sampleParse_ok h
    simp only [Option.ite_none_right_eq_some, Option.some.injEq] at hquery
    rw [FreeOf, ← hquery.2, String.toList_ofList]
    exact fun hmem => hrest (List.dropWhile_subset _ (List.mem_of_mem_tail hmem))
  dateStamp_line _ := by decide
  timeStamp_line _ := by decide

def sampleAccount : S3Account := S3Account.aws "AKIA" "secret" "vault" "us-east-1"

theorem sampleParse_origin {path : String} (hline : FreeOf '\n' path) :
    sampleParse (sampleOrigin ++ path) =
    .ok ⟨some "s3.us-east-1.amazonaws.com", String.ofList (path.toList.takeWhile (· != '?')),
      if '?' ∈ path.toList then some (String.ofList (path.toList.dropWhile (· != '?')).tail)
      else none⟩ := by
  have hpath : path.toList.filter (· != '\n') = path.toList := by
    rw [List.filter_eq_self]
    intro c hc
    simpa using ne_of_mem_of_not_mem hc hline
  have horigin : sampleOrigin.toList.filter (· != '\n') = sampleOrigin.toList := by decide
  have hpre : sampleOrigin.toList.isPrefixOf (sampleOrigin.toList ++ path.toList) = true :=
    List.isPrefixOf_iff_prefix.mpr (List.prefix_append _ _)
  rw [sampleParse, String.toList_append, List.filter_append, hpath, horigin]
  simp only [hpre, if_true, List.drop_left]

theorem sampleParse_path {path : String} (hline : FreeOf '\n' path) (hplain : FreeOf '?' path) :
    sampleParse (sampleOrigin ++ path) = .ok ⟨some "s3.us-east-1.amazonaws.com", path, none⟩ := by
  have hwhole : path.toList.takeWhile (· != '?') = path.toList := by
    rw [List.takeWhile_eq_self_iff]
    intro c hc
    simpa using ne_of_mem_of_not_mem hc hplain
  rw [sampleParse_origin hline, hwhole, if_neg hplain, String.ofList_toList]

theorem sampleParse_query {query : String} (hline : FreeOf '\n' query) :
    sampleParse (sampleOrigin ++ ("/vault?" ++ query)) =
      .ok ⟨some "s3.us-east-1.amazonaws.com", "/vault", some query⟩ := by
  have hsplit : ("/vault?" ++ query).toList = "/vault".toList ++ '?' :: query.toList := by
    rw [String.toList_append]
    rfl
  have htake : ("/vault".toList ++ '?' :: query.toList).takeWhile (· != '?') = "/vault".toList :=
    rfl
  have hdrop : ("/vault".toList ++ '?' :: query.toList).dropWhile (· != '?') =
      '?' :: query.toList := rfl
  rw [sampleParse_origin (freeOf_append (by decide) hline), hsplit, htake, hdrop, if_pos (by simp),
    List.tail_cons, String.ofList_toList, String.ofList_toList]

theorem sampleAccount_resolves :
    sampleAccount.Resolves sampleSigningEnv "s3.us-east-1.amazonaws.com" "/vault" := by
  constructor
  · intro k
    have hfree : ∀ {sep : Char}, isKeyChar sep = false → sep ≠ '/' → FreeOf sep k.text := by
      intro sep hsep hslash hmem
      rcases text_chars k sep hmem with hkey | rfl
      · rw [hsep] at hkey
        cases hkey
      · exact hslash rfl
    have hurl : sampleAccount.objectUrl (sampleAccount.config.objectKey k.text) =
        sampleOrigin ++ ("/vault/" ++ k.text) := by
      rw [S3Account.objectUrl, ← String.append_assoc]
      rfl
    have hline : FreeOf '\n' ("/vault/" ++ k.text) :=
      freeOf_append (by decide) (hfree (by decide) (by decide))
    have hplain : FreeOf '?' ("/vault/" ++ k.text) :=
      freeOf_append (by decide) (hfree (by decide) (by decide))
    rw [hurl]
    exact sampleParse_path hline hplain
  · intro start
    have hhex : FreeOf '\n' (sampleSigningEnv.encode (sampleAccount.config.objectKey start)) :=
      notMem_of_hexDigits (by decide) (hexDigits_hexEncode _).2
    have hurl : sampleAccount.listUrl sampleSigningEnv start = sampleOrigin ++ ("/vault?" ++
        ("list-type=2&prefix=" ++
          sampleSigningEnv.encode (sampleAccount.config.objectKey start))) := by
      rw [S3Account.listUrl, ← String.append_assoc, ← String.append_assoc]
      rfl
    rw [hurl]
    exact sampleParse_query (freeOf_append (by decide) hhex)
  · intro s t h
    exact utf8_injective (hexEncode_injective h)

def packKey : ObjectKey :=
  ⟨[⟨"packs".toList, by decide, by decide, by decide, by decide⟩,
    ⟨"0f1e".toList, by decide, by decide, by decide, by decide⟩], by decide⟩

def sampleUpload : S3Act := .upload packKey.text [1, 2, 3]

/-- The stamps leave out the parts of a second. -/
def sampleInput (nanos : Nat) : SigningInput where
  secret := "secret"
  region := "us-east-1"
  now := ⟨0, nanos⟩
  method := "PUT"
  host := "s3.us-east-1.amazonaws.com"
  canonicalUri := sampleUpload.target sampleAccount.config "/vault"
  canonicalQuerystring := ""
  payloadHash := payloadHash sampleSigningEnv [1, 2, 3]

def sampleSent (nanos : Nat) : SentRequest where
  method := "PUT"
  url := sampleUpload.url sampleAccount sampleSigningEnv
  headers := (sampleInput nanos).headers sampleSigningEnv "AKIA"
  body := [1, 2, 3]

theorem sampleUpload_signed (nanos : Nat) :
    sampleAccount.signed sampleSigningEnv ⟨0, nanos⟩ sampleUpload = .ok (sampleInput nanos) := by
  have hkeyed : sampleUpload.Keyed := ⟨packKey, rfl⟩
  rw [S3Account.signed, S3Account.signingInput, sampleAccount_resolves.parse hkeyed]
  rfl

theorem authorization_binds_sample :
    sampleAccount.send sampleSigningEnv ⟨0, 0⟩ sampleUpload = .ok (sampleSent 0) ∧
      sampleAccount.send sampleSigningEnv ⟨0, 5⟩ sampleUpload = .ok (sampleSent 5) ∧
      (sampleSent 0).Same sampleSigningEnv (sampleSent 5) := by
  have hsend : ∀ nanos, sampleAccount.send sampleSigningEnv ⟨0, nanos⟩ sampleUpload =
      .ok (sampleSent nanos) := fun nanos => sampleAccount_resolves.send ⟨packKey, rfl⟩
  refine ⟨hsend 0, hsend 5, ?_⟩
  rcases @authorization_binds sampleSigningEnv sampleAccount sampleAccount ⟨0, 0⟩ ⟨0, 5⟩
    sampleUpload sampleUpload "s3.us-east-1.amazonaws.com" "/vault" (sampleSent 0) (sampleSent 5)
    (hsend 0) (hsend 5) rfl with ⟨c, c', hc, hc', hcollides⟩ | ⟨hsame, _⟩
  · obtain rfl := Except.ok.inj ((sampleUpload_signed 0).symm.trans hc)
    obtain rfl := Except.ok.inj ((sampleUpload_signed 5).symm.trans hc')
    rcases hcollides with ⟨hbody, _⟩ | ⟨hrequest, _⟩ | ⟨hinput, _⟩
    · exact absurd rfl hbody
    · exact absurd rfl hrequest
    · exact absurd rfl hinput
  · exact hsame

end GitCellar
