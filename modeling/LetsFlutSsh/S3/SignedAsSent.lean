import LetsFlutSsh.S3.QueryForms

/-!
# What is signed and what is sent

* `serverRequest` : the canonical request that a server makes of what it receives;
* `SignedAsSent` : it is the one that was signed, and its target is the object that was meant;
* `ReachesKey` : the endpoints and keys for which the address parser leaves bucket and key in their place;
* `signedAsSent_iff` : requests are signed as they are sent exactly for those endpoints and keys;
* `key_is_resolved` : a key with dots, and an endpoint with a path.
-/

namespace LetsFlutSsh.S3
open Lib List HttpUrl Option

/-! ## The server -/

def serverPath (path : Bytes) : Bytes := uriEncode false (percentDecode path)

def headerValue (name : Bytes) (received : Headers) : Bytes :=
  ((received.find? fun header => header.1.map lower = name).map Prod.snd).getD []

def received (composed : Composed) (wire : Wire) : Headers := (utf8 "Host", wire.host) :: composed.headers

/-- The canonical request of what arrives, with the headers that the signature names. -/
def serverRequest (composed : Composed) (wire : Wire) : Bytes :=
  canonicalRequest composed.input.method (serverPath wire.path) (serverQuery wire.query)
    ((composed.input.allHeaders.map Prod.fst).map fun name => (name, headerValue name (received composed wire)))
    (headerValue (utf8 "x-amz-content-sha256") (received composed wire))

/-- **A request is signed as it is sent**, and names the bucket and the key that were meant. -/
structure SignedAsSent (cfg : S3Config) (bucket : Bytes) (op : Operation) (composed : Composed) (wire : Wire) : Prop where
  request : serverRequest composed wire = composed.input.canonicalRequest
  key : percentDecode wire.path = (if cfg.pathStyle then slash :: bucket else []) ++ slash :: op.key
  bucket : cfg.pathStyle = false → ∃ rest, wire.host = bucket ++ dot :: rest

/-! ## Endpoints and keys -/

/-- What the endpoint `e`, with a slash at its end, has to be under path style.

Behind a fragment nothing is sent of what is appended, so the endpoint is the request's own address; behind a query the
bucket and the key are part of it. A key that leaves its bucket takes segments of the endpoint's path away: what is left of
these, with their escapes, is the bucket and the start of the key. Else there is nothing before the bucket, and no dots. -/
def PathStyleReaches (e : HttpUrl) (bucket : Bytes) (op : Operation) : Prop :=
  match e.fragment, e.query with
  | some _, _ =>
    percentDecode (pathText e.path) = slash :: bucket ++ slash :: op.key ∧ serverQuery e.query = canonicalizeQuery op.query
  | none, some _ => False
  | none, none =>
    match keyRules.climb (keySegments op.key) with
    | (0, _) => e.path.dropLast = [] ∧ Dotless op.key
    | (climbed + 1, left) =>
      pathText ((e.path.dropLast.take (e.path.dropLast.length - climbed)).map percentDecode ++ left) =
        slash :: bucket ++ slash :: op.key

def ReachesKey (P : HostParser) (cfg : S3Config) (bucket : Bytes) (op : Operation) : Prop :=
  if cfg.pathStyle then ∃ e, HttpUrl.parse P (trimSlashes cfg.resolveEndpoint ++ [slash]) = some e ∧ PathStyleReaches e bucket op
  else Dotless op.key

/-! ## Headers -/

theorem headerValue_eq {name value : Bytes} {headers : Headers} (hmem : ∃ h ∈ headers, h.1.map lower = name)
    (hall : ∀ h ∈ headers, h.1.map lower = name → h.2 = value) : headerValue name headers = value := by
  unfold headerValue
  rcases hfind : headers.find? fun header => header.1.map lower = name with _ | header
  · obtain ⟨h, hh, hname⟩ := hmem
    exact absurd (decide_eq_true hname) (find?_eq_none.1 hfind h hh)
  · have hname := find?_some hfind
    rw [hfind]
    exact hall header (mem_of_find?_eq_some hfind) (of_decide_eq_true hname)

/-- Headers of which no two have one name, with lower-case names, none of them the signature's. -/
structure Distinct (headers : Headers) : Prop where
  unique : ∀ h ∈ headers, ∀ h' ∈ headers, h.1 = h'.1 → h = h'
  lower : ∀ h ∈ headers, h.1.map lower = h.1
  unsigned : ∀ h ∈ headers, h.1 ≠ utf8 "authorization"

variable (op : Operation)

theorem Operation.extraHeaders_cases : op.extraHeaders = [] ∨ ∃ name value,
    op.extraHeaders = [(name, value)] ∧ (name.map lower = utf8 "range" ∨ name.map lower = utf8 "x-amz-copy-source") := by
  cases op with
  | getObject key range =>
    rcases range with _ | ⟨start, finish⟩
    · exact .inl rfl
    · exact .inr ⟨_, _, rfl, .inl (by decide +kernel)⟩
  | copyObject srcBucket srcKey key => exact .inr ⟨_, _, rfl, .inr (by decide +kernel)⟩
  | _ => exact .inl rfl

variable {composed : Composed} {cfg : S3Config} {op : Operation}

section
variable {H : Hashes} {timestamp bucket host : Bytes}

def commonNames : List Bytes := [utf8 "host", utf8 "x-amz-date", utf8 "x-amz-content-sha256"]

theorem perm_allHeaders (input : SignHeaderInput) : (input.allHeaders.map Prod.fst).Perm
    (commonNames ++ input.extraHeaders.map fun header => header.1.map lower) := by
  refine ((perm_insertionSort _ _).map _).trans (Perm.of_eq ?_)
  simp [commonNames]

theorem distinct_allHeaders : Distinct (cfg.signInput H timestamp bucket op host).allHeaders := by
  generalize hinput : cfg.signInput H timestamp bucket op host = input
  have hnames : ∃ names ∈ [commonNames, commonNames ++ [utf8 "range"], commonNames ++ [utf8 "x-amz-copy-source"]],
      (input.allHeaders.map Prod.fst).Perm names := by
    have hperm := perm_allHeaders input
    have hextra : input.extraHeaders = op.extraHeaders := by
      rw [← hinput]
      rfl
    rw [hextra] at hperm
    rcases op.extraHeaders_cases with hnil | ⟨name, value, hone, hname⟩
    · rw [hnil] at hperm
      exact ⟨_, mem_cons_self, hperm⟩
    · rw [hone, map_singleton] at hperm
      rcases hname with hname | hname
      · rw [hname] at hperm
        exact ⟨_, by simp, hperm⟩
      · rw [hname] at hperm
        exact ⟨_, by simp, hperm⟩
  have hall : ∀ names ∈ [commonNames, commonNames ++ [utf8 "range"], commonNames ++ [utf8 "x-amz-copy-source"]],
      names.Nodup ∧ ∀ name ∈ names, name.map lower = name ∧ name ≠ utf8 "authorization" := by
    decide +kernel
  obtain ⟨names, hmem, hperm⟩ := hnames
  obtain ⟨hnodup, hlower⟩ := hall names hmem
  have hname : ∀ h ∈ input.allHeaders, h.1 ∈ names := fun h hh => hperm.mem_iff.1 (mem_map_of_mem hh)
  refine ⟨fun h hh h' hh' heq => ?_, fun h hh => (hlower _ (hname h hh)).1, fun h hh => (hlower _ (hname h hh)).2⟩
  exact inj_on_of_nodup_map (hperm.nodup_iff.2 hnodup) hh hh' heq

theorem mem_allHeaders {input : SignHeaderInput} {h : Bytes × Bytes} : h ∈ input.allHeaders ↔
    h ∈ (utf8 "host", input.host) :: (utf8 "x-amz-date", input.timestamp) ::
      (utf8 "x-amz-content-sha256", input.payloadHash) ::
        input.extraHeaders.map fun header => (header.1.map lower, trimText header.2) :=
  mem_insertionSort _

theorem mem_signHeaders {input : SignHeaderInput} {g : Bytes × Bytes} (hg : g ∈ signHeaders H input) :
    g.1.map lower = utf8 "authorization" ∨
      ∃ h ∈ input.allHeaders, g = (if h.1 = utf8 "host" then utf8 "Host" else h.1, h.2) := by
  rcases mem_append.1 hg with hg | hg
  · obtain ⟨h, hh, rfl⟩ := mem_map.1 hg
    exact .inr ⟨h, hh, rfl⟩
  · have hauth : (utf8 "Authorization").map lower = utf8 "authorization" := by decide +kernel
    rw [mem_singleton.1 hg]
    exact .inl hauth

section

variable {wire : Wire} (hdistinct : Distinct composed.input.allHeaders)
  (hheaders : composed.headers = (signHeaders H composed.input).filter fun header => header.1.map lower ≠ utf8 "host")
  (hhost : wire.host = composed.input.host)
include hdistinct hheaders hhost

theorem headerValue_received {h : Bytes × Bytes} (hh : h ∈ composed.input.allHeaders) :
    headerValue h.1 (received composed wire) = h.2 := by
  have hlower : (utf8 "Host").map lower = utf8 "host" := by decide +kernel
  have hname : ∀ h' ∈ composed.input.allHeaders, (if h'.1 = utf8 "host" then utf8 "Host" else h'.1).map lower = h'.1 := by
    intro h' hh'
    split_ifs with heq
    · rw [hlower, heq]
    · exact hdistinct.lower h' hh'
  have hsigned : (utf8 "host", composed.input.host) ∈ composed.input.allHeaders := mem_allHeaders.2 mem_cons_self
  unfold received
  rw [hheaders]
  refine headerValue_eq ?_ fun g hg hgname => ?_
  · by_cases heq : h.1 = utf8 "host"
    · exact ⟨_, mem_cons_self, hlower.trans heq.symm⟩
    · refine ⟨h, mem_cons_of_mem _ (mem_filter.2 ⟨?_, ?_⟩), hdistinct.lower h hh⟩
      · refine mem_append_left _ (mem_map.2 ⟨h, hh, ?_⟩)
        rw [if_neg heq]
      · rw [decide_eq_true_eq, hdistinct.lower h hh]
        exact heq
  · rcases mem_cons.1 hg with rfl | hg
    · -- The client's own `Host` header.
      have hsame := hdistinct.unique _ hsigned h hh (hlower.symm.trans hgname)
      rw [← hsame]
      exact hhost
    · rcases mem_signHeaders (mem_of_mem_filter hg) with hauth | ⟨h', hh', rfl⟩
      · exact absurd (hgname.symm.trans hauth) (hdistinct.unsigned h hh)
      · rw [hname h' hh'] at hgname
        rw [hdistinct.unique h' hh' h hh hgname]

theorem headers_received :
    ((composed.input.allHeaders.map Prod.fst).map fun name => (name, headerValue name (received composed wire))) =
      composed.input.allHeaders := by
  rw [List.map_map]
  conv_rhs => rw [← map_id composed.input.allHeaders]
  exact map_congr_left fun h hh => Prod.ext rfl (headerValue_received hdistinct hheaders hhost hh)

end

end

/-! ## Canonical requests -/

theorem canonicalRequest_inj {method uri uri' query query' payloadHash : Bytes} {headers : Headers} (huri : newline ∉ uri)
    (huri' : newline ∉ uri') (hquery : newline ∉ query) (hquery' : newline ∉ query') :
    canonicalRequest method uri query headers payloadHash = canonicalRequest method uri' query' headers payloadHash ↔
      uri = uri' ∧ query = query' := by
  constructor
  · intro h
    unfold canonicalRequest at h
    simp only [append_assoc, cons_append] at h
    have hafter := List.cons.inj (append_cancel_left h)
    obtain rfl := append_mark_inj huri huri' hafter.2
    have hafter' := List.cons.inj (append_cancel_left hafter.2)
    exact ⟨rfl, append_mark_inj hquery hquery' hafter'.2⟩
  · rintro ⟨rfl, rfl⟩
    rfl

theorem uriEncode_injective : Function.Injective (uriEncode false) := by
  intro a b h
  rw [← percentDecode_uriEncode false a, h, percentDecode_uriEncode]

theorem newline_not_mem_uriEncode (isQuery : Bool) (input : Bytes) : newline ∉ uriEncode isQuery input := fun hmem =>
  (plain_of_mem_uriEncode hmem).noNewline rfl

variable {parse : Bytes → Option EndpointUrl}

section
variable {P : HostParser} {other : Bytes → Bytes → Option (Option Bytes × Option Nat)} {H : Hashes}
  {timestamp bucket : Bytes} {wire : Wire}

theorem signedPath_eq : cfg.signedPath bucket op = (if cfg.pathStyle then slash :: bucket else []) ++ slash :: op.key := by
  unfold S3Config.signedPath
  cases cfg.pathStyle <;> rfl

theorem canonicalPath_signedPath :
    canonicalPath (cfg.signedPath bucket op) = uriEncode false (cfg.signedPath bucket op) := by
  obtain ⟨rest, hrest⟩ : ∃ rest, cfg.signedPath bucket op = slash :: rest := by
    rw [signedPath_eq]
    cases cfg.pathStyle
    · exact ⟨_, rfl⟩
    · exact ⟨_, rfl⟩
  rw [hrest, canonicalPath_cons, uriEncode_slash]

theorem signedAsSent_iff_target (hinput : composed.input = cfg.signInput H timestamp bucket op wire.host)
    (hheaders : composed.headers = (signHeaders H composed.input).filter fun header => header.1.map lower ≠ utf8 "host")
    (hbucket : cfg.pathStyle = false → ∃ rest, wire.host = bucket ++ dot :: rest) :
    SignedAsSent cfg bucket op composed wire ↔
      percentDecode wire.path = cfg.signedPath bucket op ∧ serverQuery wire.query = canonicalizeQuery op.query := by
  have hdistinct : Distinct composed.input.allHeaders := by
    rw [hinput]
    exact distinct_allHeaders
  have hhost : wire.host = composed.input.host := by
    rw [hinput]
    rfl
  have hsigned : (utf8 "x-amz-content-sha256", composed.input.payloadHash) ∈ composed.input.allHeaders :=
    mem_allHeaders.2 (by simp)
  have hhash : headerValue (utf8 "x-amz-content-sha256") (received composed wire) = composed.input.payloadHash :=
    headerValue_received hdistinct hheaders hhost hsigned
  have hrequest : serverRequest composed wire = composed.input.canonicalRequest ↔
      percentDecode wire.path = cfg.signedPath bucket op ∧ serverQuery wire.query = canonicalizeQuery op.query := by
    unfold serverRequest SignHeaderInput.canonicalRequest
    have hpath : composed.input.path = cfg.signedPath bucket op := by
      rw [hinput]
      rfl
    have hquery : composed.input.query = op.query := by
      rw [hinput]
      rfl
    rw [headers_received hdistinct hheaders hhost, hhash, hpath, hquery, canonicalPath_signedPath, serverPath,
      canonicalRequest_inj (newline_not_mem_uriEncode _ _) (newline_not_mem_uriEncode _ _) (newline_not_mem_serverQuery _)
        (newline_not_mem_canonicalizeQuery _), uriEncode_injective.eq_iff]
  constructor
  · rintro ⟨h, -, -⟩
    exact hrequest.1 h
  · intro h
    exact ⟨hrequest.2 h, h.1.trans signedPath_eq, hbucket⟩

/-! ## Addresses -/

def keyAndQuery (op : Operation) : Bytes := uriEncode false op.key ++ if op.query = [] then [] else 0x3F :: op.query

def queryOnWire (op : Operation) : Option Bytes := if op.query = [] then none else some op.query

theorem parsedEndpoint_ok {url : EndpointUrl}
    (h : cfg.parsedEndpoint parse bucket = .ok url) : ValidBucket bucket ∧ parse cfg.resolveEndpoint = some url := by
  unfold S3Config.parsedEndpoint at h
  rcases hvalid : validateBucketName bucket with e | ⟨⟩
  · rw [hvalid] at h
    cases h
  rw [hvalid] at h
  rcases hparse : parse cfg.resolveEndpoint with _ | found
  · rw [hparse] at h
    cases h
  · rw [hparse] at h
    cases h
    exact ⟨hvalid, rfl⟩

theorem canonicalPath_path :
    canonicalPath op.path = slash :: uriEncode false op.key := canonicalPath_cons op.key

section

theorem resolveHostHeader_ok {header : Bytes} (h : cfg.resolveHostHeader parse bucket = .ok header) :
    ∃ e host, cfg.parsedEndpoint parse bucket = .ok e ∧
      e.host = some host ∧ header = (if cfg.pathStyle then host else bucket ++ dot :: host) ++ portSegment e.port := by
  unfold S3Config.resolveHostHeader at h
  rcases hparsed : cfg.parsedEndpoint parse bucket with e | e
  · rw [hparsed] at h
    cases h
  rw [hparsed] at h
  dsimp only at h
  rcases hhost : e.host with _ | host
  · rw [hhost] at h
    cases h
  · rw [hhost] at h
    cases h
    refine ⟨e, host, rfl, hhost, ?_⟩
    cases cfg.pathStyle
    · simp
    · rfl

theorem resolveBucketBase_ok {e : EndpointUrl} {host base : Bytes} (hparsed : cfg.parsedEndpoint parse bucket = .ok e)
    (hhost : e.host = some host) (h : cfg.resolveBucketBase parse bucket = .ok base) :
    base = if cfg.pathStyle then trimSlashes cfg.resolveEndpoint ++ slash :: bucket
      else e.scheme ++ utf8 "://" ++ (bucket ++ dot :: host ++ portSegment e.port) := by
  unfold S3Config.resolveBucketBase at h
  rw [hparsed] at h
  dsimp only at h
  rw [hhost] at h
  split_ifs at h with hstyle
  · cases h
    rw [if_pos hstyle]
  · cases h
    rw [if_neg hstyle]
    simp

theorem signedRequest_ok (h : cfg.signedRequest parse H timestamp bucket op = .ok composed) :
    ∃ e host, parse cfg.resolveEndpoint = some e ∧ e.host = some host ∧ ValidBucket bucket ∧
      composed.input = cfg.signInput H timestamp bucket op
        ((if cfg.pathStyle then host else bucket ++ dot :: host) ++ portSegment e.port) ∧
      composed.headers = ((signHeaders H composed.input).filter fun header => header.1.map lower ≠ utf8 "host") ∧
      composed.url = (if cfg.pathStyle then trimSlashes cfg.resolveEndpoint ++ slash :: bucket
        else e.scheme ++ utf8 "://" ++ (bucket ++ dot :: host ++ portSegment e.port)) ++ slash :: keyAndQuery op := by
  unfold S3Config.signedRequest at h
  rcases hbase : cfg.resolveBucketBase parse bucket with e | base
  · rw [hbase] at h
    cases h
  rw [hbase] at h
  rcases hheader : cfg.resolveHostHeader parse bucket with e | header
  · rw [hheader] at h
    cases h
  rw [hheader] at h
  cases h
  obtain ⟨e, host, hparsed, hhost, rfl⟩ := resolveHostHeader_ok hheader
  obtain ⟨hvalid, hparse⟩ := parsedEndpoint_ok hparsed
  refine ⟨e, host, hparse, hhost, hvalid, rfl, rfl, ?_⟩
  rw [← resolveBucketBase_ok hparsed hhost hbase]
  dsimp only
  rw [canonicalPath_path, keyAndQuery]
  split_ifs
  · simp
  · simp

end

/-! ## On the wire -/

theorem plain_of_mem_keyAndQuery {b : UInt8} (hb : b ∈ keyAndQuery op) : 0x20 < b ∧ b ≠ 0x23 := by
  rcases mem_append.1 hb with hb | hb
  · have hplain := plain_of_mem_uriEncode hb
    exact ⟨hplain.visible, hplain.noHash⟩
  · split_ifs at hb
    · exact absurd hb not_mem_nil
    · rcases mem_cons.1 hb with rfl | hb
      · decide
      · have hplain := plain_of_mem_query op b hb
        exact ⟨hplain.visible, hplain.noHash⟩

theorem cut_keyAndQuery {front : Bytes} (hfront : ∀ b ∈ front, PlainByte b) :
    (cut 0x3F (front ++ keyAndQuery op)).1 = front ++ uriEncode false op.key ∧
      (cut 0x3F (front ++ keyAndQuery op)).2.map (percentEncode keptInQuery) = queryOnWire op := by
  have hmark : (0x3F : UInt8) ∉ front ++ uriEncode false op.key := by
    intro hmem
    rcases mem_append.1 hmem with hmem | hmem
    · exact (hfront _ hmem).noMark rfl
    · exact (plain_of_mem_uriEncode hmem).noMark rfl
  have hkept : percentEncode keptInQuery op.query = op.query :=
    percentEncode_of_keep fun b hb => (plain_of_mem_query op b hb).inQuery
  unfold keyAndQuery queryOnWire
  rw [← append_assoc]
  split_ifs with hquery
  · rw [append_nil, cut_of_not_mem hmark]
    exact ⟨rfl, rfl⟩
  · rw [cut_append hmark]
    exact ⟨rfl, congrArg some hkept⟩

theorem serverQuery_queryOnWire : serverQuery (queryOnWire op) = canonicalizeQuery op.query := by
  rw [← serverQuery_query, queryOnWire]
  split_ifs with hquery
  · rw [hquery]
    rfl
  · rfl

theorem parse_of_endpointParser {e : EndpointUrl} {text : Bytes} (h : endpointParser P other text = some e)
    (hhttp : ∀ scheme rest, splitScheme (clean text) = some (scheme, rest) → e.scheme = scheme →
      defaultPort scheme ≠ none) :
    ∃ u, HttpUrl.parse P text = some u ∧ e = ⟨u.scheme, some u.host, u.port⟩ := by
  unfold endpointParser at h
  rcases hsplit : splitScheme (clean text) with _ | ⟨scheme, rest⟩
  · rw [hsplit] at h
    cases h
  rw [hsplit] at h
  dsimp only at h
  split_ifs at h with hnone
  · obtain ⟨found, -, rfl⟩ := map_eq_some_iff.1 h
    exact absurd hnone (hhttp scheme rest hsplit rfl)
  · obtain ⟨u, hu, rfl⟩ := map_eq_some_iff.1 h
    exact ⟨u, hu, rfl⟩

theorem serverQuery_behind (hvalid : ValidBucket bucket) (q : Bytes) :
    serverQuery (some (q ++ percentEncode keptInQuery (bucket ++ slash :: keyAndQuery op))) ≠
      canonicalizeQuery op.query := by
  have hkept : percentEncode keptInQuery (bucket ++ slash :: keyAndQuery op) = bucket ++ slash :: keyAndQuery op := by
    refine percentEncode_of_keep fun b hb => ?_
    rcases mem_append.1 hb with hb | hb
    · exact (plain_of_mem_bucket hvalid hb).inQuery
    rcases mem_cons.1 hb with rfl | hb
    · decide
    rcases mem_append.1 hb with hb | hb
    · exact (plain_of_mem_uriEncode hb).inQuery
    · split_ifs at hb
      · exact absurd hb not_mem_nil
      · rcases mem_cons.1 hb with rfl | hb
        · decide
        · exact (plain_of_mem_query op b hb).inQuery
  intro h
  have hlength := congrArg List.length h
  rw [hkept, ← serverQuery_query, length_serverQuery, length_serverQuery, getD_some, getD_some] at hlength
  have htwo : 2 ≤ queryLength (q ++ (bucket ++ slash :: keyAndQuery op)) :=
    two_le_queryLength (b := slash) (by simp) (by decide)
  have hlt : queryLength op.query < queryLength (q ++ (bucket ++ slash :: keyAndQuery op)) := by
    by_cases hquery : op.query = []
    · have hzero : queryLength [] = 0 := rfl
      rw [hquery]
      omega
    · have hassoc : q ++ (bucket ++ slash :: keyAndQuery op) =
          (q ++ (bucket ++ slash :: uriEncode false op.key)) ++ 0x3F :: op.query := by
        rw [keyAndQuery, if_neg hquery]
        simp
      rw [hassoc]
      exact queryLength_mark _ _
  omega

theorem pathStyle_iff (hvalid : ValidBucket bucket) {e w : HttpUrl}
    (hextends : Extends e (bucket ++ slash :: keyAndQuery op) w) :
    (percentDecode (pathText w.path) = slash :: bucket ++ slash :: op.key ∧ serverQuery w.query = canonicalizeQuery op.query) ↔
      PathStyleReaches e bucket op := by
  have hfront : ∀ b ∈ bucket ++ [slash], PlainByte b := by
    intro b hb
    rcases mem_append.1 hb with hb | hb
    · exact plain_of_mem_bucket hvalid hb
    · exact plain_byte (.inr (by simpa using .inl (mem_singleton.1 hb)))
  have hassoc : bucket ++ slash :: keyAndQuery op = bucket ++ [slash] ++ keyAndQuery op := by simp
  obtain ⟨scheme, host, port, path, query, fragment⟩ := e
  rcases fragment with _ | fragment
  · rcases query with _ | q
    · obtain ⟨hpath, hquery⟩ : _ ∧ _ := hextends
      rw [hassoc, (cut_keyAndQuery hfront).1] at hpath
      rw [hassoc, (cut_keyAndQuery hfront).2] at hquery
      rw [hquery, hpath, serverQuery_queryOnWire, and_iff_left rfl, append_assoc, singleton_append]
      exact bucket_key_below_iff hvalid _ _
    · refine iff_of_false ?_ not_false
      rintro ⟨-, hquery⟩
      have hbehind : w.query = some _ := hextends
      rw [hbehind] at hquery
      exact serverQuery_behind hvalid q hquery
  · obtain ⟨hpath, hquery⟩ : w.path = path ∧ w.query = query := hextends
    rw [hpath, hquery]
    rfl

theorem label_of_validBucket (hvalid : ValidBucket bucket) :
    ∀ b ∈ bucket, (0x61 ≤ b ∧ b ≤ 0x7A) ∨ (0x30 ≤ b ∧ b ≤ 0x39) ∨ b = 0x2D ∨ b = 0x2E := by
  intro b hb
  have h := (validBucket_bytes hvalid).2.1 b hb
  simp only [isBucketByte, isLowerOrDigit, Bool.or_eq_true, Bool.and_eq_true, decide_eq_true_eq] at h
  rcases h with ((h | h) | h) | h
  · exact .inl h
  · exact .inr (.inl h)
  · exact .inr (.inr (.inl h))
  · exact .inr (.inr (.inr h))

theorem pathStyle_wire (hstyle : cfg.pathStyle = true)
    (hsigned : cfg.signedRequest (endpointParser P other) H timestamp bucket op = .ok composed) {w : HttpUrl}
    (hw : HttpUrl.parse P composed.url = some w) :
    ValidBucket bucket ∧ composed.input = cfg.signInput H timestamp bucket op w.wire.host ∧
      ∃ e, HttpUrl.parse P (trimSlashes cfg.resolveEndpoint ++ [slash]) = some e ∧
        Extends e (bucket ++ slash :: keyAndQuery op) w := by
  obtain ⟨e, host, hparse, hhost, hvalid, hinput, -, hurl⟩ := signedRequest_ok hsigned
  rw [if_pos hstyle] at hurl hinput
  have hassoc : trimSlashes cfg.resolveEndpoint ++ slash :: bucket ++ slash :: keyAndQuery op =
      trimSlashes cfg.resolveEndpoint ++ slash :: (bucket ++ slash :: keyAndQuery op) := by simp
  rw [hurl, hassoc] at hw
  have hplain : ∀ b ∈ bucket ++ slash :: keyAndQuery op, 0x20 < b ∧ b ≠ 0x23 := by
    intro b hb
    rcases mem_append.1 hb with hb | hb
    · have h := plain_of_mem_bucket hvalid hb
      exact ⟨h.visible, h.noHash⟩
    · rcases mem_cons.1 hb with rfl | hb
      · decide
      · exact plain_of_mem_keyAndQuery hb
  have hvisible : ∀ b ∈ bucket ++ slash :: keyAndQuery op, 0x20 < b := fun b hb => (hplain b hb).1
  obtain ⟨u, hu, rfl⟩ := parse_of_endpointParser hparse fun scheme rest hsplit _ =>
    defaultPort_of_extend hvisible hsplit hw
  obtain ⟨e, he, -, hhost', hport, hextends⟩ :=
    parse_extend hvisible (fun hmem => (hplain _ hmem).2 rfl) hu hw
  cases hhost
  refine ⟨hvalid, ?_, e, he, hextends⟩
  rw [hinput, wire, hhost', hport]
  rfl

theorem virtualHost_wire (hstyle : cfg.pathStyle = false)
    (hsigned : cfg.signedRequest (endpointParser P other) H timestamp bucket op = .ok composed) {w : HttpUrl}
    (hw : HttpUrl.parse P composed.url = some w) :
    composed.input = cfg.signInput H timestamp bucket op w.wire.host ∧ (∃ rest, w.wire.host = bucket ++ dot :: rest) ∧
      w.path = below [] (uriEncode false op.key) ∧ w.query = queryOnWire op := by
  obtain ⟨e, host, hparse, hhost, hvalid, hinput, -, hurl⟩ := signedRequest_ok hsigned
  rw [if_neg (by rw [hstyle]; exact Bool.false_ne_true)] at hurl hinput
  rw [hurl] at hw
  obtain ⟨u, hu, rfl⟩ := parse_of_endpointParser hparse fun scheme rest hsplit hscheme hnone => by
    have hassoc : e.scheme ++ utf8 "://" ++ (bucket ++ dot :: host ++ portSegment e.port) ++ slash :: keyAndQuery op =
        scheme ++ 0x3A :: (slash :: slash :: (bucket ++ dot :: host ++ portSegment e.port) ++ slash :: keyAndQuery op) := by
      have hmarks : utf8 "://" = [0x3A, slash, slash] := by decide
      rw [hscheme, hmarks]
      simp
    rw [hassoc, parse_otherScheme hsplit hnone] at hw
    cases hw
  cases hhost
  obtain ⟨hhost', hport, hpath, hquery⟩ := parse_compose hu (label_of_validBucket hvalid)
    (fun b hb => (plain_of_mem_keyAndQuery hb).1) (fun hmem => (plain_of_mem_keyAndQuery hmem).2 rfl) hw
  have hnil : ∀ b ∈ ([] : Bytes), PlainByte b := fun _ hb => absurd hb not_mem_nil
  have hcut : (cut 0x3F ([] ++ keyAndQuery op)).1 = [] ++ uriEncode false op.key ∧
      (cut 0x3F ([] ++ keyAndQuery op)).2.map (percentEncode keptInQuery) = queryOnWire op :=
    cut_keyAndQuery hnil
  rw [nil_append, nil_append] at hcut
  rw [hcut.1] at hpath
  rw [hcut.2] at hquery
  refine ⟨?_, ⟨u.host ++ portSegment u.port, ?_⟩, hpath, hquery⟩
  · rw [hinput, wire, hhost', hport]
    rfl
  · rw [wire, hhost', hport, append_assoc]
    rfl

/-- **Requests are signed as they are sent** exactly for the endpoints and keys for which the parser of the address leaves
bucket and key in their place. -/
theorem signedAsSent_iff (hsigned : cfg.signedRequest (endpointParser P other) H timestamp bucket op = .ok composed)
    (hwire : onWire P composed.url = some wire) : SignedAsSent cfg bucket op composed wire ↔ ReachesKey P cfg bucket op := by
  obtain ⟨-, -, -, -, -, -, hheaders, -⟩ := signedRequest_ok hsigned
  obtain ⟨w, hw, rfl⟩ := map_eq_some_iff.1 hwire
  unfold ReachesKey
  rcases hstyle : cfg.pathStyle with _ | _
  · obtain ⟨hinput, hbucket, hpath, hquery⟩ := virtualHost_wire hstyle hsigned hw
    rw [signedAsSent_iff_target hinput hheaders fun _ => hbucket, signedPath_eq, hstyle, if_neg Bool.false_ne_true,
      if_neg Bool.false_ne_true, nil_append, wire, hpath, hquery, serverQuery_queryOnWire, and_iff_left rfl]
    exact key_iff op.key
  obtain ⟨hvalid, hinput, e, he, hextends⟩ := pathStyle_wire hstyle hsigned hw
  have hunique : (∃ e, HttpUrl.parse P (trimSlashes cfg.resolveEndpoint ++ [slash]) = some e ∧ PathStyleReaches e bucket op) ↔
      PathStyleReaches e bucket op := by
    constructor
    · rintro ⟨e', he', hreaches⟩
      rw [he, some_inj] at he'
      rwa [he']
    · intro hreaches
      exact ⟨e, he, hreaches⟩
  have hvirtual : cfg.pathStyle = false → ∃ rest, w.wire.host = bucket ++ dot :: rest := by
    rw [hstyle]
    nofun
  rw [signedAsSent_iff_target hinput hheaders hvirtual, signedPath_eq, hstyle, if_pos rfl, if_pos rfl, hunique]
  exact pathStyle_iff hvalid hextends

end

/-! ## Samples -/

def sampleHashes : Hashes := ⟨fun _ => [], fun _ _ => []⟩

def sampleConfig (endpoint : String) : S3Config where
  accessKeyId := utf8 "id"
  secretAccessKey := utf8 "secret"
  region := utf8 "eu"
  endpoint := utf8 endpoint
  pathStyle := true
  defaultBucket := []
  defaultPrefix := []

/-- A download from a bucket `abc`. -/
def sampleRequest (endpoint key : String) : Except AddressError Composed :=
  (sampleConfig endpoint).signedRequest (endpointParser .verbatim fun _ _ => none) sampleHashes (utf8 "20250101T000000Z")
    (utf8 "abc") (.getObject key none)

theorem sampleRequest_ok (endpoint key : String) (url : Bytes)
    (h : (sampleRequest endpoint key).toOption.map Composed.url = some url) :
    ∃ composed, sampleRequest endpoint key = .ok composed ∧ composed.url = url := by
  obtain ⟨composed, hsome, rfl⟩ := map_eq_some_iff.1 h
  rcases hrequest : sampleRequest endpoint key with e | found
  · rw [hrequest] at hsome
    cases hsome
  · rw [hrequest] at hsome
    cases hsome
    exact ⟨_, rfl, rfl⟩

theorem signedAsSent_iff_sample : ∃ composed wire, sampleRequest "http://s3.example:9000/" "a b/.c" = .ok composed ∧
    onWire .verbatim composed.url = some wire ∧
      SignedAsSent (sampleConfig "http://s3.example:9000/") (utf8 "abc") (.getObject "a b/.c" none) composed wire := by
  obtain ⟨composed, hsigned, hurl⟩ := sampleRequest_ok "http://s3.example:9000/" "a b/.c"
    (utf8 "http://s3.example:9000/abc/a%20b/.c") (by decide +kernel)
  have hwire : onWire .verbatim composed.url = some ⟨utf8 "s3.example:9000", utf8 "/abc/a%20b/.c", none⟩ := by
    rw [hurl]
    decide +kernel
  refine ⟨composed, _, hsigned, hwire, (signedAsSent_iff hsigned hwire).2 ?_⟩
  refine ⟨⟨utf8 "http", utf8 "s3.example", some 9000, [[]], none, none⟩, by decide +kernel, ?_⟩
  have hdotless : Dotless (Operation.getObject "a b/.c" none).key := by decide +kernel
  unfold PathStyleReaches
  rw [climb_dotless hdotless]
  exact ⟨rfl, hdotless⟩

def SentOtherwise (endpoint key : String) : Prop :=
  ∃ composed wire, sampleRequest endpoint key = .ok composed ∧ onWire .verbatim composed.url = some wire ∧
    ¬SignedAsSent (sampleConfig endpoint) (utf8 "abc") (.getObject key none) composed wire

theorem sentOtherwise_of_path (endpoint key : String) (url : Bytes) (wire : Wire)
    (hurl : (sampleRequest endpoint key).toOption.map Composed.url = some url) (hwire : onWire .verbatim url = some wire)
    (hpath : percentDecode wire.path ≠ slash :: utf8 "abc" ++ slash :: utf8 key) : SentOtherwise endpoint key := by
  obtain ⟨composed, hsigned, rfl⟩ := sampleRequest_ok endpoint key url hurl
  exact ⟨composed, wire, hsigned, hwire, fun h => hpath h.key⟩

/-- A key with dots is resolved, and the path of an endpoint is not signed. -/
theorem key_is_resolved : SentOtherwise "http://s3.example" "a/../b" ∧ SentOtherwise "http://s3.example/gateway" "b" :=
  ⟨sentOtherwise_of_path "http://s3.example" "a/../b" (utf8 "http://s3.example/abc/a/../b")
      ⟨utf8 "s3.example", utf8 "/abc/b", none⟩ (by decide +kernel) (by decide +kernel) (by decide +kernel),
    sentOtherwise_of_path "http://s3.example/gateway" "b" (utf8 "http://s3.example/gateway/abc/b")
      ⟨utf8 "s3.example", utf8 "/gateway/abc/b", none⟩ (by decide +kernel) (by decide +kernel) (by decide +kernel)⟩

end LetsFlutSsh.S3
