import LetsFlutSsh.S3.Rename

/-!
# Requests of the client

* `Operation` : what the client asks for, with its method, path, query, body and headers;
* `endpointParser` : the client's address parser, for every scheme;
* `signedRequest` : the request that is composed and signed;
* `onWire` : what goes out of it.
-/

namespace LetsFlutSsh.S3
open Lib

def emptyPayloadHash : Bytes := utf8 "e3b0c44298fc1c149afbf4c8996fb92427ae41e4649b934ca495991b7852b855"

/-- What the client asks for, of a bucket. -/
inductive Operation where
  | listObjectsV2 (keyPrefix : String) (continuationToken : Option String)
  | headObject (key : String)
  | getObject (key : String) (range : Option (Nat × Nat))
  | putObjectSingle (key : String) (body : Bytes)
  | deleteObject (key : String)
  | copyObject (srcBucket srcKey : String) (key : String)
  | createMultipartUpload (key : String)
  | uploadPart (key uploadId : String) (partNumber : Int) (body : Bytes)
  | completeMultipartUpload (key uploadId : String) (parts : List (Int × String))
  | abortMultipartUpload (key uploadId : String)

def quote : UInt8 := 0x22

def buildCompleteMultipartBody (parts : List (Int × String)) : Bytes :=
  let sorted := parts.insertionSort fun p q => p.1 ≤ q.1
  utf8 "<CompleteMultipartUpload>" ++ (sorted.flatMap fun p =>
      utf8 "<Part><PartNumber>" ++ utf8 (toString p.1) ++ utf8 "</PartNumber><ETag>" ++
        quote :: ((utf8 p.2).dropWhile (· = quote)).rdropWhile (· = quote) ++ quote :: utf8 "</ETag></Part>") ++
    utf8 "</CompleteMultipartUpload>"

namespace Operation

def key : Operation → Bytes
  | .listObjectsV2 _ _ => []
  | .headObject key | .getObject key _ | .putObjectSingle key _ | .deleteObject key | .copyObject _ _ key
  | .createMultipartUpload key | .uploadPart key _ _ _ | .completeMultipartUpload key _ _ | .abortMultipartUpload key _ => utf8 key

def path (op : Operation) : Bytes := slash :: op.key

def method : Operation → Bytes
  | .listObjectsV2 _ _ | .getObject _ _ => utf8 "GET"
  | .headObject _ => utf8 "HEAD"
  | .putObjectSingle _ _ | .copyObject _ _ _ | .uploadPart _ _ _ _ => utf8 "PUT"
  | .deleteObject _ | .abortMultipartUpload _ _ => utf8 "DELETE"
  | .createMultipartUpload _ | .completeMultipartUpload _ _ _ => utf8 "POST"

def query : Operation → Bytes
  | .listObjectsV2 keyPrefix continuationToken =>
    utf8 "delimiter=%2F&list-type=2&prefix=" ++ uriEncode true (utf8 keyPrefix) ++
      continuationToken.elim [] fun token => utf8 "&continuation-token=" ++ uriEncode true (utf8 token)
  | .createMultipartUpload _ => utf8 "uploads="
  | .uploadPart _ uploadId partNumber _ =>
    utf8 "partNumber=" ++ utf8 (toString partNumber) ++ utf8 "&uploadId=" ++ uriEncode true (utf8 uploadId)
  | .completeMultipartUpload _ uploadId _ | .abortMultipartUpload _ uploadId =>
    utf8 "uploadId=" ++ uriEncode true (utf8 uploadId)
  | .headObject _ | .getObject _ _ | .putObjectSingle _ _ | .deleteObject _ | .copyObject _ _ _ => []

def body : Operation → Option Bytes
  | .putObjectSingle _ body | .uploadPart _ _ _ body => some body
  | .createMultipartUpload _ => some []
  | .completeMultipartUpload _ _ parts => some (buildCompleteMultipartBody parts)
  | .listObjectsV2 _ _ | .headObject _ | .getObject _ _ | .deleteObject _ | .copyObject _ _ _ | .abortMultipartUpload _ _ => none

/-- The hash of the body; what has no body of its own says so without hashing. -/
def payloadHash (H : Hashes) : Operation → Bytes
  | .putObjectSingle _ body | .uploadPart _ _ _ body => hexSha256 H body
  | .completeMultipartUpload _ _ parts => hexSha256 H (buildCompleteMultipartBody parts)
  | _ => emptyPayloadHash

def extraHeaders : Operation → Headers
  | .getObject _ (some (start, finish)) =>
    [(utf8 "Range", utf8 ("bytes=" ++ toString start ++ "-" ++ toString finish))]
  | .copyObject srcBucket srcKey _ => [(utf8 "x-amz-copy-source", copySource (utf8 srcBucket) (utf8 srcKey))]
  | _ => []

end Operation

/-- The address parser; the addresses of other schemes are read by `other`, from the scheme and what follows it. -/
def endpointParser (P : HostParser) (other : Bytes → Bytes → Option (Option Bytes × Option Nat)) (text : Bytes) :
    Option EndpointUrl :=
  match HttpUrl.splitScheme (HttpUrl.clean text) with
  | none => none
  | some (scheme, rest) =>
    if HttpUrl.defaultPort scheme = none then (other scheme rest).map fun found => ⟨scheme, found.1, found.2⟩
    else (HttpUrl.parse P text).map fun url => ⟨url.scheme, some url.host, url.port⟩

/-- A request as it is handed to the HTTP client, and what it was signed with. -/
structure Composed where
  input : SignHeaderInput
  url : Bytes
  headers : Headers
  body : Option Bytes

namespace S3Config

variable (parse : Bytes → Option EndpointUrl) (H : Hashes) (cfg : S3Config) (timestamp bucket : Bytes) (op : Operation)

/-- The path that is signed: under path style with the bucket in front. -/
def signedPath : Bytes :=
  if cfg.pathStyle then
    if op.path.head? = some slash then slash :: bucket ++ op.path else slash :: bucket ++ slash :: op.path
  else op.path

def signInput (host : Bytes) : SignHeaderInput where
  method := op.method
  host := host
  path := cfg.signedPath bucket op
  query := op.query
  payloadHash := op.payloadHash H
  extraHeaders := op.extraHeaders
  accessKeyId := cfg.accessKeyId
  secretAccessKey := cfg.secretAccessKey
  region := cfg.region
  service := utf8 "s3"
  timestamp := timestamp

/-- `signed_request_with_headers`, up to the sending. -/
def signedRequest : Except AddressError Composed :=
  match cfg.resolveBucketBase parse bucket with
  | .error e => .error e
  | .ok base =>
    match cfg.resolveHostHeader parse bucket with
    | .error e => .error e
    | .ok host =>
      let input := cfg.signInput H timestamp bucket op host
      let url := base ++ canonicalPath op.path
      .ok {
        input
        url := if op.query = [] then url else url ++ 0x3F :: op.query
        -- The HTTP client writes the `Host` header itself.
        headers := (signHeaders H input).filter fun header => header.1.map HttpUrl.lower ≠ utf8 "host"
        body := op.body }

end S3Config

/-- What the HTTP client sends of an address; nothing if it is no address of HTTP. -/
def onWire (P : HostParser) (url : Bytes) : Option HttpUrl.Wire := (HttpUrl.parse P url).map HttpUrl.wire

end LetsFlutSsh.S3
