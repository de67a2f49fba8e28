import LetsFlutSsh.Lib.HttpUrl
import LetsFlutSsh.Recorder.Line
import LetsFlutSsh.S3.Config
import Mathlib.Data.List.Sort

/-!
# Signed requests

* `uriEncode` : the encoding of paths and queries; `percentDecode_uriEncode` : its decoding;
* `canonicalPath`, `canonicalizeQuery` : the path and the query of a canonical request;
* `canonicalRequest` : the text that is signed;
* `signHeaders` : the headers of a signed request.
-/

namespace LetsFlutSsh.S3
open Lib List

/-- Letters, digits, `_`, `.`, `~` and `-`. -/
def isUnreserved (b : UInt8) : Bool :=
  isLowerOrDigit b || (0x41 ≤ b && b ≤ 0x5A) || b = 0x5F || b = dot || b = 0x7E || b = 0x2D

/-- The bytes that `uri_encode` keeps. -/
def isKept (isQuery : Bool) (b : UInt8) : Bool := isUnreserved b || (b = slash && !isQuery)

def uriEncode (isQuery : Bool) (input : Bytes) : Bytes := percentEncode (isKept isQuery) input

theorem isKept_percent (isQuery : Bool) : isKept isQuery percent = false := by
  cases isQuery <;> decide

theorem percentDecode_uriEncode (isQuery : Bool) (input : Bytes) : percentDecode (uriEncode isQuery input) = input := by
  have h := percentDecode_percentEncode (isKept_percent isQuery) input []
  rwa [append_nil, percentDecode_nil, append_nil] at h

def canonicalPath (path : Bytes) : Bytes :=
  if path = [] then [slash]
  else
    let trimmed := if path.head? = some slash then path.tail else path
    let out := pathText ((trimmed.splitOn slash).map (uriEncode false))
    if path.getLast? = some slash ∧ out.getLast? ≠ some slash then out ++ [slash] else out

/-- `String::from_utf8_lossy`, as bytes. -/
def lossy (bytes : Bytes) : Bytes := ((fromUtf8 bytes).map utf8).getD (utf8 (String.ofList (Recorder.fromUtf8Lossy bytes)))

def unescape (input : Bytes) : Bytes := percentDecode (input.map fun b => if b = 0x2B then 0x20 else b)

def urlDecode (input : Bytes) : Bytes := lossy (unescape input)

def equals : UInt8 := 0x3D

def ampersand : UInt8 := 0x26

def PairLe (a b : Bytes × Bytes) : Prop := a.1 < b.1 ∨ a.1 = b.1 ∧ a.2 ≤ b.2

instance : DecidableRel PairLe := fun _ _ => inferInstanceAs (Decidable (_ ∨ _))

def canonicalizeQueryPairs (pairs : List (Bytes × Bytes)) : Bytes :=
  [ampersand].intercalate ((pairs.insertionSort PairLe).map fun p => p.1 ++ equals :: p.2)

def queryParts (raw : Bytes) : List Bytes := (raw.splitOn ampersand).filter (· ≠ [])

/-- A part with its name and its value decoded and encoded again. -/
def recode (decode : Bytes → Bytes) (part : Bytes) : Bytes × Bytes :=
  (uriEncode true (decode (HttpUrl.cut equals part).1), uriEncode true (decode ((HttpUrl.cut equals part).2.getD [])))

def canonicalizeQuery (raw : Bytes) : Bytes :=
  if raw = [] then [] else canonicalizeQueryPairs ((queryParts raw).map (recode urlDecode))

/-- The hashes of the client's libraries. -/
structure Hashes where
  sha256 : Bytes → Bytes
  /-- Of a key and a message. -/
  hmacSha256 : Bytes → Bytes → Bytes

def hexLower (bytes : Bytes) : Bytes :=
  bytes.flatMap fun b => [HttpUrl.lower (hexDigit (b.toNat / 16)), HttpUrl.lower (hexDigit (b.toNat % 16))]

def hexSha256 (H : Hashes) (data : Bytes) : Bytes := hexLower (H.sha256 data)

abbrev Headers := List (Bytes × Bytes)

/-- What a request is signed with; the payload's hash is in hexadecimal. -/
structure SignHeaderInput where
  method : Bytes
  host : Bytes
  path : Bytes
  query : Bytes
  payloadHash : Bytes
  extraHeaders : Headers
  accessKeyId : Bytes
  secretAccessKey : Bytes
  region : Bytes
  service : Bytes
  timestamp : Bytes

/-- `str::trim`. -/
def trimText (text : Bytes) : Bytes := ((fromUtf8 text).map fun s => utf8 (String.ofList (trim s.toList))).getD text

def SignHeaderInput.allHeaders (input : SignHeaderInput) : Headers :=
  List.insertionSort (fun a b => a.1 ≤ b.1)
    ((utf8 "host", input.host) :: (utf8 "x-amz-date", input.timestamp) :: (utf8 "x-amz-content-sha256", input.payloadHash) ::
      input.extraHeaders.map fun header => (header.1.map HttpUrl.lower, trimText header.2))

def newline : UInt8 := 0x0A

def canonicalHeaders (headers : Headers) : Bytes := headers.flatMap fun header => header.1 ++ 0x3A :: header.2 ++ [newline]

def signedHeaders (headers : Headers) : Bytes := [(0x3B : UInt8)].intercalate (headers.map Prod.fst)

def canonicalRequest (method uri query : Bytes) (headers : Headers) (payloadHash : Bytes) : Bytes :=
  method ++ newline :: uri ++ newline :: query ++ newline :: canonicalHeaders headers ++ newline :: signedHeaders headers ++
    newline :: payloadHash

def SignHeaderInput.canonicalRequest (input : SignHeaderInput) : Bytes :=
  S3.canonicalRequest input.method (canonicalPath input.path) (canonicalizeQuery input.query) input.allHeaders input.payloadHash

def deriveSigningKey (H : Hashes) (secret date region service : Bytes) : Bytes :=
  H.hmacSha256 (H.hmacSha256 (H.hmacSha256 (H.hmacSha256 (utf8 "AWS4" ++ secret) date) region) service) (utf8 "aws4_request")

/-- `sign_headers`: the headers that go out, with the name of the host in capitals. -/
def signHeaders (H : Hashes) (input : SignHeaderInput) : Headers :=
  let date := input.timestamp.take 8
  let scope := date ++ slash :: input.region ++ slash :: input.service ++ utf8 "/aws4_request"
  let stringToSign := utf8 "AWS4-HMAC-SHA256\n" ++ input.timestamp ++ newline :: scope ++ newline ::
    hexSha256 H input.canonicalRequest
  let signingKey := deriveSigningKey H input.secretAccessKey date input.region input.service
  let signature := hexLower (H.hmacSha256 signingKey stringToSign)
  let authorization := utf8 "AWS4-HMAC-SHA256 Credential=" ++ input.accessKeyId ++ slash :: scope ++ utf8 ", SignedHeaders=" ++
    signedHeaders input.allHeaders ++ utf8 ", Signature=" ++ signature
  input.allHeaders.map (fun header => (if header.1 = utf8 "host" then utf8 "Host" else header.1, header.2)) ++
    [(utf8 "Authorization", authorization)]

variable (key : Bytes)

theorem uriEncode_slash : uriEncode false (slash :: key) = slash :: uriEncode false key :=
  percentEncode_cons slash key

theorem pathText_map_uriEncode :
    pathText ((key.splitOn slash).map (uriEncode false)) = slash :: uriEncode false key := by
  have hmap : ∀ segs : List Bytes, pathText (segs.map (uriEncode false)) = uriEncode false (pathText segs) := by
    intro segs
    induction segs with
    | nil => rfl
    | cons seg segs ih =>
      rw [map_cons, pathText_cons, ih, pathText_cons]
      exact congrArg (slash :: ·) (percentEncode_append _ _).symm |>.trans (uriEncode_slash _).symm
  rw [hmap, ← uriEncode_slash]
  exact congrArg (uriEncode false) (pathText_splitOn key)

theorem canonicalPath_cons : canonicalPath (slash :: key) = slash :: uriEncode false key := by
  rw [canonicalPath, if_neg (cons_ne_nil slash key), head?_cons, if_pos rfl, tail_cons]
  dsimp only
  rw [pathText_map_uriEncode, if_neg]
  rintro ⟨hlast, hout⟩
  refine hout ?_
  rcases eq_nil_or_concat' key with rfl | ⟨key, b, rfl⟩
  · rfl
  · rw [← cons_append, getLast?_concat, Option.some_inj] at hlast
    subst hlast
    rw [uriEncode, percentEncode_append, ← cons_append]
    exact getLast?_concat ..

end LetsFlutSsh.S3
