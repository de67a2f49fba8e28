import LetsFlutSsh.Lib.Bytes

/-!
# S3 configuration

Texts are the bytes of their UTF-8 encoding, as the source reads them.

* `validateBucketName` : the rules for a bucket's name, and the error each of them names;
* `S3Config`, `resolveEndpoint`, `resolveBucketBase`, `resolveHostHeader` : where requests for a bucket go.
-/

namespace LetsFlutSsh.S3
open Lib

inductive BucketError where
  | empty
  | length
  | start
  | finish
  | character (position : Nat)
  | consecutiveDots
  | ipv4
  deriving DecidableEq

/-- The error text; `debug` prints a name in quotes. -/
def BucketError.text (debug : Bytes → String) (name : Bytes) : BucketError → String
  | .empty => "bucket name must not be empty"
  | .length => "bucket name " ++ debug name ++ " must be 3..=63 characters"
  | .start => "bucket name " ++ debug name ++ " must start with a lowercase letter or digit"
  | .finish => "bucket name " ++ debug name ++ " must end with a lowercase letter or digit"
  | .character i => "bucket name " ++ debug name ++ " has invalid character at position " ++ toString i
  | .consecutiveDots => "bucket name " ++ debug name ++ " must not contain consecutive dots"
  | .ipv4 => "bucket name " ++ debug name ++ " must not be formatted as an IPv4 address"

def dot : UInt8 := 0x2E

def isLowerOrDigit (b : UInt8) : Bool := (0x61 ≤ b && b ≤ 0x7A) || (0x30 ≤ b && b ≤ 0x39)
def isBucketByte (b : UInt8) : Bool := isLowerOrDigit b || b = 0x2D || b = dot

/-- The loop over the bytes of a name, from position `i`. -/
def checkBytes (i : Nat) : Bytes → Option BucketError
  | [] => none
  | b :: rest =>
    if !isBucketByte b then some (.character i)
    else if b = dot && rest.head? = some dot then some .consecutiveDots
    else checkBytes (i + 1) rest

def isIpv4Part (part : Bytes) : Bool :=
  part ≠ [] && part.length ≤ 3 && part.all (fun b => 0x30 ≤ b && b ≤ 0x39) && (part.length = 1 || part.head? ≠ some 0x30) &&
    part.foldl (fun n b => 10 * n + (b.toNat - 48)) 0 < 256

/-- `str::parse::<Ipv4Addr>` succeeds. -/
def isIpv4 (name : Bytes) : Bool := (name.splitOn dot).length = 4 && (name.splitOn dot).all isIpv4Part

def validateBucketName (name : Bytes) : Except BucketError Unit :=
  match name.head?, name.getLast? with
  | some first, some last =>
    if name.length < 3 ∨ 63 < name.length then .error .length
    else if !isLowerOrDigit first then .error .start
    else if !isLowerOrDigit last then .error .finish
    else
      match checkBytes 0 name with
      | some e => .error e
      | none => if isIpv4 name then .error .ipv4 else .ok ()
  | _, _ => .error .empty

def ValidBucket (name : Bytes) : Prop := validateBucketName name = .ok ()

instance (name : Bytes) : Decidable (ValidBucket name) :=
  match h : validateBucketName name with
  | .ok () => isTrue h
  | .error _ => isFalse (by rw [ValidBucket, h]; rintro ⟨⟩)

theorem isBucketByte_of_checkBytes {i : Nat} {name : Bytes} (h : checkBytes i name = none) :
    ∀ b ∈ name, isBucketByte b = true := by
  induction name generalizing i with
  | nil => exact fun _ hb => absurd hb List.not_mem_nil
  | cons b rest ih =>
    rw [checkBytes] at h
    split_ifs at h with hb
    rw [Bool.not_eq_true, Bool.not_eq_false'] at hb
    exact List.forall_mem_cons.2 ⟨hb, ih h⟩

theorem validBucket_bytes {name : Bytes} (h : ValidBucket name) :
    3 ≤ name.length ∧ (∀ b ∈ name, isBucketByte b = true) ∧ ∃ first rest, name = first :: rest ∧ isLowerOrDigit first = true := by
  unfold ValidBucket validateBucketName at h
  rcases name with _ | ⟨first, rest⟩
  · cases h
  rw [List.head?_cons, List.getLast?_cons] at h
  dsimp only at h
  rcases hcheck : checkBytes 0 (first :: rest) with _ | e
  · rw [hcheck] at h
    split_ifs at h with hlen hfirst
    refine ⟨by omega, isBucketByte_of_checkBytes hcheck, first, rest, rfl, ?_⟩
    rwa [Bool.not_eq_true, Bool.not_eq_false'] at hfirst
  · rw [hcheck] at h
    split_ifs at h

/-- What the client's address parser answers for an endpoint. -/
structure EndpointUrl where
  scheme : Bytes
  host : Option Bytes
  /-- The port, unless it is the scheme's own. -/
  port : Option Nat

/-- The connection's settings that requests are made of. -/
structure S3Config where
  accessKeyId : Bytes
  secretAccessKey : Bytes
  region : Bytes
  endpoint : Bytes
  pathStyle : Bool
  defaultBucket : Bytes
  defaultPrefix : Bytes

inductive AddressError where
  | bucket (e : BucketError)
  | invalidEndpoint
  | noHost
  deriving DecidableEq

def slash : UInt8 := 0x2F

def portSegment (port : Option Nat) : Bytes := port.elim [] fun p => utf8 (":" ++ toString p)

/-- `str::trim_end_matches('/')`. -/
def trimSlashes (text : Bytes) : Bytes := text.rdropWhile (· = slash)

namespace S3Config

variable (parse : Bytes → Option EndpointUrl) (cfg : S3Config) (bucket : Bytes)

def resolveEndpoint : Bytes :=
  if cfg.endpoint ≠ [] then cfg.endpoint
  else utf8 "https://s3." ++ (if cfg.region = [] then utf8 "us-east-1" else cfg.region) ++ utf8 ".amazonaws.com"

def parsedEndpoint : Except AddressError EndpointUrl :=
  match validateBucketName bucket with
  | .error e => .error (.bucket e)
  | .ok () =>
    match parse cfg.resolveEndpoint with
    | none => .error .invalidEndpoint
    | some url => .ok url

def resolveBucketBase : Except AddressError Bytes :=
  match cfg.parsedEndpoint parse bucket with
  | .error e => .error e
  | .ok url =>
    if cfg.pathStyle then .ok (trimSlashes cfg.resolveEndpoint ++ slash :: bucket)
    else
      match url.host with
      | none => .error .noHost
      | some host => .ok (url.scheme ++ utf8 "://" ++ bucket ++ dot :: host ++ portSegment url.port)

def resolveHostHeader : Except AddressError Bytes :=
  match cfg.parsedEndpoint parse bucket with
  | .error e => .error e
  | .ok url =>
    match url.host with
    | none => .error .noHost
    | some host =>
      .ok (if cfg.pathStyle then host ++ portSegment url.port else bucket ++ dot :: host ++ portSegment url.port)

end S3Config

end LetsFlutSsh.S3
