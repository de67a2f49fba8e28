import Mathlib.Algebra.BigOperators.Group.List.Basic
import LetsFlutSsh.Lib.Pages
import LetsFlutSsh.S3.Client

/-!
# Listings

* `ListParams`, `listObjectsV2` : the list request;
* `list`, `dirSize` : the two loops over its pages;
* `listing` : what the server has for the parameters of a request;
* `dirSize_eq_total_iff` : when the size of a directory is that of all it holds.
-/

namespace LetsFlutSsh.S3
open Lib List

/-! ## The request -/

/-- The parameters of `ListObjectsV2`. -/
structure ListParams where
  keyPrefix : Bytes
  delimiter : Option UInt8
  continuationToken : Option Bytes

/-- The parameters of every list request: the delimiter is always there. -/
def listParams (keyPrefix : Bytes) (token : Option Bytes) : ListParams :=
  { keyPrefix, delimiter := some slash, continuationToken := token }

/-- What a page holds: an object, or a common prefix as a directory. -/
structure S3Object where
  key : Bytes
  size : Nat
  lastModifiedUnixMs : Option Int
  etag : Bytes
  isDir : Bool

abbrev S3ObjectPage := Page S3Object Bytes

abbrev ListServer := Bytes → ListParams → Except S3Error S3ObjectPage

/-! ## Entries -/

inductive EntryKind where
  | file
  | dir

structure Entry where
  path : Bytes
  name : Bytes
  kind : EntryKind
  sizeBytes : Nat
  modifiedUnixMs : Option Int

def displayName (key parentPrefix : Bytes) : Bytes :=
  let stripped := if parentPrefix.isPrefixOf key then key.drop parentPrefix.length else key
  let trimmed := trimSlashes stripped
  if trimmed = [] then key else trimmed

def entryFromObject (bucket parentPrefix : Bytes) (obj : S3Object) : Entry where
  path := utf8 "s3://" ++ bucket ++ slash :: obj.key
  name := displayName obj.key parentPrefix
  kind := if obj.isDir then .dir else .file
  sizeBytes := obj.size
  modifiedUnixMs := obj.lastModifiedUnixMs

def addSize (total : Nat) (obj : S3Object) : Nat := if obj.isDir then total else satAdd maxU64 total obj.size

variable {bucket path : Bytes}

namespace S3Config

variable (parse : Bytes → Option EndpointUrl) (cfg : S3Config) (server : ListServer)

def listObjectsV2 (bucket keyPrefix : Bytes) (token : Option Bytes) : Except S3Error S3ObjectPage :=
  match cfg.address parse bucket with
  | .error e => .error (.address e)
  | .ok () => server bucket (listParams keyPrefix token)

/-- `list`; nothing when the fuel does not reach the last page. -/
def list (fuel : Nat) (path : Bytes) : Option (Except S3Error (List Entry)) :=
  match cfg.resolve path with
  | .error e => some (.error (.path e))
  | .ok (bucket, keyPrefix) =>
    walkPages (cfg.listObjectsV2 parse server bucket keyPrefix) (fun out obj => out ++ [entryFromObject bucket keyPrefix obj]) fuel none []

def dirSize (fuel : Nat) (path : Bytes) : Option (Except S3Error Nat) :=
  match cfg.resolve path with
  | .error e => some (.error (.path e))
  | .ok (bucket, keyPrefix) => walkPages (cfg.listObjectsV2 parse server bucket keyPrefix) addSize fuel none 0

/-! ## Paths below the default prefix -/

variable {parse cfg server}

/-- The prefix ends in just one slash, or neither it nor the path has one where they meet. -/
def PrefixMeets (cfg : S3Config) (path : Bytes) : Prop :=
  cfg.defaultPrefix = trimSlashes cfg.defaultPrefix ++ [slash] ∨
    cfg.defaultPrefix.getLast? ≠ some slash ∧ path.head? ≠ some slash

theorem trimSlashes_eq_self {text : Bytes} (h : text.getLast? ≠ some slash) : trimSlashes text = text := by
  rw [trimSlashes, rdropWhile_eq_self_iff]
  intro hne hlast
  exact h (by rw [getLast?_eq_getLast_of_ne_nil hne, of_decide_eq_true hlast])

theorem resolve_eq_joined_iff (hbucket : cfg.defaultBucket ≠ []) (hbase : cfg.defaultPrefix ≠ [])
    (hscheme : stripScheme path = none) :
    cfg.resolve path = .ok (cfg.defaultBucket, trimSlashes cfg.defaultPrefix ++ slash :: path.dropWhile (· = slash)) ↔
      cfg.PrefixMeets path := by
  unfold resolve parsePath PrefixMeets
  rw [hscheme]
  rw [if_neg hbucket, Except.ok.injEq, Prod.mk.injEq, append_cons, append_cancel_right_eq, eq_self, true_and]
  by_cases hend : cfg.defaultPrefix.getLast? = some slash
  · rw [if_neg fun h => h.2.1 hend, append_nil]
    exact ⟨.inl, fun h => h.resolve_right fun h => h.1 hend⟩
  · have hself := trimSlashes_eq_self hend
    by_cases hstart : path.head? = some slash
    · rw [if_neg fun h => h.2.2 hstart, append_nil]
      exact ⟨.inl, fun h => h.resolve_right fun h => h.2 hstart⟩
    · rw [if_pos ⟨hbase, hend, hstart⟩, hself]
      exact iff_of_true rfl (.inr ⟨hend, hstart⟩)

/-! ## Paths of entries -/

theorem address_of_listObjectsV2 {keyPrefix : Bytes} {token : Option Bytes} {page : S3ObjectPage}
    (h : cfg.listObjectsV2 parse server bucket keyPrefix token = .ok page) : cfg.address parse bucket = .ok () := by
  unfold listObjectsV2 at h
  split at h
  · cases h
  · assumption

theorem slash_not_mem_bucket (h : cfg.address parse bucket = .ok ()) : slash ∉ bucket :=
  fun hmem => (ne_of_isBucketByte ((validBucket_bytes (validBucket_of_address h)).2.1 slash hmem)).1 rfl

theorem resolve_bucket_ne_nil {key : Bytes} (h : cfg.resolve path = .ok (bucket, key)) : bucket ≠ [] := by
  unfold resolve parsePath at h
  split at h <;> split at h
  · cases h
  · next hempty =>
    cases h
    exact hempty
  · cases h
  · next hempty =>
    cases h
    exact hempty

theorem resolve_entry (hne : bucket ≠ []) (hslash : slash ∉ bucket) (keyPrefix : Bytes) (obj : S3Object) :
    cfg.resolve (entryFromObject bucket keyPrefix obj).path = .ok (bucket, obj.key) := by
  have hstrip : stripScheme (entryFromObject bucket keyPrefix obj).path = some (bucket ++ slash :: obj.key) := by
    have hscheme : (utf8 "s3://").length = 5 := by decide +kernel
    show stripScheme (utf8 "s3://" ++ bucket ++ slash :: obj.key) = _
    rw [stripScheme, append_assoc, if_pos ( isPrefixOf_iff_prefix.2 (prefix_append _ _)), ← hscheme, drop_left]
  rw [resolve, parsePath, hstrip]
  dsimp only
  rw [splitSlash_append hslash, if_neg hne]

theorem resolve_listed {fuel : Nat} {entries : List Entry}
    (h : cfg.list parse server fuel path = some (.ok entries)) :
    ∃ bucket keyPrefix pages, cfg.resolve path = .ok (bucket, keyPrefix) ∧
      Serves (cfg.listObjectsV2 parse server bucket keyPrefix) none pages ∧
      entries = pages.flatten.map (entryFromObject bucket keyPrefix) ∧
      ∀ obj ∈ pages.flatten, cfg.resolve (entryFromObject bucket keyPrefix obj).path = .ok (bucket, obj.key) := by
  unfold list at h
  rcases hresolve : cfg.resolve path with e | ⟨bucket, keyPrefix⟩
  · rw [hresolve] at h
    cases h
  rw [hresolve] at h
  obtain ⟨pages, hserves, hentries⟩ := serves_of_walkPages h
  rw [foldl_append_eq_append, nil_append, ← flatMap_def, ← map_eq_flatMap] at hentries
  have hbucket : cfg.address parse bucket = .ok () := by
    cases hserves with
    | last h => exact address_of_listObjectsV2 h
    | more h _ => exact address_of_listObjectsV2 h
  exact ⟨bucket, keyPrefix, pages, rfl, hserves, hentries, fun obj _ =>
    resolve_entry (resolve_bucket_ne_nil hresolve) (slash_not_mem_bucket hbucket) keyPrefix obj⟩

/-- **What paths stand for**: when one is below the default prefix, and that a listed one stands for its object. -/
theorem paths_resolve (hbucket : cfg.defaultBucket ≠ []) (hbase : cfg.defaultPrefix ≠ []) :
    (∀ path, stripScheme path = none →
      (cfg.resolve path = .ok (cfg.defaultBucket, trimSlashes cfg.defaultPrefix ++ slash :: path.dropWhile (· = slash)) ↔
        cfg.PrefixMeets path)) ∧
      ∀ parse server fuel path entries, cfg.list parse server fuel path = some (.ok entries) →
        ∃ bucket keyPrefix pages, cfg.resolve path = .ok (bucket, keyPrefix) ∧
          Serves (cfg.listObjectsV2 parse server bucket keyPrefix) none pages ∧
          entries = pages.flatten.map (entryFromObject bucket keyPrefix) ∧
          ∀ obj ∈ pages.flatten, cfg.resolve (entryFromObject bucket keyPrefix obj).path = .ok (bucket, obj.key) :=
  ⟨fun _ => resolve_eq_joined_iff hbucket hbase, fun _ _ _ _ _ => resolve_listed⟩

end S3Config

theorem paths_resolve_home :
    sampleS3.resolve (utf8 "a") = .ok (utf8 "attic", utf8 "home" ++ slash :: utf8 "a") ↔ sampleS3.PrefixMeets (utf8 "a") := by
  have hbucket : sampleS3.defaultBucket ≠ [] := by decide +kernel
  have hbase : sampleS3.defaultPrefix ≠ [] := by decide +kernel
  exact (S3Config.paths_resolve hbucket hbase).1 (utf8 "a") (by decide +kernel)

/-- **The slash of the path is dropped after it stood in for the separator.** -/
theorem absolute_path_joins_prefix :
    stripScheme (utf8 "/file") = none ∧ sampleS3.resolve (utf8 "/file") = .ok (utf8 "attic", utf8 "homefile") ∧
      ¬sampleS3.resolve (utf8 "/file") = .ok (utf8 "attic", trimSlashes (utf8 "home") ++ slash :: (utf8 "/file").dropWhile (· = slash)) := by
  decide +kernel

/-! ## The size of a directory -/

/-- The common prefix that hides a key below `keyPrefix`: up to the first delimiter behind it. -/
def commonPrefix (keyPrefix : Bytes) (delimiter : Option UInt8) (key : Bytes) : Option Bytes :=
  delimiter.bind fun d =>
    let rest := key.drop keyPrefix.length
    if d ∈ rest then some (keyPrefix ++ rest.takeWhile (· ≠ d) ++ [d]) else none

structure Stored where
  key : Bytes
  size : Nat
  lastModifiedUnixMs : Option Int
  etag : Bytes

def Stored.asObject (o : Stored) : S3Object := ⟨o.key, o.size, o.lastModifiedUnixMs, o.etag, false⟩

def directory (keyPrefix : Bytes) : S3Object := ⟨keyPrefix, 0, none, [], true⟩

def stored (objects : List Stored) (keyPrefix : Bytes) : List Stored := objects.filter (keyPrefix.isPrefixOf ·.key)

def Stored.isNested (keyPrefix : Bytes) (delimiter : Option UInt8) (o : Stored) : Bool :=
  (commonPrefix keyPrefix delimiter o.key).isSome

/-- **What the server lists**: the objects under the prefix, those with the same common prefix as one directory. -/
def listing (objects : List Stored) (keyPrefix : Bytes) (delimiter : Option UInt8) : List S3Object :=
  ((stored objects keyPrefix).filter (!·.isNested keyPrefix delimiter)).map Stored.asObject ++
    ((stored objects keyPrefix).filterMap fun o => commonPrefix keyPrefix delimiter o.key).dedup.map directory

/-- The server answers for the parameters it is sent, in pages and in an order of its own. -/
def ListsExactly (server : ListServer) (bucket : Bytes) (objects : List Stored) : Prop :=
  ∀ keyPrefix delimiter, ∃ pages,
    Serves (fun token => server bucket { keyPrefix, delimiter, continuationToken := token }) none pages ∧
      pages.flatten.Perm (listing objects keyPrefix delimiter)

def totalSize (objects : List Stored) : Nat := (objects.map (·.size)).sum

def nestedSize (objects : List Stored) (keyPrefix : Bytes) : Nat :=
  totalSize ((stored objects keyPrefix).filter (·.isNested keyPrefix (some slash)))

def directSize (objects : List Stored) (keyPrefix : Bytes) : Nat :=
  totalSize ((stored objects keyPrefix).filter (!·.isNested keyPrefix (some slash)))

variable (objects : List Stored)

theorem stored_size_split (keyPrefix : Bytes) :
    totalSize (stored objects keyPrefix) = directSize objects keyPrefix + nestedSize objects keyPrefix := by
  unfold directSize nestedSize totalSize
  induction stored objects keyPrefix with
  | nil => rfl
  | cons o rest ih =>
    rcases h : o.isNested keyPrefix (some slash) <;> simp [h, ih] <;> omega

def S3Object.counted (obj : S3Object) : Nat := if obj.isDir then 0 else obj.size

theorem foldl_addSize (objects : List S3Object) : objects.foldl addSize 0 = min (objects.map S3Object.counted).sum maxU64 := by
  have hstep : ∀ total ≤ maxU64, ∀ obj, addSize total obj = satAdd maxU64 total (S3Object.counted obj) := by
    intro total htotal obj
    unfold addSize S3Object.counted
    split_ifs
    · exact (Nat.min_eq_left htotal).symm
    · rfl
  rw [foldl_satAdd hstep objects (Nat.zero_le _), Nat.zero_add]

theorem listing_counted (keyPrefix : Bytes) :
    ((listing objects keyPrefix (some slash)).map S3Object.counted).sum = directSize objects keyPrefix := by
  unfold listing directSize totalSize
  rw [map_append, sum_append, map_map, map_map]
  have hdirs : S3Object.counted ∘ directory = fun _ => 0 := rfl
  have hfiles : S3Object.counted ∘ Stored.asObject = Stored.size := rfl
  rw [hdirs, hfiles, map_const', sum_replicate, nsmul_zero, Nat.add_zero]

/-- **When the size of a directory is that of all it holds**: when what stands in its subdirectories is empty, and the rest
does not add up to 2^64. -/
theorem dirSize_eq_total_iff {parse : Bytes → Option EndpointUrl} {cfg : S3Config} {server : ListServer} {path bucket keyPrefix : Bytes}
    {objects : List Stored} (hresolve : cfg.resolve path = .ok (bucket, keyPrefix)) (haddress : cfg.address parse bucket = .ok ())
    (hserver : ListsExactly server bucket objects) :
    ∃ pages, ∀ fuel, pages ≤ fuel →
      (cfg.dirSize parse server fuel path = some (.ok (totalSize (stored objects keyPrefix))) ↔
        nestedSize objects keyPrefix = 0 ∧ directSize objects keyPrefix < 2 ^ 64) := by
  obtain ⟨pages, hserves, hperm⟩ := hserver keyPrefix (some slash)
  have hrequest : cfg.listObjectsV2 parse server bucket keyPrefix =
      fun token => server bucket { keyPrefix, delimiter := some slash, continuationToken := token } := by
    funext token
    rw [S3Config.listObjectsV2, haddress]
    rfl
  refine ⟨pages.length, fun fuel hfuel => ?_⟩
  have hsize : cfg.dirSize parse server fuel path = some (.ok (min (directSize objects keyPrefix) maxU64)) := by
    rw [S3Config.dirSize, hresolve]
    dsimp only
    rw [hrequest, walkPages_of_serves hserves hfuel, foldl_addSize, (hperm.map _).sum_eq, listing_counted]
  rw [hsize, stored_size_split, Option.some.injEq, Except.ok.injEq]
  unfold maxU64
  omega

/-! ## A nested object -/

def nestedLog : List Stored := [{ key := utf8 "home/logs/2024/a", size := 5, lastModifiedUnixMs := none, etag := [] }]

def onePage (objects : List Stored) : ListServer := fun _ p => .ok { items := listing objects p.keyPrefix p.delimiter, next := none }

theorem listsExactly_onePage (bucket : Bytes) : ListsExactly (onePage objects) bucket objects :=
  fun _ _ => ⟨_, .last rfl, by rw [flatten_singleton]⟩

theorem resolve_logs : sampleS3.resolve (utf8 "logs/") = .ok (utf8 "attic", utf8 "home/logs/") := by decide +kernel

theorem address_attic : sampleS3.address sampleUrl (utf8 "attic") = .ok () := by decide +kernel

theorem dirSize_eq_total_iff_logs : ∃ pages, ∀ fuel, pages ≤ fuel →
    (sampleS3.dirSize sampleUrl (onePage nestedLog) fuel (utf8 "logs/") =
        some (.ok (totalSize (stored nestedLog (utf8 "home/logs/")))) ↔
      nestedSize nestedLog (utf8 "home/logs/") = 0 ∧ directSize nestedLog (utf8 "home/logs/") < 2 ^ 64) :=
  dirSize_eq_total_iff resolve_logs address_attic (listsExactly_onePage _ _)

/-- **The delimiter hides nested objects**: a directory with an object of five bytes below it has the size zero. -/
theorem nested_object_is_not_counted : totalSize (stored nestedLog (utf8 "home/logs/")) = 5 ∧
      ∀ fuel, sampleS3.dirSize sampleUrl (onePage nestedLog) (fuel + 1) (utf8 "logs/") = some (.ok 0) := by
  refine ⟨by decide +kernel, fun fuel => ?_⟩
  have hfetch : sampleS3.listObjectsV2 sampleUrl (onePage nestedLog) (utf8 "attic") (utf8 "home/logs/") none =
      .ok ⟨listing nestedLog (utf8 "home/logs/") (some slash), none⟩ := by
    rw [S3Config.listObjectsV2, address_attic]
    rfl
  have hitems : (listing nestedLog (utf8 "home/logs/") (some slash)).foldl addSize 0 = 0 := by decide +kernel
  rw [S3Config.dirSize, resolve_logs]
  dsimp only
  rw [walkPages, hfetch]
  dsimp only
  rw [hitems]

end LetsFlutSsh.S3
