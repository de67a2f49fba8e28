import LetsFlutSsh.S3.Signer

/-!
# Renaming an object

The source has no rename request: it copies the object and deletes the source.

* `parsePath` : the bucket and key of a path;
* `copySource`, `readSource` : the header that names the object to copy, and what the server reads there;
* `Fate` : what the server does with a request and what it answers;
* `rename` : the two requests;
* `renameKeeps_iff` : when the object is still there afterwards.
-/

namespace LetsFlutSsh.S3
open Lib List Function

/-! ## Paths -/

inductive PathError where
  | missingBucket
  | noDefaultBucket
  deriving DecidableEq

def PathError.text : PathError → String
  | .missingBucket => "s3:// path missing bucket"
  | .noDefaultBucket => "no default bucket configured; use s3://bucket/key syntax"

/-- `splitn(2, '/')`: what stands before the first slash and behind it. -/
def splitSlash (text : Bytes) : Bytes × Bytes := (text.takeWhile (· ≠ slash), (text.dropWhile (· ≠ slash)).tail)

theorem splitSlash_append {head : Bytes} (h : slash ∉ head) (rest : Bytes) : splitSlash (head ++ slash :: rest) = (head, rest) := by
  have hkeep : ∀ b ∈ head, (fun b => decide (b ≠ slash)) b = true := by
    intro b hb
    exact decide_eq_true (by rintro rfl; exact h hb)
  rw [splitSlash, takeWhile_append_of_pos hkeep, dropWhile_append_of_pos hkeep, takeWhile_cons, dropWhile_cons]
  simp

/-- What follows `s3://`. -/
def stripScheme (path : Bytes) : Option Bytes :=
  if (utf8 "s3://").isPrefixOf path then some (path.drop 5) else none

def parsePath (path defaultBucket defaultPrefix : Bytes) : Except PathError (Bytes × Bytes) :=
  match stripScheme path with
  | some rest => if (splitSlash rest).1 = [] then .error .missingBucket else .ok (splitSlash rest)
  | none =>
    if defaultBucket = [] then .error .noDefaultBucket
    else
      let separator := if defaultPrefix ≠ [] ∧ defaultPrefix.getLast? ≠ some slash ∧ path.head? ≠ some slash then [slash] else []
      .ok (defaultBucket, defaultPrefix ++ separator ++ path.dropWhile (· = slash))

/-! ## The object to copy -/

/-- The header `x-amz-copy-source`. -/
def copySource (bucket key : Bytes) : Bytes := slash :: bucket ++ slash :: uriEncode false key

/-- The server decodes the header and takes the bucket up to the first slash; a slash in front does not count. -/
def readSource (header : Bytes) : Bytes × Bytes :=
  splitSlash (percentDecode (if header.head? = some slash then header.tail else header))

theorem ne_of_isBucketByte {b : UInt8} (h : isBucketByte b = true) : b ≠ slash ∧ b ≠ percent := by
  constructor <;> rintro rfl <;> exact absurd h (by decide)

theorem readSource_copySource {bucket : Bytes} (h : ValidBucket bucket) (key : Bytes) :
    readSource (copySource bucket key) = (bucket, key) := by
  have hbytes := (validBucket_bytes h).2.1
  have hslash : slash ∉ bucket := fun hmem => (ne_of_isBucketByte (hbytes slash hmem)).1 rfl
  have hpercent : percent ∉ bucket := fun hmem => (ne_of_isBucketByte (hbytes percent hmem)).2 rfl
  have hdecode : percentDecode (bucket ++ slash :: uriEncode false key) = bucket ++ slash :: key := by
    rw [percentDecode_append (by decide) (by decide), percentDecode_of_not_mem hpercent, percentDecode_uriEncode]
  rw [readSource, copySource, cons_append, head?_cons, if_pos rfl, tail_cons, hdecode,
    splitSlash_append hslash]

/-! ## Requests -/

structure Reply where
  status : Nat
  body : Bytes

def Reply.isSuccess (reply : Reply) : Bool := 200 ≤ reply.status && reply.status < 300

def Reply.hasErrorElement (reply : Reply) : Bool := reply.body.tails.any (utf8 "<Error>").isPrefixOf

/-- What becomes of a request: whether the server carries it out, and the reply, if one arrives. A success is no lie,
unless the reply takes it back. -/
structure Fate (takesBack : Reply → Bool) where
  applied : Bool
  reply : Option Reply
  honest : ∀ r ∈ reply, r.isSuccess = true → applied = true ∨ takesBack r = true

abbrev CopyFate := Fate Reply.hasErrorElement

abbrev DeleteFate := Fate fun _ => false

def Fate.Answered {takesBack : Reply → Bool} (fate : Fate takesBack) : Prop := ∃ r ∈ fate.reply, r.isSuccess = true

inductive S3Error where
  | path (e : PathError)
  | address (e : AddressError)
  | send
  | status (reply : Reply)

def checkReply : Option Reply → Except S3Error Unit
  | none => .error .send
  | some r => if r.isSuccess then .ok () else .error (.status r)

variable {Content : Type*}

abbrev Objects (Content : Type*) := Bytes × Bytes → Option Content

variable {content : Content} {s : Objects Content}

namespace S3Config

variable (parse : Bytes → Option EndpointUrl) (cfg : S3Config)

def address (bucket : Bytes) : Except AddressError Unit :=
  match cfg.resolveBucketBase parse bucket with
  | .error e => .error e
  | .ok _ =>
    match cfg.resolveHostHeader parse bucket with
    | .error e => .error e
    | .ok _ => .ok ()

/-- `signed_request` and the check of its reply; `effect` is what the server does. -/
def request {takesBack : Reply → Bool} (bucket : Bytes) (effect : Objects Content → Objects Content) (fate : Fate takesBack)
    (s : Objects Content) : Objects Content × Except S3Error Unit :=
  match cfg.address parse bucket with
  | .error e => (s, .error (.address e))
  | .ok () => (if fate.applied then effect s else s, checkReply fate.reply)

def copied (header : Bytes) (dst : Bytes × Bytes) (s : Objects Content) : Objects Content :=
  match s (readSource header) with
  | none => s
  | some content => update s dst (some content)

def copyObject (src dst : Bytes × Bytes) (fate : CopyFate) (s : Objects Content) : Objects Content × Except S3Error Unit :=
  cfg.request parse dst.1 (copied (copySource src.1 src.2) dst) fate s

def deleteObject (src : Bytes × Bytes) (fate : DeleteFate) (s : Objects Content) : Objects Content × Except S3Error Unit :=
  cfg.request parse src.1 (fun s => update s src none) fate s

def resolve (path : Bytes) : Except PathError (Bytes × Bytes) := parsePath path cfg.defaultBucket cfg.defaultPrefix

/-- What `rename` does with two resolved paths. -/
def renameObject (src dst : Bytes × Bytes) (copy : CopyFate) (delete : DeleteFate) (s : Objects Content) :
    Objects Content × Except S3Error Unit :=
  match cfg.copyObject parse src dst copy s with
  | (s, .error e) => (s, .error e)
  | (s, .ok ()) => cfg.deleteObject parse src delete s

def rename (source target : Bytes) (copy : CopyFate) (delete : DeleteFate) (s : Objects Content) :
    Objects Content × Except S3Error Unit :=
  match cfg.resolve source with
  | .error e => (s, .error (.path e))
  | .ok src =>
    match cfg.resolve target with
    | .error e => (s, .error (.path e))
    | .ok dst => cfg.renameObject parse src dst copy delete s

/-! ## What a rename leaves -/

variable {parse cfg}

theorem checkReply_eq_ok_iff {takesBack : Reply → Bool} {fate : Fate takesBack} : checkReply fate.reply = .ok () ↔ fate.Answered := by
  unfold Fate.Answered
  rcases fate.reply with _ | r
  · exact ⟨nofun, fun ⟨r, hr, _⟩ => absurd hr (Option.not_mem_none r)⟩
  rw [checkReply]
  constructor
  · intro h
    split_ifs at h with hr
    exact ⟨r, rfl, hr⟩
  · rintro ⟨r', hr', hsuccess⟩
    cases hr'
    exact if_pos hsuccess

theorem validBucket_of_address {bucket : Bytes} (h : cfg.address parse bucket = .ok ()) : ValidBucket bucket := by
  unfold address resolveBucketBase parsedEndpoint at h
  unfold ValidBucket
  rcases hname : validateBucketName bucket with e | u
  · rw [hname] at h
    cases h
  · rfl

theorem copied_src {src dst : Bytes × Bytes} (hdst : ValidBucket dst.1)
    (hs : s src = some content) : copied (copySource src.1 src.2) dst s src = some content := by
  unfold copied
  rcases hread : s (readSource (copySource src.1 src.2)) with _ | read
  · exact hs
  · dsimp only
    rcases eq_or_ne src dst with rfl | hne
    · rw [readSource_copySource hdst, hs] at hread
      rw [update_self, hread]
    · rw [update_of_ne hne, hs]

theorem copied_dst {src dst : Bytes × Bytes} (hsrc : ValidBucket src.1)
    (hs : s src = some content) : copied (copySource src.1 src.2) dst s dst = some content := by
  rw [copied, readSource_copySource hsrc, hs]
  exact update_self ..

end S3Config

/-- The object is still at one of the two places, and at the destination after a success. -/
def RenameKeeps (src dst : Bytes × Bytes) (before : Objects Content) (after : Objects Content × Except S3Error Unit) : Prop :=
  ∀ content, before src = some content →
    (after.1 src = some content ∨ after.1 dst = some content) ∧ (after.2 = .ok () → after.1 dst = some content)

/-- The source is not deleted behind an answered copy, or it is another object than the destination and the destination
holds its content by then. -/
def RenameFits (parse : Bytes → Option EndpointUrl) (cfg : S3Config) (src dst : Bytes × Bytes) (copy : CopyFate)
    (delete : DeleteFate) (s : Objects Content) : Prop :=
  s src = none ∨ ¬(cfg.address parse dst.1 = .ok () ∧ copy.Answered) ∨
    ¬(cfg.address parse src.1 = .ok () ∧ delete.applied = true) ∨ src ≠ dst ∧ (copy.applied = true ∨ s dst = s src)

section
variable {parse : Bytes → Option EndpointUrl} {cfg : S3Config} {src dst : Bytes × Bytes} {copy : CopyFate} {delete : DeleteFate}

def S3Config.afterCopy (src dst : Bytes × Bytes) (copy : CopyFate) (s : Objects Content) : Objects Content :=
  if copy.applied then S3Config.copied (copySource src.1 src.2) dst s else s

theorem afterCopy_src (hdst : ValidBucket dst.1) (hs : s src = some content) :
    S3Config.afterCopy src dst copy s src = some content := by
  unfold S3Config.afterCopy
  split_ifs
  · exact S3Config.copied_src hdst hs
  · exact hs

theorem afterCopy_dst (hsrc : ValidBucket src.1) (hs : s src = some content) :
    S3Config.afterCopy src dst copy s dst = some content ↔ copy.applied = true ∨ s dst = s src := by
  unfold S3Config.afterCopy
  split_ifs with happlied
  · exact iff_of_true (S3Config.copied_dst hsrc hs) (.inl happlied)
  · rw [hs]
    exact ⟨.inr, fun h => h.resolve_left happlied⟩

theorem renameKeeps_of_src {after : Objects Content × Except S3Error Unit}
    (hsrc : ∀ content, s src = some content → after.1 src = some content) (hfail : after.2 ≠ .ok ()) :
    RenameKeeps src dst s after :=
  fun content hs => ⟨.inl (hsrc content hs), fun h => absurd h hfail⟩

theorem renameKeeps_deleted (hsrc : ValidBucket src.1) (hs : s src ≠ none) (result : Except S3Error Unit) :
    RenameKeeps src dst s (update (S3Config.afterCopy src dst copy s) src none, result) ↔
      src ≠ dst ∧ (copy.applied = true ∨ s dst = s src) := by
  obtain ⟨content, hcontent⟩ := Option.ne_none_iff_exists'.1 hs
  constructor
  · intro h
    have hgone : update (S3Config.afterCopy src dst copy s) src none src = none := update_self ..
    have hplace : update (S3Config.afterCopy src dst copy s) src none dst = some content :=
      (h content hcontent).1.resolve_left fun hsome => absurd (hgone.symm.trans hsome) nofun
    have hne : src ≠ dst := by
      rintro rfl
      exact absurd (hgone.symm.trans hplace) nofun
    rw [update_of_ne hne.symm] at hplace
    exact ⟨hne, (afterCopy_dst hsrc hcontent).1 hplace⟩
  · rintro ⟨hne, hcopied⟩ c hc
    have hdst : update (S3Config.afterCopy src dst copy s) src none dst = some c := by
      rw [update_of_ne hne.symm]
      exact (afterCopy_dst hsrc hc).2 hcopied
    exact ⟨.inr hdst, fun _ => hdst⟩

theorem renameObject_keeps_iff :
    RenameKeeps src dst s (cfg.renameObject parse src dst copy delete s) ↔ RenameFits parse cfg src dst copy delete s := by
  by_cases hs : s src = none
  · exact iff_of_true (fun content h => absurd (hs.symm.trans h) nofun) (.inl hs)
  unfold RenameFits
  unfold S3Config.renameObject S3Config.copyObject S3Config.deleteObject S3Config.request
  rcases hdst : cfg.address parse dst.1 with e | ⟨⟨⟩⟩
  · -- The copy is not sent.
    exact iff_of_true (renameKeeps_of_src (fun _ h => h) nofun) (.inr (.inl fun h => absurd h.1 nofun))
  have hvalid := S3Config.validBucket_of_address hdst
  rcases hcopy : checkReply copy.reply with e | ⟨⟨⟩⟩
  · -- The copy is not answered with success.
    have hnot : ¬copy.Answered := by
      rw [← S3Config.checkReply_eq_ok_iff, hcopy]
      exact nofun
    exact iff_of_true (renameKeeps_of_src (fun _ => afterCopy_src hvalid) nofun) (.inr (.inl fun h => hnot h.2))
  have hanswered := S3Config.checkReply_eq_ok_iff.1 hcopy
  rcases hsrc : cfg.address parse src.1 with e | ⟨⟨⟩⟩
  · -- The delete is not sent.
    exact iff_of_true (renameKeeps_of_src (fun _ => afterCopy_src hvalid) nofun) (.inr (.inr (.inl fun h => absurd h.1 nofun)))
  rcases hdelete : delete.applied
  · -- The delete is not carried out, and so not answered with success.
    have hfail : checkReply delete.reply ≠ .ok () := by
      intro h
      obtain ⟨r, hr, hsuccess⟩ := S3Config.checkReply_eq_ok_iff.1 h
      rcases delete.honest r hr hsuccess with h | h
      · rw [hdelete] at h
        cases h
      · cases h
    exact iff_of_true (renameKeeps_of_src (fun _ => afterCopy_src hvalid) hfail) (.inr (.inr (.inl fun h => absurd h.2 nofun)))
  · refine (renameKeeps_deleted (S3Config.validBucket_of_address hsrc) hs _).trans ⟨fun h => .inr (.inr (.inr h)), ?_⟩
    rintro (h | h | h | h)
    · exact absurd h hs
    · exact absurd ⟨rfl, hanswered⟩ h
    · exact absurd ⟨rfl, rfl⟩ h
    · exact h

/-- **When a rename keeps the object**, for any pair of paths that the provider accepts. -/
theorem renameKeeps_iff {source target : Bytes} (hsource : cfg.resolve source = .ok src) (htarget : cfg.resolve target = .ok dst) :
    RenameKeeps src dst s (cfg.rename parse source target copy delete s) ↔ RenameFits parse cfg src dst copy delete s := by
  have hrename : cfg.rename parse source target copy delete s = cfg.renameObject parse src dst copy delete s := by
    rw [S3Config.rename, hsource]
    rw [htarget]
  rw [hrename]
  exact renameObject_keeps_iff

end

/-! ## Two renames -/

def sampleS3 : S3Config :=
  { accessKeyId := [], secretAccessKey := [], region := [], endpoint := [], pathStyle := false, defaultBucket := utf8 "attic",
    defaultPrefix := utf8 "home" }

def sampleUrl (_ : Bytes) : Option EndpointUrl :=
  some { scheme := utf8 "https", host := some (utf8 "s3.us-east-1.amazonaws.com"), port := none }

def sampleObjects (place : Bytes × Bytes) : Option Nat := if place = (utf8 "attic", utf8 "home/a") then some 7 else none

def carriedOut {takesBack : Reply → Bool} : Fate takesBack :=
  { applied := true, reply := some ⟨200, []⟩, honest := fun _ _ _ => .inl rfl }

def failedCopy : CopyFate :=
  { applied := false
    reply := some ⟨200, utf8 "<Error>"⟩
    honest := by
      intro r hr _
      cases hr
      exact .inr (by decide +kernel) }

theorem renameKeeps_iff_moved : RenameKeeps (utf8 "attic", utf8 "home/a") (utf8 "attic", utf8 "b") sampleObjects
        (sampleS3.rename sampleUrl (utf8 "a") (utf8 "s3://attic/b") carriedOut carriedOut sampleObjects) ↔
      RenameFits sampleUrl sampleS3 (utf8 "attic", utf8 "home/a") (utf8 "attic", utf8 "b") carriedOut carriedOut sampleObjects :=
  renameKeeps_iff (by decide +kernel) (by decide +kernel)

/-- **Two names of one object**: the copy is carried out, and the delete takes the only object there is. The same happens to
two objects when the copy fails behind a success. -/
theorem renamed_object_is_lost : ¬RenameKeeps (utf8 "attic", utf8 "home/a") (utf8 "attic", utf8 "home/a") sampleObjects
        (sampleS3.rename sampleUrl (utf8 "a") (utf8 "s3://attic/home/a") carriedOut carriedOut sampleObjects) ∧
      ¬RenameKeeps (utf8 "attic", utf8 "home/a") (utf8 "attic", utf8 "b") sampleObjects
        (sampleS3.rename sampleUrl (utf8 "a") (utf8 "s3://attic/b") failedCopy carriedOut sampleObjects) := by
  constructor
  · intro h
    have hgone : (sampleS3.rename sampleUrl (utf8 "a") (utf8 "s3://attic/home/a") carriedOut carriedOut sampleObjects).1
        (utf8 "attic", utf8 "home/a") = none := by decide +kernel
    rcases (h 7 (by decide +kernel)).1 with h | h <;> exact absurd (hgone.symm.trans h) nofun
  · intro h
    have hgone : ∀ place ∈ [(utf8 "attic", utf8 "home/a"), (utf8 "attic", utf8 "b")],
        (sampleS3.rename sampleUrl (utf8 "a") (utf8 "s3://attic/b") failedCopy carriedOut sampleObjects).1 place = none := by
      decide +kernel
    rcases (h 7 (by decide +kernel)).1 with h | h
    · exact absurd ((hgone _ mem_cons_self).symm.trans h) nofun
    · exact absurd ((hgone _ (mem_cons_of_mem _ mem_cons_self)).symm.trans h) nofun

end LetsFlutSsh.S3
