import LetsFlutSsh.Lib.Bytes
import LetsFlutSsh.Lib.EntityTag
import LetsFlutSsh.Lib.Text

/-!
# The WebDAV client

What a sync needs of the client: conditional `GET` and `PUT` of one path.

* `quoteEtag`, `normaliseEtagHeader`: entity tags between headers and the configuration;
* `WebDav.get`, `WebDav.put`: how a response becomes a result; a refused precondition is the error
  text "etag mismatch";
* `Server.get`, `Server.put`: a server that honours the preconditions.
-/

namespace LetsFlutSsh.Sync
open Lib

/-- Errors of the layers under a sync. -/
inductive Error where
  | webDav (text : String)
  | archiveFutureVersion (found : Int) (supported : Int)
  | other (text : String)

/-- `quote_etag`: wrap a tag in quotes unless it has them. -/
def quoteEtag (etag : String) : String :=
  let trimmed := trim etag.toList
  if trimmed.head? = some '"' ∧ trimmed.getLast? = some '"' then String.ofList trimmed
  else String.ofList ('"' :: (trimmed ++ ['"']))

/-- `normalise_etag_header`: strip `W/` and the quotes around a tag. -/
def normaliseEtagHeader (raw : String) : String :=
  let trimmed := trim raw.toList
  let stripped := ((['W', '/'].isPrefixOf? trimmed).or (['w', '/'].isPrefixOf? trimmed)).getD trimmed
  String.ofList (((['"'].isPrefixOf? stripped).bind fun s => ['"'].isSuffixOf? s).getD stripped)

def headerText (t : EntityTag) : String := String.ofList t.header

def etagText (t : EntityTag) : String := String.ofList t.text

theorem etagText_inj {t u : EntityTag} : etagText t = etagText u ↔ t.text = u.text :=
  String.ofList_inj

theorem isSuffixOf_quote (cs : List Char) : ['"'].isSuffixOf? (cs ++ ['"']) = some cs := by
  simp [List.isSuffixOf?, List.isPrefixOf?]

variable (t : EntityTag)

theorem normaliseEtagHeader_headerText : normaliseEtagHeader (headerText t) = etagText t := by
  unfold normaliseEtagHeader headerText EntityTag.header etagText
  rw [String.toList_ofList]
  rcases t.weak with _ | _
  · have htrim : trim ('"' :: (t.text ++ ['"'])) = '"' :: (t.text ++ ['"']) := trim_eq_self _ rfl rfl
    simp only [Bool.false_eq_true, if_false, List.nil_append, htrim]
    simp [List.isPrefixOf?, isSuffixOf_quote]
  · have htrim : trim ('W' :: (('/' :: '"' :: t.text) ++ ['"'])) = 'W' :: (('/' :: '"' :: t.text) ++ ['"']) :=
      trim_eq_self _ rfl rfl
    have hcons : ['W', '/'] ++ '"' :: (t.text ++ ['"']) = 'W' :: (('/' :: '"' :: t.text) ++ ['"']) := rfl
    simp only [if_true, hcons, htrim]
    simp [List.isPrefixOf?, isSuffixOf_quote]

theorem isWhitespace_of_isTagChar {c : Char} (h : isTagChar c = true) : isWhitespace c = false := by
  unfold isTagChar at h
  unfold isWhitespace
  simp only [Bool.or_eq_true, beq_iff_eq, Bool.and_eq_true, decide_eq_true_eq] at h
  simp only [Bool.or_eq_false_iff, beq_eq_false_iff_ne, Bool.and_eq_false_iff, decide_eq_false_iff_not]
  omega

theorem trim_text : trim t.text = t.text :=
  trim_of_visible fun _ hc => isWhitespace_of_isTagChar (List.all_eq_true.mp t.valid _ hc)

theorem quoteEtag_etagText : (quoteEtag (etagText t)).toList = '"' :: (t.text ++ ['"']) := by
  unfold quoteEtag etagText
  rw [String.toList_ofList, trim_text]
  have hhead : ¬ (t.text.head? = some '"' ∧ t.text.getLast? = some '"') :=
    fun h => t.quote_notMem (List.mem_of_head? h.1)
  rw [if_neg hhead, String.toList_ofList]

structure Response where
  status : Nat
  etag : Option String
  body : Bytes

def isSuccess (status : Nat) : Bool := 200 ≤ status && status < 300

section Client

variable (canonicalReason : Nat → Option String)

def statusLabel (code : Nat) : String :=
  if code = 401 then "authentication failed"
  else if code = 403 then "forbidden"
  else if code = 404 then "not found"
  else if code = 405 then "method not allowed"
  else if code = 409 then "conflict"
  else if code = 412 then "etag mismatch"
  else if code = 423 then "locked"
  else if code = 507 then "insufficient storage"
  else (canonicalReason code).getD "unexpected status"

def mapStatusError (code : Nat) (verb : String) : Error :=
  .webDav (verb ++ ": HTTP " ++ toString code ++ ": " ++ statusLabel canonicalReason code)

/-- `WebDavClient::get` on the response that arrived; not modified is no error. -/
def WebDav.get (r : Response) : Except Error Response :=
  if r.status = 304 then .ok r
  else if isSuccess r.status then .ok r
  else .error (mapStatusError canonicalReason r.status "get")

/-- `WebDavClient::put` on the response that arrived: the new tag, if the server tells it. -/
def WebDav.put (r : Response) : Except Error (Option String) :=
  if isSuccess r.status then .ok (r.etag.map normaliseEtagHeader)
  else .error (mapStatusError canonicalReason r.status "put")

end Client

structure Stored where
  etag : EntityTag
  body : Bytes

namespace Server

def tellEtag (tell : Bool) (v : Stored) : Option String := if tell then some (headerText v.etag) else none

/-- Answer a conditional `GET`. -/
def get (remote : Option Stored) (ifNone : Option String) (tell : Bool) : Response :=
  match remote with
  | none => ⟨404, none, []⟩
  | some v =>
    if ifNone.all fun h => ifNoneMatch h.toList (some v.etag) then ⟨200, tellEtag tell v, v.body⟩
    else ⟨304, tellEtag tell v, []⟩

/-- The precondition of a `PUT`. -/
def accepts (remote : Option Stored) (ifm : Option String) : Bool :=
  ifm.all fun h => ifMatch h.toList (remote.map Stored.etag)

/-- Answer a conditional `PUT` of `v`. -/
def put (remote : Option Stored) (ifm : Option String) (v : Stored) (tell : Bool) : Option Stored × Response :=
  if accepts remote ifm then (some v, ⟨if remote.isNone then 201 else 204, tellEtag tell v, []⟩)
  else (remote, ⟨412, none, []⟩)

end Server

end LetsFlutSsh.Sync
