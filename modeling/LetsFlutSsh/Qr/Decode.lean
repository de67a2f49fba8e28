import LetsFlutSsh.Archive.Driver

/-!
# Reading a QR payload

The decoder of the compact payload that a QR code or a paste link carries:

* `Wire`: base64url, deflate and UTF-8, which the payload goes through;
* `decodeToJsonText`: the payload as a JSON text, at most four MiB of it;
* `parseManagerKeys`, `parseSessions`, …: the sections of the payload as entries of an archive;
* `decodePayload`: all of it, or the reason for refusing it.
-/

namespace LetsFlutSsh.Qr
open Lib Archive Option
open Json (Object)

variable {Text : Type}

/-! ## The text of a payload -/

/-- What a payload goes through on its way: base64url without padding, deflate, UTF-8. -/
structure Wire (Text : Type) where
  toBase64 : Bytes → String
  fromBase64 : String → Except String Bytes
  deflate : Bytes → Bytes
  /-- The bytes the stream gives before its end or its first error, and whether it ended well. -/
  inflate : Bytes → Bytes × Bool
  toUtf8 : Text → Bytes
  fromUtf8 : Bytes → Except String Text

def fixedWire (payload : String) (compressed : Bytes) (json : String) (v : Json) : Wire ParsedText where
  toBase64 _ := payload
  fromBase64 _ := .ok compressed
  deflate _ := compressed
  inflate _ := (utf8 json, true)
  toUtf8 _ := utf8 json
  fromUtf8 _ := .ok (.json v)

def maxInflatedPayloadBytes : Nat := 4 * 1024 * 1024

/-- `CURRENT_FORMAT_VERSION`, `SchemaVersions::QR_PAYLOAD`. -/
def currentFormatVersion : Int64 := 1

inductive InflateError where
  | inflate
  | tooLarge (limit : Nat)

/-- `inflate_capped`: the stream is read up to one byte past the cap. -/
def inflateCapped (W : Wire Text) (compressed : Bytes) : Except InflateError Bytes :=
  let r := W.inflate compressed
  if maxInflatedPayloadBytes < r.1.length then .error (.tooLarge maxInflatedPayloadBytes)
  else if r.2 then .ok r.1 else .error .inflate

def decodeToJsonText (W : Wire Text) (payload : String) : Except String Text :=
  match W.fromBase64 payload with
  | .error e => .error ("payload base64 decode: " ++ e)
  | .ok raw =>
    match inflateCapped W raw with
    | .error (.tooLarge limit) =>
      .error ("payload exceeds " ++ toString limit ++ "-byte inflate cap (zip bomb?)")
    | .error .inflate => .error "payload inflate failed"
    | .ok bytes =>
      match W.fromUtf8 bytes with
      | .error e => .error ("payload utf-8: " ++ e)
      | .ok text => .ok text

/-! ## The sections -/

section Sections

variable (obj : Object)

def validateVersion : Except String Int64 :=
  let version := ((obj.get "v").bind Json.asI64).getD 1
  if currentFormatVersion < version then
    .error ("payload version too new: v" ++ toString version.toInt ++ " > supported v" ++
      toString currentFormatVersion.toInt)
  else .ok version

/-- `ensure_non_empty`: sessions, keys, configuration or known hosts. -/
def ensureNonEmpty : Except String Unit :=
  if (obj.get "s").isNone ∧ (obj.get "km").isNone ∧ (obj.get "c").isNone ∧ (obj.get "kh").isNone then
    .error "payload empty"
  else .ok ()

/-- `parse_key_map`: what the map of key texts answers for a short id. -/
def parseKeyMap (short : String) : Option String :=
  (((obj.get "km").bind Json.asObject).bind fun km => km.get short).bind Json.asStr

/-- A text member, `""` when missing. -/
def textOf (m : Object) (k : String) : String := ((m.get k).bind Json.asStr).getD ""

/-- The members of `parse_manager_keys` for one key. -/
def keyEntry (short pem : String) (info : Object) : Json :=
  let out := Object.insert "id" (.str short) []
  let out := Object.insert "label" (.str (textOf info "l")) out
  let out := Object.insert "private_key" (.str pem) out
  let out := Object.insert "public_key" (.str (textOf info "p")) out
  let out := Object.insert "key_type" (.str (textOf info "t")) out
  let out := Object.insert "is_generated" (.bool false) out
  .obj (Object.insert "created_at" (.str "") out)

/-- One item of `parse_manager_keys`: a key without a text or without an object is passed over. -/
def managerKey (keyMap : String → Option String) (e : String × Json) : Option Json :=
  (keyMap e.1).bind fun pem => e.2.asObject.map fun info => keyEntry e.1 pem info

/-- `parse_manager_keys`, before it is printed. -/
def parseManagerKeys (keyMap : String → Option String) : List Json :=
  (((obj.get "mk").bind Json.asObject).getD []).entries.filterMap (managerKey keyMap)

/-- `decode_session`; `id` is the id minted for it. -/
def decodeSession (keyMap : String → Option String) (id : String) (m : Object) : Json :=
  let port := ((m.get "p").bind Json.asI64).getD 22
  let authType := ((m.get "a").bind Json.asStr).getD "password"
  let shortKey := (m.get "ki").bind Json.asStr
  let isManager := (m.get "mg").bind Json.asI64 = some 1
  -- A reference to a key that did not come along is dropped.
  let keyId := if isManager then (shortKey.filter fun k => (keyMap k).isSome).getD "" else ""
  let keyData := if isManager then "" else (shortKey.bind keyMap).getD ""
  let out := Object.insert "id" (.str id) []
  let out := Object.insert "label" (.str (textOf m "l")) out
  let out := Object.insert "folder" (.str (textOf m "g")) out
  let out := Object.insert "host" (.str (textOf m "h")) out
  let out := Object.insert "port" (.ofI64 port) out
  let out := Object.insert "user" (.str (textOf m "u")) out
  let out := Object.insert "auth_type" (.str authType) out
  let out := Object.insert "password" (.str (textOf m "pw")) out
  let out := Object.insert "key_path" (.str "") out
  let out := Object.insert "key_data" (.str keyData) out
  let out := Object.insert "passphrase" (.str "") out
  let out := Object.insert "created_at" (.str "") out
  let out := Object.insert "updated_at" (.str "") out
  .obj (if keyId ≠ "" then Object.insert "key_id" (.str keyId) out else out)

/-- The loop of `parse_sessions`: the entries so far and the ids minted for their short ids, the latest
first. The `n`-th entry gets the id `uuid n`. -/
def parseSessionsLoop (keyMap : String → Option String) (uuid : Nat → String) :
    List Json → List (String × String) → List Json → List Json × List (String × String)
  | [], remap, out => (out, remap)
  | entry :: arr, remap, out =>
    match entry.asObject with
    | none => parseSessionsLoop keyMap uuid arr remap out
    | some m =>
      let id := uuid out.length
      let remap := ((m.get "i").bind Json.asStr).elim remap fun short => (short, id) :: remap
      parseSessionsLoop keyMap uuid arr remap (out ++ [decodeSession keyMap id m])

/-- `parse_sessions`, before it is printed. -/
def parseSessions (keyMap : String → Option String) (uuid : Nat → String) : List Json × List (String × String) :=
  parseSessionsLoop keyMap uuid (((obj.get "s").bind Json.asArray).getD []) [] []

/-- The objects of an array section, read by `f`. -/
def overObjects (k : String) (f : Object → Option Json) : List Json :=
  (((obj.get k).bind Json.asArray).getD []).filterMap fun v => v.asObject.bind f

def decodeTag (m : Object) : Json :=
  let out := Object.insert "id" (.str (textOf m "i")) []
  let out := Object.insert "name" (.str (textOf m "n")) out
  let out := insertOpt "color" (((m.get "cl").bind Json.asStr).map .str) out
  .obj (Object.insert "created_at" (.str "") out)

def parseTags : List Json := overObjects obj "tg" fun m => some (decodeTag m)

def decodeSnippet (m : Object) : Json :=
  let out := Object.insert "id" (.str (textOf m "i")) []
  let out := Object.insert "title" (.str (textOf m "t")) out
  let out := Object.insert "command" (.str (textOf m "cm")) out
  let out := Object.insert "description" (.str (textOf m "d")) out
  let out := Object.insert "created_at" (.str "") out
  .obj (Object.insert "updated_at" (.str "") out)

def parseSnippets : List Json := overObjects obj "sn" fun m => some (decodeSnippet m)

def parseFolderTags : List Json :=
  overObjects obj "ft" fun m => some (linkValue "folder_path" "tag_id" (textOf m "fi") (textOf m "ti"))

/-- `parse_remapped_session_links`, before it is printed: a link to a session that did not come along is
dropped. -/
def parseRemappedSessionLinks (key otherIn otherOut : String) (remap : List (String × String)) : List Json :=
  overObjects obj key fun m =>
    ((m.get "si").bind Json.asStr).bind fun si =>
      (remap.lookup si).bind fun mapped =>
        ((m.get otherIn).bind Json.asStr).map fun other => linkValue "session_id" otherOut mapped other

def parseEmptyFolders : List Json :=
  ((((obj.get "eg").bind Json.asArray).getD []).filterMap Json.asStr).map .str

end Sections

/-! ## The payload -/

structure DecodedQrPayload (Text : Type) where
  pending : FullImport Text
  configJson : Option Text
  schemaVersion : Int64

/-- `vec_to_json`, and the texts that are left out when they are `[]`. -/
def vecToJson (J : JsonText Text) (items : List Json) : Option Text := (arrayEntry items).map J.toStr

/-- A value that is not `null`. -/
def notNull : Json → Bool
  | .null => false
  | _ => true

/-- The entries `parse_payload` makes of the payload object. -/
def pendingOf (J : JsonText Text) (uuid : Nat → String) (obj : Object) : FullImport Text :=
  let keyMap := parseKeyMap obj
  let sessions := parseSessions obj keyMap uuid
  { sessionsJson := vecToJson J sessions.1
    keysJson := vecToJson J (parseManagerKeys obj keyMap)
    tagsJson := vecToJson J (parseTags obj)
    sessionTagsJson := vecToJson J (parseRemappedSessionLinks obj "st" "ti" "tag_id" sessions.2)
    folderTagsJson := vecToJson J (parseFolderTags obj)
    snippetsJson := vecToJson J (parseSnippets obj)
    sessionSnippetsJson := vecToJson J (parseRemappedSessionLinks obj "ss" "ni" "snippet_id" sessions.2)
    emptyFoldersJson := vecToJson J (parseEmptyFolders obj)
    knownHostsText := ((obj.get "kh").bind Json.asStr).filter (· ≠ "") }

def parsePayload (J : JsonText Text) (uuid : Nat → String) (json : Json) : Except String (DecodedQrPayload Text) :=
  match json.asObject with
  | none => .error "payload root must be object"
  | some obj =>
    match validateVersion obj with
    | .error e => .error e
    | .ok version =>
      match ensureNonEmpty obj with
      | .error e => .error e
      | .ok () =>
        .ok
          { pending := pendingOf J uuid obj
            configJson := ((obj.get "c").filter notNull).map J.toStr
            schemaVersion := version }

def decodePayload (W : Wire Text) (J : JsonText Text) (uuid : Nat → String) (payload : String) :
    Except String (DecodedQrPayload Text) :=
  match decodeToJsonText W payload with
  | .error e => .error e
  | .ok text =>
    match J.fromStr text with
    | .error e => .error ("payload malformed: " ++ e)
    | .ok json => parsePayload J uuid json

theorem pending_of_decodePayload {W : Wire Text} {J : JsonText Text} {uuid : Nat → String} {payload : String}
    {d : DecodedQrPayload Text} (h : decodePayload W J uuid payload = .ok d) :
    ∃ text obj, decodeToJsonText W payload = .ok text ∧ J.fromStr text = .ok (.obj obj) ∧
      d.pending = pendingOf J uuid obj := by
  unfold decodePayload at h
  split at h
  · cases h
  rename_i text htext
  split at h
  · cases h
  rename_i json hjson
  unfold parsePayload at h
  split at h
  · cases h
  rename_i obj hobj
  have hroot : json = .obj obj := by
    rcases json with _ | _ | _ | _ | _ | _ | m
    all_goals first | cases hobj; rfl | cases hobj
  subst hroot
  split at h
  · cases h
  split at h
  · cases h
  cases h
  exact ⟨text, obj, htext, hjson, rfl⟩

/-! ## The keys of a payload -/

theorem jsonString_keyEntry (short pem : String) (info : Object) (k : String) : jsonString (keyEntry short pem info) k =
    if k = "id" then short else if k = "label" then textOf info "l" else if k = "private_key" then pem
    else if k = "public_key" then textOf info "p" else if k = "key_type" then textOf info "t" else "" := by
  unfold jsonString keyEntry
  simp only [Json.member_obj, Object.get_insert, Object.get_nil]
  split_ifs <;> first | rfl | simp_all

theorem mem_parseManagerKeys {obj : Object} {v : Json} : v ∈ parseManagerKeys obj (parseKeyMap obj) ↔
    ∃ short pem info, (∃ mk, (obj.get "mk").bind Json.asObject = some mk ∧ mk.get short = some (.obj info)) ∧
      parseKeyMap obj short = some pem ∧ v = keyEntry short pem info := by
  unfold parseManagerKeys managerKey
  rw [List.mem_filterMap]
  constructor
  · rintro ⟨⟨short, e⟩, hmem, hv⟩
    obtain ⟨pem, hpem, hv⟩ := bind_eq_some_iff.1 hv
    obtain ⟨info, hinfo, rfl⟩ := map_eq_some_iff.1 hv
    rw [Object.mem_entries] at hmem
    have hobj : e = .obj info := by
      rcases e with _ | _ | _ | _ | _ | _ | m
      all_goals first | cases hinfo; rfl | cases hinfo
    subst hobj
    rcases hmk : (obj.get "mk").bind Json.asObject with _ | mk
    · rw [hmk] at hmem
      cases hmem
    · rw [hmk] at hmem
      exact ⟨short, pem, info, ⟨mk, rfl, hmem⟩, hpem, rfl⟩
  · rintro ⟨short, pem, info, ⟨mk, hmk, hget⟩, hpem, rfl⟩
    refine ⟨(short, .obj info), ?_, ?_⟩
    · rw [hmk, getD_some, Object.mem_entries]
      exact hget
    · simp [hpem]

theorem nodup_parseManagerKeys (obj : Object) (keyMap : String → Option String) :
    ((parseManagerKeys obj keyMap).map fun v => jsonString v "id").Nodup := by
  unfold parseManagerKeys
  generalize ((obj.get "mk").bind Json.asObject).getD [] = mk
  have hsub : ∀ l : Object, ((l.filterMap (managerKey keyMap)).map fun v => jsonString v "id").Sublist (l.map Prod.fst) := by
    intro l
    induction l with
    | nil => exact .slnil
    | cons e l ih =>
      rw [List.filterMap_cons, List.map_cons]
      split
      · exact ih.cons _
      · rename_i v hv
        obtain ⟨pem, -, hv⟩ := bind_eq_some_iff.1 hv
        obtain ⟨info, -, rfl⟩ := map_eq_some_iff.1 hv
        rw [List.map_cons, jsonString_keyEntry, if_pos rfl]
        exact ih.cons_cons _
  exact (Object.nodup_entries mk).sublist (hsub mk.entries)

end LetsFlutSsh.Qr
