import LetsFlutSsh.Archive.SessionEntry
import LetsFlutSsh.Qr.KeyStore
import LetsFlutSsh.Qr.ShortKeys

/-!
# The QR round trip

A payload that is composed and decoded again:

* `QrSession`, `QrKey`: what a receiver reads of the decoded entries;
* `sentSession`, `exportedKeyTexts`: what the exporter chose to send;
* `get_payload_*`: the sections of the composed payload;
* `qr_round_trip`: a decoded payload carries what was chosen, up to the ids of sessions and keys.
-/

namespace LetsFlutSsh.Qr
open Lib Lib.Json Archive List Option

variable {Text : Type}

/-- Base64url, deflate and UTF-8 undo themselves on the way of a text. -/
structure Wire.Lawful (W : Wire Text) (t : Text) : Prop where
  base64 : W.fromBase64 (W.toBase64 (W.deflate (W.toUtf8 t))) = .ok (W.deflate (W.toUtf8 t))
  deflate : W.inflate (W.deflate (W.toUtf8 t)) = (W.toUtf8 t, true)
  utf8 : W.fromUtf8 (W.toUtf8 t) = .ok t

/-! ## What is read and what was sent -/

/-- A session as a receiver reads it; `privateKey` is the key it authenticates with, `managed` says that
this is one of the decoded keys. -/
structure QrSession where
  id : String
  label : String
  folder : String
  host : String
  port : Int64
  user : String
  authType : String
  password : String
  privateKey : String
  managed : Bool

def keyWithId (keys : List Json) (id : String) : String :=
  ((keys.find? fun k => jsonString k "id" = id).map fun k => jsonString k "private_key").getD ""

def readSession (keys : List Json) (v : Json) : QrSession where
  id := jsonString v "id"
  label := jsonString v "label"
  folder := jsonString v "folder"
  host := jsonString v "host"
  port := jsonI64 v "port"
  user := jsonString v "user"
  authType := jsonString v "auth_type"
  password := jsonString v "password"
  privateKey :=
    if jsonString v "key_id" = "" then jsonString v "key_data" else keyWithId keys (jsonString v "key_id")
  managed := jsonString v "key_id" ≠ ""

def readKind (v : Json) : String := (jsonNonEmpty v "kind").getD Sessions.kindSsh

structure QrKey where
  privateKey : String
  label : String
  keyType : String
  publicKey : String

def readKey (v : Json) : QrKey :=
  ⟨jsonString v "private_key", jsonString v "label", jsonString v "key_type", jsonString v "public_key"⟩

def readTag (v : Json) : String × String × Option String :=
  (jsonString v "id", jsonString v "name", (v.member "color").bind asStr)

def readSnippet (v : Json) : String × String × String × String :=
  (jsonString v "id", jsonString v "title", jsonString v "command", jsonString v "description")

def readLink (a b : String) (v : Json) : String × String := (jsonString v a, jsonString v b)

variable (items : List Json)

theorem itemsOf_vecToJson (J : JsonText Text) : itemsOf J (vecToJson J items) = items := by
  unfold itemsOf vecToJson arrayEntry
  rcases items with _ | ⟨v, items⟩
  · rfl
  · simp [parseArray, Except.toOption]

section Sent

variable (db : Db Text) (input : QrExportInput Text)

def sentPem (s : SessionRow Text) : String := ((resolveSessionPem db input s).map Prod.fst).getD ""

def sentSession (id : String) (s : SessionRow Text) : QrSession where
  id := id
  label := s.label
  folder := folderPathOf db s.folderId
  host := s.host
  port := clampPort s.port
  user := s.user
  authType := s.authType
  password := if input.options.includePasswords then s.password else ""
  privateKey := sentPem db input s
  managed := sentPem db input s ∈ exportedKeyTexts db input

def sentLinks (rename : String → String) (links : List (String × String)) : List (String × String) :=
  (input.selectedSessionIds.filter fun sid => sid ∈ (collectSessionRows db input).map SessionRow.id).flatMap
    fun sid => (linkedTo links sid).map fun other => (rename sid, other)

def sentFolderLinks : List (String × String) :=
  (Folders.listAll db).flatMap fun f => (linkedTo db.folderTags f.1).map fun t => (Folders.pathOf db f.1, t)

/-- The decoded entries are what was chosen. -/
structure Carried (J : JsonText Text) (rename : String → String) (p : FullImport Text) : Prop where
  sessions : (itemsOf J p.sessionsJson).map (readSession (itemsOf J p.keysJson)) =
    (collectSessionRows db input).map fun s => sentSession db input (rename s.id) s
  kinds : ∀ e ∈ (collectSessionRows db input).zip (itemsOf J p.sessionsJson), e.1.kind = Sessions.kindSsh →
    readKind e.2 = e.1.kind
  keys : ∀ q, (∃ v ∈ itemsOf J p.keysJson, readKey v = q) ↔
    ∃ pem ∈ exportedKeyTexts db input, ∃ k, keyByPem db pem = some k ∧ q = ⟨pem, k.label, k.keyType, k.publicKey⟩
  keysOnce : ((itemsOf J p.keysJson).map fun v => (readKey v).privateKey).Nodup
  emptyFolders : (itemsOf J p.emptyFoldersJson).filterMap asStr =
    if input.options.includeSessions then input.selectedEmptyFolders else []
  tags : (itemsOf J p.tagsJson).map readTag =
    if input.options.includeTags then (Tags.listAll db).map fun t => (t.id, t.name, t.color) else []
  sessionTags : (itemsOf J p.sessionTagsJson).map (readLink "session_id" "tag_id") =
    if withTags db input then sentLinks db input rename db.sessionTags else []
  folderTags : (itemsOf J p.folderTagsJson).map (readLink "folder_path" "tag_id") =
    if withTags db input then sentFolderLinks db else []
  snippets : (itemsOf J p.snippetsJson).map readSnippet =
    if input.options.includeSnippets then
      (Snippets.listAll db).map fun s => (s.id, s.title, s.command, s.description) else []
  sessionSnippets : (itemsOf J p.sessionSnippetsJson).map (readLink "session_id" "snippet_id") =
    if withSnippets db input then sentLinks db input rename db.sessionSnippets else []

def Ships (J : JsonText Text) (knownHosts : String) : Prop :=
  input.options.includeSessions = true ∨ exportedKeyTexts db input ≠ [] ∨ (configValue input J).isSome ∨
    (input.options.includeKnownHosts = true ∧ knownHosts ≠ "")

end Sent

/-! ## The sections of the payload -/

section Payload

variable (db : Db Text) (input : QrExportInput Text) (J : JsonText Text) (knownHosts : String)

theorem get_payload_v : (buildQrExportObject db input J knownHosts).get "v" = some (.ofI64 currentFormatVersion) := by
  simp [buildQrExportObject, get_insertOpt]

theorem get_payload_km : (buildQrExportObject db input J knownHosts).get "km" = keyMapValue (exportedKeys db input).1 := by
  simp [buildQrExportObject, get_insertOpt]

theorem get_payload_mk :
    (buildQrExportObject db input J knownHosts).get "mk" = managerMetaValue (exportedKeys db input).2 := by
  simp [buildQrExportObject, get_insertOpt]

theorem get_payload_s : (buildQrExportObject db input J knownHosts).get "s" =
    onlyIf input.options.includeSessions (some (.arr (buildSessionsArray db input (exportedKeys db input).1
      (collectSessionRows db input) (sessionIdToShort (collectSessionRows db input))))) := by
  simp [buildQrExportObject, get_insertOpt]

theorem get_payload_eg : (buildQrExportObject db input J knownHosts).get "eg" =
    onlyIf input.options.includeSessions (arrayEntry (input.selectedEmptyFolders.map .str)) := by
  simp [buildQrExportObject, get_insertOpt]

theorem get_payload_c : (buildQrExportObject db input J knownHosts).get "c" = configValue input J := by
  simp [buildQrExportObject, get_insertOpt]

theorem get_payload_kh : (buildQrExportObject db input J knownHosts).get "kh" =
    onlyIf (input.options.includeKnownHosts && knownHosts ≠ "") (some (.str knownHosts)) := by
  simp [buildQrExportObject, get_insertOpt]

theorem get_payload_tg : (buildQrExportObject db input J knownHosts).get "tg" =
    onlyIf (withTags db input) (some (.arr ((Tags.listAll db).map tagEntry))) := by
  simp [buildQrExportObject, get_insertOpt]

theorem get_payload_st : (buildQrExportObject db input J knownHosts).get "st" =
    onlyIf (withTags db input) (arrayEntry (sessionLinks input (sessionIdToShort (collectSessionRows db input))
      db.sessionTags "ti")) := by
  simp [buildQrExportObject, get_insertOpt]

theorem get_payload_ft :
    (buildQrExportObject db input J knownHosts).get "ft" = onlyIf (withTags db input) (arrayEntry (folderLinks db)) := by
  simp [buildQrExportObject, get_insertOpt]

theorem get_payload_sn : (buildQrExportObject db input J knownHosts).get "sn" =
    onlyIf (withSnippets db input) (some (.arr ((Snippets.listAll db).map snippetEntry))) := by
  simp [buildQrExportObject, get_insertOpt]

theorem get_payload_ss : (buildQrExportObject db input J knownHosts).get "ss" =
    onlyIf (withSnippets db input) (arrayEntry (sessionLinks input (sessionIdToShort (collectSessionRows db input))
      db.sessionSnippets "ni")) := by
  simp [buildQrExportObject, get_insertOpt]

end Payload

/-! ## Keys -/

theorem lookup_map_value {α β : Type} (f : α → β) (l : List (String × α)) (k : String) :
    (l.map fun e => (e.1, f e.2)).lookup k = (l.lookup k).map f := by
  induction l with
  | nil => rfl
  | cons e l ih =>
    obtain ⟨k₀, a⟩ := e
    rw [map_cons, Table.lookup_cons_ite, Table.lookup_cons_ite, ih]
    split_ifs <;> rfl

section Keys

variable (db : Db Text) (input : QrExportInput Text) (J : JsonText Text) (knownHosts : String)

theorem parseKeyMap_payload (short pem : String) :
    parseKeyMap (buildQrExportObject db input J knownHosts) short = some pem ↔
      (exportedKeys db input).1.short pem = some short := by
  have hok := (exportedKeys_spec db input).ok
  have hnodup : (((exportedKeys db input).1.keyToShort.map fun e => (e.2, Json.str e.1)).map Prod.fst).Nodup := by
    rw [List.map_map]
    exact hok.nodup_shorts
  have hlookup : ((exportedKeys db input).1.keyToShort.map fun e => (e.2, Json.str e.1)).lookup short = some (.str pem) ↔
      (exportedKeys db input).1.short pem = some short := by
    rw [← hok.mem_iff]
    refine (Table.mem_rows_iff ⟨_, hnodup⟩ short (Json.str pem)).symm.trans ?_
    simp
  unfold parseKeyMap
  rw [get_payload_km, ← hlookup]
  unfold keyMapValue
  split_ifs with hnil
  · simp [hnil]
  simp only [bind_some, asObject_obj, Object.get_extend, Object.get_nil, or_none]
  unfold Object.get
  rcases hv : ((exportedKeys db input).1.keyToShort.map fun e => (e.2, Json.str e.1)).lookup short with _ | v
  · rw [hv]
    simp
  obtain ⟨l₁, l₂, hsplit, -⟩ := lookup_eq_some_iff.1 hv
  have hmem : (short, v) ∈ (exportedKeys db input).1.keyToShort.map fun e => (e.2, Json.str e.1) := by
    rw [hsplit]
    simp
  obtain ⟨e, -, he⟩ := mem_map.1 hmem
  obtain ⟨-, rfl⟩ := Prod.mk.inj he
  rw [hv]
  simp

theorem get_mk_payload (short : String) (info : Object) :
    (∃ mk, ((buildQrExportObject db input J knownHosts).get "mk").bind asObject = some mk ∧
        mk.get short = some (.obj info)) ↔
      ∃ m, (exportedKeys db input).2.lookup short = some m ∧ metaValue m = .obj info := by
  rw [get_payload_mk]
  unfold managerMetaValue
  split_ifs with hnil
  · simp [hnil]
  have hget : ∀ v, Object.get
      (Object.extend [] ((exportedKeys db input).2.map fun e => (e.1, metaValue e.2))) short = some v ↔
      ((exportedKeys db input).2.lookup short).map metaValue = some v := by
    intro v
    rw [Object.get_extend, Object.get_nil, or_none]
    unfold Object.get
    rw [lookup_map_value]
  simp only [bind_some, asObject_obj, Option.some.injEq, exists_eq_left']
  rw [hget, map_eq_some_iff]

theorem mem_keys_payload (v : Json) : v ∈ parseManagerKeys (buildQrExportObject db input J knownHosts)
      (parseKeyMap (buildQrExportObject db input J knownHosts)) ↔
    ∃ pem ∈ exportedKeyTexts db input, ∃ short, (exportedKeys db input).1.short pem = some short ∧
      ∃ k, keyByPem db pem = some k ∧ ∃ info, metaValue (metaOf k) = .obj info ∧ v = keyEntry short pem info := by
  have hspec := exportedKeys_spec db input
  rw [mem_parseManagerKeys]
  constructor
  · rintro ⟨short, pem, info, hmk, hpem, rfl⟩
    obtain ⟨m, hm, hinfo⟩ := (get_mk_payload db input J knownHosts short info).1 hmk
    obtain ⟨q, hq, hshort, k, hk, rfl⟩ := (hspec.infos short m).1 hm
    have heq : pem = q := hspec.ok.short_inj ((parseKeyMap_payload db input J knownHosts short pem).1 hpem) hshort
    subst heq
    exact ⟨pem, hq, short, hshort, k, hk, info, hinfo, rfl⟩
  · rintro ⟨pem, hpem, short, hshort, k, hk, info, hinfo, rfl⟩
    refine ⟨short, pem, info, ?_, (parseKeyMap_payload db input J knownHosts short pem).2 hshort, rfl⟩
    exact (get_mk_payload db input J knownHosts short info).2
      ⟨metaOf k, (hspec.infos short (metaOf k)).2 ⟨pem, hpem, hshort, k, hk, rfl⟩, hinfo⟩

theorem readKey_keyEntry (short pem : String) (k : SshKeyRow) {info : Object} (h : metaValue (metaOf k) = .obj info) :
    readKey (keyEntry short pem info) = ⟨pem, k.label, k.keyType, k.publicKey⟩ := by
  unfold metaValue metaOf at h
  rw [← Json.obj.inj h]
  simp [readKey, jsonString_keyEntry, textOf]

theorem keyWithId_payload {pem short : String} (hpem : pem ∈ exportedKeyTexts db input)
    (hshort : (exportedKeys db input).1.short pem = some short) :
    keyWithId (parseManagerKeys (buildQrExportObject db input J knownHosts)
      (parseKeyMap (buildQrExportObject db input J knownHosts))) short = pem := by
  have hspec := exportedKeys_spec db input
  obtain ⟨k, hk⟩ := keyByPem_of_exported db input hpem
  obtain ⟨info, hinfo⟩ : ∃ info, metaValue (metaOf k) = .obj info := ⟨_, rfl⟩
  have hmem := (mem_keys_payload db input J knownHosts (keyEntry short pem info)).2
    ⟨pem, hpem, short, hshort, k, hk, info, hinfo, rfl⟩
  unfold keyWithId
  rcases hfind : List.find? _ _ with _ | v
  · rw [find?_eq_none] at hfind
    exact absurd (decide_eq_true (by rw [jsonString_keyEntry, if_pos rfl])) (hfind _ hmem)
  have hid : jsonString v "id" = short := by simpa using find?_some hfind
  obtain ⟨q, hq, short', hshort', k', hk', info', -, rfl⟩ :=
    (mem_keys_payload db input J knownHosts v).1 (mem_of_find?_eq_some hfind)
  rw [jsonString_keyEntry, if_pos rfl] at hid
  subst hid
  rw [map_some, getD_some, jsonString_keyEntry]
  simpa using hspec.ok.short_inj hshort' hshort

end Keys

/-! ## Sessions -/

theorem map_zipIdx_ids {α β : Type} {l : List α} {id : α → String} (hids : (l.map id).Nodup) (f : α → Nat → β) :
    l.zipIdx.map (fun e => f e.1 e.2) = l.map fun a => f a ((l.map id).idxOf (id a)) := by
  have hfst : ∀ g : α → β, l.map g = l.zipIdx.map fun e => g e.1 := by
    intro g
    conv_lhs => rw [← zipIdx_map_fst 0 l, List.map_map]
    rfl
  rw [hfst]
  refine List.map_congr_left fun e he => ?_
  have hget := List.mem_zipIdx_iff_getElem?.1 he
  obtain ⟨hlt, hget⟩ := List.getElem?_eq_some_iff.1 hget
  have hlt' : e.2 < (l.map id).length := by
    rw [List.length_map]
    exact hlt
  have hid : (l.map id)[e.2] = id e.1 := by
    rw [getElem_map, hget]
  rw [← hid, hids.idxOf_getElem]

theorem lookup_map_self {α : Type} (g : String → α) (l : List String) (a : String) :
    (l.map fun x => (x, g x)).lookup a = if a ∈ l then some (g a) else none := by
  induction l with
  | nil => rfl
  | cons x l ih =>
    rw [map_cons, Table.lookup_cons_ite, ih]
    by_cases ha : a = x
    · subst ha
      simp
    · simp [ha]

theorem lookup_sessionIdToShort {rows : List (SessionRow Text)} (hids : (rows.map SessionRow.id).Nodup) (sid : String) :
    (sessionIdToShort rows).lookup sid =
      if sid ∈ rows.map SessionRow.id then some (shortSession ((rows.map SessionRow.id).idxOf sid)) else none := by
  have hplaces : sessionIdToShort rows =
      (rows.map SessionRow.id).map fun x => (x, shortSession ((rows.map SessionRow.id).idxOf x)) := by
    unfold sessionIdToShort
    rw [map_zipIdx_ids hids fun s n => (s.id, shortSession n), List.map_map]
    rfl
  rw [hplaces, lookup_map_self]

variable (keyMap : String → Option String)

theorem parseSessionsLoop_eq {α : Type} (uuid : Nat → String) (entry : α → Object)
    (name : α → String) (rest : List α) (hname : ∀ a ∈ rest, ((entry a).get "i").bind asStr = some (name a))
    (remap : List (String × String)) (out : List Json) :
    parseSessionsLoop keyMap uuid (rest.map fun a => .obj (entry a)) remap out =
      (out ++ (rest.zipIdx out.length).map (fun e => decodeSession keyMap (uuid e.2) (entry e.1)),
        ((rest.zipIdx out.length).map fun e => (name e.1, uuid e.2)).reverse ++ remap) := by
  induction rest generalizing remap out with
  | nil => simp [parseSessionsLoop]
  | cons a rest ih =>
    rw [map_cons, parseSessionsLoop]
    simp only [asObject_obj]
    rw [hname a mem_cons_self, elim_some, ih fun b hb => hname b (mem_cons_of_mem a hb)]
    simp [zipIdx_cons]

variable (m : Object)

section Sessions

variable (db : Db Text) (input : QrExportInput Text) (J : JsonText Text) (knownHosts : String) (uuid : Nat → String)

def renamed (sid : String) : String := uuid (((collectSessionRows db input).map SessionRow.id).idxOf sid)

theorem sessionEntry_get_i {s : SessionRow Text} (hs : s ∈ collectSessionRows db input) :
    ((sessionEntry db input (exportedKeys db input).1 (sessionIdToShort (collectSessionRows db input)) s).get "i").bind
        asStr =
      some (shortSession (((collectSessionRows db input).map SessionRow.id).idxOf s.id)) := by
  unfold sessionEntry
  rw [get_insertOpt, if_pos rfl, lookup_sessionIdToShort (nodup_collectSessionRows db input), if_pos (mem_map_of_mem hs)]
  rfl

theorem parseSessions_payload : (parseSessions (buildQrExportObject db input J knownHosts)
        (parseKeyMap (buildQrExportObject db input J knownHosts)) uuid).1 =
      (collectSessionRows db input).map (fun s =>
        decodeSession (parseKeyMap (buildQrExportObject db input J knownHosts)) (renamed db input uuid s.id)
          (sessionEntry db input (exportedKeys db input).1 (sessionIdToShort (collectSessionRows db input)) s)) ∧
    ∀ sid ∈ (collectSessionRows db input).map SessionRow.id, (parseSessions (buildQrExportObject db input J knownHosts)
          (parseKeyMap (buildQrExportObject db input J knownHosts)) uuid).2.lookup
        (shortSession (((collectSessionRows db input).map SessionRow.id).idxOf sid)) = some (renamed db input uuid sid) := by
  have hids := nodup_collectSessionRows db input
  unfold parseSessions
  rw [get_payload_s]
  by_cases hinclude : input.options.includeSessions = true
  · rw [onlyIf, if_pos hinclude]
    simp only [bind_some, asArray_arr, getD_some]
    unfold buildSessionsArray
    rw [parseSessionsLoop_eq _ uuid _ _ _ fun s hs => sessionEntry_get_i db input hs]
    refine ⟨?_, ?_⟩
    · rw [nil_append]
      exact map_zipIdx_ids hids fun s n => decodeSession _ (uuid n) (sessionEntry db input _ _ s)
    intro sid hsid
    rw [append_nil]
    have hpairs : ((collectSessionRows db input).zipIdx.map fun e =>
          (shortSession (((collectSessionRows db input).map SessionRow.id).idxOf e.1.id), uuid e.2)) =
        ((collectSessionRows db input).map SessionRow.id).map fun x =>
          (shortSession (((collectSessionRows db input).map SessionRow.id).idxOf x), renamed db input uuid x) := by
      rw [map_zipIdx_ids hids fun s n =>
        (shortSession (((collectSessionRows db input).map SessionRow.id).idxOf s.id), uuid n), List.map_map]
      rfl
    have hnodup : ((((collectSessionRows db input).map SessionRow.id).map fun x =>
          (shortSession (((collectSessionRows db input).map SessionRow.id).idxOf x), renamed db input uuid x)).reverse.map
            Prod.fst).Nodup := by
      rw [map_reverse, nodup_reverse, List.map_map]
      refine Nodup.map_on (fun x hx y hy hxy => ?_) hids
      exact (idxOf_inj hx).1 (numbered_injective "s" hxy)
    have hlength : ([] : List Json).length = 0 := rfl
    rw [hlength, hpairs]
    refine (Table.mem_rows_iff ⟨_, hnodup⟩ _ _).1 ?_
    rw [mem_reverse]
    exact mem_map.2 ⟨sid, hsid, rfl⟩
  · have hrows : collectSessionRows db input = [] := by
      unfold collectSessionRows
      rw [if_neg hinclude]
    rw [onlyIf, if_neg hinclude, hrows]
    exact ⟨rfl, fun _ h => absurd h not_mem_nil⟩

/-- The reference to a stored key that `decode_session` keeps. -/
def decodedKeyId (keyMap : String → Option String) (m : Object) : String :=
  if (m.get "mg").bind asI64 = some 1 then
    (((m.get "ki").bind asStr).filter fun k => (keyMap k).isSome).getD "" else ""

/-- The inline key of `decode_session`. -/
def decodedKeyData (keyMap : String → Option String) (m : Object) : String :=
  if (m.get "mg").bind asI64 = some 1 then "" else (((m.get "ki").bind asStr).bind keyMap).getD ""

/-- The members of `decode_session` before the reference. -/
def decodedFields (keyMap : String → Option String) (id : String) (m : Object) : Object :=
  let out := Object.insert "id" (.str id) []
  let out := Object.insert "label" (.str (textOf m "l")) out
  let out := Object.insert "folder" (.str (textOf m "g")) out
  let out := Object.insert "host" (.str (textOf m "h")) out
  let out := Object.insert "port" (.ofI64 (((m.get "p").bind asI64).getD 22)) out
  let out := Object.insert "user" (.str (textOf m "u")) out
  let out := Object.insert "auth_type" (.str (((m.get "a").bind asStr).getD "password")) out
  let out := Object.insert "password" (.str (textOf m "pw")) out
  let out := Object.insert "key_path" (.str "") out
  let out := Object.insert "key_data" (.str (decodedKeyData keyMap m)) out
  let out := Object.insert "passphrase" (.str "") out
  let out := Object.insert "created_at" (.str "") out
  Object.insert "updated_at" (.str "") out

theorem decodeSession_eq (id : String) :
    decodeSession keyMap id m = .obj (insertNonEmpty "key_id" (decodedKeyId keyMap m) (decodedFields keyMap id m)) :=
  congrArg Json.obj (ite_not _ _ _)

theorem readSession_decoded (keys : List Json) (id : String) :
    readSession keys (decodeSession keyMap id m) =
      { id := id
        label := textOf m "l"
        folder := textOf m "g"
        host := textOf m "h"
        port := ((m.get "p").bind asI64).getD 22
        user := textOf m "u"
        authType := ((m.get "a").bind asStr).getD "password"
        password := textOf m "pw"
        privateKey :=
          if decodedKeyId keyMap m = "" then decodedKeyData keyMap m else keyWithId keys (decodedKeyId keyMap m)
        managed := decodedKeyId keyMap m ≠ "" } := by
  have hid : jsonString (decodeSession keyMap id m) "key_id" = decodedKeyId keyMap m := by
    rw [decodeSession_eq, jsonString, member_obj, get_insertNonEmpty]
    by_cases hempty : decodedKeyId keyMap m = ""
    · simp [hempty, decodedFields]
    · simp [hempty]
  unfold readSession
  rw [hid]
  simp [decodeSession_eq, jsonString, jsonI64, jsonI64Opt, get_insertNonEmpty, decodedFields]

theorem readKind_decoded (id : String) :
    readKind (decodeSession keyMap id m) = Sessions.kindSsh := by
  simp [readKind, jsonNonEmpty, decodeSession_eq, get_insertNonEmpty, decodedFields]

theorem readSession_decodeSession {s : SessionRow Text} (hs : s ∈ collectSessionRows db input) (id : String) :
    readSession (parseManagerKeys (buildQrExportObject db input J knownHosts)
          (parseKeyMap (buildQrExportObject db input J knownHosts)))
        (decodeSession (parseKeyMap (buildQrExportObject db input J knownHosts)) id
          (sessionEntry db input (exportedKeys db input).1 (sessionIdToShort (collectSessionRows db input)) s)) =
      sentSession db input id s := by
  have hspec := exportedKeys_spec db input
  have hshort := hspec.session s hs
  have hone : asI64 (.int 1) = some 1 := by decide
  rw [readSession_decoded]
  generalize hm : sessionEntry db input (exportedKeys db input).1 (sessionIdToShort (collectSessionRows db input)) s = m
  have hki : (m.get "ki").bind asStr = (resolveSessionPem db input s).bind fun e => (exportedKeys db input).1.short e.1 := by
    rw [← hm, ← hshort]
    unfold sessionEntry
    generalize (exportedKeys db input).1.sessionShort.lookup s.id = keyShort
    rcases keyShort with _ | k
    · simp [encodeSessionCompact, get_insertOpt]
    · simp [encodeSessionCompact, get_insertOpt]
  have hmg : (m.get "mg").bind asI64 = some 1 ↔
      ∃ k, (exportedKeys db input).1.sessionShort.lookup s.id = some k ∧ k ∈ (exportedKeys db input).1.managerShorts := by
    rw [← hm]
    unfold sessionEntry
    generalize (exportedKeys db input).1.sessionShort.lookup s.id = keyShort
    rcases keyShort with _ | k
    · simp [encodeSessionCompact, get_insertOpt]
    · by_cases hk : k ∈ (exportedKeys db input).1.managerShorts
      · simp [encodeSessionCompact, get_insertOpt, hk, hone]
      · simp [encodeSessionCompact, get_insertOpt, hk]
  have hplain : textOf m "l" = s.label ∧ textOf m "g" = folderPathOf db s.folderId ∧ textOf m "h" = s.host ∧
      ((m.get "p").bind asI64).getD 22 = clampPort s.port ∧ textOf m "u" = s.user ∧
      ((m.get "a").bind asStr).getD "password" = s.authType ∧
      textOf m "pw" = if input.options.includePasswords then s.password else "" := by
    rw [← hm]
    unfold sessionEntry textOf
    refine ⟨?_, ?_, ?_, ?_, ?_, ?_, ?_⟩
    · simp [encodeSessionCompact, get_insertOpt]
    · by_cases hfolder : folderPathOf db s.folderId = ""
      · simp [encodeSessionCompact, get_insertOpt, hfolder]
      · simp [encodeSessionCompact, get_insertOpt, hfolder]
    · simp [encodeSessionCompact, get_insertOpt]
    · by_cases hport : clampPort s.port = 22
      · simp [encodeSessionCompact, get_insertOpt, hport]
      · simp [encodeSessionCompact, get_insertOpt, hport]
    · simp [encodeSessionCompact, get_insertOpt]
    · by_cases hauth : s.authType = "password"
      · simp [encodeSessionCompact, get_insertOpt, hauth]
      · simp [encodeSessionCompact, get_insertOpt, hauth]
    · by_cases hpw : s.password = ""
      · simp [encodeSessionCompact, get_insertOpt, hpw]
      · rcases input.options.includePasswords with _ | _
        · simp [encodeSessionCompact, get_insertOpt]
        · simp [encodeSessionCompact, get_insertOpt, hpw]
  obtain ⟨hl, hg, hh, hp, hu, ha, hpw⟩ := hplain
  unfold sentSession
  rw [hl, hg, hh, hp, hu, ha, hpw]
  have hempty : "" ∉ exportedKeyTexts db input := by
    intro hmem
    obtain ⟨k, hk⟩ := isSome_iff_exists.1 (hspec.key "" hmem)
    exact hspec.ok.pem_ne_empty hk rfl
  rcases hpem : resolveSessionPem db input s with _ | ⟨pem, manager⟩
  · rw [hpem, bind_none] at hki
    have hsent : sentPem db input s = "" := by
      unfold sentPem
      rw [hpem]
      rfl
    have hnoId : decodedKeyId (parseKeyMap (buildQrExportObject db input J knownHosts)) m = "" := by
      unfold decodedKeyId
      rw [hki]
      exact ite_self ""
    have hnoData : decodedKeyData (parseKeyMap (buildQrExportObject db input J knownHosts)) m = "" := by
      unfold decodedKeyData
      rw [hki]
      exact ite_self ""
    rw [hnoId, hnoData, hsent]
    simp [hempty]
  · obtain ⟨k, hk⟩ : ∃ k, (exportedKeys db input).1.short pem = some k :=
      isSome_iff_exists.1 (hspec.text s hs _ hpem)
    have hread := (parseKeyMap_payload db input J knownHosts k pem).2 hk
    have hsent : sentPem db input s = pem := by
      unfold sentPem
      rw [hpem]
      rfl
    rw [hpem, bind_some, hk] at hki hshort
    have hmanaged : (m.get "mg").bind asI64 = some 1 ↔ pem ∈ exportedKeyTexts db input := by
      rw [hmg, hshort]
      constructor
      · rintro ⟨k', hk', hin⟩
        cases hk'
        obtain ⟨q, hq, hshortq⟩ := (hspec.manager k).1 hin
        rw [hspec.ok.short_inj hk hshortq]
        exact hq
      · intro hin
        exact ⟨k, rfl, (hspec.manager k).2 ⟨pem, hin, hk⟩⟩
    rw [hsent]
    by_cases hin : pem ∈ exportedKeyTexts db input
    · have hid : decodedKeyId (parseKeyMap (buildQrExportObject db input J knownHosts)) m = k := by
        unfold decodedKeyId
        rw [if_pos (hmanaged.2 hin), hki]
        simp [filter_some, hread]
      rw [hid, if_neg (hspec.ok.short_ne_empty hk), keyWithId_payload db input J knownHosts hin hk]
      simp [hin, hspec.ok.short_ne_empty hk]
    · have hid : decodedKeyId (parseKeyMap (buildQrExportObject db input J knownHosts)) m = "" := by
        unfold decodedKeyId
        rw [if_neg (mt hmanaged.1 hin)]
      have hdata : decodedKeyData (parseKeyMap (buildQrExportObject db input J knownHosts)) m = pem := by
        unfold decodedKeyData
        rw [if_neg (mt hmanaged.1 hin), hki, bind_some, hread]
        rfl
      rw [hid, hdata]
      simp [hin]

end Sessions

/-! ## Tags, snippets, links -/

theorem asArray_onlyIf (c : Bool) :
    ((onlyIf c (some (.arr items))).bind asArray).getD [] = if c then items else [] := by
  unfold onlyIf
  split_ifs <;> rfl

theorem asArray_onlyIf_arrayEntry (c : Bool) :
    ((onlyIf c (arrayEntry items)).bind asArray).getD [] = if c then items else [] := by
  unfold onlyIf arrayEntry
  split_ifs with hc hnil
  · rw [isEmpty_iff.1 hnil]
    rfl
  · rfl
  · rfl

theorem readLink_linkValue {a b : String} (hab : a ≠ b) (x y : String) : readLink a b (linkValue a b x y) = (x, y) := by
  simp [readLink, linkValue, jsonString, hab.symm]

theorem readTag_decodeTag (t : TagRow) :
    ((tagEntry t).asObject.bind fun m => some (decodeTag m)).map readTag = some (t.id, t.name, t.color) := by
  obtain ⟨id, name, color, created⟩ := t
  rcases color with _ | c
  · simp [tagEntry, readTag, decodeTag, textOf, jsonString, insertOpt]
  · simp [tagEntry, readTag, decodeTag, textOf, jsonString, insertOpt]

theorem readSnippet_decodeSnippet (s : SnippetRow) :
    ((snippetEntry s).asObject.bind fun m => some (decodeSnippet m)).map readSnippet =
      some (s.id, s.title, s.command, s.description) := by
  by_cases hd : s.description = ""
  · simp [snippetEntry, readSnippet, decodeSnippet, textOf, jsonString, get_insertOpt, hd]
  · simp [snippetEntry, readSnippet, decodeSnippet, textOf, jsonString, get_insertOpt, hd]

theorem map_filterMap_read {α β : Type} (entry : α → Json) (f : Object → Option Json) (g : Json → β) (h : α → β)
    (hread : ∀ a, ((entry a).asObject.bind f).map g = some (h a)) (l : List α) :
    ((l.map entry).filterMap fun v => v.asObject.bind f).map g = l.map h := by
  induction l with
  | nil => rfl
  | cons a l ih =>
    obtain ⟨v, hv, hg⟩ := map_eq_some_iff.1 (hread a)
    rw [map_cons, filterMap_cons, hv]
    rw [map_cons, ih, hg, map_cons]

section Links

variable (db : Db Text) (input : QrExportInput Text) (J : JsonText Text) (knownHosts : String) (uuid : Nat → String)

theorem sessionLinks_payload {otherIn otherOut : String} (hin : otherIn ≠ "si") (hout : "session_id" ≠ otherOut)
    (links : List (String × String)) {remap : List (String × String)}
    (hremap : ∀ sid ∈ (collectSessionRows db input).map SessionRow.id,
      remap.lookup (shortSession (((collectSessionRows db input).map SessionRow.id).idxOf sid)) =
        some (renamed db input uuid sid)) :
    ((sessionLinks input (sessionIdToShort (collectSessionRows db input)) links otherIn).filterMap fun v =>
        v.asObject.bind fun m =>
          ((m.get "si").bind asStr).bind fun si =>
            (remap.lookup si).bind fun mapped =>
              ((m.get otherIn).bind asStr).map fun other => linkValue "session_id" otherOut mapped other).map
        (readLink "session_id" otherOut) =
      sentLinks db input (renamed db input uuid) links := by
  unfold sessionLinks sentLinks
  generalize input.selectedSessionIds = selected
  induction selected with
  | nil => rfl
  | cons sid selected ih =>
    rw [flatMap_cons, filterMap_append, map_append, ih, filter_cons,
      lookup_sessionIdToShort (nodup_collectSessionRows db input)]
    by_cases hsid : sid ∈ (collectSessionRows db input).map SessionRow.id
    · rw [if_pos hsid, if_pos (decide_eq_true hsid), flatMap_cons, elim_some]
      congr 1
      have hlink : ∀ other, (((linkValue "si" otherIn (shortSession
            (((collectSessionRows db input).map SessionRow.id).idxOf sid)) other).asObject.bind fun m =>
          ((m.get "si").bind asStr).bind fun si =>
            (remap.lookup si).bind fun mapped =>
              ((m.get otherIn).bind asStr).map fun other => linkValue "session_id" otherOut mapped other).map
                (readLink "session_id" otherOut)) = some (renamed db input uuid sid, other) := by
        intro other
        have hread := readLink_linkValue hout (renamed db input uuid sid) other
        simpa [linkValue, hin, hremap sid hsid] using hread
      exact map_filterMap_read _ _ _ _ hlink (linkedTo links sid)
    · rw [if_neg hsid, if_neg (by simpa using hsid)]
      rfl

theorem carried_payload :
    Carried db input J (renamed db input uuid) (pendingOf J uuid (buildQrExportObject db input J knownHosts)) := by
  obtain ⟨hsessions, hremap⟩ := parseSessions_payload db input J knownHosts uuid
  have htags : (if withTags db input then (Tags.listAll db).map tagEntry else []) =
      if input.options.includeTags then (Tags.listAll db).map tagEntry else [] := by
    unfold withTags
    rcases hl : Tags.listAll db with _ | ⟨t, l⟩
    · simp
    · simp
  have hsnippets : (if withSnippets db input then (Snippets.listAll db).map snippetEntry else []) =
      if input.options.includeSnippets then (Snippets.listAll db).map snippetEntry else [] := by
    unfold withSnippets
    rcases hl : Snippets.listAll db with _ | ⟨s, l⟩
    · simp
    · simp
  unfold pendingOf
  refine ⟨?_, ?_, ?_, ?_, ?_, ?_, ?_, ?_, ?_, ?_⟩
  · rw [itemsOf_vecToJson, itemsOf_vecToJson, hsessions, List.map_map]
    exact map_congr_left fun s hs => readSession_decodeSession db input J knownHosts hs (renamed db input uuid s.id)
  · intro e he hkind
    rw [itemsOf_vecToJson, hsessions] at he
    obtain ⟨s, -, hv⟩ := mem_map.1 (of_mem_zip he).2
    rw [← hv, readKind_decoded, hkind]
  · intro q
    rw [itemsOf_vecToJson]
    constructor
    · rintro ⟨v, hv, rfl⟩
      obtain ⟨pem, hpem, short, -, k, hk, info, hinfo, rfl⟩ := (mem_keys_payload db input J knownHosts v).1 hv
      exact ⟨pem, hpem, k, hk, readKey_keyEntry short pem k hinfo⟩
    · rintro ⟨pem, hpem, k, hk, rfl⟩
      obtain ⟨short, hshort⟩ := isSome_iff_exists.1 ((exportedKeys_spec db input).key pem hpem)
      obtain ⟨info, hinfo⟩ : ∃ info, metaValue (metaOf k) = .obj info := ⟨_, rfl⟩
      refine ⟨keyEntry short pem info, ?_, readKey_keyEntry short pem k hinfo⟩
      exact (mem_keys_payload db input J knownHosts _).2 ⟨pem, hpem, short, hshort, k, hk, info, hinfo, rfl⟩
  · rw [itemsOf_vecToJson]
    have hids := nodup_parseManagerKeys (buildQrExportObject db input J knownHosts)
      (parseKeyMap (buildQrExportObject db input J knownHosts))
    -- The text of a decoded key decides its short id.
    refine Nodup.map_on (fun v hv w hw heq => ?_) hids.of_map
    obtain ⟨p, -, sp, hsp, kp, -, ip, hip, rfl⟩ := (mem_keys_payload db input J knownHosts v).1 hv
    obtain ⟨q, -, sq, hsq, kq, -, iq, hiq, rfl⟩ := (mem_keys_payload db input J knownHosts w).1 hw
    rw [readKey_keyEntry sp p kp hip, readKey_keyEntry sq q kq hiq] at heq
    have hpq : p = q := heq
    subst hpq
    have hs : sp = sq := Option.some.inj (hsp.symm.trans hsq)
    subst hs
    exact inj_on_of_nodup_map hids hv hw (by rw [jsonString_keyEntry, jsonString_keyEntry, if_pos rfl, if_pos rfl])
  · rw [itemsOf_vecToJson]
    unfold parseEmptyFolders
    rw [get_payload_eg, asArray_onlyIf_arrayEntry]
    have hstr : ∀ l : List String, (l.map Json.str).filterMap asStr = l := by
      intro l
      induction l with
      | nil => rfl
      | cons x l ih =>
        rw [map_cons, filterMap_cons, asStr_str, ih]
    rw [hstr]
    split_ifs
    · exact hstr _
    · rfl
  · rw [itemsOf_vecToJson]
    unfold parseTags overObjects
    rw [get_payload_tg, asArray_onlyIf, htags]
    split_ifs
    · exact map_filterMap_read tagEntry _ readTag _ readTag_decodeTag (Tags.listAll db)
    · rfl
  · rw [itemsOf_vecToJson]
    unfold parseRemappedSessionLinks overObjects
    rw [get_payload_st, asArray_onlyIf_arrayEntry]
    split_ifs
    · exact sessionLinks_payload db input uuid (by decide) (by decide) db.sessionTags hremap
    · rfl
  · rw [itemsOf_vecToJson]
    unfold parseFolderTags overObjects
    rw [get_payload_ft, asArray_onlyIf_arrayEntry]
    split_ifs
    · unfold folderLinks sentFolderLinks
      induction Folders.listAll db with
      | nil => rfl
      | cons f l ih =>
        rw [flatMap_cons, filterMap_append, map_append, ih, flatMap_cons]
        congr 1
        refine map_filterMap_read _ _ _ _ (fun t => ?_) (linkedTo db.folderTags f.1)
        have hread := readLink_linkValue (show "folder_path" ≠ "tag_id" by decide) (Folders.pathOf db f.1) t
        simpa [linkValue, textOf] using hread
    · rfl
  · rw [itemsOf_vecToJson]
    unfold parseSnippets overObjects
    rw [get_payload_sn, asArray_onlyIf, hsnippets]
    split_ifs
    · exact map_filterMap_read snippetEntry _ readSnippet _ readSnippet_decodeSnippet (Snippets.listAll db)
    · rfl
  · rw [itemsOf_vecToJson]
    unfold parseRemappedSessionLinks overObjects
    rw [get_payload_ss, asArray_onlyIf_arrayEntry]
    split_ifs
    · exact sessionLinks_payload db input uuid (by decide) (by decide) db.sessionSnippets hremap
    · rfl

theorem ensureNonEmpty_payload (hships : Ships db input J knownHosts) :
    ensureNonEmpty (buildQrExportObject db input J knownHosts) = .ok () := by
  unfold ensureNonEmpty
  rw [if_neg]
  rintro ⟨hs, hkm, hc, hkh⟩
  rw [get_payload_s] at hs
  rw [get_payload_km] at hkm
  rw [get_payload_c] at hc
  rw [get_payload_kh] at hkh
  rcases hships with h | h | h | ⟨h, hne⟩
  · simp [onlyIf, h] at hs
  · obtain ⟨pem, hpem⟩ := exists_mem_of_ne_nil _ h
    obtain ⟨short, hshort⟩ := isSome_iff_exists.1 ((exportedKeys_spec db input).key pem hpem)
    have hmem := ((exportedKeys_spec db input).ok.mem_iff pem short).2 hshort
    unfold keyMapValue at hkm
    rw [if_neg (ne_nil_of_mem hmem)] at hkm
    cases hkm
  · rw [isNone_iff_eq_none.1 hc] at h
    cases h
  · simp [onlyIf, h, hne] at hkh

end Links

/-- **The QR round trip.** A composed payload that has a section the decoder looks for and is not longer
than it takes is decoded, and carries what was chosen up to the ids of the sessions and keys. -/
theorem qr_round_trip (W : Wire Text) (J : JsonText Text) (uuid : Nat → String) (huuid : Function.Injective uuid)
    (db : Db Text) (input : QrExportInput Text) (knownHosts : String)
    (hW : W.Lawful (J.toStr (.obj (buildQrExportObject db input J knownHosts))))
    (hships : Ships db input J knownHosts)
    (hsize : (W.toUtf8 (J.toStr (.obj (buildQrExportObject db input J knownHosts)))).length ≤ maxInflatedPayloadBytes) :
    ∃ d, decodePayload W J uuid (qrExportPayload db input W J knownHosts) = .ok d ∧ ∃ rename : String → String,
        Set.InjOn rename {sid | sid ∈ (collectSessionRows db input).map SessionRow.id} ∧
          Carried db input J rename d.pending := by
  have hversion : validateVersion (buildQrExportObject db input J knownHosts) = .ok currentFormatVersion := by
    unfold validateVersion
    rw [get_payload_v, bind_some, asI64_ofI64, getD_some]
    rfl
  have htext : decodeToJsonText W (qrExportPayload db input W J knownHosts) =
      .ok (J.toStr (.obj (buildQrExportObject db input J knownHosts))) := by
    unfold decodeToJsonText qrExportPayload compressToPayload
    rw [hW.base64]
    dsimp only
    unfold inflateCapped
    rw [hW.deflate]
    rw [if_neg (Nat.not_lt.2 hsize), if_pos rfl]
    dsimp only
    rw [hW.utf8]
  refine ⟨⟨pendingOf J uuid (buildQrExportObject db input J knownHosts),
    (((buildQrExportObject db input J knownHosts).get "c").filter notNull).map J.toStr, currentFormatVersion⟩,
    ?_, renamed db input uuid, ?_, carried_payload db input J knownHosts uuid⟩
  · unfold decodePayload
    rw [htext]
    dsimp only
    rw [J.fromStr_toStr]
    unfold parsePayload
    dsimp only [asObject_obj]
    rw [hversion, ensureNonEmpty_payload db input J knownHosts hships]
  · intro a ha b _ hab
    exact (idxOf_inj ha).1 (huuid hab)

/-! ### Payloads of two devices -/

theorem fixedWire_lawful (payload : String) (compressed : Bytes) (json : String) (v : Json) :
    (fixedWire payload compressed json v).Lawful (.json v) := ⟨rfl, rfl, rfl⟩

theorem decodePayload_fixedWire (payload : String) (compressed : Bytes) {json : String} (v : Json) (uuid : Nat → String)
    (p : String) (hsize : (utf8 json).length ≤ maxInflatedPayloadBytes) :
    decodePayload (fixedWire payload compressed json v) ParsedText.codec uuid p = parsePayload ParsedText.codec uuid v := by
  have hcap : inflateCapped (fixedWire payload compressed json v) compressed = .ok (utf8 json) := by
    unfold inflateCapped fixedWire
    rw [if_neg (Nat.not_lt.2 hsize), if_pos rfl]
  have htext : decodeToJsonText (fixedWire payload compressed json v) p = .ok (.json v) := by
    unfold decodeToJsonText
    rw [show (fixedWire payload compressed json v).fromBase64 p = .ok compressed from rfl]
    dsimp only
    rw [hcap]
    rfl
  unfold decodePayload
  rw [htext]
  rfl

/-- A device with a session whose inline key is also a stored key, and with a tag and a snippet of that session. -/
def sharedDevice : Db ParsedText :=
  { (Db.empty : Db ParsedText) with
    sshKeys := Table.empty.set "4d1c" ⟨softwareKey "4d1c" "server" "PEM-A" "PUB-A", none⟩
    sessions := Table.empty.set "s" ⟨"box", none, "ssh", 0, "", none, .json (.obj []), 5, 10, none⟩
    sshDetails := Table.empty.set "s" { Sessions.noDetails with host := "h", authType := "key", keyData := "PEM-A" }
    tags := Table.empty.set "t" ⟨⟨"t", "prod", none, 5⟩, none⟩
    snippets := Table.empty.set "n" ⟨⟨"n", "up", "uptime", "", 5, 5⟩, none⟩
    sessionTags := [("s", "t")]
    sessionSnippets := [("s", "n")] }

def sharedInput : QrExportInput ParsedText where
  options := ⟨true, false, false, false, true, true, true, true, true⟩
  selectedSessionIds := ["s"]
  selectedEmptyFolders := []
  configJson := none

def sharedObject : Object :=
  [("km", .obj [("k0", .str "PEM-A")]),
    ("mk", .obj [("k0", .obj [("l", .str "server"), ("p", .str "PUB-A"), ("t", .str "ed25519")])]),
    ("s", .arr [.obj [("a", .str "key"), ("h", .str "h"), ("i", .str "s0"), ("ki", .str "k0"), ("l", .str "box"),
      ("mg", .int 1), ("u", .str "")]]),
    ("sn", .arr [.obj [("cm", .str "uptime"), ("i", .str "n"), ("t", .str "up")]]),
    ("ss", .arr [.obj [("ni", .str "n"), ("si", .str "s0")]]), ("st", .arr [.obj [("si", .str "s0"), ("ti", .str "t")]]),
    ("tg", .arr [.obj [("i", .str "t"), ("n", .str "prod")]]), ("v", .int 1)]

def sharedWire : Wire ParsedText :=
  fixedWire
    "PY4xC8IwFIT_y80RWqGD2RQcBRcncVAbaolpQ5MWJeS_e0lbp3fc997dC9AGMkAXkDgfT5s9ooDRqxfwJnBqmNQAAZu2LgduCXhqVW-rqtwh8shBXgPudLX6kr-oXpxtCigodFI6qZT56D9UpoEsBUYaiDeGdDnlyacwWt8atSR0S-No5725rVuRW1oy85m5f7FPymfmm8xmQ_BUwg59ndnEV-IP"
    [61, 142, 49, 11, 194, 48, 20, 132, 255, 203, 205, 17, 90, 161, 131, 217, 20, 28, 5, 23, 39, 113, 80, 27, 106, 137, 105, 67,
     147, 22, 37, 228, 191, 123, 73, 91, 167, 119, 220, 247, 222, 221, 11, 208, 6, 50, 64, 23, 144, 56, 31, 79, 155, 61, 162,
     128, 209, 171, 23, 240, 38, 112, 106, 152, 212, 0, 1, 155, 182, 46, 7, 110, 9, 120, 106, 85, 111, 171, 170, 220, 33, 242,
     200, 65, 94, 3, 238, 116, 181, 250, 146, 191, 168, 94, 156, 109, 10, 40, 40, 116, 82, 58, 169, 148, 249, 232, 63, 84, 166,
     129, 44, 5, 70, 26, 136, 55, 134, 116, 57, 229, 201, 167, 48, 90, 223, 26, 181, 36, 116, 75, 227, 104, 231, 189, 185, 173,
     91, 145, 91, 90, 50, 243, 153, 185, 127, 177, 79, 202, 103, 230, 155, 204, 102, 67, 240, 84, 194, 14, 125, 157, 217, 196,
     87, 226, 15]
    "\x7b\"km\":\x7b\"k0\":\"PEM-A\"\x7d,\"mk\":\x7b\"k0\":\x7b\"l\":\"server\",\"p\":\"PUB-A\",\"t\":\"ed25519\"\x7d\x7d,\"s\":[\x7b\"a\":\"key\",\"h\":\"h\",\"i\":\"s0\",\"ki\":\"k0\",\"l\":\"box\",\"mg\":1,\"u\":\"\"\x7d],\"sn\":[\x7b\"cm\":\"uptime\",\"i\":\"n\",\"t\":\"up\"\x7d],\"ss\":[\x7b\"ni\":\"n\",\"si\":\"s0\"\x7d],\"st\":[\x7b\"si\":\"s0\",\"ti\":\"t\"\x7d],\"tg\":[\x7b\"i\":\"t\",\"n\":\"prod\"\x7d],\"v\":1\x7d"
    (.obj sharedObject)

def taggedDevice : Db ParsedText :=
  { (Db.empty : Db ParsedText) with tags := Table.empty.set "t" ⟨⟨"t", "prod", none, 5⟩, none⟩ }

def onlyTags : QrExportInput ParsedText where
  options := ⟨false, false, false, false, false, false, false, true, false⟩
  selectedSessionIds := []
  selectedEmptyFolders := []
  configJson := none

def taggedObject : Object := [("tg", .arr [.obj [("i", .str "t"), ("n", .str "prod")]]), ("v", .int 1)]

def taggedWire : Wire ParsedText :=
  fixedWire "q1YqSVeyiq5WylSyUipR0lHKA9IFRfkpSrWxOkplSlaGtQA"
    [171, 86, 42, 73, 87, 178, 138, 174, 86, 202, 84, 178, 82, 42, 81, 210, 81, 202, 3, 210, 5,
     69, 249, 41, 74, 181, 177, 58, 74, 101, 74, 86, 134, 181, 0]
    "\x7b\"tg\":[\x7b\"i\":\"t\",\"n\":\"prod\"\x7d],\"v\":1\x7d"
    (.obj taggedObject)

theorem sharedDevice_payload : buildQrExportObject sharedDevice sharedInput ParsedText.codec "" = sharedObject := by
  have hkeyList : SshKeys.listAll sharedDevice = [softwareKey "4d1c" "server" "PEM-A" "PUB-A"] := by
    decide +kernel
  have hrows : collectSessionRows sharedDevice sharedInput = [Sessions.rowFrom "s"
      ⟨"box", none, "ssh", 0, "", none, .json (.obj []), 5, 10, none⟩
      (some { Sessions.noDetails with host := "h", authType := "key", keyData := "PEM-A" })] := by
    unfold collectSessionRows Sessions.listAll Sessions.listAllWithTombstones
    rw [show sharedDevice.sessions.rows = [("s", ⟨"box", none, "ssh", 0, "", none, .json (.obj []), 5, 10, none⟩)] from rfl,
      mergeSort_singleton]
    rfl
  have hkeys : exportedKeys sharedDevice sharedInput =
      ({ keyToShort := [("PEM-A", "k0")], sessionShort := [("s", "k0")], managerShorts := ["k0"], counter := 1 },
        [("k0", ("server", "ed25519", "PUB-A"))]) := by
    unfold exportedKeys buildManagerMeta foldAllManagerKeys
    rw [hkeyList, hrows]
    rfl
  have htags : Tags.listAll sharedDevice = [⟨"t", "prod", none, 5⟩] := by
    decide +kernel
  have hsnippets : Snippets.listAll sharedDevice = [⟨"n", "up", "uptime", "", 5, 5⟩] := by
    unfold Snippets.listAll
    rw [show sharedDevice.snippets.rows = [("n", ⟨⟨"n", "up", "uptime", "", 5, 5⟩, none⟩)] from rfl, mergeSort_singleton]
    rfl
  have hfolders : folderLinks sharedDevice = [] := by
    unfold folderLinks Folders.listAll
    rw [show sharedDevice.folders.rows = [] from rfl, mergeSort_nil]
    rfl
  unfold buildQrExportObject withTags withSnippets
  rw [hkeys, hrows, htags, hsnippets, hfolders]
  rfl

theorem qr_round_trip_shared : ∃ d, decodePayload sharedWire ParsedText.codec (fun n => "u" ++ toString n)
      (qrExportPayload sharedDevice sharedInput sharedWire ParsedText.codec "") = .ok d ∧
    ∃ rename : String → String,
      Set.InjOn rename {sid | sid ∈ (collectSessionRows sharedDevice sharedInput).map SessionRow.id} ∧
        Carried sharedDevice sharedInput ParsedText.codec rename d.pending :=
  qr_round_trip sharedWire ParsedText.codec (fun n => "u" ++ toString n) (numbered_injective "u") sharedDevice sharedInput ""
    (by rw [sharedDevice_payload]; exact fixedWire_lawful _ _ _ _) (.inl rfl) (by unfold sharedWire fixedWire; decide +kernel)

theorem taggedDevice_payload : buildQrExportObject taggedDevice onlyTags ParsedText.codec "" = taggedObject := by
  have hlist : Tags.listAll taggedDevice = [⟨"t", "prod", none, 5⟩] := by
    decide +kernel
  have hfolders : folderLinks taggedDevice = [] := by
    unfold folderLinks Folders.listAll
    rw [show taggedDevice.folders.rows = [] from rfl, mergeSort_nil]
    rfl
  unfold buildQrExportObject withTags
  rw [hlist, hfolders]
  rfl

/-- An inline key that is also sent as a stored key comes back as a reference; and a payload of tags is
refused. -/
theorem inline_key_becomes_reference :
    (collectSessionRows sharedDevice sharedInput).map (fun s => (s.keyId, s.keyData)) = [(none, "PEM-A")] ∧
      sharedWire.Lawful (.json (.obj (buildQrExportObject sharedDevice sharedInput ParsedText.codec ""))) ∧
      (∃ d, decodePayload sharedWire ParsedText.codec mintedId
          (qrExportPayload sharedDevice sharedInput sharedWire ParsedText.codec "") = .ok d ∧
        (itemsOf ParsedText.codec d.pending.sessionsJson).map
          (fun v => (jsonString v "key_id", jsonString v "key_data")) = [("k0", "")]) ∧
      taggedWire.Lawful (.json (.obj (buildQrExportObject taggedDevice onlyTags ParsedText.codec ""))) ∧
      ∃ e, decodePayload taggedWire ParsedText.codec mintedId
        (qrExportPayload taggedDevice onlyTags taggedWire ParsedText.codec "") = .error e := by
  refine ⟨by decide +kernel, ?_, ⟨⟨pendingOf ParsedText.codec mintedId sharedObject, none, 1⟩, ?_, ?_⟩,
    ?_, "payload empty", rfl⟩
  · rw [sharedDevice_payload]
    exact fixedWire_lawful _ _ _ _
  · exact decodePayload_fixedWire _ _ (.obj sharedObject) mintedId _ (by decide +kernel)
  · decide +kernel
  · rw [taggedDevice_payload]
    exact fixedWire_lawful _ _ _ _

end LetsFlutSsh.Qr
