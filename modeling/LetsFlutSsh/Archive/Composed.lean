import LetsFlutSsh.Archive.Converge
import LetsFlutSsh.Archive.WholeMerge

/-!
# What a composed snapshot lists

The composer walks tables, and a table has one row for an id:

* `ComposedWhole`: a snapshot of all tables that lists no row twice, with the stamps a merge compares;
* `composedWhole`: the snapshot the composer makes is one.
-/

namespace LetsFlutSsh.Archive
open Lib Lib.Json List

variable {Text α : Type}

/-- A snapshot of all tables as the composer makes it: no row is listed twice, and the stamps are there. -/
structure ComposedWhole (J : JsonText Text) (p : FullImport Text) : Prop extends Composed J p.toPendingImport where
  certificates : ((itemsOf J p.sshKeyCertificatesJson).map fun v => jsonString v "key_id").Nodup
  webdav : ((itemsOf J p.webdavSessionDetailsJson).map fun v => jsonString v "session_id").Nodup
  webdavStamps : ∀ v ∈ itemsOf J p.webdavSessionDetailsJson, (peerStamp v).isSome
  s3 : ((itemsOf J p.s3SessionDetailsJson).map fun v => jsonString v "session_id").Nodup
  s3Stamps : ∀ v ∈ itemsOf J p.s3SessionDetailsJson, (peerStamp v).isSome
  bookmarks : ((itemsOf J p.sftpBookmarksJson).map entryId).Nodup
  bookmarkStamps : ∀ v ∈ itemsOf J p.sftpBookmarksJson, (parseIso8601Opt (jsonString v "created_at")).isSome
  portForwards : ((itemsOf J p.portForwardRulesJson).map entryId).Nodup

theorem itemsOf_unless {J : JsonText Text} {skip : Prop} [Decidable skip] {items : List Json}
    (h : skip → items = []) : itemsOf J ((if skip then none else some (Json.arr items)).map J.toStr) = items := by
  by_cases hskip : skip
  · rw [if_pos hskip, h hskip]
    rfl
  · rw [if_neg hskip]
    show (parseArray J (J.toStr (.arr items))).toOption.getD [] = items
    unfold parseArray
    rw [J.fromStr_toStr]
    rfl

theorem itemsOf_arrayEntry {J : JsonText Text} (items : List Json) : itemsOf J ((arrayEntry items).map J.toStr) = items :=
  itemsOf_unless isEmpty_iff.1

theorem nodup_listed {κ : Type} [DecidableEq κ] (t : Table κ α) (before : κ × α → κ × α → Bool)
    (shown : κ × α → Bool) {value : κ × α → Json} {key : Json → κ} (hkey : ∀ e, key (value e) = e.1) :
    (((((t.rows.mergeSort before).filter shown).map value)).map key).Nodup := by
  have hfst : ((((t.rows.mergeSort before).filter shown).map value)).map key =
      ((t.rows.mergeSort before).filter shown).map Prod.fst := by
    rw [map_map]
    exact map_congr_left fun e _ => hkey e
  rw [hfst]
  refine Nodup.sublist (filter_sublist.map _) ?_
  exact ((mergeSort_perm t.rows before).map Prod.fst).nodup_iff.2 t.nodup

theorem nodup_listed_all {κ : Type} [DecidableEq κ] (t : Table κ α) (before : κ × α → κ × α → Bool)
    {value : κ × α → Json} {key : Json → κ} (hkey : ∀ e, key (value e) = e.1) :
    ((((t.rows.mergeSort before).map value)).map key).Nodup := by
  have h := nodup_listed t before (fun _ => true) hkey
  rwa [filter_true] at h

variable (deletedAt : Option Int64)

theorem entryId_tagValue (t : TagRow) : entryId (tagValue t deletedAt) = t.id := by
  unfold tagValue entryId jsonString
  simp [get_insertTombstone]

theorem entryId_snippetValue (s : SnippetRow) : entryId (snippetValue s deletedAt) = s.id := by
  unfold snippetValue entryId jsonString
  simp [get_insertTombstone]

theorem mergeSort_eq_nil {l : List α} (before : α → α → Bool) (h : l = []) : l.mergeSort before = [] := by
  rw [h, mergeSort_nil]

theorem composed_composeSync (J : JsonText Text) (S : Db Text) (createdAtMs : Int64) (appVersion syncOrigin : String) :
    Composed J (composeSync J S createdAtMs appVersion syncOrigin) where
  sessions := by
    refine ⟨_, rfl, ?_⟩
    have hentries : Kind.session.entries J (composeSync J S createdAtMs appVersion syncOrigin) = sessionEntries J S := by
      show (parseArray J (J.toStr (buildSessionsValue J S))).toOption.getD [] = _
      rw [parseArray_sessions]
      rfl
    rw [hentries]
    exact parseArray_sessions J S
  distinct k := by
    cases k with
    | session =>
      show ((parseArray J (J.toStr (buildSessionsValue J S))).toOption.getD [] |>.map entryId).Nodup
      rw [parseArray_sessions]
      exact nodup_listed_all S.sessions _ (jsonString_entryOf J S)
    | key =>
      show ((itemsOf J ((buildManagerKeysValue S).map J.toStr)).map entryId).Nodup
      unfold buildManagerKeysValue SshKeys.listAllWithTombstones
      rw [map_map, itemsOf_unless fun h => by rw [mergeSort_eq_nil _ h]; rfl]
      exact nodup_listed_all S.sshKeys _ fun e => jsonString_buildKeyValue _ _
    | tag =>
      show ((itemsOf J ((buildTagsValue S).map J.toStr)).map entryId).Nodup
      unfold buildTagsValue
      rw [itemsOf_unless fun h => by rw [mergeSort_eq_nil _ h]; rfl]
      exact nodup_listed_all S.tags _ fun e => entryId_tagValue _ _
    | snippet =>
      show ((itemsOf J ((buildSnippetsValue S).map J.toStr)).map entryId).Nodup
      unfold buildSnippetsValue
      rw [itemsOf_unless fun h => by rw [mergeSort_eq_nil _ h]; rfl]
      exact nodup_listed_all S.snippets _ fun e => entryId_snippetValue _ _
  noEmptyFolders := rfl

theorem keyId_certificateValue (c : CertRecord) : jsonString (certificateValue c) "key_id" = c.keyId := by
  unfold certificateValue jsonString
  simp

theorem get_insertFlag (k k' : String) (b : Bool) (obj : Object) :
    Object.get (insertFlag k b obj) k' = if k' = k ∧ b = true then some (.bool true) else Object.get obj k' := by
  cases b with
  | false => simp [insertFlag]
  | true => simp [insertFlag]

variable (updatedAt : Int64)

theorem get_insertStamps (obj : Object) {k : String}
    (htomb : k ≠ "tombstone") (hdeleted : k ≠ "deleted_at_ms") :
    Object.get (insertStamps updatedAt deletedAt obj) k =
      if k = "updated_at_ms" then some (.ofI64 updatedAt) else Object.get obj k := by
  unfold insertStamps
  rw [get_insertTombstone, if_neg fun h => htomb h.1, if_neg fun h => hdeleted h.1]
  simp

theorem sessionId_webdavRowToValue (r : WebDavSessionRow) :
    jsonString (webdavRowToValue r updatedAt deletedAt) "session_id" = r.sessionId := by
  unfold webdavRowToValue jsonString
  simp [get_insertStamps, get_insertFlag, get_insertOpt]

theorem peerStamp_webdavRowToValue (r : WebDavSessionRow) :
    peerStamp (webdavRowToValue r updatedAt deletedAt) = some updatedAt := by
  unfold webdavRowToValue peerStamp jsonI64Opt
  simp [get_insertStamps]

theorem sessionId_s3RowToValue (r : S3SessionRow) :
    jsonString (s3RowToValue r updatedAt deletedAt) "session_id" = r.sessionId := by
  unfold s3RowToValue jsonString
  simp [get_insertStamps, get_insertFlag, get_insertOpt]

theorem peerStamp_s3RowToValue (r : S3SessionRow) :
    peerStamp (s3RowToValue r updatedAt deletedAt) = some updatedAt := by
  unfold s3RowToValue peerStamp jsonI64Opt
  simp [get_insertStamps]

theorem entryId_bookmarkValue (r : SftpBookmarkRow) :
    entryId (bookmarkValue r deletedAt) = r.id := by
  unfold bookmarkValue entryId jsonString
  simp [get_insertTombstone]

theorem createdAt_bookmarkValue (r : SftpBookmarkRow) :
    jsonString (bookmarkValue r deletedAt) "created_at" = formatIso8601Utc r.createdAtMs := by
  unfold bookmarkValue jsonString
  simp [get_insertTombstone]

theorem entryId_portForwardRowToValue (r : PortForwardRuleRow) :
    entryId (portForwardRowToValue r deletedAt) = r.id := by
  unfold portForwardRowToValue entryId jsonString
  simp [get_insertStamps]

theorem nodup_entry {J : JsonText Text} {κ : Type} {key : Json → κ} {items : List Json} (h : (items.map key).Nodup) :
    ((itemsOf J ((arrayEntry items).map J.toStr)).map key).Nodup := by
  rwa [itemsOf_arrayEntry]

theorem stamped_entry {J : JsonText Text} {stamped : Json → Prop} {value : α → Json} (h : ∀ e, stamped (value e))
    (rows : List α) : ∀ v ∈ itemsOf J ((arrayEntry (rows.map value)).map J.toStr), stamped v := by
  rw [itemsOf_arrayEntry]
  exact forall_mem_map.2 fun e _ => h e

theorem composedWhole (J : JsonText Text) (S : Whole Text) (createdAtMs : Int64) (appVersion syncOrigin : String) :
    ComposedWhole J (composeWhole J S createdAtMs appVersion syncOrigin) where
  toComposed := composed_composeSync J S.main createdAtMs appVersion syncOrigin
  certificates := nodup_entry (nodup_listed_all S.child.certificates _ fun e => keyId_certificateValue _)
  webdav := nodup_entry (nodup_listed S.child.webdav _ _ fun e => sessionId_webdavRowToValue _ _ _)
  webdavStamps := stamped_entry (fun e => by rw [peerStamp_webdavRowToValue]; rfl) _
  s3 := nodup_entry (nodup_listed S.child.s3 _ _ fun e => sessionId_s3RowToValue _ _ _)
  s3Stamps := stamped_entry (fun e => by rw [peerStamp_s3RowToValue]; rfl) _
  bookmarks := nodup_entry (nodup_listed S.child.bookmarks _ _ fun e => entryId_bookmarkValue _ _)
  bookmarkStamps := stamped_entry (fun e => by rw [createdAt_bookmarkValue]; exact isSome_parse_format _) _
  portForwards := nodup_entry (nodup_listed S.child.portForwards _ _ fun e => entryId_portForwardRowToValue _ _)

end LetsFlutSsh.Archive
