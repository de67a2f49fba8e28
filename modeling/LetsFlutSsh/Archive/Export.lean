import LetsFlutSsh.Archive.SessionEntry

/-!
# Exporting an archive

The entries of a `.lfs` archive a user exports. Unlike a sync push it holds live rows only, and of
the sessions only the selected ones:

* `ExportInput`: the user's choice;
* `selectedSessions`: the sessions that travel;
* `buildZip`: the entries of the archive.
-/

namespace LetsFlutSsh.Archive
open Lib List

variable {Text : Type}

/-- `ExportOptions`, for the entries of `PendingImport`. -/
structure ExportOptions where
  includeSessions : Bool
  includeTags : Bool
  includeSnippets : Bool
  includeAllManagerKeys : Bool
  hasManagerKeys : Bool

/-- `ExportInput` without a `sync_origin`; the password and its parameters belong to the envelope. -/
structure ExportInput where
  options : ExportOptions
  selectedSessionIds : List String
  selectedEmptyFolders : List String
  schemaVersion : Int64
  appVersion : Option String
  createdAtMs : Int64

def selectedSessions (db : Db Text) (ids : List String) : List (SessionRow Text) :=
  (Sessions.listAll db).filter fun r => r.id ∈ ids

def exportedSessions (J : JsonText Text) (db : Db Text) (ids : List String) : List Json :=
  (selectedSessions db ids).map fun r => sessionRowToJson J r (folderPathOf db r.folderId) none

/-- `build_manager_keys_value`: every live key, or those the selected sessions use. -/
def exportedKeyItems (db : Db Text) (ids : List String) (includeAll : Bool) : List Json :=
  let used := (selectedSessions db ids).filterMap fun s => s.keyId.filter (· ≠ "")
  ((SshKeys.listAll db).filter fun k => includeAll || k.id ∈ used).map fun k => buildKeyValue k none

def exportedLinks (ids : List String) (other : String) (links : List (String × String)) : List Json :=
  ids.flatMap fun sid => (linkedTo links sid).map (linkValue "session_id" other sid)

/-- `write_manifest` of a user's export. -/
def exportManifest (input : ExportInput) : Json :=
  let obj := Json.Object.insert "schema_version" (.ofI64 input.schemaVersion) []
  let obj := Json.Object.insert "created_at" (.str (formatIso8601Utc input.createdAtMs)) obj
  .obj (insertNonEmpty "app_version" (input.appVersion.getD "") obj)

/-- `build_zip` of a user's export. -/
def buildZip (J : JsonText Text) (db : Db Text) (input : ExportInput) : PendingImport Text :=
  let o := input.options
  let ids := input.selectedSessionIds
  let entry (want : Bool) (items : List Json) : Option Text :=
    if want then (arrayEntry items).map J.toStr else none
  let tags := o.includeTags && !(Tags.listAll db).isEmpty
  let snippets := o.includeSnippets && !(Snippets.listAll db).isEmpty
  { manifestJson := some (J.toStr (exportManifest input))
    sessionsJson := if o.includeSessions then some (J.toStr (.arr (exportedSessions J db ids))) else none
    keysJson := entry o.hasManagerKeys (exportedKeyItems db ids o.includeAllManagerKeys)
    tagsJson := entry o.includeTags ((Tags.listAll db).map fun t => tagValue t none)
    sessionTagsJson := entry tags (exportedLinks ids "tag_id" db.sessionTags)
    folderTagsJson := if tags then (buildFolderTagsValue db).map J.toStr else none
    snippetsJson := entry o.includeSnippets ((Snippets.listAll db).map fun s => snippetValue s none)
    sessionSnippetsJson := entry snippets (exportedLinks ids "snippet_id" db.sessionSnippets)
    emptyFoldersJson := entry o.includeSessions (input.selectedEmptyFolders.map .str) }

theorem mem_selectedSessions (db : Db Text) (ids : List String) (r : SessionRow Text) : r ∈ selectedSessions db ids ↔
    r.id ∈ ids ∧ ∃ p, db.sessions.get r.id = some p ∧ p.deletedAt = none ∧
      r = Sessions.rowFrom r.id p (db.sshDetails.get r.id) := by
  unfold selectedSessions Sessions.listAll Sessions.listAllWithTombstones
  rw [mem_filter, decide_eq_true_eq, mem_map]
  constructor
  · rintro ⟨⟨⟨r', deletedAt⟩, hmem, rfl⟩, hid⟩
    rw [mem_filter, mem_map] at hmem
    obtain ⟨⟨⟨i, p⟩, hrow, heq⟩, hlive⟩ := hmem
    rw [mem_mergeSort, Table.mem_rows_iff] at hrow
    cases heq
    exact ⟨hid, p, hrow, Option.isNone_iff_eq_none.mp hlive, rfl⟩
  · rintro ⟨hid, p, hrow, hlive, hr⟩
    refine ⟨⟨(r, none), ?_, rfl⟩, hid⟩
    rw [mem_filter, mem_map]
    refine ⟨⟨(r.id, p), ?_, ?_⟩, rfl⟩
    · rwa [mem_mergeSort, Table.mem_rows_iff]
    · rw [hlive, ← hr]

theorem nodup_selectedSessions (db : Db Text) (ids : List String) :
    ((selectedSessions db ids).map SessionRow.id).Nodup := by
  have hall : ((Sessions.listAllWithTombstones db).map fun e => e.1.id).Nodup := by
    unfold Sessions.listAllWithTombstones
    rw [map_map]
    exact ((mergeSort_perm db.sessions.rows _).map Prod.fst).nodup_iff.mpr db.sessions.nodup
  refine Nodup.sublist ?_ hall
  have hmap : (Sessions.listAllWithTombstones db).map (fun e => e.1.id) =
      ((Sessions.listAllWithTombstones db).map Prod.fst).map SessionRow.id := by
    rw [map_map]
    rfl
  rw [hmap]
  exact (filter_sublist.trans (filter_sublist.map Prod.fst)).map SessionRow.id

theorem sessionsJson_buildZip (J : JsonText Text) (db : Db Text) {input : ExportInput}
    (h : input.options.includeSessions = true) :
    (buildZip J db input).sessionsJson = some (J.toStr (.arr (exportedSessions J db input.selectedSessionIds))) := by
  show (if input.options.includeSessions then _ else none) = _
  rw [if_pos h]

theorem parseArray_exported (J : JsonText Text) (items : List Json) : parseArray J (J.toStr (.arr items)) = .ok items := by
  unfold parseArray
  rw [J.fromStr_toStr]

theorem exportedSessions_split (J : JsonText Text) {db : Db Text} {ids : List String} {r : SessionRow Text}
    (h : r ∈ selectedSessions db ids) :
    ∃ done rest, exportedSessions J db ids = done ++ sessionRowToJson J r (folderPathOf db r.folderId) none :: rest ∧
      ∀ v ∈ rest, jsonString v "id" ≠ r.id := by
  obtain ⟨pre, post, hsplit⟩ := append_of_mem h
  refine ⟨pre.map _, post.map _, by rw [exportedSessions, hsplit, map_append, map_cons], ?_⟩
  have hnodup := nodup_selectedSessions db ids
  rw [hsplit, map_append, map_cons] at hnodup
  intro v hv
  obtain ⟨r', hr', rfl⟩ := mem_map.mp hv
  rw [jsonString_id]
  intro heq
  refine (nodup_cons.mp hnodup.of_append_right).1 ?_
  rw [← heq]
  exact mem_map_of_mem hr'

end LetsFlutSsh.Archive
