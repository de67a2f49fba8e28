import LetsFlutSsh.Lib.RowMerge
import LetsFlutSsh.Archive.SyncTables
import LetsFlutSsh.Archive.Tombstones

/-!
# What a sync entry writes

One entry of a sync pull looks at the row of its id and writes it or leaves it alone:

* `keyWrite`, `snippetWrite`, `tagWrite`, `detailWrite`, `bookmarkWrite`, `portForwardWrite`: the row an
  entry writes, from the stamp it is compared with and the row that is there;
* `applyOneKeySync_keys`, `applyOneSnippet_snippets`, …: the driver's step is that write.

The entry of a tag is also refused when another live tag holds its name; `tagWrite_again` is about an
entry that was not, or is refused again.
-/

namespace LetsFlutSsh.Archive
open Lib Option

variable {Text α : Type}

def entryDeletedAt (v : Json) : Int64 := (jsonI64Opt v "deleted_at_ms").getD 0

theorem loses_self (ts : Int64) : lwwPeerLoses ts (some ts) = true := by simp [lwwPeerLoses]

def marksLive (createdAt : α → Int64) (ts : Int64) (s : Stored α) : Bool := s.deletedAt.isNone && createdAt s.row < ts

def markAt (ts : Int64) (s : Stored α) : Stored α := { s with deletedAt := some ts }

theorem marksLive_markAt (createdAt : α → Int64) (ts : Int64) (s : Stored α) :
    marksLive createdAt ts (markAt ts s) = false := rfl

def liveStamp (stamp : α → Int64) (old : Option (Stored α)) : Option Int64 :=
  old.bind fun s => if s.deletedAt.isNone then some (stamp s.row) else none

/-- A row that is written with the stamp of its entry wins over that entry. -/
theorem lwwWrite_again_stamped {ts : Int64} (stamp : Option α → Option Int64) {gone : Bool} {marks : α → Bool} {delete : α → α}
    {row row' : Option α → Option α} {x y : Option α} (hdelete : ∀ s, marks (delete s) = false)
    (hskip : row x = none → row' x = none) (hstamp : ∀ b, row x = some b → stamp (some b) = some ts)
    (hy : (lwwWrite gone marks delete (lwwPeerLoses ts (stamp x)) row x).or x = y) {b : α}
    (hb : lwwWrite gone marks delete (lwwPeerLoses ts (stamp y)) row' y = some b) : y = some b := by
  refine lwwWrite_again (fun x => lwwPeerLoses ts (stamp x)) hdelete (fun _ _ => hskip) (fun r hr hlost => ?_) hy hb
  rw [hstamp r hr, loses_self] at hlost
  cases hlost

/-! ## Keys -/

/-- The write of a key entry; `l` is the stamp of the live key. -/
def keyWrite (now : Int64) (v : Json) (l : Option Int64) (old : Option (Stored SshKeyRow)) : Option (Stored SshKeyRow) :=
  if jsonString v "id" = "" then none
  else
    lwwWrite (isTombstone v) (marksLive SshKeyRow.createdAtMs (entryDeletedAt v)) (markAt (entryDeletedAt v))
      (lwwPeerLoses (peerCreatedAt v) l)
      (fun _ => some ⟨{ buildKeyRow v now with id := jsonString v "id", createdAtMs := peerCreatedAt v }, none⟩) old

variable (v : Json)
variable (now : Int64)
variable (live : String → Option Int64)
variable (s : Applying Text)

theorem applyOneKeySync_keys :
    (applyOneKeySync live now v s).1.sshKeys =
      s.1.sshKeys.mergeRow (jsonString v "id") (keyWrite now v (live (jsonString v "id"))) := by
  unfold applyOneKeySync keyWrite lwwWrite Table.mergeRow
  dsimp only
  split_ifs
  · rfl
  · unfold SshKeys.applyTombstone
    rcases s.1.sshKeys.get (jsonString v "id") with _ | r
    · rfl
    · dsimp only
      rw [filter_some]
      unfold marksLive entryDeletedAt
      split_ifs <;> rfl
  · rfl
  · rfl

variable (now' : Int64)

theorem keyWrite_again {x y : Option (Stored SshKeyRow)}
    (hy : (keyWrite now v (liveStamp SshKeyRow.createdAtMs x) x).or x = y) {b : Stored SshKeyRow}
    (hb : keyWrite now' v (liveStamp SshKeyRow.createdAtMs y) y = some b) : y = some b := by
  unfold keyWrite at hy hb
  split_ifs at hy hb
  exact lwwWrite_again_stamped _ (marksLive_markAt _ _) (by simp) (by rintro r ⟨⟩; rfl) hy hb

/-! ## Snippets -/

/-- The write of a snippet entry; `l` is the stamp of the live snippet. -/
def snippetWrite (now : Int64) (v : Json) (l : Option Int64) (old : Option (Stored SnippetRow)) :
    Option (Stored SnippetRow) :=
  if jsonString v "id" = "" then none
  else
    lwwWrite (isTombstone v) (fun s => s.row.updatedAtMs < entryDeletedAt v)
      (fun s => ⟨{ s.row with updatedAtMs := entryDeletedAt v }, some (entryDeletedAt v)⟩)
      (lwwPeerLoses (Kind.snippet.stamp v) l)
      (fun old => some
        ⟨{ id := jsonString v "id"
           title := jsonString v "title"
           command := jsonString v "command"
           description := jsonString v "description"
           createdAtMs := (old.map fun s => s.row.createdAtMs).getD (parseIso8601OrNow (jsonString v "created_at") now)
           updatedAtMs := Kind.snippet.stamp v }, none⟩) old

theorem applyOneSnippet_snippets :
    (applyOneSnippet .sync live now v s).1.snippets =
      s.1.snippets.mergeRow (jsonString v "id") (snippetWrite now v (live (jsonString v "id"))) := by
  unfold applyOneSnippet snippetWrite lwwWrite Table.mergeRow Kind.stamp
  simp only [ApplyMode.isSync, ApplyMode.isArchive, Bool.false_and, Bool.true_and, Bool.false_eq_true, if_false, if_true]
  split_ifs
  · rfl
  · unfold Snippets.applyTombstone
    rcases s.1.snippets.get (jsonString v "id") with _ | r
    · rfl
    · rw [filter_some]
      unfold entryDeletedAt
      simp only [decide_eq_true_eq]
      split_ifs <;> rfl
  all_goals rfl

theorem snippetWrite_again {x y : Option (Stored SnippetRow)}
    (hy : (snippetWrite now v (liveStamp SnippetRow.updatedAtMs x) x).or x = y) {b : Stored SnippetRow}
    (hb : snippetWrite now' v (liveStamp SnippetRow.updatedAtMs y) y = some b) : y = some b := by
  unfold snippetWrite at hy hb
  split_ifs at hy hb
  exact lwwWrite_again_stamped _ (fun s => by simp) (by simp) (by rintro r ⟨⟩; rfl) hy hb

/-! ## Tags -/

/-- The write of a tag entry; `l` is the stamp of the live tag. -/
def tagWrite (v : Json) (refused : Bool) (l : Option Int64) (old : Option (Stored TagRow)) : Option (Stored TagRow) :=
  if jsonString v "id" = "" then none
  else
    lwwWrite (isTombstone v) (marksLive TagRow.createdAtMs (entryDeletedAt v)) (markAt (entryDeletedAt v))
      (lwwPeerLoses (Kind.tag.stamp v) l)
      (fun old => if refused then none else some
        ⟨{ id := jsonString v "id"
           name := jsonString v "name"
           color := jsonNonEmpty v "color"
           createdAtMs := (old.map fun s => s.row.createdAtMs).getD (Kind.tag.stamp v) }, none⟩) old

theorem applyOneTag_tags :
    (applyOneTag .sync live now v s).1.tags =
      s.1.tags.mergeRow (jsonString v "id") (tagWrite v (tagRefused s.1 v) (live (jsonString v "id"))) := by
  unfold applyOneTag tagWrite lwwWrite Table.mergeRow
  simp only [ApplyMode.isSync, Bool.true_and, decide_eq_true_eq, if_true]
  by_cases htomb : isTombstone v = true
  · rw [if_pos htomb, if_pos htomb]
    by_cases hid : jsonString v "id" = ""
    · rw [if_neg (not_not.2 hid), if_pos hid]
      rfl
    rw [if_pos hid, if_neg hid]
    unfold Tags.applyTombstone
    rcases s.1.tags.get (jsonString v "id") with _ | r
    · rfl
    · dsimp only
      rw [filter_some]
      unfold marksLive entryDeletedAt
      split_ifs <;> rfl
  · rw [if_neg htomb, if_neg htomb]
    by_cases hid : jsonString v "id" = ""
    · rw [if_pos (.inl hid), if_pos hid]
      rfl
    by_cases hname : jsonString v "name" = ""
    · rw [if_pos (.inr hname), if_neg hid]
      simp [tagRefused, hname]
    rw [if_neg (not_or.2 ⟨hid, hname⟩), if_neg hid]
    unfold Kind.stamp Tags.upsert tagRefused
    simp only [hname, decide_false, Bool.false_or]
    by_cases hlost : lwwPeerLoses ((parseIso8601Opt (jsonString v "created_at")).getD 0)
        (live (jsonString v "id")) = true
    · rw [if_pos hlost, if_pos hlost]
      rfl
    · rw [if_neg hlost, if_neg hlost]
      split_ifs <;> rfl

theorem tagWrite_again {refused refused' : Bool} {x y : Option (Stored TagRow)}
    (hrefused : isTombstone v = false → lwwPeerLoses (Kind.tag.stamp v) (liveStamp TagRow.createdAtMs x) = false →
      refused = true → refused' = true)
    (hy : (tagWrite v refused (liveStamp TagRow.createdAtMs x) x).or x = y) {b : Stored TagRow}
    (hb : tagWrite v refused' (liveStamp TagRow.createdAtMs y) y = some b) : y = some b := by
  unfold tagWrite at hy hb
  by_cases hid : jsonString v "id" = ""
  · rw [if_pos hid] at hb
    cases hb
  rw [if_neg hid] at hy hb
  refine lwwWrite_again (fun x => lwwPeerLoses (Kind.tag.stamp v) (liveStamp TagRow.createdAtMs x))
    (marksLive_markAt _ _) (fun hgone hlost h => ?_) (fun r hr hlost c hc => ?_) hy hb
  · split_ifs at h with hr
    rw [if_pos (hrefused hgone hlost hr)]
  · split_ifs at hr hc
    cases hr
    cases hc
    rfl

/-! ## WebDAV and S3 details -/

def detailWrite (build : Json → α) (now : Int64) (live : List String) (v : Json) (old : Option (Stamped α)) :
    Option (Stamped α) :=
  if jsonString v "session_id" = "" then none
  else
    lwwWrite (isTombstone v) (fun s => s.updatedAt < entryDeletedAt v)
      (fun s => { s with updatedAt := entryDeletedAt v, deletedAt := some (entryDeletedAt v) })
      (lwwPeerLoses ((peerStamp v).getD 0) (old.map Stamped.updatedAt))
      (fun _ => if jsonString v "session_id" ∈ live then some ⟨build v, (peerStamp v).getD now, none⟩ else none) old

variable (live : List String)

theorem applyOneDetail_fst (what : String) (build : Json → α) (count : DriverOutcome → DriverOutcome)
    (s : Running (Table String (Stamped α))) :
    (applyOneDetail what build count now live v s).1 =
      s.1.mergeRow (jsonString v "session_id") (detailWrite build now live v) := by
  unfold applyOneDetail detailWrite lwwWrite Table.mergeRow Details.getUpdatedAt
  dsimp only
  split_ifs
  · rfl
  · unfold Details.applyTombstone
    rcases s.1.get (jsonString v "session_id") with _ | r
    · rfl
    · rw [filter_some]
      unfold entryDeletedAt
      simp only [decide_eq_true_eq]
      split_ifs <;> rfl
  all_goals rfl

theorem detailWrite_again (build : Json → α) {v : Json}
    (hstamp : (peerStamp v).isSome) {x y : Option (Stamped α)} (hy : (detailWrite build now live v x).or x = y)
    {b : Stamped α} (hb : detailWrite build now' live v y = some b) : y = some b := by
  obtain ⟨ts, hts⟩ := isSome_iff_exists.1 hstamp
  unfold detailWrite at hy hb
  rw [hts] at hy hb
  split_ifs at hy hb with hid hlive
  · exact lwwWrite_again_stamped (Option.map Stamped.updatedAt) (fun s => by simp) (by simp) (by rintro r ⟨⟩; rfl) hy hb
  · exact lwwWrite_again_stamped (Option.map Stamped.updatedAt) (fun s => by simp) (fun _ => rfl) (by simp) hy hb

/-! ## Bookmarks -/

/-- The write of a bookmark entry; `l` is the stamp of the row, deleted or not. -/
def bookmarkWrite (now : Int64) (live : List String) (v : Json) (l : Option Int64) (old : Option (Stored SftpBookmarkRow)) :
    Option (Stored SftpBookmarkRow) :=
  if jsonString v "id" = "" ∨ jsonString v "session_id" = "" then none
  else
    lwwWrite (isTombstone v) (marksLive SftpBookmarkRow.createdAtMs (entryDeletedAt v)) (markAt (entryDeletedAt v))
      (lwwPeerLoses (parseIso8601OrNow (jsonString v "created_at") now) l)
      (fun old => if jsonString v "session_id" ∈ live then some (SftpBookmarks.written old
        { id := jsonString v "id"
          sessionId := jsonString v "session_id"
          remotePath := jsonString v "remote_path"
          label := jsonString v "label"
          createdAtMs := parseIso8601OrNow (jsonString v "created_at") now }) else none) old

theorem applyOneSftpBookmark_fst (created : String → Option Int64)
    (s : Running (Table String (Stored SftpBookmarkRow))) :
    (applyOneSftpBookmark now live created v s).1 =
      s.1.mergeRow (jsonString v "id") (bookmarkWrite now live v (created (jsonString v "id"))) := by
  unfold applyOneSftpBookmark bookmarkWrite lwwWrite Table.mergeRow
  dsimp only
  split_ifs
  · rfl
  · unfold SftpBookmarks.applyTombstone
    rcases s.1.get (jsonString v "id") with _ | r
    · rfl
    · dsimp only
      rw [filter_some]
      unfold marksLive entryDeletedAt
      split_ifs <;> rfl
  all_goals rfl

def bookmarkStamp (old : Option (Stored SftpBookmarkRow)) : Option Int64 := old.map fun s => s.row.createdAtMs

theorem bookmarkWrite_again {v : Json}
    (hstamp : (parseIso8601Opt (jsonString v "created_at")).isSome) {x y : Option (Stored SftpBookmarkRow)}
    (hy : (bookmarkWrite now live v (bookmarkStamp x) x).or x = y) {b : Stored SftpBookmarkRow}
    (hb : bookmarkWrite now' live v (bookmarkStamp y) y = some b) : y = some b := by
  obtain ⟨ts, hts⟩ := isSome_iff_exists.1 hstamp
  have hread : ∀ now, parseIso8601OrNow (jsonString v "created_at") now = ts := by
    intro now
    unfold parseIso8601OrNow
    rw [hts]
    rfl
  unfold bookmarkWrite at hy hb
  rw [hread] at hy hb
  split_ifs at hy hb with hid hlive
  · refine lwwWrite_again (fun x => lwwPeerLoses ts (bookmarkStamp x)) (marksLive_markAt _ _) (fun _ _ h => ?_)
      (fun r hr hlost c hc => ?_) hy hb
    · cases h
    · cases hr
      cases hc
      rfl
  · exact lwwWrite_again (fun x => lwwPeerLoses ts (bookmarkStamp x)) (marksLive_markAt _ _) (fun _ _ _ => rfl)
      (by rintro _ ⟨⟩) hy hb

/-! ## Port forwards -/

/-- The write of a port-forward entry; `l` is the stamp of the row, deleted or not. -/
def portForwardWrite (live : List String) (v : Json) (l : Option Int64) (old : Option (Stored PortForwardRuleRow)) :
    Option (Stored PortForwardRuleRow) :=
  if jsonString v "id" = "" ∨ jsonString v "session_id" = "" then none
  else
    lwwWrite (isTombstone v) (fun s => s.row.updatedAtMs < entryDeletedAt v)
      (fun s => ⟨{ s.row with updatedAtMs := entryDeletedAt v }, some (entryDeletedAt v)⟩)
      (lwwPeerLoses ((peerStamp v).getD 0) l)
      (fun old => if jsonString v "session_id" ∈ live then
        some (PortForwards.written old (portForwardRow v) ((peerStamp v).getD 0)) else none) old

theorem applyOnePortForwardRule_fst (updated : String → Option Int64)
    (s : Running (Table String (Stored PortForwardRuleRow))) :
    (applyOnePortForwardRule live updated v s).1 =
      s.1.mergeRow (jsonString v "id") (portForwardWrite live v (updated (jsonString v "id"))) := by
  unfold applyOnePortForwardRule portForwardWrite lwwWrite Table.mergeRow
  dsimp only
  split_ifs
  · rfl
  · unfold PortForwards.applyTombstone
    rcases s.1.get (jsonString v "id") with _ | r
    · rfl
    · rw [filter_some]
      unfold entryDeletedAt
      simp only [decide_eq_true_eq]
      split_ifs <;> rfl
  all_goals rfl

def portForwardStamp (old : Option (Stored PortForwardRuleRow)) : Option Int64 := old.map fun s => s.row.updatedAtMs

theorem portForwardWrite_again {x y : Option (Stored PortForwardRuleRow)}
    (hy : (portForwardWrite live v (portForwardStamp x) x).or x = y) {b : Stored PortForwardRuleRow}
    (hb : portForwardWrite live v (portForwardStamp y) y = some b) : y = some b := by
  unfold portForwardWrite at hy hb
  split_ifs at hy hb with hid hlive
  · exact lwwWrite_again_stamped _ (fun s => by simp) (by simp) (by rintro r ⟨⟩; rfl) hy hb
  · exact lwwWrite_again_stamped _ (fun s => by simp) (fun _ => rfl) (by simp) hy hb

end LetsFlutSsh.Archive
