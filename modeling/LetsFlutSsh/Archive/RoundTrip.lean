import LetsFlutSsh.Archive.Converge

/-!
# A session on the other device

What a session of one device reads as on another once that merged the snapshot:

* `cameOver`: the row of the sender, as the receiver keeps it;
* `rowOf_merged`: a winning SSH session whose references arrive is kept as that row, under the
  sender's folder path.
-/

namespace LetsFlutSsh.Archive
open Lib

variable {Text : Type}

/-- The sender's row `r` as the receiver keeps it in its folder `folderId`, on top of the row `old`.
Notes, the sort order and the last connection stay behind, a known session keeps its creation stamp,
and a reference or a jump-host override that says nothing is dropped. -/
def cameOver (J : JsonText Text) (old : Option (SessionParent Text)) (folderId : Option String)
    (r : SessionRow Text) : SessionRow Text :=
  { r with
    folderId := folderId
    keyId := r.keyId.filter (· ≠ "")
    sortOrder := 0
    notes := ""
    lastConnectedAtMs := none
    extras := J.toStr ((extrasMember J r).getD (.obj []))
    viaSessionId := r.viaSessionId.filter (· ≠ "")
    viaHost := (viaTrio r).map Prod.fst
    viaPort := (viaTrio r).map fun t => t.2.1
    viaUser := (viaTrio r).map fun t => t.2.2
    createdAtMs := (old.map SessionParent.createdAt).getD r.createdAtMs }

section

variable {E : Env Text} {now : Int64} {D S : Db Text} {w : Pushed} {i : String} {a : SessionParent Text}

theorem rowFrom_arriving (hssh : a.kind = Sessions.kindSsh) (hupdated : Stable a.updatedAt)
    (hcreated : Stable a.createdAt) (old : Option (SessionParent Text)) :
    Sessions.rowFrom i (Sessions.parentWritten old (arriving E now D S w (i, a)))
        (some (Sessions.detailsWritten (arriving E now D S w (i, a)))) =
      cameOver E.json old (arriving E now D S w (i, a)).folderId (rowOf S (i, a)) := by
  have hrow : (rowOf S (i, a)).kind = Sessions.kindSsh := hssh
  have hkind : Sessions.normaliseKind (arriving E now D S w (i, a)).kind = (rowOf S (i, a)).kind := by
    rw [hrow]
    apply (normaliseKind_received _ _ _ _ _).2
    unfold kindMember
    rw [hrow]
    rfl
  have hread : parseIso8601Opt (formatIso8601Utc (rowOf S (i, a)).updatedAtMs) = some (rowOf S (i, a)).updatedAtMs :=
    hupdated
  have hup : (arriving E now D S w (i, a)).updatedAtMs = (rowOf S (i, a)).updatedAtMs := by
    unfold arriving received
    rw [hread, Option.getD_some]
  have hmade : Stable (rowOf S (i, a)).createdAtMs := hcreated
  have hcr : (arriving E now D S w (i, a)).createdAtMs = (rowOf S (i, a)).createdAtMs := by
    unfold arriving received
    rw [parseIso8601OrNow_of_stable hmade]
  unfold Sessions.rowFrom Sessions.parentWritten
  rw [hkind, hup, hcr]
  rfl

/-- **A session's trip.** A live SSH session of `S` that beats the row of `D`, with its key and jump
host there when its entry is reached, is afterwards live on `D` as the row of `S`, in a folder with
the sender's path less its empty segments. -/
theorem rowOf_merged (E : Env Text) (now : Int64) (D S : Db Text) (w : Pushed) (i : String) (a : SessionParent Text)
    (hi : i ≠ "") (h : S.sessions.get i = some a) (hlive : a.deletedAt = none) (hssh : a.kind = Sessions.kindSsh)
    (hupdated : Stable a.updatedAt) (hcreated : Stable a.createdAt) (hwins : Wins D i a)
    (hrefs : RefsArrive D S (i, a)) :
    ∃ p, (merged E now D S w).sessions.get i = some p ∧ p.deletedAt = none ∧
      rowOf (merged E now D S w) (i, p) = cameOver E.json (D.sessions.get i) p.folderId (rowOf S (i, a)) ∧
      folderPathOf (merged E now D S w) p.folderId = "/".intercalate (Folders.segments (folderPathOf S a.folderId)) := by
  have hst : StoredAs E now D S w (i, a) := storedAs_merged hi h hlive hupdated hwins
  have hkind : kindMember (rowOf S (i, a)) = "" := by
    exact if_neg fun hne => hne hssh
  refine ⟨_, hst.parent, rfl, ?_, folderPathOf_arriving ((mem_sortedSessions S (i, a)).2 h)⟩
  unfold rowOf
  rw [hst.resolved hkind hrefs]
  exact rowFrom_arriving hssh hupdated hcreated (D.sessions.get i)

end

def notedDevice : Db ParsedText :=
  { sampleDevice none with
    sessions := Table.empty.set "s" { sampleParent none with notes := "root password in the safe" } }

theorem rowOf_merged_noted :
    ∃ p, (merged plainEnv 40 Db.empty notedDevice samplePush).sessions.get "s" = some p ∧ p.deletedAt = none ∧
      rowOf (merged plainEnv 40 Db.empty notedDevice samplePush) ("s", p) = cameOver plainEnv.json none p.folderId
          (rowOf notedDevice ("s", { sampleParent none with notes := "root password in the safe" })) ∧
      folderPathOf (merged plainEnv 40 Db.empty notedDevice samplePush) p.folderId =
        "/".intercalate (Folders.segments (folderPathOf notedDevice none)) :=
  rowOf_merged plainEnv 40 Db.empty notedDevice samplePush "s" _ (by decide) rfl rfl rfl
    (by show Stable 10; decide +kernel) (by show Stable 5; decide +kernel) (by rintro q ⟨⟩)
    ⟨by rintro k ⟨⟩, by rintro x ⟨⟩⟩

/-- A session that is new to a device arrives without its note. -/
theorem notes_stay_behind : (notedDevice.sessions.get "s").map SessionParent.notes = some "root password in the safe" ∧
      ((merged plainEnv 40 Db.empty notedDevice samplePush).sessions.get "s").map SessionParent.notes = some "" :=
  ⟨rfl, by decide +kernel⟩

end LetsFlutSsh.Archive
