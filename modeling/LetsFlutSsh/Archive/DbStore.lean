import LetsFlutSsh.Db.FolderOps
import LetsFlutSsh.Archive.Driver

/-!
# The driver over the database

* `dbStore`: the database as a store, with the access functions of its tables;
* `plain`: a run without the counters of the tables the database leaves out;
* `runDriver_dbStore`: over the database the driver is `runApply`.
-/

namespace LetsFlutSsh.Archive
open Lib

variable {Text : Type}

def markDeleted {α : Type} (now : Int64) (s : Stored α) : Stored α :=
  if s.deletedAt.isNone then { s with deletedAt := some now } else s

/-- `delete_all` of a table: live rows of sessions, tags and snippets are marked deleted, folders go.
The tables that `Db` leaves out have nothing to clear. -/
def clearTable (now : Int64) (db : Db Text) : Cleared → Db Text
  | .sessions =>
    { db with sessions := db.sessions.map fun p => if p.deletedAt.isNone then { p with deletedAt := some now } else p }
  | .folders => Folders.dropFolders db fun _ => true
  | .tags => { db with tags := db.tags.map (markDeleted now) }
  | .snippets => { db with snippets := db.snippets.map (markDeleted now) }
  | _ => db

def statement (f : Db Text → Except String (Db Text)) : Call (Db Text) Unit := fun db =>
  match f db with
  | .ok db' => (db', .ok ())
  | .error e => (db, .error e)

def always (f : Db Text → Db Text) : Call (Db Text) Unit := fun db => (f db, .ok ())

/-- The database as a store. Rows of the tables it leaves out are taken without effect. -/
def dbStore (E : Env Text) (now : Int64) : Store (Db Text) Text where
  clear t := always fun db => clearTable now db t
  listFingerprints db := (db, .ok (knownFingerprints E db))
  upsertKey row := always fun db => SshKeys.upsert db row
  mint db := E.mint db.folders.keys
  upsertFolder id row := statement fun db => Folders.upsert db id row
  upsertSession row db := Sessions.upsert db row
  upsertTag row := statement fun db => Tags.upsert db row
  linkSessionTag a b := statement fun db => Tags.linkSessionTag db a b
  linkFolderTag a b := statement fun db => Tags.linkFolderTag db a b
  upsertSnippet row := always fun db => Snippets.upsert db row
  linkSessionSnippet a b := statement fun db => Snippets.linkSessionSnippet db a b
  upsertKnownHost _ := always id
  listKeyIds db := (db, .ok ((db.sshKeys.rows.filter fun e => e.2.deletedAt.isNone).map Prod.fst))
  listSessionIds db := (db, .ok ((db.sessions.rows.filter fun e => e.2.deletedAt.isNone).map Prod.fst))
  upsertCertificate _ := always id
  upsertWebdav _ := always id
  upsertS3 _ := always id
  upsertBookmark _ := always id
  upsertPortForward _ := always id

/-- A run as `runApply` sees it. -/
def plain (s : Running (Db Text)) : Applying Text := (s.1, s.2.toApplyOutcome)

section Stages

variable (E : Env Text) (now : Int64) (mode : ApplyMode)

theorem plain_foldl {ι : Type} {f : ι → Running (Db Text) → Running (Db Text)} {g : ι → Applying Text → Applying Text}
    (hfg : ∀ a s, plain (f a s) = g a (plain s)) (l : List ι) (s : Running (Db Text)) :
    plain (l.foldl (fun s a => f a s) s) = l.foldl (fun s a => g a s) (plain s) := by
  induction l generalizing s with
  | nil => rfl
  | cons a l ih =>
    rw [List.foldl_cons, List.foldl_cons, ih, hfg]

theorem plain_overRows (J : JsonText Text) (want : Bool) (what : String) (entry : Option Text)
    {f : List Json → Running (Db Text) → Running (Db Text)} {g : List Json → Applying Text → Applying Text}
    (hfg : ∀ items s, plain (f items s) = g items (plain s)) (s : Running (Db Text)) :
    plain (overRows J want what entry f s) = overEntry J want what entry g (plain s) := by
  unfold overRows overEntry overArray
  split_ifs
  · rcases entry with _ | text
    · rfl
    · dsimp only [Option.elim_some]
      rcases parseArray J text with e | items
      · rfl
      · exact hfg items s
  · rfl

theorem plain_driveKeys (items : List Json) (s : Running (Db Text)) (hmode : mode.isSync = false) :
    plain (driveKeys (dbStore E now) E now items s) = applyKeyItems E mode now items (plain s) := by
  have hfilter : (knownFingerprints E s.1).filter (· ≠ "") = knownFingerprints E s.1 := by
    unfold knownFingerprints
    rw [List.filter_filter]
    simp only [Bool.and_self]
  have hkey : ∀ known v s, plain (driveKey (dbStore E now) E now known v s) =
      applyOneKeyArchive E known now v (plain s) := by
    intro known v s
    unfold driveKey applyOneKeyArchive
    dsimp only
    split_ifs
    · rfl
    · rfl
    · rfl
  unfold applyKeyItems driveKeys withList
  rw [hmode, if_neg Bool.false_ne_true]
  show plain (items.foldl (fun t v => driveKey (dbStore E now) E now ((knownFingerprints E s.1).filter (· ≠ "")) v t) s) =
    items.foldl (fun t v => applyOneKeyArchive E (knownFingerprints E s.1) now v t) (plain s)
  rw [hfilter]
  exact plain_foldl (hkey (knownFingerprints E s.1)) items s

/-- The folder stage as `runApply` sees it. -/
def plainPlacing (m : Placing (Db Text)) : Materialising Text := ⟨m.pathToId, m.sortOrder, plain m.state⟩

theorem upsert_label (a e : String) : a ++ " upsert" ++ ": " ++ e = a ++ " upsert: " ++ e := by
  have hjoin : " upsert" ++ ": " = " upsert: " := by decide
  calc a ++ " upsert" ++ ": " ++ e = a ++ (" upsert" ++ ": ") ++ e := by simp only [String.append_assoc]
    _ = a ++ " upsert: " ++ e := by rw [hjoin]

theorem plain_driveSegments (errLabel : String) (segs : List String) (accum : String) (parent : Option String)
    (m : Placing (Db Text)) :
    plainPlacing (driveSegments (dbStore E now) now errLabel segs accum parent m) =
      materialiseSegments E now errLabel segs accum parent (plainPlacing m) := by
  induction segs generalizing accum parent m with
  | nil => rfl
  | cons seg segs ih =>
    unfold driveSegments materialiseSegments
    dsimp only
    generalize (if accum = "" then seg else accum ++ "/" ++ seg) = accum'
    have hpaths : (plainPlacing m).pathToId = m.pathToId := rfl
    rw [hpaths]
    rcases m.pathToId.lookup accum' with _ | existing
    · have hcall : (dbStore E now).upsertFolder ((dbStore E now).mint m.state.1) ⟨seg, parent, m.sortOrder, false, now⟩ m.state.1 =
          statement (fun db => Folders.upsert db (E.mint m.state.1.folders.keys) ⟨seg, parent, m.sortOrder, false, now⟩)
            m.state.1 := rfl
      have hplain : Folders.upsert (plainPlacing m).state.1 (E.mint (plainPlacing m).state.1.folders.keys)
            ⟨seg, parent, (plainPlacing m).sortOrder, false, now⟩ =
          Folders.upsert m.state.1 (E.mint m.state.1.folders.keys) ⟨seg, parent, m.sortOrder, false, now⟩ := rfl
      simp only [hcall, hplain]
      unfold statement
      dsimp only
      rcases Folders.upsert m.state.1 (E.mint m.state.1.folders.keys) ⟨seg, parent, m.sortOrder, false, now⟩ with e | db
      · rw [ih, upsert_label]
        rfl
      · exact ih _ _ _
    · exact ih _ _ _

theorem plain_placeAll {f : String → Placing (Db Text) → Placing (Db Text)}
    {g : String → Materialising Text → Materialising Text}
    (hfg : ∀ path m, plainPlacing (f path m) = g path (plainPlacing m)) (paths : List String) (m : Placing (Db Text)) :
    plainPlacing (paths.foldl (fun m path => f path m) m) = paths.foldl (fun m path => g path m) (plainPlacing m) := by
  induction paths generalizing m with
  | nil => rfl
  | cons path paths ih =>
    rw [List.foldl_cons, List.foldl_cons, ih, hfg]

theorem plain_driveSession (b : Bool) (folderIds : List (String × String)) (live : String → Option Int64) (v : Json)
    (s : Running (Db Text)) :
    plain (driveSession (dbStore E now) E now (.archiveImport b) folderIds v s) =
      applyOneSession E.json (.archiveImport b) folderIds live now v (plain s) := by
  unfold driveSession applyOneSession
  simp only [ApplyMode.isSync, ApplyMode.isArchive, Bool.false_and, Bool.false_eq_true, if_false, if_true]
  split_ifs
  · rfl
  · rfl
  · have hcall : (dbStore E now).upsertSession (buildSessionRow E.json (.archiveImport b) folderIds now v) s.1 =
        Sessions.upsert (plain s).1 (buildSessionRow E.json (.archiveImport b) folderIds now v) := rfl
    unfold attempt
    rw [hcall]
    rcases Sessions.upsert (plain s).1 (buildSessionRow E.json (.archiveImport b) folderIds now v) with ⟨db, e | _⟩
    · dsimp only
      rw [upsert_label]
      rfl
    · rfl

/-- The folder map of a stage and the run as `runApply` sees it. -/
def plainMapped (r : List (String × String) × Running (Db Text)) : List (String × String) × Applying Text :=
  (r.1, plain r.2)

theorem plain_driveSessionsJson (b : Bool) (text : Text) (s : Running (Db Text)) :
    plainMapped (driveSessionsJson (dbStore E now) E now (.archiveImport b) text s) =
      applySessionsJson E (.archiveImport b) now text (plain s) := by
  unfold driveSessionsJson applySessionsJson
  rcases parseArray E.json text with e | items
  · rfl
  have htree : plainPlacing ((folderPaths items).foldl
        (fun m path => driveFolderPath (dbStore E now) now "folder" path m) ⟨[], 0, s⟩) =
      (folderPaths items).foldl (fun m path => materialiseFolderPath E now "folder" path m) ⟨[], 0, plain s⟩ :=
    plain_placeAll (fun path m => plain_driveSegments E now "folder" (Folders.segments path) "" none m) _ _
  unfold driveFolderTree applyFolderTree applySessionItems plainMapped
  simp only [ApplyMode.isSync, Bool.false_eq_true, if_false]
  rw [← htree]
  refine Prod.ext rfl ?_
  exact plain_foldl (plain_driveSession E now b _ _) items _

theorem plain_driveEmptyFolders (paths : List String) (r : List (String × String) × Running (Db Text)) :
    plainMapped (driveEmptyFolders (dbStore E now) now paths r.1 r.2) =
      applyEmptyFolders E now paths (plainMapped r).1 (plainMapped r).2 := by
  have hstep : ∀ path (m : Placing (Db Text)), plainPlacing (if path = "" ∨ (m.pathToId.lookup path).isSome then m
        else driveFolderPath (dbStore E now) now "empty_folder" path m) =
      if path = "" ∨ ((plainPlacing m).pathToId.lookup path).isSome then plainPlacing m
        else materialiseFolderPath E now "empty_folder" path (plainPlacing m) := by
    intro path m
    have hpaths : (plainPlacing m).pathToId = m.pathToId := rfl
    rw [hpaths]
    split_ifs
    · rfl
    · exact plain_driveSegments E now "empty_folder" (Folders.segments path) "" none m
  have hall := plain_placeAll (f := fun path m => if path = "" ∨ (m.pathToId.lookup path).isSome then m
      else driveFolderPath (dbStore E now) now "empty_folder" path m)
    (g := fun path m => if path = "" ∨ (m.pathToId.lookup path).isSome then m
      else materialiseFolderPath E now "empty_folder" path m) hstep paths ⟨r.1, Int64.ofNat r.1.length, r.2⟩
  exact congrArg (fun m : Materialising Text => (m.pathToId, m.state)) hall

theorem plain_driveSessionsPhase (b want : Bool) (p : PendingImport Text) (s : Running (Db Text)) :
    plainMapped (driveSessionsPhase (dbStore E now) E now (.archiveImport b) want p s) =
      applySessionsPhase E (.archiveImport b) now want p (plain s) := by
  have hsessions : plainMapped (p.sessionsJson.elim ([], s) fun text =>
        driveSessionsJson (dbStore E now) E now (.archiveImport b) text s) =
      p.sessionsJson.elim ([], plain s) fun text => applySessionsJson E (.archiveImport b) now text (plain s) := by
    rcases p.sessionsJson with _ | text
    · rfl
    · exact plain_driveSessionsJson E now b text s
  unfold driveSessionsPhase applySessionsPhase
  rcases want with _ | _
  · rfl
  rw [← hsessions]
  rcases p.emptyFoldersJson with _ | text
  · rfl
  · dsimp only [Option.elim_some]
    rcases parseStrings E.json text with e | paths
    · rfl
    · exact plain_driveEmptyFolders E now paths _

theorem plain_driveTag (b : Bool) (live : String → Option Int64) (v : Json) (s : Running (Db Text)) :
    plain (driveTag (dbStore E now) now v s) = applyOneTag (.archiveImport b) live now v (plain s) := by
  unfold driveTag applyOneTag
  simp only [ApplyMode.isSync, Bool.false_and, Bool.false_eq_true, if_false]
  split_ifs
  · rfl
  · rfl
  · have hcall : (dbStore E now).upsertTag ⟨jsonString v "id", jsonString v "name", jsonNonEmpty v "color",
          parseIso8601OrNow (jsonString v "created_at") now⟩ =
        statement (fun db => Tags.upsert db ⟨jsonString v "id", jsonString v "name", jsonNonEmpty v "color",
          (parseIso8601Opt (jsonString v "created_at")).getD now⟩) := rfl
    have hstate : (plain s).1 = s.1 := rfl
    unfold attempt
    rw [hcall, hstate]
    unfold statement
    dsimp only
    rcases Tags.upsert s.1 ⟨jsonString v "id", jsonString v "name", jsonNonEmpty v "color",
      (parseIso8601Opt (jsonString v "created_at")).getD now⟩ with e | db
    · dsimp only
      rw [upsert_label]
      rfl
    · rfl

theorem plain_driveSnippet (b : Bool) (live : String → Option Int64) (v : Json) (s : Running (Db Text)) :
    plain (driveSnippet (dbStore E now) now v s) = applyOneSnippet (.archiveImport b) live now v (plain s) := by
  unfold driveSnippet applyOneSnippet
  simp only [ApplyMode.isSync, ApplyMode.isArchive, Bool.false_and, Bool.true_and, Bool.false_eq_true, if_false,
    decide_eq_true_eq]
  split_ifs
  · rfl
  · rfl
  · rfl
  · rfl

theorem plain_attemptLink (f : Db Text → Except String (Db Text)) (label : String)
    {count : DriverOutcome → DriverOutcome} {count' : ApplyOutcome → ApplyOutcome}
    (hcount : ∀ o, (count o).toApplyOutcome = count' o.toApplyOutcome) (s : Running (Db Text)) :
    plain (attemptLink (statement f) label count s) = applyLink (f s.1) count' label (plain s) := by
  unfold attemptLink applyLink statement
  rcases f s.1 with e | db
  · rfl
  · exact Prod.ext rfl (hcount s.2)

theorem plain_driveSessionTag (v : Json) (s : Running (Db Text)) :
    plain (driveSessionTag (dbStore E now) v s) = applySessionTag v (plain s) := by
  unfold driveSessionTag applySessionTag
  dsimp only
  split_ifs
  · rfl
  · exact plain_attemptLink _ _ (fun _ => rfl) s

theorem plain_driveFolderTag (pathToId : List (String × String)) (v : Json) (s : Running (Db Text)) :
    plain (driveFolderTag (dbStore E now) pathToId v s) = applyFolderTag pathToId v (plain s) := by
  unfold driveFolderTag applyFolderTag
  dsimp only
  split_ifs
  · rfl
  · rcases pathToId.lookup (jsonString v "folder_path") with _ | folderId
    · rfl
    · exact plain_attemptLink _ _ (fun _ => rfl) s

theorem plain_driveSessionSnippet (v : Json) (s : Running (Db Text)) :
    plain (driveSessionSnippet (dbStore E now) v s) = applySessionSnippet v (plain s) := by
  unfold driveSessionSnippet applySessionSnippet
  dsimp only
  split_ifs
  · rfl
  · exact plain_attemptLink _ _ (fun _ => rfl) s

end Stages

/-- An archive whose entries are all for tables the database has. -/
structure FullImport.Plain (p : FullImport Text) : Prop where
  knownHosts : p.knownHostsText = none
  certificates : p.sshKeyCertificatesJson = none
  webdav : p.webdavSessionDetailsJson = none
  s3 : p.s3SessionDetailsJson = none
  bookmarks : p.sftpBookmarksJson = none
  portForwards : p.portForwardRulesJson = none

theorem overChildren_none {σ : Type} (E : DriverEnv Text) (want : Bool) (what parents : String)
    (list : Call σ (List String)) (row : List String → Json → Running σ → Running σ) (s : Running σ) :
    overChildren E want what parents list none row s = s := by
  rcases want with _ | _
  · rfl
  · rfl

theorem runDriver_dbStore (E : DriverEnv Text) (now : Int64) (options : DriverOptions) (p : FullImport Text) (hp : p.Plain)
    (b : Bool) (s : Running (Db Text)) :
    plain (runDriver (dbStore E.toEnv now) E now options p (.archiveImport b) s) =
      runApply E.toEnv (.archiveImport b) (some options.toApplyOptions) now p.toPendingImport (plain s) := by
  have hknown : ∀ t : Running (Db Text), (if options.applyKnownHosts then
      p.knownHostsText.elim t fun text => driveKnownHosts (dbStore E.toEnv now) E.validBase64 text t else t) = t := by
    intro t
    rw [hp.knownHosts]
    exact ite_self t
  have hchildren : ∀ t, driveChildTables (dbStore E.toEnv now) E now options p t = t := by
    intro t
    unfold driveChildTables
    rw [hp.certificates, hp.webdav, hp.s3, hp.bookmarks, hp.portForwards]
    simp only [overChildren_none]
  have hkeys := plain_overRows E.json options.applyKeys "keys" p.keysJson
    (fun items s => plain_driveKeys E.toEnv now (.archiveImport b) items s rfl) s
  have hsessions := plain_driveSessionsPhase E.toEnv now b options.applySessions p.toPendingImport
    (overRows E.json options.applyKeys "keys" p.keysJson (driveKeys (dbStore E.toEnv now) E.toEnv now) s)
  rw [hkeys] at hsessions
  have hmap := congrArg Prod.fst hsessions
  have hrun := congrArg Prod.snd hsessions
  dsimp only [plainMapped] at hmap hrun
  unfold runDriver runApply
  rw [hchildren, hknown]
  unfold driveSnippetsPhase driveTagsPhase
  rw [plain_overRows (g := fun items s => items.foldl (fun s v => applySessionSnippet v s) s) E.json _ _ _
      fun items s => plain_foldl (plain_driveSessionSnippet E.toEnv now) items s,
    plain_overRows (g := applySnippetItems (.archiveImport b) now) E.json _ _ _
      fun items s => plain_foldl (plain_driveSnippet E.toEnv now b fun _ => none) items s,
    plain_overRows (g := fun items s => items.foldl (fun s v => applyFolderTag _ v s) s) E.json _ _ _
      fun items s => plain_foldl (plain_driveFolderTag E.toEnv now _) items s,
    plain_overRows (g := fun items s => items.foldl (fun s v => applySessionTag v s) s) E.json _ _ _
      fun items s => plain_foldl (plain_driveSessionTag E.toEnv now) items s,
    plain_overRows (g := applyTagItems (.archiveImport b) now) E.json _ _ _
      fun items s => plain_foldl (plain_driveTag E.toEnv now b fun _ => none) items s,
    hmap, hrun]
  rfl

end LetsFlutSsh.Archive
