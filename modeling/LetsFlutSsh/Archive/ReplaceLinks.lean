import LetsFlutSsh.Archive.CleanImport
import LetsFlutSsh.Archive.Replace

/-!
# Links after a replace import

* `LinksReplaced`: the live links are the ones the archive lists;
* `LinksFit`: no old link comes back unlisted, and every listed one has live ends;
* `linksReplaced_iff`: and exactly then a committed replace import leaves the listed links.
-/

namespace LetsFlutSsh.Archive
open Lib Option

variable {Text : Type}

/-! ## The run over the database -/

/-- The tables after `run_replace_clear`. -/
def cleared (now : Int64) (options : DriverOptions) (db : Db Text) : Db Text :=
  (clearedTables options).foldl (clearTable now) db

theorem runReplaceClear_dbStore (E : Env Text) (now : Int64) (options : DriverOptions) (db : Db Text) (o : DriverOutcome) :
    runReplaceClear (dbStore E now) options (db, o) = (cleared now options db, o) := by
  have hall : ∀ (l : List Cleared) (db : Db Text),
      l.foldl (fun s t => attempt ((dbStore E now).clear t) ("replace clear " ++ t.label) (fun o => o) s) (db, o) =
        (l.foldl (clearTable now) db, o) := by
    intro l
    induction l with
    | nil => exact fun _ => rfl
    | cons t l ih => exact fun db => ih (clearTable now db t)
  exact hall (clearedTables options) db

def LeavesDb (f : Running (Db Text) → Running (Db Text)) : Prop := ∀ s, (f s).1 = s.1

theorem LeavesDb.foldl {ι : Type} {f : ι → Running (Db Text) → Running (Db Text)} (hf : ∀ a, LeavesDb (f a)) (l : List ι) :
    LeavesDb fun s => l.foldl (fun s a => f a s) s :=
  fun s => foldl_fixes (f := fun s a => f a s) Prod.fst (fun s a _ => hf a s) s

section Plain

variable (E : DriverEnv Text) (now : Int64) (options : DriverOptions) (p : FullImport Text)

theorem leavesDb_driveKnownHost (line : List Char) :
    LeavesDb (driveKnownHost (dbStore E.toEnv now) E.validBase64 line) := by
  intro s
  unfold driveKnownHost
  dsimp only
  split_ifs
  · rfl
  · split
    · split
      · split_ifs <;> rfl
      · rfl
    · rfl

theorem leavesDb_overChildren (want : Bool) (what parents : String) {list : Call (Db Text) (List String)}
    (hlist : ∀ db, (list db).1 = db) (entry : Option Text)
    {row : List String → Json → Running (Db Text) → Running (Db Text)} (hrow : ∀ live v, LeavesDb (row live v)) :
    LeavesDb (overChildren E want what parents list entry row) := by
  intro s
  unfold overChildren overRows
  split_ifs
  · rcases entry with _ | text
    · rfl
    dsimp only [elim_some]
    split
    · rfl
    unfold withList
    have hsame := hlist s.1
    rcases hcall : list s.1 with ⟨db, e | live⟩
    · rw [hcall] at hsame
      exact hsame
    · rw [hcall] at hsame
      exact (LeavesDb.foldl (hrow live) _ (db, s.2)).trans hsame
  · rfl

theorem leavesDb_driveChild {live : List String} {incomplete : Bool} {parent absent : String} {f : Db Text → Db Text}
    (hf : ∀ db, f db = db) {label : String} {count : DriverOutcome → DriverOutcome} {v : Json} :
    LeavesDb (driveChild live incomplete parent absent (always f) label count v) := by
  intro s
  unfold driveChild
  split_ifs
  · rfl
  · rfl
  · exact hf s.1
  · rfl

theorem leavesDb_driveChildTables : LeavesDb (driveChildTables (dbStore E.toEnv now) E now options p) := by
  intro s
  have hcertificate : ∀ live v, LeavesDb (driveCertificate (dbStore E.toEnv now) E.fromText live v) := by
    intro live v s
    unfold driveCertificate
    dsimp only
    split_ifs <;> rfl
  have hkeys : ∀ db : Db Text, ((dbStore E.toEnv now).listKeyIds db).1 = db := fun _ => rfl
  have hsessions : ∀ db : Db Text, ((dbStore E.toEnv now).listSessionIds db).1 = db := fun _ => rfl
  have hwebdav : ∀ live v, LeavesDb (driveWebdav (dbStore E.toEnv now) live v) :=
    fun live v => leavesDb_driveChild (f := id) fun _ => rfl
  have hs3 : ∀ live v, LeavesDb (driveS3 (dbStore E.toEnv now) live v) :=
    fun live v => leavesDb_driveChild (f := id) fun _ => rfl
  have hbookmark : ∀ live v, LeavesDb (driveBookmark (dbStore E.toEnv now) now live v) :=
    fun live v => leavesDb_driveChild (f := id) fun _ => rfl
  have hforward : ∀ live v, LeavesDb (drivePortForward (dbStore E.toEnv now) now live v) :=
    fun live v => leavesDb_driveChild (f := id) fun _ => rfl
  unfold driveChildTables
  refine (leavesDb_overChildren E _ _ _ hsessions _ hforward _).trans ?_
  refine (leavesDb_overChildren E _ _ _ hsessions _ hbookmark _).trans ?_
  refine (leavesDb_overChildren E _ _ _ hsessions _ hs3 _).trans ?_
  refine (leavesDb_overChildren E _ _ _ hsessions _ hwebdav _).trans ?_
  exact leavesDb_overChildren E _ _ _ hkeys _ hcertificate _

def driveHosts (s : Running (Db Text)) : Running (Db Text) :=
  if options.applyKnownHosts then
    p.knownHostsText.elim s fun text => driveKnownHosts (dbStore E.toEnv now) E.validBase64 text s
  else s

theorem leavesDb_driveHosts : LeavesDb (driveHosts E now options p) := by
  intro s
  unfold driveHosts
  split_ifs
  · rcases p.knownHostsText with _ | text
    · rfl
    · exact LeavesDb.foldl (leavesDb_driveKnownHost E now) _ s
  · rfl

def FullImport.core (p : FullImport Text) : FullImport Text := { toPendingImport := p.toPendingImport }

theorem core_plain : p.core.Plain := ⟨rfl, rfl, rfl, rfl, rfl, rfl⟩

theorem runDriver_core (mode : ApplyMode) (s : Running (Db Text)) : runDriver (dbStore E.toEnv now) E now options p mode s =
    driveChildTables (dbStore E.toEnv now) E now options p
      (driveHosts E now options p (runDriver (dbStore E.toEnv now) E now options p.core mode s)) := by
  have hchildren : ∀ t, driveChildTables (dbStore E.toEnv now) E now options p.core t = t := by
    intro t
    unfold driveChildTables FullImport.core
    simp only [overChildren_none]
  have hhosts : ∀ t, driveHosts E now options p.core t = t := fun t => ite_self t
  conv_rhs => rw [runDriver]
  rw [hchildren]
  show _ = driveChildTables _ _ _ _ _ (driveHosts E now options p (driveHosts E now options p.core _))
  rw [hhosts]
  rfl

theorem replaceRun_dbStore (db : Db Text) : (replaceRun (dbStore E.toEnv now) E now options p db).1 =
      (runApply E.toEnv (.archiveImport true) (some options.toApplyOptions) now p.toPendingImport
        (cleared now options db, {})).1 ∧
    ((replaceRun (dbStore E.toEnv now) E now options p db).2.errors = [] →
      (runApply E.toEnv (.archiveImport true) (some options.toApplyOptions) now p.toPendingImport
        (cleared now options db, {})).2.errors = []) := by
  have hrun := runDriver_dbStore E now options p.core (core_plain p) true (cleared now options db, ({} : DriverOutcome))
  unfold replaceRun
  rw [runReplaceClear_dbStore, runDriver_core]
  refine ⟨?_, fun hnil => ?_⟩
  · rw [leavesDb_driveChildTables, leavesDb_driveHosts]
    exact congrArg Prod.fst hrun
  have hhosts := (shadows_driveChildTables (dbStore E.toEnv now) E now options p).clean hnil
  have hcore : (runDriver (dbStore E.toEnv now) E now options p.core (.archiveImport true)
      (cleared now options db, {})).2.errors = [] := by
    unfold driveHosts at hhosts
    split_ifs at hhosts
    · rcases htext : p.knownHostsText with _ | text
      · rwa [htext] at hhosts
      · rw [htext] at hhosts
        exact (shadows_driveKnownHosts (dbStore E.toEnv now) E.validBase64 text).clean hhosts
    · exact hhosts
  exact (congrArg (fun s : Applying Text => s.2.errors) hrun).symm.trans hcore

end Plain

/-! ## Cleared rows -/

section Cleared

variable (now : Int64) (options : DriverOptions) (db : Db Text) (id : String)

theorem any_markDeleted {α : Type} (old : Option (Stored α)) :
    (old.map (markDeleted now)).any (fun s => s.deletedAt.isNone) = false := by
  rcases old with _ | s
  · rfl
  · rcases hd : s.deletedAt with _ | d <;> simp [markDeleted, hd]

theorem live_foldl_clearTable (x : Cleared) (live : Db Text → Bool)
    (hx : ∀ db, live (clearTable now db x) = false) (hother : ∀ t, t ≠ x → ∀ db, live (clearTable now db t) = live db)
    (l : List Cleared) : live (l.foldl (clearTable now) db) = (!decide (x ∈ l) && live db) := by
  induction l generalizing db with
  | nil => simp
  | cons t l ih =>
    rw [List.foldl_cons, ih]
    by_cases ht : t = x
    · rw [ht, hx]
      simp
    · rw [hother t ht]
      simp [Ne.symm ht]

theorem mem_clearedTables : (.sessions ∈ clearedTables options ↔ options.applySessions = true) ∧
    (.tags ∈ clearedTables options ↔ options.applyTags = true) ∧
    (.snippets ∈ clearedTables options ↔ options.applySnippets = true) := by
  unfold clearedTables
  rcases options.applySessions with _ | _ <;> rcases options.applyTags with _ | _ <;>
    rcases options.applySnippets with _ | _ <;> rcases options.applyKnownHosts with _ | _ <;> decide

theorem liveSession_cleared : liveSession (cleared now options db) id = (!options.applySessions && liveSession db id) := by
  have hfold := live_foldl_clearTable now db .sessions (fun db => liveSession db id) (fun db => ?_)
    (fun t ht db => ?_) (clearedTables options)
  · unfold cleared
    rw [hfold]
    simp [(mem_clearedTables options).1]
  · unfold liveSession clearTable
    rcases hget : db.sessions.get id with _ | p
    · simp [hget]
    · rcases hd : p.deletedAt with _ | d <;> simp [hget, hd]
  · cases t
    case sessions => exact absurd rfl ht
    case folders =>
      unfold liveSession clearTable Folders.dropFolders
      rcases hget : db.sessions.get id with _ | p <;> simp [hget]
    all_goals rfl

theorem liveTag_cleared : liveTag (cleared now options db) id = (!options.applyTags && liveTag db id) := by
  have hfold := live_foldl_clearTable now db .tags (fun db => liveTag db id) (fun db => ?_)
    (fun t ht db => ?_) (clearedTables options)
  · unfold cleared
    rw [hfold]
    simp [(mem_clearedTables options).2.1]
  · unfold liveTag clearTable
    rw [Table.get_map, any_markDeleted]
  · cases t
    case tags => exact absurd rfl ht
    all_goals rfl

theorem liveSnippet_cleared : liveSnippet (cleared now options db) id = (!options.applySnippets && liveSnippet db id) := by
  have hfold := live_foldl_clearTable now db .snippets (fun db => liveSnippet db id) (fun db => ?_)
    (fun t ht db => ?_) (clearedTables options)
  · unfold cleared
    rw [hfold]
    simp [(mem_clearedTables options).2.2]
  · unfold liveSnippet clearTable
    rw [Table.get_map, any_markDeleted]
  · cases t
    case snippets => exact absurd rfl ht
    all_goals rfl

theorem links_cleared :
    (cleared now options db).sessionTags = db.sessionTags ∧ (cleared now options db).sessionSnippets = db.sessionSnippets := by
  have hstep : ∀ (t : Cleared) (db : Db Text),
      (clearTable now db t).sessionTags = db.sessionTags ∧ (clearTable now db t).sessionSnippets = db.sessionSnippets := by
    intro t db
    cases t <;> exact ⟨rfl, rfl⟩
  constructor
  · exact foldl_fixes Db.sessionTags (fun db t _ => (hstep t db).1) db
  · exact foldl_fixes Db.sessionSnippets (fun db t _ => (hstep t db).2) db

end Cleared

/-! ## Live and listed links -/

def liveSessionTags (db : Db Text) : List (String × String) :=
  db.sessionTags.filter fun l => liveSession db l.1 && liveTag db l.2

def liveSessionSnippets (db : Db Text) : List (String × String) :=
  db.sessionSnippets.filter fun l => liveSession db l.1 && liveSnippet db l.2

def listedSessionTags (J : JsonText Text) (p : PendingImport Text) : List (String × String) :=
  (itemsOf J p.sessionTagsJson).filterMap (linkEnds "session_id" "tag_id")

def listedSessionSnippets (J : JsonText Text) (p : PendingImport Text) : List (String × String) :=
  (itemsOf J p.sessionSnippetsJson).filterMap (linkEnds "session_id" "snippet_id")

structure LinksReplaced (J : JsonText Text) (p : PendingImport Text) (db : Db Text) : Prop where
  sessionTags : ∀ l, l ∈ liveSessionTags db ↔ l ∈ listedSessionTags J p
  sessionSnippets : ∀ l, l ∈ liveSessionSnippets db ↔ l ∈ listedSessionSnippets J p

/-- A row that a replace import leaves live: the archive brings it, or its kind is not chosen. -/
def KeptLive (chosen : Bool) (live : String → Bool) (entries : List Json) (lands : String → Json → Prop) (id : String) :
    Prop := (chosen = false ∧ live id = true) ∨ ∃ v ∈ entries, lands id v

/-- Links whose ends satisfy `first` and `second` when the import is done: none of the old ones is
missing from the list, and the listed ones have their ends and are taken in. -/
structure LinksFit (chosen : Bool) (old listed : List (String × String)) (first second : String → Prop) : Prop where
  stale : ∀ l ∈ old, first l.1 → second l.2 → l ∈ listed
  kept : ∀ l ∈ listed, first l.1 ∧ second l.2
  imported : ∀ l ∈ listed, chosen = true ∨ l ∈ old

theorem linksFit_iff {chosen : Bool} {old listed : List (String × String)} {first second : String → Prop} :
    (∀ l, ((l ∈ old ∨ chosen = true ∧ l ∈ listed) ∧ first l.1 ∧ second l.2) ↔ l ∈ listed) ↔
      LinksFit chosen old listed first second := by
  constructor
  · intro h
    refine ⟨fun l hold hfirst hsecond => (h l).1 ⟨.inl hold, hfirst, hsecond⟩, fun l hl => ((h l).2 hl).2, fun l hl => ?_⟩
    exact ((h l).2 hl).1.symm.imp_left And.left
  intro h l
  constructor
  · rintro ⟨hold | hlisted, hfirst, hsecond⟩
    · exact h.stale l hold hfirst hsecond
    · exact hlisted.2
  · intro hl
    exact ⟨(h.imported l hl).symm.imp_right fun hchosen => ⟨hchosen, hl⟩, h.kept l hl⟩

section Replace

variable (E : DriverEnv Text) (now : Int64) (options : DriverOptions) (p : FullImport Text)

def keptSession (J : JsonText Text) (options : DriverOptions) (p : PendingImport Text) (db : Db Text) : String → Prop :=
  KeptLive options.applySessions (liveSession db) (taken J options.applySessions p.sessionsJson) landsSession

def keptTag (J : JsonText Text) (options : DriverOptions) (p : PendingImport Text) (db : Db Text) : String → Prop :=
  KeptLive options.applyTags (liveTag db) (taken J options.applyTags p.tagsJson) landsTag

def keptSnippet (J : JsonText Text) (options : DriverOptions) (p : PendingImport Text) (db : Db Text) : String → Prop :=
  KeptLive options.applySnippets (liveSnippet db) (taken J options.applySnippets p.snippetsJson) landsSnippet

/-- What an archive and a database need for a replace import to leave the listed links: the links
of rows that stay live or come back are listed, and the listed ones can be taken in. -/
structure LinksSettled (J : JsonText Text) (options : DriverOptions) (p : PendingImport Text) (db : Db Text) : Prop where
  sessionTags : LinksFit (options.applySessions && options.applyTags) db.sessionTags (listedSessionTags J p)
    (keptSession J options p db) (keptTag J options p db)
  sessionSnippets : LinksFit (options.applySessions && options.applySnippets) db.sessionSnippets
    (listedSessionSnippets J p) (keptSession J options p db) (keptSnippet J options p db)

theorem filter_live_iff {J : JsonText Text} {chosen : Bool} {entry : Option Text} {ends : Json → Option (String × String)}
    {old after : List (String × String)} {live : String × String → Bool} {first second : String → Prop}
    (found : String × String → Bool)
    (hafter : ∀ l, l ∈ after ↔ l ∈ old ∨ ∃ l' ∈ (taken J chosen entry).filterMap ends, found l' = true ∧ l' = l)
    (hfound : ∀ l, live l = true → found l = true) (hlive : ∀ l, live l = true ↔ first l.1 ∧ second l.2) :
    (∀ l, l ∈ after.filter live ↔ l ∈ (itemsOf J entry).filterMap ends) ↔
      LinksFit chosen old ((itemsOf J entry).filterMap ends) first second := by
  rw [← linksFit_iff]
  refine forall_congr' fun l => iff_congr ?_ Iff.rfl
  rw [List.mem_filter, hafter, ← hlive]
  refine and_congr_left fun hl => or_congr_right ?_
  rcases chosen with _ | _
  · simp [taken]
  · simp only [taken, if_true, true_and]
    constructor
    · rintro ⟨l', hl', -, rfl⟩
      exact hl'
    · exact fun hmem => ⟨l, hmem, hfound l hl, rfl⟩

theorem linksReplaced_replaceRun {db : Db Text} (hnil : (replaceRun (dbStore E.toEnv now) E now options p db).2.errors = []) :
    LinksReplaced E.json p.toPendingImport (replaceRun (dbStore E.toEnv now) E now options p db).1 ↔
      LinksSettled E.json options p.toPendingImport db := by
  obtain ⟨hdb, herrors⟩ := replaceRun_dbStore E now options p db
  have hclean := herrors hnil
  rw [hdb]
  have hkept : ∀ chosen live entries lands id, KeptLive chosen live entries lands id ↔
      (!chosen && live id) = true ∨ ∃ v ∈ entries, lands id v := by
    intro chosen live entries lands id
    rw [KeptLive, Bool.and_eq_true, Bool.not_eq_true']
  generalize ht : runApply E.toEnv (.archiveImport true) (some options.toApplyOptions) now p.toPendingImport
    (cleared now options db, {}) = t
  have hsession : ∀ id, liveSession t.1 id = true ↔ keptSession E.json options p.toPendingImport db id := fun id => by
    rw [← ht, liveSession_runApply hclean, liveSession_cleared, keptSession, hkept]
    rfl
  have htag : ∀ id, liveTag t.1 id = true ↔ keptTag E.json options p.toPendingImport db id := fun id => by
    rw [← ht, liveTag_runApply hclean, liveTag_cleared, keptTag, hkept]
    rfl
  have hsnippet : ∀ id, liveSnippet t.1 id = true ↔ keptSnippet E.json options p.toPendingImport db id := fun id => by
    rw [← ht, liveSnippet_runApply hclean, liveSnippet_cleared, keptSnippet, hkept]
    rfl
  have hboth : ∀ a b : Bool, (a && b) = true → a = true ∧ b = true := fun a b h => by rwa [Bool.and_eq_true] at h
  have htags : (∀ l, l ∈ liveSessionTags t.1 ↔ l ∈ listedSessionTags E.json p.toPendingImport) ↔
      LinksFit (options.applySessions && options.applyTags) db.sessionTags (listedSessionTags E.json p.toPendingImport)
        (keptSession E.json options p.toPendingImport db) (keptTag E.json options p.toPendingImport db) := by
    refine filter_live_iff (bothFound t.1.sessions t.1.tags) (fun l => ?_) (fun l hl => ?_) fun l => ?_
    · have hmem := mem_sessionTags_runApply hclean l
      rwa [ht, (links_cleared now options db).1] at hmem
    · obtain ⟨hlive, hlive'⟩ := hboth _ _ hl
      rw [bothFound, isSome_of_any hlive, isSome_of_any hlive', Bool.and_self]
    · rw [Bool.and_eq_true, hsession, htag]
  have hsnippets : (∀ l, l ∈ liveSessionSnippets t.1 ↔ l ∈ listedSessionSnippets E.json p.toPendingImport) ↔
      LinksFit (options.applySessions && options.applySnippets) db.sessionSnippets
        (listedSessionSnippets E.json p.toPendingImport) (keptSession E.json options p.toPendingImport db)
        (keptSnippet E.json options p.toPendingImport db) := by
    refine filter_live_iff (bothFound t.1.sessions t.1.snippets) (fun l => ?_) (fun l hl => ?_) fun l => ?_
    · have hmem := mem_sessionSnippets_runApply hclean l
      rwa [ht, (links_cleared now options db).2] at hmem
    · obtain ⟨hlive, hlive'⟩ := hboth _ _ hl
      rw [bothFound, isSome_of_any hlive, isSome_of_any hlive', Bool.and_self]
    · rw [Bool.and_eq_true, hsession, hsnippet]
  exact ⟨fun h => ⟨htags.1 h.sessionTags, hsnippets.1 h.sessionSnippets⟩,
    fun h => ⟨htags.2 h.sessionTags, hsnippets.2 h.sessionSnippets⟩⟩

/-- **Links after a replace import.** An import that is committed and reports no errors leaves the live
links its archive lists exactly when no unlisted link is of rows that stay or come back, and every
listed one can be taken in. -/
theorem linksReplaced_iff (tx : TxResults) (db : Db Text)
    (hok : (applyReplace (dbStore E.toEnv now) E now options p tx db).2.2 = .ok ())
    (herrors : (applyReplace (dbStore E.toEnv now) E now options p tx db).2.1.errors = []) :
    LinksReplaced E.json p.toPendingImport (applyReplace (dbStore E.toEnv now) E now options p tx db).1 ↔
      LinksSettled E.json options p.toPendingImport db := by
  rcases applyReplace_cases (dbStore E.toEnv now) E now options p tx db with ⟨o, e, h⟩ | ⟨hbad, h⟩ | ⟨-, -, hnil, h⟩
  · rw [h] at hok
    cases hok
  · rw [h] at herrors
    exact absurd herrors hbad
  · rw [h]
    exact linksReplaced_replaceRun E now options p hnil

end Replace

/-! ### A link that was dropped -/

def linkedDevice : Db ParsedText :=
  { (Db.empty : Db ParsedText) with
    sessions := Table.empty.set "s" ⟨"box", none, "ssh", 0, "", none, .json (.obj []), 5, 10, none⟩
    sshDetails := Table.empty.set "s" { Sessions.noDetails with host := "h" }
    tags := Table.empty.set "t" ⟨⟨"t", "prod", none, 5⟩, none⟩
    sessionTags := [("s", "t")] }

/-- An archive of a device where the session has no tag any more, with the links `links`. -/
def unlinkedArchive (links : Option (List Json)) : FullImport ParsedText where
  sessionsJson := some (.json (.arr [.obj [("id", .str "s"), ("label", .str "box"), ("host", .str "h"), ("port", .int 22)]]))
  tagsJson := some (.json (.arr [.obj [("id", .str "t"), ("name", .str "prod")]]))
  sessionTagsJson := links.map fun items => .json (.arr items)

def sessionsAndTags : DriverOptions := ⟨⟨true, false, true, false⟩, false⟩

def replaceLinked (links : Option (List Json)) : Db ParsedText × DriverOutcome × Except String Unit :=
  applyReplace (dbStore plainEnv 40) plainDriverEnv 40 sessionsAndTags (unlinkedArchive links) {} linkedDevice

/-- The link comes back with its session and its tag, and the archive does not list it. -/
theorem dropped_link_comes_back : ¬ ∀ (db : Db ParsedText) (p : FullImport ParsedText),
      (applyReplace (dbStore plainEnv 40) plainDriverEnv 40 sessionsAndTags p {} db).2.2 = .ok () →
        (applyReplace (dbStore plainEnv 40) plainDriverEnv 40 sessionsAndTags p {} db).2.1.errors = [] →
          LinksReplaced ParsedText.codec p.toPendingImport
            (applyReplace (dbStore plainEnv 40) plainDriverEnv 40 sessionsAndTags p {} db).1 := by
  intro h
  have hlink := (h linkedDevice (unlinkedArchive none) (by decide +kernel) (by decide +kernel)).sessionTags ("s", "t")
  have hback : ("s", "t") ∈ liveSessionTags (replaceLinked none).1 := by decide +kernel
  exact absurd (hlink.1 hback) List.not_mem_nil

theorem linksReplaced_iff_linked :
    (replaceLinked (some [.obj [("session_id", .str "s"), ("tag_id", .str "t")]])).2.1.errors = [] ∧
      (LinksReplaced ParsedText.codec
          (unlinkedArchive (some [.obj [("session_id", .str "s"), ("tag_id", .str "t")]])).toPendingImport
          (replaceLinked (some [.obj [("session_id", .str "s"), ("tag_id", .str "t")]])).1 ↔
        LinksSettled ParsedText.codec sessionsAndTags
          (unlinkedArchive (some [.obj [("session_id", .str "s"), ("tag_id", .str "t")]])).toPendingImport linkedDevice) :=
  ⟨by decide +kernel, linksReplaced_iff plainDriverEnv 40 sessionsAndTags _ {} linkedDevice (by decide +kernel)
    (by decide +kernel)⟩

end LetsFlutSsh.Archive
