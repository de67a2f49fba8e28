import LetsFlutSsh.Archive.MergeTables

/-!
# Imports that report nothing

* `KeepsReports`: a stage that loses no report; every stage of a user's import is one;
* `overEntry_clean`, `foldl_clean`: what a stage without reports leaves, entry by entry.
-/

namespace LetsFlutSsh.Archive
open Lib

variable {Text : Type}

/-- A stage that loses no report: where it ends without one, it started without one. -/
def KeepsReports (f : Applying Text → Applying Text) : Prop := ∀ s, (f s).2.errors = [] → s.2.errors = []

def taken (J : JsonText Text) (want : Bool) (entry : Option Text) : List Json := if want then itemsOf J entry else []

theorem KeepsReports.comp {f g : Applying Text → Applying Text} (hf : KeepsReports f) (hg : KeepsReports g) :
    KeepsReports fun s => g (f s) := fun s h => hf s (hg (f s) h)

theorem keepsReports_foldl {ι : Type} {f : ι → Applying Text → Applying Text} (hf : ∀ a, KeepsReports (f a)) (l : List ι) :
    KeepsReports fun s => l.foldl (fun s a => f a s) s := by
  induction l with
  | nil => exact fun _ h => h
  | cons a l ih => exact (hf a).comp ih

theorem push_ne_nil (o : ApplyOutcome) (e : String) : (o.push e).errors ≠ [] :=
  List.append_ne_nil_of_right_ne_nil _ (List.cons_ne_nil _ _)

variable {J : JsonText Text}

section

variable {want : Bool} {what : String} {entry : Option Text}
  {f : List Json → Applying Text → Applying Text}

theorem keepsReports_overEntry (hf : ∀ items, KeepsReports (f items)) : KeepsReports (overEntry J want what entry f) := by
  intro s h
  unfold overEntry at h
  split_ifs at h
  · rcases entry with _ | text
    · exact h
    · rw [Option.elim_some, overArray] at h
      rcases hparse : parseArray J text with e | items
      · rw [hparse] at h
        exact absurd h (push_ne_nil _ _)
      · rw [hparse] at h
        exact hf items s h
  · exact h

theorem overEntry_clean (hnil : ∀ s, f [] s = s) {s : Applying Text} (h : (overEntry J want what entry f s).2.errors = []) :
    overEntry J want what entry f s = f (taken J want entry) s := by
  unfold overEntry taken itemsOf at *
  split_ifs at h ⊢
  · rcases entry with _ | text
    · exact (hnil s).symm
    · rw [Option.elim_some, overArray] at h ⊢
      rw [Option.bind_some]
      rcases hparse : parseArray J text with e | items
      · rw [hparse] at h
        exact absurd h (push_ne_nil _ _)
      · rfl
  · exact (hnil s).symm

end

theorem foldl_clean {f : Json → Applying Text → Applying Text} {P : Db Text → Prop} {H : Json → Prop}
    (hkeep : ∀ v, KeepsReports (f v))
    (hstep : ∀ v s, (f v s).2.errors = [] → (P (f v s).1 ↔ P s.1 ∨ H v)) (items : List Json) (s : Applying Text)
    (h : (items.foldl (fun s v => f v s) s).2.errors = []) :
    P (items.foldl (fun s v => f v s) s).1 ↔ P s.1 ∨ ∃ v ∈ items, H v := by
  induction items generalizing s with
  | nil => simp
  | cons v items ih =>
    have hv : (f v s).2.errors = [] := keepsReports_foldl hkeep items _ h
    rw [List.foldl_cons, ih _ h, hstep v s hv, or_assoc, List.exists_mem_cons_iff]

def liveSession (db : Db Text) (id : String) : Bool := (db.sessions.get id).any fun p => p.deletedAt.isNone
def liveTag (db : Db Text) (id : String) : Bool := (db.tags.get id).any fun t => t.deletedAt.isNone
def liveSnippet (db : Db Text) (id : String) : Bool := (db.snippets.get id).any fun s => s.deletedAt.isNone

/-- The entry of an archive that a user's import makes the session `id` of. -/
def landsSession (id : String) (v : Json) : Prop := jsonString v "id" = id ∧ isTombstone v = false

/-- The entry of an archive that a user's import makes the tag `id` of. -/
def landsTag (id : String) (v : Json) : Prop :=
  jsonString v "id" = id ∧ id ≠ "" ∧ jsonString v "name" ≠ "" ∧ isTombstone v = false

/-- The entry of an archive that a user's import makes the snippet `id` of. -/
def landsSnippet (id : String) (v : Json) : Prop :=
  jsonString v "id" = id ∧ id ≠ "" ∧ jsonString v "title" ≠ "" ∧ isTombstone v = false

section Stages

variable (E : Env Text) (b : Bool) (now : Int64)

theorem keepsReports_applyOneKeyArchive (known : List String) (v : Json) :
    KeepsReports (applyOneKeyArchive E known now v) := by
  intro s h
  unfold applyOneKeyArchive at h
  dsimp only at h
  split_ifs at h
  · exact h
  · exact absurd h (push_ne_nil _ _)
  · exact h

theorem keepsReports_applyKeyItems (items : List Json) : KeepsReports (applyKeyItems E (.archiveImport b) now items) :=
  fun s => keepsReports_foldl (fun v => keepsReports_applyOneKeyArchive E now (knownFingerprints E s.1) v) items s

theorem keepsReports_materialiseSegments (errLabel : String) (segs : List String) (accum : String)
    (parent : Option String) (m : Materialising Text)
    (h : (materialiseSegments E now errLabel segs accum parent m).state.2.errors = []) : m.state.2.errors = [] := by
  induction segs generalizing accum parent m with
  | nil => exact h
  | cons seg segs ih =>
    unfold materialiseSegments at h
    dsimp only at h
    split at h
    · exact ih _ _ _ h
    · split at h
      · have hsaved := ih _ _ _ h
        exact hsaved
      · exact absurd (ih _ _ _ h) (push_ne_nil _ _)

theorem keepsReports_paths {f : String → Materialising Text → Materialising Text}
    (hf : ∀ path m, (f path m).state.2.errors = [] → m.state.2.errors = []) (paths : List String) (m : Materialising Text)
    (h : (paths.foldl (fun m path => f path m) m).state.2.errors = []) : m.state.2.errors = [] := by
  induction paths generalizing m with
  | nil => exact h
  | cons path paths ih => exact hf path m (ih _ h)

theorem keepsReports_applyFolderTree (items : List Json) :
    KeepsReports fun s : Applying Text => (applyFolderTree E (.archiveImport b) now items s).2 := fun s =>
  keepsReports_paths (fun path => keepsReports_materialiseSegments E now "folder" (Folders.segments path) "" none)
    (folderPaths items) ⟨[], 0, s⟩

theorem keepsReports_applyEmptyFolders (paths : List String) (pathToId : List (String × String)) :
    KeepsReports fun s : Applying Text => (applyEmptyFolders E now paths pathToId s).2 := by
  refine fun s => keepsReports_paths (f := fun path m => if path = "" ∨ (m.pathToId.lookup path).isSome then m
      else materialiseFolderPath E now "empty_folder" path m) (fun path m h => ?_) paths
    ⟨pathToId, Int64.ofNat pathToId.length, s⟩
  split_ifs at h
  · exact h
  · exact keepsReports_materialiseSegments E now "empty_folder" (Folders.segments path) "" none m h

theorem applyOneSession_clean {folderIds : List (String × String)} {live : String → Option Int64}
    {v : Json} {s : Applying Text}
    (h : (applyOneSession J (.archiveImport b) folderIds live now v s).2.errors = []) :
    s.2.errors = [] ∧ jsonString v "id" ≠ "" ∧
      (isTombstone v = true ∧ (applyOneSession J (.archiveImport b) folderIds live now v s).1 = s.1 ∨
        isTombstone v = false ∧ Sessions.upsert s.1 (buildSessionRow J (.archiveImport b) folderIds now v) =
            ((applyOneSession J (.archiveImport b) folderIds live now v s).1, .ok ())) := by
  unfold applyOneSession at h ⊢
  simp only [ApplyMode.isSync, ApplyMode.isArchive, Bool.false_and, Bool.false_eq_true, if_false, if_true] at h ⊢
  split_ifs at h ⊢ with hid htomb
  · exact absurd h (push_ne_nil _ _)
  · exact ⟨h, hid, .inl ⟨htomb, rfl⟩⟩
  · rcases hupsert : Sessions.upsert s.1 (buildSessionRow J (.archiveImport b) folderIds now v) with ⟨db, e | _⟩
    · rw [hupsert] at h
      exact absurd h (push_ne_nil _ _)
    · rw [hupsert] at h
      exact ⟨h, hid, .inr ⟨Bool.not_eq_true _ ▸ htomb, rfl⟩⟩

theorem keepsReports_applyOneSession (J : JsonText Text) (folderIds : List (String × String))
    (live : String → Option Int64) (v : Json) :
    KeepsReports (applyOneSession J (.archiveImport b) folderIds live now v) :=
  fun _ h => (applyOneSession_clean b now h).1

theorem keepsReports_sessionLoop (J : JsonText Text) (folderIds : List (String × String))
    (live : String → Option Int64) (items : List Json) :
    KeepsReports (sessionLoop J (.archiveImport b) folderIds live now items) :=
  keepsReports_foldl (keepsReports_applyOneSession b now J folderIds live) items

theorem keepsReports_applySessionsJson (text : Text) :
    KeepsReports fun s : Applying Text => (applySessionsJson E (.archiveImport b) now text s).2 := by
  intro s h
  unfold applySessionsJson at h
  rcases hparse : parseArray E.json text with e | items
  · rw [hparse] at h
    exact absurd h (push_ne_nil _ _)
  · rw [hparse] at h
    exact keepsReports_applyFolderTree E b now items s (keepsReports_sessionLoop b now E.json _ _ items _ h)

theorem keepsReports_applyOneTag (live : String → Option Int64) (v : Json) :
    KeepsReports (applyOneTag (.archiveImport b) live now v : Applying Text → Applying Text) := by
  intro s h
  unfold applyOneTag at h
  simp only [ApplyMode.isSync, Bool.false_and, Bool.false_eq_true, if_false] at h
  split_ifs at h
  · exact h
  · exact h
  · split at h
    · exact h
    · exact absurd h (push_ne_nil _ _)

theorem keepsReports_applyOneSnippet (live : String → Option Int64) (v : Json) :
    KeepsReports (applyOneSnippet (.archiveImport b) live now v : Applying Text → Applying Text) := by
  intro s h
  unfold applyOneSnippet at h
  simp only [ApplyMode.isSync, Bool.false_and, Bool.false_eq_true, if_false] at h
  split_ifs at h <;> exact h

theorem keepsReports_applyLink (result : Except String (Db Text)) {count : ApplyOutcome → ApplyOutcome}
    (hcount : ∀ o, (count o).errors = o.errors) (label : String) : KeepsReports (applyLink result count label) := by
  intro s h
  rcases result with e | db
  · exact absurd h (push_ne_nil _ _)
  · exact (hcount s.2).symm.trans h

theorem keepsReports_links {f : Applying Text → Applying Text} {ends : Option (String × String)}
    {result : Applying Text → String × String → Except String (Db Text)} {count : ApplyOutcome → ApplyOutcome} {label : String}
    (hf : ∀ s, f s = ends.elim (skipLink s) fun l => applyLink (result s l) count label s)
    (hcount : ∀ o, (count o).errors = o.errors) : KeepsReports f := by
  intro s h
  rw [hf] at h
  rcases ends with _ | l
  · exact h
  · exact keepsReports_applyLink _ hcount _ s h

theorem keepsReports_applySessionTag (v : Json) : KeepsReports (applySessionTag v : Applying Text → Applying Text) :=
  keepsReports_links (applySessionTag_eq v) fun _ => rfl

theorem keepsReports_applyFolderTag (pathToId : List (String × String)) (v : Json) :
    KeepsReports (applyFolderTag pathToId v : Applying Text → Applying Text) :=
  keepsReports_links (applyFolderTag_eq pathToId v) fun _ => rfl

theorem keepsReports_applySessionSnippet (v : Json) :
    KeepsReports (applySessionSnippet v : Applying Text → Applying Text) :=
  keepsReports_links (applySessionSnippet_eq v) fun _ => rfl

end Stages

section Import

variable (E : Env Text) (mode : ApplyMode) (options : Option ApplyOptions) (now : Int64)
variable (p : PendingImport Text) (s : Applying Text)

structure CleanStages : Prop where
  start : s.2.errors = []
  keys : (afterKeys E mode options now p s).2.errors = []
  sessions : (afterSessions E mode options now p s).2.2.errors = []
  tags : (afterTags E mode options now p s).2.errors = []
  tagLinks : (afterTagLinks E mode options now p s).2.errors = []
  folderLinks : (afterFolderLinks E mode options now p s).2.errors = []
  snippets : (afterSnippetRows E mode options now p s).2.errors = []

variable {E options now p s} {b : Bool}

theorem keepsReports_applySessionsPhase (want : Bool) :
    KeepsReports fun s : Applying Text => (applySessionsPhase E (.archiveImport b) now want p s).2 := by
  intro s h
  dsimp only at h
  unfold applySessionsPhase at h
  split_ifs at h
  · have hsessions : (p.sessionsJson.elim ([], s) fun text =>
        applySessionsJson E (.archiveImport b) now text s).2.2.errors = [] := by
      rcases hempty : p.emptyFoldersJson with _ | text
      · rw [hempty] at h
        exact h
      · rw [hempty, Option.elim_some] at h
        rcases hparse : parseStrings E.json text with e | paths
        · rw [hparse] at h
          exact absurd h (push_ne_nil _ _)
        · rw [hparse] at h
          exact keepsReports_applyEmptyFolders E now paths _ _ h
    rcases hentry : p.sessionsJson with _ | text
    · rw [hentry] at hsessions
      exact hsessions
    · rw [hentry] at hsessions
      exact keepsReports_applySessionsJson E b now text s hsessions
  · exact h

theorem cleanStages (h : (runApply E (.archiveImport b) options now p s).2.errors = []) :
    CleanStages E (.archiveImport b) options now p s := by
  rw [runApply_eq] at h
  have hsnippets := keepsReports_overEntry (keepsReports_foldl keepsReports_applySessionSnippet) _ h
  have hfolderLinks := keepsReports_overEntry
    (keepsReports_foldl (keepsReports_applyOneSnippet b now fun _ => none)) _ hsnippets
  have htagLinks := keepsReports_overEntry (keepsReports_foldl (keepsReports_applyFolderTag _)) _ hfolderLinks
  have htags := keepsReports_overEntry (keepsReports_foldl keepsReports_applySessionTag) _ htagLinks
  have hsessions := keepsReports_overEntry (keepsReports_foldl (keepsReports_applyOneTag b now fun _ => none)) _ htags
  have hkeys := keepsReports_applySessionsPhase _ _ hsessions
  exact ⟨keepsReports_overEntry (keepsReports_applyKeyItems E b now) _ hkeys, hkeys, hsessions, htags, htagLinks,
    hfolderLinks, hsnippets⟩

theorem sessionsReached_clean (h : CleanStages E (.archiveImport b) options now p s) {text : Text}
    (hwant : (WantFlags.fromOptions options).sessions = true) (htext : p.sessionsJson = some text) :
    ∃ items, parseArray E.json text = .ok items ∧
      (sessionsReached E (.archiveImport b) options now p s items items).2.errors = [] := by
  have hsessions := h.sessions
  unfold afterSessions applySessionsPhase at hsessions
  rw [if_pos hwant, htext] at hsessions
  have hclean : (applySessionsJson E (.archiveImport b) now text
      (afterKeys E (.archiveImport b) options now p s)).2.2.errors = [] := by
    rcases hempty : p.emptyFoldersJson with _ | text'
    · rw [hempty] at hsessions
      exact hsessions
    · rw [hempty, Option.elim_some] at hsessions
      rcases hparse : parseStrings E.json text' with e | paths
      · rw [hparse] at hsessions
        exact absurd hsessions (push_ne_nil _ _)
      · rw [hparse] at hsessions
        exact keepsReports_applyEmptyFolders E now paths _ _ hsessions
  unfold applySessionsJson at hclean
  rcases hparse : parseArray E.json text with e | items
  · rw [hparse] at hclean
    exact absurd hclean (push_ne_nil _ _)
  · rw [hparse] at hclean
    exact ⟨items, rfl, hclean⟩

theorem sessionState_runApply_untouched (mode : ApplyMode)
    (hnone : (WantFlags.fromOptions options).sessions = false ∨ p.sessionsJson = none) (id : String) :
    (runApply E mode options now p s).1.sessionState id = s.1.sessionState id := by
  rw [runApply_fixes_afterTags (g := fun db => db.sessionState id) (fun _ => rfl) fun _ => rfl,
    afterTags_fixes (g := fun db => db.sessionState id) fun _ => rfl,
    ignores (g := fun db => db.sessionState id) (x := Db.withoutFolders) (fun _ => rfl) _ _
      (afterSessions_grows E mode options now p s).rest]
  have hkeys : (afterKeys E mode options now p s).1.sessionState id = s.1.sessionState id :=
    afterKeys_fixes (g := fun db => db.sessionState id) fun _ => rfl
  split_ifs with hwant
  · rw [hnone.resolve_left (by rw [hwant]; exact Bool.true_eq_false_eq_False), Option.elim_none]
    exact hkeys
  · exact hkeys

theorem liveSession_congr {db db' : Db Text} {id : String} (h : db'.sessionState id = db.sessionState id) :
    liveSession db' id = liveSession db id := by
  have hparent : db'.sessions.get id = db.sessions.get id := congrArg Db.SessionState.parent h
  rw [liveSession, liveSession, hparent]

theorem liveSession_upsert {db db' : Db Text} {row : SessionRow Text} (h : Sessions.upsert db row = (db', .ok ()))
    (id : String) : liveSession db' id = true ↔ liveSession db id = true ∨ row.id = id := by
  by_cases hid : id = row.id
  · have hfolder : Sessions.folderOk db row = true := by
      rcases Sessions.upsert_cases db row with ⟨-, hu⟩ | ⟨hf, -⟩ | ⟨hf, -⟩ | ⟨hf, -⟩
      · rw [hu] at h
        cases h
      · exact hf
      · exact hf
      · exact hf
    have hparent := Sessions.upsert_parent db row hfolder
    rw [h] at hparent
    subst hid
    simp [liveSession, hparent, Sessions.parentWritten]
  · have hstate := Sessions.sessionState_upsert_ne db row hid
    rw [h] at hstate
    rw [liveSession_congr hstate]
    simp [Ne.symm hid]

section

variable (h : (runApply E (.archiveImport b) options now p s).2.errors = [])
include h

theorem liveSession_runApply (id : String) :
    liveSession (runApply E (.archiveImport b) options now p s).1 id = true ↔ liveSession s.1 id = true ∨
      ∃ v ∈ taken E.json (WantFlags.fromOptions options).sessions p.sessionsJson, landsSession id v := by
  have hclean := cleanStages h
  rcases hentry : p.sessionsJson with _ | text
  · rw [liveSession_congr (sessionState_runApply_untouched _ (.inr hentry) id)]
    simp [taken, itemsOf]
  by_cases hwant : (WantFlags.fromOptions options).sessions = true
  · obtain ⟨items, hitems, hloop⟩ := sessionsReached_clean hclean hwant hentry
    have htaken : taken E.json (WantFlags.fromOptions options).sessions (some text) = items := by
      rw [taken, if_pos hwant, itemsOf, Option.bind_some, hitems]
      rfl
    rw [liveSession_congr (sessionState_runApply E _ options now p s hwant hentry hitems id), htaken,
      ← liveSession_congr (sessionState_folderTree E (.archiveImport b) options now p s items id)]
    refine foldl_clean (P := fun db => liveSession db id = true) (H := landsSession id)
      (keepsReports_applyOneSession b now E.json _ _) (fun v t hv => ?_) items _ hloop
    obtain ⟨-, -, ⟨htomb, heq⟩ | ⟨htomb, hupsert⟩⟩ := applyOneSession_clean b now hv
    · rw [heq]
      simp [landsSession, htomb]
    · rw [liveSession_upsert hupsert]
      simp [landsSession, htomb, buildSessionRow]
  · rw [Bool.not_eq_true] at hwant
    rw [liveSession_congr (sessionState_runApply_untouched _ (.inl hwant) id)]
    simp [taken, hwant]

theorem liveTag_runApply (id : String) :
    liveTag (runApply E (.archiveImport b) options now p s).1 id = true ↔ liveTag s.1 id = true ∨
      ∃ v ∈ taken E.json (WantFlags.fromOptions options).tags p.tagsJson, landsTag id v := by
  have hclean := (cleanStages h).tags
  rw [runApply_fixes_afterTags (g := fun db => liveTag db id) (fun _ => rfl)
    fun _ => rfl]
  have hstart : liveTag (afterSessions E (.archiveImport b) options now p s).2.1 id = liveTag s.1 id :=
    sessionStages_fix (g := fun db => liveTag db id) (fun _ => rfl) (fun _ => rfl) fun _ => rfl
  unfold afterTags at hclean ⊢
  have hrun := overEntry_clean (fun _ => rfl) hclean
  rw [hrun] at hclean ⊢
  rw [← hstart]
  refine foldl_clean (P := fun db => liveTag db id = true) (H := landsTag id)
    (keepsReports_applyOneTag b now fun _ => none) (fun v t hv => ?_) _ _ hclean
  unfold applyOneTag at hv ⊢
  simp only [ApplyMode.isSync, Bool.false_and, Bool.false_eq_true, if_false] at hv ⊢
  split_ifs at hv ⊢ with htomb hempty
  · simp [landsTag, htomb]
  · simp only [landsTag]
    grind
  · rcases hupsert : Tags.upsert t.1 ⟨jsonString v "id", jsonString v "name", jsonNonEmpty v "color",
      (parseIso8601Opt (jsonString v "created_at")).getD now⟩ with e | db
    · rw [hupsert] at hv
      exact absurd hv (push_ne_nil _ _)
    · unfold Tags.upsert at hupsert
      split_ifs at hupsert
      cases hupsert
      unfold liveTag landsTag
      rw [Table.get_set]
      grind

theorem liveSnippet_runApply (id : String) :
    liveSnippet (runApply E (.archiveImport b) options now p s).1 id = true ↔ liveSnippet s.1 id = true ∨
      ∃ v ∈ taken E.json (WantFlags.fromOptions options).snippets p.snippetsJson, landsSnippet id v := by
  have hclean := (cleanStages h).snippets
  rw [runApply_fixes_afterSnippetRows (g := fun db => liveSnippet db id) fun _ _ => rfl]
  have hstart : liveSnippet (afterFolderLinks E (.archiveImport b) options now p s).1 id = liveSnippet s.1 id := by
    rw [afterFolderLinks_fixes (g := fun db => liveSnippet db id) fun _ _ => rfl,
      afterTagLinks_fixes (g := fun db => liveSnippet db id) fun _ _ => rfl,
      afterTags_fixes (g := fun db => liveSnippet db id) fun _ => rfl]
    exact sessionStages_fix (g := fun db => liveSnippet db id) (fun _ => rfl) (fun _ => rfl) fun _ => rfl
  unfold afterSnippetRows at hclean ⊢
  have hrun := overEntry_clean (fun _ => rfl) hclean
  rw [hrun] at hclean ⊢
  rw [← hstart]
  refine foldl_clean (P := fun db => liveSnippet db id = true) (H := landsSnippet id)
    (keepsReports_applyOneSnippet b now fun _ => none) (fun v t hv => ?_) _ _ hclean
  unfold applyOneSnippet at hv ⊢
  simp only [ApplyMode.isSync, ApplyMode.isArchive, Bool.false_and, Bool.true_and, Bool.false_eq_true, if_false,
    decide_eq_true_eq] at hv ⊢
  split_ifs at hv ⊢ with hid htomb htitle
  · simp only [landsSnippet]
    grind
  · simp [landsSnippet, htomb]
  · simp [landsSnippet, htitle]
  · unfold liveSnippet landsSnippet Snippets.upsert
    rw [Table.get_set]
    grind

theorem mem_sessionTags_runApply (l : String × String) :
    l ∈ (runApply E (.archiveImport b) options now p s).1.sessionTags ↔ l ∈ s.1.sessionTags ∨
      ∃ l' ∈ (taken E.json ((WantFlags.fromOptions options).sessions && (WantFlags.fromOptions options).tags)
          p.sessionTagsJson).filterMap (linkEnds "session_id" "tag_id"),
        bothFound (runApply E (.archiveImport b) options now p s).1.sessions
          (runApply E (.archiveImport b) options now p s).1.tags l' = true ∧ l' = l := by
  rw [sessionTags_of_loop (congrArg (fun s : Applying Text => s.1.sessionTags)
    (overEntry_clean (fun _ => rfl) (cleanStages h).tagLinks)), mem_addLinks]

theorem mem_sessionSnippets_runApply (l : String × String) :
    l ∈ (runApply E (.archiveImport b) options now p s).1.sessionSnippets ↔ l ∈ s.1.sessionSnippets ∨
      ∃ l' ∈ (taken E.json ((WantFlags.fromOptions options).sessions && (WantFlags.fromOptions options).snippets)
          p.sessionSnippetsJson).filterMap (linkEnds "session_id" "snippet_id"),
        bothFound (runApply E (.archiveImport b) options now p s).1.sessions
          (runApply E (.archiveImport b) options now p s).1.snippets l' = true ∧ l' = l := by
  rw [sessionSnippets_of_loop, mem_addLinks]
  rw [runApply_eq] at h ⊢
  exact congrArg (fun s : Applying Text => s.1.sessionSnippets) (overEntry_clean (fun _ => rfl) h)

end

end Import

end LetsFlutSsh.Archive
