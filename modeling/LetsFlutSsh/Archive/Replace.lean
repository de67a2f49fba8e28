import LetsFlutSsh.Archive.DbStore

/-!
# Replacing is all or nothing

A replace import against a store that may refuse any call:

* `Store.logged`: the store that remembers the errors of its calls;
* `Shadow`: a run on the remembering store next to the plain run, with every remembered error
  reported and no report lost;
* `replace_all_or_nothing`: an outcome is marked as rolled back exactly when it has errors, a store
  whose import was not committed is as before, and a committed import met no error.
-/

namespace LetsFlutSsh.Archive
open Lib List Option

variable {σ Text α : Type}

/-! ## Remembering failed calls -/

def logCall (call : Call σ α) : Call (σ × List String) α := fun s =>
  match call s.1 with
  | (db, .ok a) => ((db, s.2), .ok a)
  | (db, .error e) => ((db, s.2 ++ [e]), .error e)

def Store.logged (K : Store σ Text) : Store (σ × List String) Text where
  clear t := logCall (K.clear t)
  listFingerprints := logCall K.listFingerprints
  upsertKey row := logCall (K.upsertKey row)
  mint s := K.mint s.1
  upsertFolder id row := logCall (K.upsertFolder id row)
  upsertSession row := logCall (K.upsertSession row)
  upsertTag row := logCall (K.upsertTag row)
  linkSessionTag a b := logCall (K.linkSessionTag a b)
  linkFolderTag a b := logCall (K.linkFolderTag a b)
  upsertSnippet row := logCall (K.upsertSnippet row)
  linkSessionSnippet a b := logCall (K.linkSessionSnippet a b)
  upsertKnownHost row := logCall (K.upsertKnownHost row)
  listKeyIds := logCall K.listKeyIds
  listSessionIds := logCall K.listSessionIds
  upsertCertificate row := logCall (K.upsertCertificate row)
  upsertWebdav row := logCall (K.upsertWebdav row)
  upsertS3 row := logCall (K.upsertS3 row)
  upsertBookmark row := logCall (K.upsertBookmark row)
  upsertPortForward row := logCall (K.upsertPortForward row)

/-- A change of the outcome that loses no report and leaves the mark of a rollback alone. -/
structure Keeps (f : DriverOutcome → DriverOutcome) : Prop where
  errors : ∀ o, o.errors <+: (f o).errors
  rolledBack : ∀ o, (f o).rolledBack = o.rolledBack

/-- The run `t` on the remembering store goes next to the run `s`: the same store and outcome, every
remembered error reported under some label, the reports of `base` still there, and its mark of a
rollback. -/
structure Shadow (base : DriverOutcome) (s : Running σ) (t : Running (σ × List String)) : Prop where
  state : t.1.1 = s.1
  outcome : t.2 = s.2
  reported : ∀ e ∈ t.1.2, ∃ label, label ++ ": " ++ e ∈ s.2.errors
  grew : base.errors <+: s.2.errors
  mark : s.2.rolledBack = base.rolledBack

def Shadows (f : Running σ → Running σ) (g : Running (σ × List String) → Running (σ × List String)) : Prop :=
  ∀ base s t, Shadow base s t → Shadow base (f s) (g t)

variable {t : Running (σ × List String)} {base : DriverOutcome} {s : Running σ}

theorem Shadow.amend (h : Shadow base s t)
    {f : DriverOutcome → DriverOutcome} (hf : Keeps f) : Shadow base (s.1, f s.2) (t.1, f t.2) := by
  refine ⟨h.state, congrArg f h.outcome, fun e he => ?_, h.grew.trans (hf.errors s.2), ?_⟩
  · obtain ⟨label, hlabel⟩ := h.reported e he
    exact ⟨label, (hf.errors s.2).subset hlabel⟩
  · exact (hf.rolledBack s.2).trans h.mark

theorem keeps_fail (text : String) : Keeps fun o => o.fail text :=
  ⟨fun _ => prefix_append _ _, fun _ => rfl⟩

theorem Shadow.call (h : Shadow base s t)
    (c : Call σ α) :
    (∃ db a, c s.1 = (db, .ok a) ∧ ∃ db', logCall c t.1 = (db', .ok a) ∧ Shadow base (db, s.2) (db', t.2)) ∨
      ∃ db e, c s.1 = (db, .error e) ∧ ∃ db', logCall c t.1 = (db', .error e) ∧
        ∀ (f : DriverOutcome → DriverOutcome) (label : String),
          (∀ o, (f o).errors = o.errors ++ [label ++ ": " ++ e]) → (∀ o, (f o).rolledBack = o.rolledBack) →
            Shadow base (db, f s.2) (db', f t.2) := by
  rcases hc : c s.1 with ⟨db, e | a⟩
  · refine .inr ⟨db, e, rfl, (db, t.1.2 ++ [e]), ?_, fun f label hf hback => ?_⟩
    · unfold logCall
      rw [h.state, hc]
    refine ⟨rfl, congrArg f h.outcome, fun e' he' => ?_, ?_, (hback s.2).trans h.mark⟩
    · rw [hf]
      rcases mem_append.1 he' with he' | he'
      · obtain ⟨label', hlabel'⟩ := h.reported e' he'
        exact ⟨label', mem_append_left _ hlabel'⟩
      · rw [mem_singleton.1 he']
        exact ⟨label, mem_append_right _ (mem_singleton_self _)⟩
    · rw [hf]
      exact h.grew.trans (prefix_append _ _)
  · refine .inl ⟨db, a, rfl, (db, t.1.2), ?_, ⟨rfl, h.outcome, h.reported, h.grew, h.mark⟩⟩
    unfold logCall
    rw [h.state, hc]

variable {count : DriverOutcome → DriverOutcome}

section Combinators

section

variable (h : Shadow base s t) (c : Call σ Unit) (label : String)
  (hcount : Keeps count)
include h hcount

theorem Shadow.attempt : Shadow base (attempt c label count s) (Archive.attempt (logCall c) label count t) := by
  unfold Archive.attempt
  rcases h.call c with ⟨db, a, hc, db', hc', hsh⟩ | ⟨db, e, hc, db', hc', hsh⟩
  · rw [hc, hc']
    exact hsh.amend hcount
  · rw [hc, hc']
    exact hsh (fun o => o.fail (label ++ ": " ++ e)) label (fun _ => rfl) fun _ => rfl

theorem Shadow.attemptLink : Shadow base (attemptLink c label count s) (Archive.attemptLink (logCall c) label count t) := by
  unfold Archive.attemptLink
  rcases h.call c with ⟨db, a, hc, db', hc', hsh⟩ | ⟨db, e, hc, db', hc', hsh⟩
  · rw [hc, hc']
    exact hsh.amend hcount
  · rw [hc, hc']
    exact hsh (fun o => o.skipLink.fail (label ++ ": " ++ e)) label (fun _ => rfl) fun _ => rfl

end

end Combinators

theorem shadows_withList (c : Call σ (List String)) (label : String) {go : List String → Running σ → Running σ}
    {go' : List String → Running (σ × List String) → Running (σ × List String)}
    (hgo : ∀ items, Shadows (go items) (go' items)) :
    Shadows (withList c label go) (withList (logCall c) label go') := by
  intro base s t h
  unfold withList
  rcases h.call c with ⟨db, items, hc, db', hc', hsh⟩ | ⟨db, e, hc, db', hc', hsh⟩
  · rw [hc, hc']
    exact hgo items base _ _ hsh
  · rw [hc, hc']
    exact hsh (fun o => o.fail (label ++ ": " ++ e)) label (fun _ => rfl) fun _ => rfl

theorem shadows_foldl {ι : Type} {f : ι → Running σ → Running σ}
    {g : ι → Running (σ × List String) → Running (σ × List String)} (hfg : ∀ a, Shadows (f a) (g a)) (l : List ι) :
    Shadows (fun s => l.foldl (fun s a => f a s) s) (fun t => l.foldl (fun t a => g a t) t) := by
  intro base s t h
  induction l generalizing s t with
  | nil => exact h
  | cons a l ih => exact ih _ _ (hfg a base s t h)

variable {g : List Json → Running (σ × List String) → Running (σ × List String)} {f : List Json → Running σ → Running σ}

theorem shadows_overRows (J : JsonText Text) (want : Bool) (what : String) (entry : Option Text)
        (hfg : ∀ items, Shadows (f items) (g items)) :
    Shadows (overRows J want what entry f) (overRows J want what entry g) := by
  intro base s t h
  unfold overRows
  split_ifs
  · rcases entry with _ | text
    · exact h
    · dsimp only [elim_some]
      split
      · exact h.amend (keeps_fail _)
      · exact hfg _ base s t h
  · exact h

variable {m' : Placing (σ × List String)} {m : Placing σ}

/-! ## The stages -/

section Stages

variable (K : Store σ Text) (E : Env Text) (now : Int64)

theorem shadows_driveKeys (items : List Json) : Shadows (driveKeys K E now items) (driveKeys K.logged E now items) := by
  refine shadows_withList K.listFingerprints _ fun fps => shadows_foldl (fun v => ?_) items
  intro base s t h
  unfold driveKey
  dsimp only
  split_ifs
  · exact h.amend (f := fun o => { o with keysSkippedDedup := o.keysSkippedDedup + 1 }) ⟨fun _ => prefix_rfl, fun _ => rfl⟩
  · exact h.amend (keeps_fail _)
  · exact h.attempt (K.upsertKey _) _ ⟨fun _ => prefix_rfl, fun _ => rfl⟩

/-- Folder stages next to each other: the same folders for the paths met. -/
structure PlacedAlike (base : DriverOutcome) (m : Placing σ) (m' : Placing (σ × List String)) : Prop where
  paths : m'.pathToId = m.pathToId
  sortOrder : m'.sortOrder = m.sortOrder
  state : Shadow base m.state m'.state

theorem placedAlike_driveSegments (errLabel : String) (segs : List String) (accum : String)
    (parent : Option String) (h : PlacedAlike base m m') :
    PlacedAlike base (driveSegments K now errLabel segs accum parent m)
      (driveSegments K.logged now errLabel segs accum parent m') := by
  induction segs generalizing accum parent m m' with
  | nil => exact h
  | cons seg segs ih =>
    unfold driveSegments
    dsimp only
    generalize (if accum = "" then seg else accum ++ "/" ++ seg) = accum'
    rw [h.paths]
    rcases m.pathToId.lookup accum' with _ | existing
    · have hmint : K.logged.mint m'.state.1 = K.mint m.state.1 := congrArg K.mint h.state.state
      rw [hmint, h.sortOrder]
      rcases h.state.call (K.upsertFolder (K.mint m.state.1) ⟨seg, parent, m.sortOrder, false, now⟩) with
        ⟨db, a, hc, db', hc', hsh⟩ | ⟨db, e, hc, db', hc', hsh⟩
      · have hlogged : K.logged.upsertFolder (K.mint m.state.1) ⟨seg, parent, m.sortOrder, false, now⟩ m'.state.1 = _ := hc'
        rw [hc, hlogged]
        refine ih _ _ ⟨rfl, rfl, ?_⟩
        exact hsh.amend (f := fun o => { o with foldersApplied := o.foldersApplied + 1 })
          ⟨fun _ => prefix_rfl, fun _ => rfl⟩
      · have hlogged : K.logged.upsertFolder (K.mint m.state.1) ⟨seg, parent, m.sortOrder, false, now⟩ m'.state.1 = _ := hc'
        rw [hc, hlogged]
        refine ih _ _ ⟨rfl, rfl, ?_⟩
        exact hsh (fun o => o.fail (errLabel ++ " " ++ accum' ++ " upsert" ++ ": " ++ e)) _ (fun _ => rfl) fun _ => rfl
    · exact ih _ _ h

theorem placedAlike_foldl {f : String → Placing σ → Placing σ}
    {g : String → Placing (σ × List String) → Placing (σ × List String)}
    (hfg : ∀ path m m', PlacedAlike base m m' → PlacedAlike base (f path m) (g path m')) (paths : List String)
    (h : PlacedAlike base m m') :
    PlacedAlike base (paths.foldl (fun m path => f path m) m) (paths.foldl (fun m path => g path m) m') := by
  induction paths generalizing m m' with
  | nil => exact h
  | cons path paths ih => exact ih (hfg path m m' h)

theorem shadows_driveSession (mode : ApplyMode) (folderIds : List (String × String)) (v : Json) :
    Shadows (driveSession K E now mode folderIds v) (driveSession K.logged E now mode folderIds v) := by
  intro base s t h
  unfold driveSession
  dsimp only
  split_ifs
  · exact h.amend (keeps_fail _)
  · exact h
  · exact h.attempt (K.upsertSession _) _ ⟨fun _ => prefix_rfl, fun _ => rfl⟩

section Folders

theorem shadow_driveSessionsJson (mode : ApplyMode) (text : Text) (h : Shadow base s t) :
    (driveSessionsJson K.logged E now mode text t).1 = (driveSessionsJson K E now mode text s).1 ∧
      Shadow base (driveSessionsJson K E now mode text s).2 (driveSessionsJson K.logged E now mode text t).2 := by
  unfold driveSessionsJson
  split
  · exact ⟨rfl, h.amend (keeps_fail _)⟩
  rename_i items _
  have hstart : PlacedAlike base ⟨[], 0, s⟩ ⟨[], 0, t⟩ := ⟨rfl, rfl, h⟩
  have htree : PlacedAlike base _ _ := placedAlike_foldl
    (fun path m m' hm => placedAlike_driveSegments K now "folder" (Folders.segments path) "" none hm)
    (folderPaths items) hstart
  refine ⟨htree.paths, ?_⟩
  dsimp only
  rw [show (driveFolderTree K.logged now items t).1 = (driveFolderTree K now items s).1 from htree.paths]
  exact shadows_foldl (shadows_driveSession K E now mode _) items base _ _ htree.state

theorem shadow_driveEmptyFolders (paths : List String) (pathToId : List (String × String)) (h : Shadow base s t) :
    (driveEmptyFolders K.logged now paths pathToId t).1 = (driveEmptyFolders K now paths pathToId s).1 ∧
      Shadow base (driveEmptyFolders K now paths pathToId s).2 (driveEmptyFolders K.logged now paths pathToId t).2 := by
  have hstart : PlacedAlike base ⟨pathToId, Int64.ofNat pathToId.length, s⟩ ⟨pathToId, Int64.ofNat pathToId.length, t⟩ :=
    ⟨rfl, rfl, h⟩
  have hplaced : PlacedAlike base _ _ := placedAlike_foldl
    (f := fun path m => if path = "" ∨ (m.pathToId.lookup path).isSome then m
      else driveFolderPath K now "empty_folder" path m)
    (g := fun path m => if path = "" ∨ (m.pathToId.lookup path).isSome then m
      else driveFolderPath K.logged now "empty_folder" path m)
    (fun path m m' hm => by
      rw [hm.paths]
      split_ifs
      · exact hm
      · exact placedAlike_driveSegments K now "empty_folder" (Folders.segments path) "" none hm)
    paths hstart
  exact ⟨hplaced.paths, hplaced.state⟩

theorem shadow_driveSessionsPhase (mode : ApplyMode) (want : Bool) (p : PendingImport Text) (h : Shadow base s t) :
    (driveSessionsPhase K.logged E now mode want p t).1 = (driveSessionsPhase K E now mode want p s).1 ∧
      Shadow base (driveSessionsPhase K E now mode want p s).2 (driveSessionsPhase K.logged E now mode want p t).2 := by
  have hfirst : (p.sessionsJson.elim ([], t) fun text => driveSessionsJson K.logged E now mode text t).1 =
        (p.sessionsJson.elim ([], s) fun text => driveSessionsJson K E now mode text s).1 ∧
      Shadow base (p.sessionsJson.elim ([], s) fun text => driveSessionsJson K E now mode text s).2
        (p.sessionsJson.elim ([], t) fun text => driveSessionsJson K.logged E now mode text t).2 := by
    rcases p.sessionsJson with _ | text
    · exact ⟨rfl, h⟩
    · exact shadow_driveSessionsJson K E now mode text h
  obtain ⟨hpaths, hstate⟩ := hfirst
  unfold driveSessionsPhase
  split_ifs
  · rcases p.emptyFoldersJson with _ | text
    · exact ⟨hpaths, hstate⟩
    · dsimp only [elim_some]
      split
      · exact ⟨hpaths, hstate.amend (keeps_fail _)⟩
      · rw [hpaths]
        exact shadow_driveEmptyFolders K now _ _ hstate
  · exact ⟨rfl, h⟩

end Folders

theorem shadows_driveTag (v : Json) : Shadows (driveTag K now v) (driveTag K.logged now v) := by
  intro base s t h
  unfold driveTag
  dsimp only
  split_ifs
  · exact h
  · exact h
  · exact h.attempt (K.upsertTag _) _ ⟨fun _ => prefix_rfl, fun _ => rfl⟩

theorem shadows_driveSnippet (v : Json) : Shadows (driveSnippet K now v) (driveSnippet K.logged now v) := by
  intro base s t h
  unfold driveSnippet
  dsimp only
  split_ifs
  · exact h
  · exact h
  · exact h
  · exact h.attempt (K.upsertSnippet _) _ ⟨fun _ => prefix_rfl, fun _ => rfl⟩

section

variable (h : Shadow base s t)
include h

theorem Shadow.skipLink : Shadow base (s.1, s.2.skipLink) (t.1, t.2.skipLink) :=
  h.amend (f := fun o => o.skipLink) ⟨fun _ => prefix_rfl, fun _ => rfl⟩

theorem Shadow.warn (w : String) : Shadow base (s.1, s.2.warn w) (t.1, t.2.warn w) :=
  h.amend (f := fun o => o.warn w) ⟨fun _ => prefix_rfl, fun _ => rfl⟩

end

theorem shadows_driveSessionTag (v : Json) : Shadows (driveSessionTag K v) (driveSessionTag K.logged v) := by
  intro base s t h
  unfold driveSessionTag
  dsimp only
  split_ifs
  · exact h.skipLink
  · exact h.attemptLink (K.linkSessionTag _ _) _ ⟨fun _ => prefix_rfl, fun _ => rfl⟩

theorem shadows_driveFolderTag (pathToId : List (String × String)) (v : Json) :
    Shadows (driveFolderTag K pathToId v) (driveFolderTag K.logged pathToId v) := by
  intro base s t h
  unfold driveFolderTag
  dsimp only
  split_ifs
  · exact h.skipLink
  · rcases pathToId.lookup (jsonString v "folder_path") with _ | folderId
    · exact h.skipLink
    · exact h.attemptLink (K.linkFolderTag _ _) _ ⟨fun _ => prefix_rfl, fun _ => rfl⟩

theorem shadows_driveSessionSnippet (v : Json) : Shadows (driveSessionSnippet K v) (driveSessionSnippet K.logged v) := by
  intro base s t h
  unfold driveSessionSnippet
  dsimp only
  split_ifs
  · exact h.skipLink
  · exact h.attemptLink (K.linkSessionSnippet _ _) _ ⟨fun _ => prefix_rfl, fun _ => rfl⟩

theorem shadows_driveKnownHosts (valid : String → Bool) (text : String) :
    Shadows (driveKnownHosts K valid text) (driveKnownHosts K.logged valid text) := by
  refine shadows_foldl (fun line => ?_) (text.toList.splitOn '\n')
  intro base s t h
  unfold driveKnownHost
  dsimp only
  split_ifs
  · exact h
  rcases splitSpace (trim line) with ⟨host, _ | rest⟩
  · exact h
  dsimp only
  rcases splitSpace rest with ⟨keyType, _ | key⟩
  · exact h
  · dsimp only
    split_ifs
    · exact h.warn _
    · exact h.attempt (K.upsertKnownHost _) _ ⟨fun _ => prefix_rfl, fun _ => rfl⟩

theorem shadows_driveCertificate (fromText : String → Option Json) (live : List String) (v : Json) :
    Shadows (driveCertificate K fromText live v) (driveCertificate K.logged fromText live v) := by
  intro base s t h
  unfold driveCertificate
  dsimp only
  split_ifs
  · exact h
  · exact h.attempt (K.upsertCertificate _) _ ⟨fun _ => prefix_rfl, fun _ => rfl⟩
  · exact h.warn _

section

variable (live : List String)

theorem shadows_driveChild (incomplete : Bool) (parent absent : String) (c : Call σ Unit) (label : String)
    (hcount : Keeps count) (v : Json) :
    Shadows (driveChild live incomplete parent absent c label count v)
      (driveChild live incomplete parent absent (logCall c) label count v) := by
  intro base s t h
  unfold driveChild
  split_ifs
  · exact h
  · exact h
  · exact h.attempt c label hcount
  · exact h.warn absent

theorem shadows_driveWebdav (v : Json) : Shadows (driveWebdav K live v) (driveWebdav K.logged live v) := by
  refine shadows_driveChild live _ _ _ (K.upsertWebdav _) _ ?_ v
  exact ⟨fun _ => prefix_rfl, fun _ => rfl⟩

theorem shadows_driveS3 (v : Json) : Shadows (driveS3 K live v) (driveS3 K.logged live v) := by
  refine shadows_driveChild live _ _ _ (K.upsertS3 _) _ ?_ v
  exact ⟨fun _ => prefix_rfl, fun _ => rfl⟩

theorem shadows_driveBookmark (v : Json) : Shadows (driveBookmark K now live v) (driveBookmark K.logged now live v) := by
  refine shadows_driveChild live _ _ _ (K.upsertBookmark _) _ ?_ v
  exact ⟨fun _ => prefix_rfl, fun _ => rfl⟩

theorem shadows_drivePortForward (v : Json) :
    Shadows (drivePortForward K now live v) (drivePortForward K.logged now live v) := by
  refine shadows_driveChild live _ _ _ (K.upsertPortForward _) _ ?_ v
  exact ⟨fun _ => prefix_rfl, fun _ => rfl⟩

end

end Stages

variable {mode : ApplyMode} {want : Bool}

variable {row' : List String → Json → Running (σ × List String) → Running (σ × List String)} {row : List String → Json → Running σ → Running σ} {entry : Option Text}

/-! ## The whole import -/

section Driver

variable (K : Store σ Text) (E : DriverEnv Text) (now : Int64) (options : DriverOptions) (p : FullImport Text)

theorem shadows_driveTagsPhase (pathToId : List (String × String)) :
    Shadows (driveTagsPhase K E now options p pathToId) (driveTagsPhase K.logged E now options p pathToId) := by
  intro base s t h
  refine shadows_overRows E.json _ "folder_tags" p.folderTagsJson
    (shadows_foldl (shadows_driveFolderTag K pathToId)) base _ _ ?_
  refine shadows_overRows E.json _ "session_tags" p.sessionTagsJson (shadows_foldl (shadows_driveSessionTag K)) base _ _ ?_
  exact shadows_overRows E.json _ "tags" p.tagsJson (shadows_foldl (shadows_driveTag K now)) base _ _ h

theorem shadows_driveSnippetsPhase :
    Shadows (driveSnippetsPhase K E now options p) (driveSnippetsPhase K.logged E now options p) := by
  intro base s t h
  refine shadows_overRows E.json _ "session_snippets" p.sessionSnippetsJson
    (shadows_foldl (shadows_driveSessionSnippet K)) base _ _ ?_
  exact shadows_overRows E.json _ "snippets" p.snippetsJson (shadows_foldl (shadows_driveSnippet K now)) base _ _ h

theorem shadows_overChildren (want : Bool) (what parents : String) (list : Call σ (List String)) (entry : Option Text)
    (hrow : ∀ live v, Shadows (row live v) (row' live v)) :
    Shadows (overChildren E want what parents list entry row)
      (overChildren E want what parents (logCall list) entry row') :=
  shadows_overRows E.json want what entry fun items =>
    shadows_withList list _ fun live => shadows_foldl (hrow live) items

theorem shadows_driveChildTables :
    Shadows (driveChildTables K E now options p) (driveChildTables K.logged E now options p) := by
  intro base s t h
  refine shadows_overChildren E _ _ _ K.listSessionIds _ (shadows_drivePortForward K now) base _ _ ?_
  refine shadows_overChildren E _ _ _ K.listSessionIds _ (shadows_driveBookmark K now) base _ _ ?_
  refine shadows_overChildren E _ _ _ K.listSessionIds _ (shadows_driveS3 K) base _ _ ?_
  refine shadows_overChildren E _ _ _ K.listSessionIds _ (shadows_driveWebdav K) base _ _ ?_
  exact shadows_overChildren E _ _ _ K.listKeyIds _ (shadows_driveCertificate K E.fromText) base _ _ h

theorem shadows_runDriver (mode : ApplyMode) :
    Shadows (runDriver K E now options p mode) (runDriver K.logged E now options p mode) := by
  intro base s t h
  have hkeys := shadows_overRows E.json options.applyKeys "keys" p.keysJson (shadows_driveKeys K E.toEnv now) base s t h
  obtain ⟨hpaths, hsessions⟩ :=
    shadow_driveSessionsPhase K E.toEnv now mode options.applySessions p.toPendingImport hkeys
  refine shadows_driveChildTables K E now options p base _ _ ?_
  rw [hpaths]
  have htags := shadows_driveTagsPhase K E now options p
    (driveSessionsPhase K E.toEnv now mode options.applySessions p.toPendingImport
      (overRows E.json options.applyKeys "keys" p.keysJson (driveKeys K E.toEnv now) s)).1 base _ _ hsessions
  have hsnippets := shadows_driveSnippetsPhase K E now options p base _ _ htags
  split_ifs
  · rcases p.knownHostsText with _ | text
    · exact hsnippets
    · exact shadows_driveKnownHosts K E.validBase64 text base _ _ hsnippets
  · exact hsnippets

theorem shadows_runReplaceClear : Shadows (runReplaceClear K options) (runReplaceClear K.logged options) := by
  refine shadows_foldl (fun table => ?_) (clearedTables options)
  intro base s t h
  exact h.attempt (K.clear table) _ ⟨fun _ => prefix_rfl, fun _ => rfl⟩

/-! ## What a committed import met -/

theorem Shadow.start (s : Running σ) : Shadow s.2 s ((s.1, []), s.2) := ⟨rfl, rfl, by simp, prefix_rfl, rfl⟩

theorem Shadow.clean {s₀ : Running σ} (h : Shadow s₀.2 s t) (hnil : s.2.errors = []) :
    s₀.2.errors = [] := by
  have hgrew := h.grew
  rw [hnil] at hgrew
  exact prefix_nil.1 hgrew

theorem Shadows.clean {f : Running σ → Running σ} {g : Running (σ × List String) → Running (σ × List String)}
    (h : Shadows f g) (hnil : (f s).2.errors = []) : s.2.errors = [] :=
  (h s.2 s _ (.start s)).clean hnil

def ReadsAs (J : JsonText Text) (want : Bool) (entry : Option Text) : Prop :=
  want = true → ∀ text, entry = some text → ∃ items, parseArray J text = .ok items

theorem append_singleton_ne_nil (l : List String) (e : String) : l ++ [e] ≠ [] :=
  append_ne_nil_of_right_ne_nil _ (cons_ne_nil _ _)

theorem overRows_clean {J : JsonText Text} {what : String}
        (hfg : ∀ items, Shadows (f items) (g items))
    (hnil : (overRows J want what entry f s).2.errors = []) : s.2.errors = [] ∧ ReadsAs J want entry := by
  refine ⟨(shadows_overRows J want what entry hfg).clean hnil, fun hwant text htext => ?_⟩
  subst htext
  unfold overRows at hnil
  rw [if_pos hwant, elim_some] at hnil
  rcases hparse : parseArray J text with e | items
  · rw [hparse] at hnil
    exact absurd hnil (append_singleton_ne_nil _ _)
  · exact ⟨items, rfl⟩

def PathsRead (J : JsonText Text) (want : Bool) (entry : Option Text) : Prop :=
  want = true → ∀ text, entry = some text → ∃ paths, parseStrings J text = .ok paths

def SessionsRead (J : JsonText Text) (want : Bool) (entry : Option Text) : Prop :=
  want = true → ∀ text, entry = some text → ∃ items, parseArray J text = .ok items ∧ ∀ v ∈ items, jsonString v "id" ≠ ""

theorem driveSessionsJson_clean {E : Env Text} {text : Text}
    (hnil : (driveSessionsJson K E now mode text s).2.2.errors = []) :
    ∃ items, parseArray E.json text = .ok items ∧ ∀ v ∈ items, jsonString v "id" ≠ "" := by
  unfold driveSessionsJson at hnil
  rcases hparse : parseArray E.json text with e | items
  · rw [hparse] at hnil
    exact absurd hnil (append_singleton_ne_nil _ _)
  rw [hparse] at hnil
  refine ⟨items, rfl, fun v hv hid => ?_⟩
  obtain ⟨pre, post, rfl⟩ := append_of_mem hv
  dsimp only at hnil
  rw [foldl_append, foldl_cons] at hnil
  -- The entry without an id is reported, and the entries after it lose no report.
  have hafter := (shadows_foldl (shadows_driveSession K E now mode _) post).clean hnil
  unfold driveSession at hafter
  rw [if_pos hid] at hafter
  exact append_singleton_ne_nil _ _ hafter

theorem driveSessionsPhase_clean {E : Env Text} {p : PendingImport Text}
    (hnil : (driveSessionsPhase K E now mode want p s).2.2.errors = []) :
    s.2.errors = [] ∧ SessionsRead E.json want p.sessionsJson ∧ PathsRead E.json want p.emptyFoldersJson := by
  have hstart : s.2.errors = [] := (shadow_driveSessionsPhase K E now mode want p (.start s)).2.clean hnil
  cases want with
  | false => exact ⟨hstart, (absurd · Bool.false_ne_true), (absurd · Bool.false_ne_true)⟩
  | true =>
    unfold driveSessionsPhase at hnil
    rw [if_pos rfl] at hnil
    have hempty : (p.sessionsJson.elim ([], s) fun text => driveSessionsJson K E now mode text s).2.2.errors = [] ∧
        PathsRead E.json true p.emptyFoldersJson := by
      rcases hentry : p.emptyFoldersJson with _ | text
      · rw [hentry, elim_none] at hnil
        exact ⟨hnil, fun _ text htext => by cases htext⟩
      rw [hentry, elim_some] at hnil
      rcases hparse : parseStrings E.json text with e | paths
      · rw [hparse] at hnil
        exact absurd hnil (append_singleton_ne_nil _ _)
      · rw [hparse] at hnil
        refine ⟨(shadow_driveEmptyFolders K now paths _ (.start _)).2.clean hnil, fun _ text' htext => ?_⟩
        cases htext
        exact ⟨paths, hparse⟩
    refine ⟨hstart, fun _ text htext => ?_, hempty.2⟩
    have hsessions := hempty.1
    rw [htext, elim_some] at hsessions
    exact driveSessionsJson_clean K now hsessions

structure Readable : Prop where
  keys : ReadsAs E.json options.applyKeys p.keysJson
  sessions : SessionsRead E.json options.applySessions p.sessionsJson
  emptyFolders : PathsRead E.json options.applySessions p.emptyFoldersJson
  tags : ReadsAs E.json options.applyTags p.tagsJson
  sessionTags : ReadsAs E.json (options.applySessions && options.applyTags) p.sessionTagsJson
  folderTags : ReadsAs E.json (options.applySessions && options.applyTags) p.folderTagsJson
  snippets : ReadsAs E.json options.applySnippets p.snippetsJson
  sessionSnippets : ReadsAs E.json (options.applySessions && options.applySnippets) p.sessionSnippetsJson
  certificates : ReadsAs E.json options.applyKeys p.sshKeyCertificatesJson
  webdav : ReadsAs E.json options.applySessions p.webdavSessionDetailsJson
  s3 : ReadsAs E.json options.applySessions p.s3SessionDetailsJson
  bookmarks : ReadsAs E.json options.applySessions p.sftpBookmarksJson
  portForwards : ReadsAs E.json options.applySessions p.portForwardRulesJson

theorem overChildren_clean {what parents : String} {list : Call σ (List String)}
    (hrow : ∀ live v, Shadows (row live v) (row' live v))
    (hnil : (overChildren E want what parents list entry row s).2.errors = []) :
    s.2.errors = [] ∧ ReadsAs E.json want entry :=
  overRows_clean (fun items => shadows_withList list _ fun live => shadows_foldl (hrow live) items) hnil

theorem runDriver_clean (hnil : (runDriver K E now options p mode s).2.errors = []) :
    Readable E options p := by
  obtain ⟨hnil, hforwards⟩ := overChildren_clean E (shadows_drivePortForward K now) hnil
  obtain ⟨hnil, hbookmarks⟩ := overChildren_clean E (shadows_driveBookmark K now) hnil
  obtain ⟨hnil, hs3⟩ := overChildren_clean E (shadows_driveS3 K) hnil
  obtain ⟨hnil, hwebdav⟩ := overChildren_clean E (shadows_driveWebdav K) hnil
  obtain ⟨hnil, hcertificates⟩ := overChildren_clean E (shadows_driveCertificate K E.fromText) hnil
  have hhosts : ∀ s : Running σ, (if options.applyKnownHosts then
      p.knownHostsText.elim s fun text => driveKnownHosts K E.validBase64 text s else s).2.errors = [] →
      s.2.errors = [] := by
    intro s hnil
    split_ifs at hnil
    · rcases htext : p.knownHostsText with _ | text
      · rwa [htext] at hnil
      · rw [htext] at hnil
        exact (shadows_driveKnownHosts K E.validBase64 text).clean hnil
    · exact hnil
  have hnil := hhosts _ hnil
  obtain ⟨hnil, hsessionSnippets⟩ := overRows_clean (shadows_foldl (shadows_driveSessionSnippet K)) hnil
  obtain ⟨hnil, hsnippets⟩ := overRows_clean (shadows_foldl (shadows_driveSnippet K now)) hnil
  obtain ⟨hnil, hfolderTags⟩ := overRows_clean (shadows_foldl (shadows_driveFolderTag K _)) hnil
  obtain ⟨hnil, hsessionTags⟩ := overRows_clean (shadows_foldl (shadows_driveSessionTag K)) hnil
  obtain ⟨hnil, htags⟩ := overRows_clean (shadows_foldl (shadows_driveTag K now)) hnil
  obtain ⟨hnil, hsessions, hempty⟩ := driveSessionsPhase_clean K now hnil
  obtain ⟨-, hkeys⟩ := overRows_clean (shadows_driveKeys K E.toEnv now) hnil
  exact ⟨hkeys, hsessions, hempty, htags, hsessionTags, hfolderTags, hsnippets, hsessionSnippets, hcertificates,
    hwebdav, hs3, hbookmarks, hforwards⟩

theorem shadow_replaceRun (db : σ) :
    Shadow {} (replaceRun K E now options p db) (replaceRun K.logged E now options p (db, [])) := by
  refine shadows_runDriver K E now options p _ {} _ _ ?_
  exact shadows_runReplaceClear K options {} _ _ (.start (db, {}))

theorem logged_replaceRun {db : σ} (hnil : (replaceRun K E now options p db).2.errors = []) :
    replaceRun K.logged E now options p (db, []) =
      (((replaceRun K E now options p db).1, []), (replaceRun K E now options p db).2) := by
  have hshadow := shadow_replaceRun K E now options p db
  have hlog : (replaceRun K.logged E now options p (db, [])).1.2 = [] := by
    rw [eq_nil_iff_forall_not_mem]
    intro e he
    obtain ⟨label, hlabel⟩ := hshadow.reported e he
    rw [hnil] at hlabel
    cases hlabel
  exact Prod.ext (Prod.ext hshadow.state hlog) hshadow.outcome

theorem applyReplace_cases (tx : TxResults) (db : σ) : (∃ o e, applyReplace K E now options p tx db = (db, o, .error e)) ∨
    ((replaceRun K E now options p db).2.errors ≠ [] ∧
      applyReplace K E now options p tx db =
        (db, { (replaceRun K E now options p db).2 with rolledBack := true }, .ok ())) ∨
      (tx.begin_ = none ∧ tx.commit = none ∧ (replaceRun K E now options p db).2.errors = [] ∧
        applyReplace K E now options p tx db =
          ((replaceRun K E now options p db).1, (replaceRun K E now options p db).2, .ok ())) := by
  unfold applyReplace
  rcases tx.begin_ with _ | e
  · by_cases herrors : (replaceRun K E now options p db).2.errors ≠ []
    · simp only [if_pos herrors]
      rcases tx.rollback with _ | e
      · exact .inr (.inl ⟨herrors, rfl⟩)
      · exact .inl ⟨_, _, rfl⟩
    · simp only [if_neg herrors]
      rcases tx.commit with _ | e
      · exact .inr (.inr ⟨trivial, rfl, not_not.1 herrors, rfl⟩)
      · exact .inl ⟨_, _, rfl⟩
  · exact .inl ⟨_, _, rfl⟩

/-- **All or nothing.** When a replace import returns an outcome, that is marked as rolled back exactly
when it has errors; unless it returns one without errors, the store is as before; and of a committed
run no call failed and every chosen entry could be read. -/
theorem replace_all_or_nothing (tx : TxResults) (db : σ) : ((applyReplace K E now options p tx db).2.2 = .ok () →
      ((applyReplace K E now options p tx db).2.1.rolledBack = true ↔
        (applyReplace K E now options p tx db).2.1.errors ≠ [])) ∧
    ((applyReplace K E now options p tx db).2.2 ≠ .ok () ∨ (applyReplace K E now options p tx db).2.1.errors ≠ [] →
      (applyReplace K E now options p tx db).1 = db) ∧
    ((applyReplace K E now options p tx db).2.2 = .ok () → (applyReplace K E now options p tx db).2.1.rolledBack = false →
      applyReplace K.logged E now options p tx (db, []) =
          (((applyReplace K E now options p tx db).1, []), (applyReplace K E now options p tx db).2) ∧
        Readable E options p) := by
  rcases applyReplace_cases K E now options p tx db with ⟨o, e, h⟩ | ⟨herrors, h⟩ | ⟨hbegin, hcommit, hnil, h⟩
  · rw [h]
    exact ⟨(by rintro ⟨⟩), fun _ => rfl, (by rintro ⟨⟩)⟩
  · rw [h]
    exact ⟨fun _ => iff_of_true rfl herrors, fun _ => rfl, fun _ => (by rintro ⟨⟩)⟩
  · rw [h]
    have hmark : (replaceRun K E now options p db).2.rolledBack = false := (shadow_replaceRun K E now options p db).mark
    refine ⟨fun _ => ?_, fun hbad => ?_, fun _ _ => ⟨?_, runDriver_clean K E now options p hnil⟩⟩
    · rw [hmark]
      simp [hnil]
    · rcases hbad with hbad | hbad
      · exact absurd rfl hbad
      · exact absurd hnil hbad
    · have hrun := logged_replaceRun K E now options p hnil
      unfold applyReplace
      rw [hbegin, hcommit]
      rw [hrun, if_neg (not_not.2 hnil)]

end Driver

/-! ## A commit that is refused -/

def replaceTags (items : List Json) (tx : TxResults) : Db ParsedText × DriverOutcome × Except String Unit :=
  applyReplace (dbStore plainEnv 40) plainDriverEnv 40 ⟨⟨false, false, true, false⟩, false⟩
    { tagsJson := some (.json (.arr items)) } tx Db.empty

/-- A call whose commit is refused fails without a mark; and an import that drops a tag without a
name is committed without an error. -/
theorem refused_commit_without_mark :
    (replaceTags [] { commit := some "disk I/O error" }).2.2 = .error "apply tx commit: disk I/O error" ∧
      (replaceTags [] { commit := some "disk I/O error" }).2.1.rolledBack = false ∧
      (replaceTags [.obj [("id", .str "t"), ("name", .str "")]] {}).2.2 = .ok () ∧
      (replaceTags [.obj [("id", .str "t"), ("name", .str "")]] {}).2.1 = {} ∧
      (replaceTags [.obj [("id", .str "t"), ("name", .str "")]] {}).1.tags.get "t" = none :=
  ⟨rfl, rfl, rfl, rfl, rfl⟩

end LetsFlutSsh.Archive
