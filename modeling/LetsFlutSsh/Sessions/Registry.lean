import LetsFlutSsh.Db.FolderPath
import LetsFlutSsh.Lib.Run

/-!
# The session cache

Writers change the tables and reload the cache. A reload reads the tables under one lock and stores what it read under
another.

* `buildView` : the view of the tables;
* `step` : one step of one writer;
* `Fits`, `cache_follows` : when the cache ends up with the view of the final tables.
-/

namespace LetsFlutSsh.Sessions.Cache
open Lib Function

variable {Text : Type}

structure SessionCredentialFlags where
  hasWebdavPassword : Bool
  hasS3SecretAccessKey : Bool

/-- The tables that a view is built from; of the live WebDAV and S3 details only the secret columns count. -/
structure Tables (Text : Type) where
  db : Db Text
  webdavPassword : String → Option String
  s3SecretAccessKey : String → Option String

structure RegistryView (Text : Type) where
  sessions : List (SessionRow Text)
  folders : List (String × FolderRow)
  emptyFolders : List String
  collapsedFolders : List String
  credentialFlags : List (String × SessionCredentialFlags)

def Tables.flags (t : Tables Text) (id : String) : SessionCredentialFlags where
  hasWebdavPassword := (t.webdavPassword id).any (· ≠ "")
  hasS3SecretAccessKey := (t.s3SecretAccessKey id).any (· ≠ "")

/-- The paths of some folders as a sorted set, without that of the root. -/
def folderPaths (db : Db Text) (keep : String × FolderRow → Bool) : List String :=
  sortDedup ((((Folders.folderMap db).filter keep).map fun e => Folders.buildFolderPath db e.1).filter (· ≠ ""))

def deriveEmptyFolders (db : Db Text) (usedFolderIds : List String) : List String :=
  folderPaths db fun e => e.1 ∉ usedFolderIds

def deriveCollapsedFolders (db : Db Text) : List String := folderPaths db (·.2.collapsed)

/-- What `reload` builds under the lock of the database. -/
def buildView (t : Tables Text) : RegistryView Text :=
  let sessions := Sessions.listAll t.db
  { sessions
    folders := Folders.folderMap t.db
    emptyFolders := deriveEmptyFolders t.db (sessions.filterMap (·.folderId))
    collapsedFolders := deriveCollapsedFolders t.db
    credentialFlags := sessions.map fun row => (row.id, t.flags row.id) }

/-- Where a writer is: a view it has read goes with the number of changes before the read. -/
inductive Phase (Text : Type) where
  | idle
  | changed
  | loaded (readAt : Nat) (view : RegistryView Text)
  | stored
  | done

def Phase.Settled : Phase Text → Prop
  | .changed | .loaded _ _ => False
  | .idle | .stored | .done => True

def Phase.Returned : Phase Text → Prop
  | .idle | .done => True
  | .changed | .loaded _ _ | .stored => False

structure State (Text : Type) where
  tables : Tables Text
  changes : Nat
  cache : RegistryView Text
  writers : Nat → Phase Text
  published : Nat

/-- A step of a writer: a change of the tables, or the read, the store or the event of `reload_and_notify`. -/
inductive Step (Text : Type) where
  | change (w : Nat) (new : Tables Text)
  | load (w : Nat)
  | store (w : Nat)
  | notify (w : Nat)

def State.become (s : State Text) (w : Nat) (phase : Phase Text) : State Text :=
  { s with writers := update s.writers w phase }

def step (s : State Text) : Step Text → Option (State Text)
  | .change w new =>
    match s.writers w with
    | .loaded _ _ | .stored => none
    | .idle | .changed | .done => some ({ s with tables := new, changes := s.changes + 1 }.become w .changed)
  | .load w =>
    match s.writers w with
    | .changed => some (s.become w (.loaded s.changes (buildView s.tables)))
    | _ => none
  | .store w =>
    match s.writers w with
    | .loaded _ view => some ({ s with cache := view }.become w .stored)
    | _ => none
  | .notify w =>
    match s.writers w with
    | .stored => some ({ s with published := s.published + 1 }.become w .done)
    | _ => none

/-- A writer that is the last with a view to store has read the tables after their last change. -/
def Fits (s : State Text) : Step Text → Prop
  | .store w => (∀ w', w' ≠ w → (s.writers w').Settled) → ∀ n view, s.writers w = .loaded n view → n = s.changes
  | _ => True

/-- A view that was read after the last change is that of the tables, and so is the cache when all views are stored. -/
structure Follows (s : State Text) : Prop where
  views : ∀ w n view, s.writers w = .loaded n view → n ≤ s.changes ∧ (n = s.changes → view = buildView s.tables)
  cache : (∀ w, (s.writers w).Settled) → s.cache = buildView s.tables

section
variable {s t : State Text}

theorem writers_become (w : Nat) (phase : Phase Text) : (s.become w phase).writers w = phase := update_self ..

theorem writers_become_of_ne {w w' : Nat} (h : w' ≠ w) (phase : Phase Text) : (s.become w phase).writers w' = s.writers w' :=
  update_of_ne h ..

theorem follows_become {w : Nat} {phase : Phase Text} (hothers : ∀ w', w' ≠ w → ∀ n view, s.writers w' = .loaded n view →
      n ≤ s.changes ∧ (n = s.changes → view = buildView s.tables))
    (hphase : ∀ n view, phase = .loaded n view → n ≤ s.changes ∧ (n = s.changes → view = buildView s.tables))
    (hcache : phase.Settled → (∀ w', w' ≠ w → (s.writers w').Settled) → s.cache = buildView s.tables) :
    Follows (s.become w phase) := by
  refine ⟨fun w' n view hw' => ?_, fun hall => hcache ?_ fun w' hne => ?_⟩
  · rcases eq_or_ne w' w with rfl | hne
    · exact hphase n view (by rwa [writers_become] at hw')
    · exact hothers w' hne n view (by rwa [writers_become_of_ne hne] at hw')
  · have hself := hall w
    rwa [writers_become] at hself
  · have hother := hall w'
    rwa [writers_become_of_ne hne] at hother

theorem step_follows {l : Step Text} (h : Follows s) (hfits : Fits s l) (hstep : step s l = some t) : Follows t := by
  cases l with
  | change w new =>
    -- What was read before is older than the change.
    have hnew : Follows (({ s with tables := new, changes := s.changes + 1 } : State Text).become w .changed) := by
      refine follows_become (fun w' _ n view hw' => ?_) nofun fun hsettled => hsettled.elim
      have hle := (h.views w' n view hw').1
      exact ⟨Nat.le_succ_of_le hle, fun heq => absurd heq (Nat.ne_of_lt (Nat.lt_succ_of_le hle))⟩
    unfold step at hstep
    dsimp only at hstep
    split at hstep
    · cases hstep
    · cases hstep
    all_goals
      cases hstep
      exact hnew
  | load w =>
    unfold step at hstep
    dsimp only at hstep
    split at hstep
    · cases hstep
      refine follows_become (fun w' _ => h.views w') (fun n view heq => ?_) fun hsettled => hsettled.elim
      cases heq
      exact ⟨Nat.le_refl _, fun _ => rfl⟩
    · cases hstep
  | store w =>
    unfold step at hstep
    dsimp only at hstep
    split at hstep
    · next n view hw =>
      cases hstep
      exact follows_become (fun w' _ => h.views w') nofun fun _ hothers => (h.views w n view hw).2 (hfits hothers n view hw)
    · cases hstep
  | notify w =>
    unfold step at hstep
    dsimp only at hstep
    split at hstep
    · next hw =>
      cases hstep
      refine follows_become (fun w' _ => h.views w') nofun fun _ hothers => h.cache fun w' => ?_
      rcases eq_or_ne w' w with rfl | hne
      · rw [hw]
        trivial
      · exact hothers w' hne
    · cases hstep

theorem Phase.Returned.settled {phase : Phase Text} (h : phase.Returned) : phase.Settled := by
  cases phase with
  | idle => trivial
  | done => trivial
  | changed => cases h
  | loaded => cases h
  | stored => cases h

/-- **The cache follows the tables**: where no view that is stored last was read before the last change, the cache is the view
of the final tables once all calls have returned. -/
theorem cache_follows {ls : List (Step Text)} (hstart : (∀ w, s.writers w = .idle) ∧ s.cache = buildView s.tables)
    (hfits : Along step Fits s ls) (hrun : run step s ls = some t) (hreturned : ∀ w, (t.writers w).Returned) :
    t.cache = buildView t.tables := by
  have hfollows : Follows s := ⟨fun w n view hw => absurd ((hstart.1 w).symm.trans hw) nofun, fun _ => hstart.2⟩
  have hend : Follows t := run_invariant (fun _ _ _ h hok => step_follows h hok) hfollows hfits hrun
  exact hend.cache fun w => (hreturned w).settled

end

def noTables : Tables Unit := { db := .empty, webdavPassword := fun _ => none, s3SecretAccessKey := fun _ => none }

def oneFolder : Tables Unit := { noTables with db := { (.empty : Db Unit) with folders := Table.empty.set "f" ⟨"a", none, 0, false, 0⟩ } }

def startState : State Unit :=
  { tables := noTables, changes := 0, cache := buildView noTables, writers := fun _ => .idle, published := 0 }

/-- The second writer removes the folder again, between the read and the store of the first. -/
def overtaken : List (Step Unit) :=
  [.change 0 oneFolder, .load 0, .change 1 noTables, .load 1, .store 1, .notify 1, .store 0, .notify 0]

theorem returned_of_two {t : State Unit} (h : ∀ w, w ≠ 0 → w ≠ 1 → t.writers w = .idle) (h0 : t.writers 0 = .done)
    (h1 : t.writers 1 = .done) (w : Nat) : (t.writers w).Returned := by
  rcases w with _ | _ | w
  · rw [h0]
    trivial
  · rw [h1]
    trivial
  · rw [h (w + 2) (by omega) (by omega)]
    trivial

/-- **A slow reload stores an older view over a newer one.** -/
theorem overtaken_goes_back : ∃ t, run step startState overtaken = some t ∧ (∀ w, (t.writers w).Returned) ∧
    t.cache ≠ buildView t.tables := by
  refine ⟨_, rfl, returned_of_two (fun w h0 h1 => ?_) rfl rfl, fun heq => ?_⟩
  · simp [State.become, update, h0, h1, startState]
  have hfolders : (buildView oneFolder).folders = (buildView noTables).folders := congrArg RegistryView.folders heq
  exact absurd (congrArg List.length hfolders) (by decide +kernel)

/-- The second writer changes the tables and reads them while the first has its view in hand, and stores its own last. -/
def overlapping : List (Step Unit) :=
  [.change 0 oneFolder, .load 0, .change 1 noTables, .load 1, .store 0, .notify 0, .store 1, .notify 1]

theorem cache_follows_overlapping : ∃ t, run step startState overlapping = some t ∧ t.cache = buildView t.tables := by
  refine ⟨_, rfl, cache_follows ⟨fun _ => rfl, rfl⟩ (?_ : Along step Fits startState overlapping) rfl (returned_of_two ?_ rfl rfl)⟩
  · refine along_cons rfl trivial (along_cons rfl trivial (along_cons rfl trivial (along_cons rfl trivial
      (along_cons rfl ?_ (along_cons rfl trivial (along_cons rfl ?_ (along_cons rfl trivial trivial)))))))
    · exact fun hothers => absurd (hothers 1 (by decide)) id
    · intro _ n view hw
      cases hw
      rfl
  · intro w h0 h1
    simp [State.become, update, h0, h1, startState]

end LetsFlutSsh.Sessions.Cache
