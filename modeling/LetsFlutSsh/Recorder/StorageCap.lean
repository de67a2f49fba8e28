import LetsFlutSsh.Lib.Shed
import LetsFlutSsh.Recorder.Writer
import Mathlib.Data.List.Nodup

/-!
# Recorder: the storage cap

`recorder/storage_cap.rs`: the sweep that keeps the tree of recordings below a size.

* `RecordingsTree` : what is below the root: sessions, and the files in each;
* `collectEntries`, `enforceStorageCap` : the walk and the sweep; what the system answers to each unlink is
  an input;
* `SoundSweep` : what the sweep should do;
* `soundSweep_iff` : it does so exactly when the sizes fit 64 bits and no sidecar of an active recording comes up.
-/

namespace LetsFlutSsh.Recorder
open Lib List

/-! ## The tree -/

/-- The components of an absolute path, as `Path::eq` compares them. -/
abbrev Path := List String

def Path.display (p : Path) : String := "/" ++ "/".intercalate p

/-- `sidecar_path`: `.idx` after the whole file name. -/
def sidecarPath (p : Path) : Path := p.dropLast ++ [p.getLastD "" ++ ".idx"]

inductive FileType where
  | dir
  | file
  | symlink
  | other
  deriving DecidableEq

/-- What `symlink_metadata` tells. The time of modification may be unknown. -/
structure Metadata where
  fileType : FileType
  len : UInt64
  modified : Option Nat

structure FileEntry where
  name : String
  metadata : Option Metadata

/-- An entry of the root, and the files in it where it can be listed. -/
structure SessionEntry where
  name : String
  metadata : Option Metadata
  files : Option (List FileEntry)

inductive Listing where
  | notFound
  | failed (e : String)
  | entries (sessions : List SessionEntry)

def Listing.sessions : Listing → List SessionEntry
  | .entries ss => ss
  | _ => []

/-- The tree of recordings. Names are unique in a directory. -/
structure RecordingsTree where
  root : Path
  listing : Listing
  nodup_sessions : (listing.sessions.map (·.name)).Nodup
  nodup_files : ∀ s ∈ listing.sessions, ∀ fs, s.files = some fs → (fs.map (·.name)).Nodup

structure WalkedEntry where
  path : Path
  sizeBytes : Nat
  mtime : Option Nat
  deriving DecidableEq

def FileEntry.walked (dir : Path) (f : FileEntry) : Option WalkedEntry :=
  match f.metadata with
  | some m => if m.fileType = .file then some ⟨dir ++ [f.name], m.len.toNat, m.modified⟩ else none
  | none => none

def SessionEntry.walked (root : Path) (s : SessionEntry) : List WalkedEntry :=
  match s.metadata, s.files with
  | some m, some fs => if m.fileType = .dir then fs.filterMap (·.walked (root ++ [s.name])) else []
  | _, _ => []

def RecordingsTree.files (t : RecordingsTree) : List WalkedEntry := t.listing.sessions.flatMap (·.walked t.root)

def collectEntries (t : RecordingsTree) : Except Error (List WalkedEntry) :=
  match t.listing with
  | .failed e => .error (.io ("read_dir " ++ t.root.display ++ ": " ++ e))
  | .notFound => .ok []
  | .entries _ => .ok t.files

def usedBytes (entries : List WalkedEntry) : Nat := weight (·.sizeBytes) entries % 2 ^ 64

/-! ## The sweep -/

structure EvictionOutcome where
  filesEvicted : Nat
  bytesReclaimed : Nat
  usedAfter : Nat

/-- The order of the sweep: unknown times first, then the oldest. -/
def older (a b : WalkedEntry) : Bool :=
  match a.mtime, b.mtime with
  | none, _ => true
  | some _, none => false
  | some x, some y => x ≤ y

section
variable (capBytes : Nat) (activePaths : List Path) (unlink : Path → Option String)

def evictLoop : EvictionOutcome → List WalkedEntry → EvictionOutcome × List WalkedEntry
  | o, [] => (o, [])
  | o, e :: es =>
    if o.usedAfter ≤ capBytes then (o, [])
    else if e.path ∈ activePaths then evictLoop o es
    else
      match unlink e.path with
      | some _ => evictLoop o es
      | none =>
        let r := evictLoop {
          filesEvicted := min (o.filesEvicted + 1) (2 ^ 32 - 1)
          bytesReclaimed := satAdd o.bytesReclaimed e.sizeBytes
          usedAfter := o.usedAfter - e.sizeBytes } es
        (r.1, e :: r.2)

def evictable (e : WalkedEntry) : Bool := !decide (e.path ∈ activePaths) && (unlink e.path).isNone

end

def Listing.remove (root : Path) (paths : List Path) : Listing → Listing
  | .entries ss => .entries (ss.map fun s =>
      { s with files := s.files.map fun fs => fs.filter fun f => root ++ [s.name, f.name] ∉ paths })
  | l => l

theorem Listing.sessions_remove (root : Path) (paths : List Path) (l : Listing) :
    (l.remove root paths).sessions = l.sessions.map fun s =>
      { s with files := s.files.map fun fs => fs.filter fun f => root ++ [s.name, f.name] ∉ paths } := by
  cases l <;> rfl

def RecordingsTree.remove (t : RecordingsTree) (paths : List Path) : RecordingsTree where
  root := t.root
  listing := t.listing.remove t.root paths
  nodup_sessions := by
    rw [Listing.sessions_remove, List.map_map]
    exact t.nodup_sessions
  nodup_files := by
    rw [Listing.sessions_remove]
    intro s' hs' fs' hfs
    obtain ⟨s, hs, rfl⟩ := List.mem_map.mp hs'
    obtain ⟨fs, hold, rfl⟩ := Option.map_eq_some_iff.mp hfs
    exact (t.nodup_files s hs fs hold).sublist (List.filter_sublist.map _)

/-- The tree after a sweep, the files that went, in order, and what is reported. -/
structure Evicted where
  tree : RecordingsTree
  removed : List WalkedEntry
  outcome : EvictionOutcome

def enforceStorageCap (t : RecordingsTree) (capBytes : Nat) (activePaths : List Path) (unlink : Path → Option String) :
    Except Error Evicted := do
  let entries ← collectEntries t
  let used := usedBytes entries
  if used ≤ capBytes then return { tree := t, removed := [], outcome := ⟨0, 0, used⟩ }
  else
    let r := evictLoop capBytes activePaths unlink ⟨0, 0, used⟩ (entries.mergeSort older)
    return { tree := t.remove (r.2.map (·.path)), removed := r.2, outcome := r.1 }

/-! ## What is left -/

variable {e : WalkedEntry}

theorem FileEntry.path_walked {dir : Path} {f : FileEntry} (h : f.walked dir = some e) :
    e.path = dir ++ [f.name] := by
  unfold FileEntry.walked at h
  split at h
  · split_ifs at h
    cases h
    rfl
  · cases h

theorem walked_filter (dir : Path) (paths : List Path) (fs : List FileEntry) :
    (fs.filter fun f => dir ++ [f.name] ∉ paths).filterMap (·.walked dir) =
      (fs.filterMap (·.walked dir)).filter fun e => e.path ∉ paths := by
  induction fs with
  | nil => rfl
  | cons f fs ih =>
    rcases hf : f.walked dir with _ | e
    · rw [filterMap_cons_none hf, filter_cons]
      split_ifs
      · rw [filterMap_cons_none hf, ih]
      · exact ih
    · rw [filterMap_cons_some hf, filter_cons, filter_cons, FileEntry.path_walked hf]
      split_ifs
      · rw [filterMap_cons_some hf, ih]
      · exact ih

theorem files_remove (t : RecordingsTree) (paths : List Path) :
    (t.remove paths).files = t.files.filter fun e => e.path ∉ paths := by
  unfold RecordingsTree.files RecordingsTree.remove
  rw [Listing.sessions_remove, flatMap_map, filter_flatMap]
  refine flatMap_congr fun s _ => ?_
  obtain ⟨name, metadata, files⟩ := s
  rcases metadata with _ | m
  · rfl
  rcases files with _ | fs
  · rfl
  have happ : ∀ f : FileEntry, t.root ++ [name, f.name] = (t.root ++ [name]) ++ [f.name] := by
    intro f
    rw [append_assoc, singleton_append]
  simp only [SessionEntry.walked, Option.map_some, happ]
  split_ifs
  · exact walked_filter _ paths fs
  · rfl

theorem SessionEntry.path_walked {root : Path} {s : SessionEntry} (h : e ∈ s.walked root) :
    ∃ name, e.path = root ++ [s.name] ++ [name] := by
  unfold SessionEntry.walked at h
  split at h
  · split_ifs at h
    · obtain ⟨f, -, hf⟩ := mem_filterMap.mp h
      exact ⟨f.name, FileEntry.path_walked hf⟩
    · exact absurd h not_mem_nil
  · exact absurd h not_mem_nil

theorem nodup_walked (root : Path) {s : SessionEntry} (h : ∀ fs, s.files = some fs → (fs.map (·.name)).Nodup) :
    ((s.walked root).map (·.path)).Nodup := by
  unfold SessionEntry.walked
  split
  · rename_i m fs _ hfs
    split_ifs
    · have hnodup := h fs hfs
      clear h hfs
      induction fs with
      | nil => exact nodup_nil
      | cons f fs ih =>
        rw [map_cons, nodup_cons] at hnodup
        rcases hf : f.walked (root ++ [s.name]) with _ | e
        · rw [filterMap_cons_none hf]
          exact ih hnodup.2
        rw [filterMap_cons_some hf, map_cons, nodup_cons]
        refine ⟨fun hmem => hnodup.1 ?_, ih hnodup.2⟩
        obtain ⟨e', he', hpath⟩ := mem_map.mp hmem
        obtain ⟨f', hf', hwalk⟩ := mem_filterMap.mp he'
        rw [FileEntry.path_walked hf, FileEntry.path_walked hwalk] at hpath
        rw [← singleton_inj.mp (append_cancel_left hpath)]
        exact mem_map_of_mem hf'
    · exact nodup_nil
  · exact nodup_nil

theorem nodup_files (t : RecordingsTree) : (t.files.map (·.path)).Nodup := by
  unfold RecordingsTree.files
  rw [map_flatMap, nodup_flatMap]
  refine ⟨fun s hs => nodup_walked t.root (t.nodup_files s hs), ?_⟩
  refine (pairwise_map.mp t.nodup_sessions).imp fun {s s'} hne => ?_
  intro p hp hp'
  obtain ⟨e, he, rfl⟩ := mem_map.mp hp
  obtain ⟨e', he', hpath⟩ := mem_map.mp hp'
  obtain ⟨name, hname⟩ := SessionEntry.path_walked he
  obtain ⟨name', hname'⟩ := SessionEntry.path_walked he'
  rw [hname, hname'] at hpath
  obtain ⟨hdir, -⟩ := append_inj' hpath rfl
  exact hne (singleton_inj.mp (append_cancel_left hdir)).symm

/-! ## The loop -/

section
variable (capBytes : Nat) (activePaths : List Path) (unlink : Path → Option String)

theorem evictLoop_eq (o : EvictionOutcome) (es : List WalkedEntry) : (evictLoop capBytes activePaths unlink o es).2 =
      shed (·.sizeBytes) capBytes o.usedAfter (es.filter (evictable activePaths unlink)) ∧
    (evictLoop capBytes activePaths unlink o es).1.usedAfter =
      o.usedAfter - weight (·.sizeBytes) (evictLoop capBytes activePaths unlink o es).2 := by
  induction es generalizing o with
  | nil => exact ⟨rfl, rfl⟩
  | cons e es ih =>
    rw [evictLoop]
    by_cases hcap : o.usedAfter ≤ capBytes
    · rw [if_pos hcap, shed_of_le hcap]
      exact ⟨rfl, rfl⟩
    rw [if_neg hcap]
    by_cases hactive : e.path ∈ activePaths
    · rw [if_pos hactive, filter_cons_of_neg (by simp [evictable, hactive])]
      exact ih o
    rw [if_neg hactive]
    rcases hunlink : unlink e.path with _ | err
    · rw [filter_cons_of_pos (by simp [evictable, hactive, hunlink]), shed, if_neg hcap]
      obtain ⟨hgone, hused⟩ := ih {
          filesEvicted := min (o.filesEvicted + 1) (2 ^ 32 - 1)
          bytesReclaimed := satAdd o.bytesReclaimed e.sizeBytes
          usedAfter := o.usedAfter - e.sizeBytes }
      refine ⟨congrArg (e :: ·) hgone, ?_⟩
      rw [weight_cons, ← Nat.sub_sub]
      exact hused
    · rw [filter_cons_of_neg (by simp [evictable, hunlink])]
      exact ih o

end

theorem older_trans (a b c : WalkedEntry) (hab : older a b = true) (hbc : older b c = true) : older a c = true := by
  obtain ⟨_, _, x⟩ := a
  obtain ⟨_, _, y⟩ := b
  obtain ⟨_, _, z⟩ := c
  rcases x with _ | x
  · rfl
  rcases y with _ | y
  · cases hab
  rcases z with _ | z
  · cases hbc
  · simp only [older, decide_eq_true_eq] at *
    omega

theorem older_total (a b : WalkedEntry) : (older a b || older b a) = true := by
  obtain ⟨_, _, x⟩ := a
  obtain ⟨_, _, y⟩ := b
  rcases x with _ | x
  · rfl
  rcases y with _ | y
  · rfl
  · simp only [older, Bool.or_eq_true, decide_eq_true_eq]
    omega

/-! ## What the sweep should do -/

def candidates (t : RecordingsTree) (activePaths : List Path) (unlink : Path → Option String) : List WalkedEntry :=
  (t.files.mergeSort older).filter (evictable activePaths unlink)

/-- **A sound sweep.** Only inactive files go, the oldest first; the report is the size of what is left, within the
cap unless nothing evictable is left; the files of the active recordings and their sidecars stay. -/
structure SoundSweep (t : RecordingsTree) (capBytes : Nat) (activePaths : List Path) (unlink : Path → Option String)
    (r : Evicted) : Prop where
  inactive : ∀ e ∈ r.removed, e ∈ t.files ∧ e.path ∉ activePaths
  ordered : r.removed.Pairwise fun d e => older d e = true
  oldest : ∀ e ∈ t.files, evictable activePaths unlink e = true → e ∉ r.removed → ∀ d ∈ r.removed, older d e = true
  remaining : r.tree.files = t.files.filter fun e => e.path ∉ r.removed.map (·.path)
  used : r.outcome.usedAfter = weight (·.sizeBytes) r.tree.files
  stops : r.outcome.usedAfter ≤ capBytes ∨ ∀ e ∈ r.tree.files, evictable activePaths unlink e = false
  spared : ∀ a ∈ activePaths, ∀ e ∈ r.removed, e.path ≠ a ∧ e.path ≠ sidecarPath a

/-- No sidecar of an active recording comes up before the tree is within the cap. -/
def SidecarsSpared (t : RecordingsTree) (capBytes : Nat) (activePaths : List Path) (unlink : Path → Option String) : Prop :=
  ∀ a ∈ activePaths, ∀ pre e post, candidates t activePaths unlink = pre ++ e :: post → e.path = sidecarPath a →
    weight (·.sizeBytes) t.files ≤ capBytes + weight (·.sizeBytes) pre

section
variable {t : RecordingsTree} {capBytes : Nat} {activePaths : List Path} {unlink : Path → Option String} {r : Evicted}

theorem enforceStorageCap_eq_ok (h : enforceStorageCap t capBytes activePaths unlink = .ok r) :
    r.removed = shed (·.sizeBytes) capBytes (usedBytes t.files) (candidates t activePaths unlink) ∧
      r.outcome.usedAfter = usedBytes t.files - weight (·.sizeBytes) r.removed ∧
      r.tree.files = t.files.filter fun e => e.path ∉ r.removed.map (·.path) := by
  have hlist : collectEntries t = .ok t.files := by
    unfold enforceStorageCap at h
    unfold collectEntries at h ⊢
    rcases hl : t.listing with _ | e | ss
    · rw [RecordingsTree.files, hl]
      rfl
    · rw [hl] at h
      cases h
    · rfl
  simp only [enforceStorageCap, hlist, bind, Except.bind] at h
  split_ifs at h with hcap
  · cases h
    refine ⟨(shed_of_le hcap _).symm, rfl, ?_⟩
    simp
  · cases h
    obtain ⟨hgone, hused⟩ := evictLoop_eq capBytes activePaths unlink ⟨0, 0, usedBytes t.files⟩ (t.files.mergeSort older)
    exact ⟨hgone, hused, files_remove t _⟩

theorem mem_candidates :
    e ∈ candidates t activePaths unlink ↔ e ∈ t.files ∧ evictable activePaths unlink e = true := by
  rw [candidates, mem_filter, mem_mergeSort]

theorem pairwise_candidates (t : RecordingsTree) (activePaths : List Path) (unlink : Path → Option String) :
    (candidates t activePaths unlink).Pairwise fun d e => older d e = true :=
  (pairwise_mergeSort older_trans older_total t.files).filter _

theorem eq_of_path {d : WalkedEntry} (hd : d ∈ t.files) (he : e ∈ t.files) (h : d.path = e.path) : d = e :=
  inj_on_of_nodup_map (nodup_files t) hd he h

theorem weight_remaining {g : List WalkedEntry} (hg : g <+: candidates t activePaths unlink) :
    weight (·.sizeBytes) (t.files.filter fun e => e.path ∉ g.map (·.path)) + weight (·.sizeBytes) g =
      weight (·.sizeBytes) t.files := by
  have hnodup : (t.files.mergeSort older).Nodup := (mergeSort_perm _ _).nodup_iff.mpr (nodup_files t).of_map
  have hgnodup : g.Nodup := (hnodup.filter _).sublist hg.sublist
  have hperm : (t.files.filter fun e => decide (e.path ∈ g.map (·.path))).Perm g := by
    rw [perm_ext_iff_of_nodup ((nodup_files t).of_map.filter _) hgnodup]
    intro e
    rw [mem_filter, decide_eq_true_eq]
    constructor
    · rintro ⟨he, hmem⟩
      obtain ⟨d, hd, hpath⟩ := mem_map.mp hmem
      rwa [← eq_of_path (mem_candidates.mp (hg.subset hd)).1 he hpath]
    · intro he
      exact ⟨(mem_candidates.mp (hg.subset he)).1, mem_map_of_mem he⟩
  have hsplit := weight_perm (·.sizeBytes)
    (filter_append_perm (fun e : WalkedEntry => decide (e.path ∈ g.map (·.path))) t.files)
  rw [weight_append, weight_perm _ hperm] at hsplit
  simp only [← decide_not] at hsplit
  omega

theorem sizeBytes_lt (h : e ∈ t.files) : e.sizeBytes < 2 ^ 64 := by
  obtain ⟨s, -, hs⟩ := mem_flatMap.mp h
  unfold SessionEntry.walked at hs
  split at hs
  · split_ifs at hs
    · obtain ⟨f, -, hf⟩ := mem_filterMap.mp hs
      unfold FileEntry.walked at hf
      split at hf
      · rename_i m _
        split_ifs at hf
        cases hf
        exact m.len.toNat_lt
      · cases hf
    · exact absurd hs not_mem_nil
  · exact absurd hs not_mem_nil

theorem weight_lt_of_used (h : enforceStorageCap t capBytes activePaths unlink = .ok r)
    (hused : r.outcome.usedAfter = weight (·.sizeBytes) r.tree.files) : weight (·.sizeBytes) t.files < 2 ^ 64 := by
  obtain ⟨hgone, hreport, hleft⟩ := enforceStorageCap_eq_ok h
  have hpre : r.removed <+: candidates t activePaths unlink := hgone ▸ shed_prefix _ _
  have hsum := weight_remaining hpre
  rw [← hleft, ← hused, hreport] at hsum
  have hover := shed_overshoot (·.sizeBytes) capBytes (usedBytes t.files) (l := candidates t activePaths unlink)
    fun e he => sizeBytes_lt (mem_candidates.mp he).1
  rw [← hgone] at hover
  have hmod : usedBytes t.files = weight (·.sizeBytes) t.files % 2 ^ 64 := rfl
  rcases hover with hnil | hlt
  · rw [hnil, weight_nil] at hsum
    omega
  · omega

theorem soundSweep_of_spared (h : enforceStorageCap t capBytes activePaths unlink = .ok r)
    (hfit : weight (·.sizeBytes) t.files < 2 ^ 64) (hspared : SidecarsSpared t capBytes activePaths unlink) :
    SoundSweep t capBytes activePaths unlink r := by
  obtain ⟨hgone, hreport, hleft⟩ := enforceStorageCap_eq_ok h
  have hused : usedBytes t.files = weight (·.sizeBytes) t.files := Nat.mod_eq_of_lt hfit
  rw [hused] at hgone hreport
  have hpre : r.removed <+: candidates t activePaths unlink := hgone ▸ shed_prefix _ _
  have hsum := weight_remaining hpre
  rw [← hleft] at hsum
  have hinactive : ∀ e ∈ r.removed, e ∈ t.files ∧ e.path ∉ activePaths := by
    intro e he
    obtain ⟨hfile, hevictable⟩ := mem_candidates.mp (hpre.subset he)
    refine ⟨hfile, fun hactive => ?_⟩
    simp [evictable, hactive] at hevictable
  obtain ⟨rest, hrest⟩ := hpre
  have hpairwise := pairwise_candidates t activePaths unlink
  rw [← hrest, pairwise_append] at hpairwise
  refine ⟨hinactive, hpairwise.1, fun e he hevictable hkept d hd => ?_, hleft, by omega, ?_, fun a ha e he => ⟨?_, ?_⟩⟩
  · have hmem : e ∈ r.removed ++ rest := by
      rw [hrest]
      exact mem_candidates.mpr ⟨he, hevictable⟩
    exact hpairwise.2.2 d hd e ((mem_append.mp hmem).resolve_left hkept)
  · rcases shed_enough (·.sizeBytes) capBytes (weight (·.sizeBytes) t.files)
      (candidates t activePaths unlink) with henough | hall
    · left
      rw [hreport, hgone]
      exact henough
    right
    intro e he
    rw [hleft, mem_filter] at he
    by_contra hevictable
    have hmem : e ∈ r.removed := by
      rw [hgone, hall]
      exact mem_candidates.mpr ⟨he.1, by simpa using hevictable⟩
    exact (by simpa using he.2 : e.path ∉ r.removed.map (·.path)) (mem_map_of_mem hmem)
  · rintro rfl
    exact (hinactive e he).2 ha
  · -- a sidecar that was removed came up while the tree was over the cap
    intro hside
    obtain ⟨pre, post, hsplit⟩ := append_of_mem he
    have hcandidates : candidates t activePaths unlink = pre ++ e :: (post ++ rest) := by
      rw [← hrest, hsplit, append_assoc, cons_append]
    have hlt := (prefix_shed_iff (·.sizeBytes) capBytes (weight (·.sizeBytes) t.files) pre e (post ++ rest)).mp (by
        rw [← hcandidates, ← hgone, hsplit]
        exact ⟨post, by simp⟩)
    exact absurd (hspared a ha pre e (post ++ rest) hcandidates hside) (by omega)

end

/-- **The storage cap.** The sweep does what it should on every tree, cap, set of active recordings and answers to
unlinks exactly when the sizes of the files add up to less than `2 ^ 64` and no sidecar of an active recording comes
up before the tree is within the cap. -/
theorem soundSweep_iff (t : RecordingsTree) (capBytes : Nat) (activePaths : List Path) (unlink : Path → Option String) :
    (∀ r, enforceStorageCap t capBytes activePaths unlink = .ok r → SoundSweep t capBytes activePaths unlink r) ↔
      weight (·.sizeBytes) t.files < 2 ^ 64 ∧ SidecarsSpared t capBytes activePaths unlink := by
  constructor
  · intro h
    rcases hr : enforceStorageCap t capBytes activePaths unlink with e | r
    · -- a root that cannot be listed has no files
      have hnil : t.files = [] := by
        unfold enforceStorageCap collectEntries at hr
        unfold RecordingsTree.files
        rcases hl : t.listing with _ | e | ss
        · rfl
        · rfl
        · rw [hl] at hr
          simp only [bind, Except.bind] at hr
          split_ifs at hr <;> cases hr
      refine ⟨by rw [hnil]; decide, fun a _ pre e post hsplit _ => ?_⟩
      rw [candidates, hnil, mergeSort_nil, filter_nil] at hsplit
      exact absurd hsplit.symm (by simp)
    · have hsound := h r hr
      have hfit := weight_lt_of_used hr hsound.used
      refine ⟨hfit, fun a ha pre e post hsplit hside => ?_⟩
      by_contra hover
      have hused : usedBytes t.files = weight (·.sizeBytes) t.files := Nat.mod_eq_of_lt hfit
      obtain ⟨hgone, -, -⟩ := enforceStorageCap_eq_ok hr
      have hpre := (prefix_shed_iff (·.sizeBytes) capBytes (weight (·.sizeBytes) t.files) pre e post).mpr (by omega)
      rw [← hsplit, ← hused, ← hgone] at hpre
      exact (hsound.spared a ha e (hpre.subset (by simp))).2 hside
  · rintro ⟨hfit, hspared⟩ r hr
    exact soundSweep_of_spared hr hfit hspared

/-- A session whose only recording is being written: the recording and its sidecar. -/
def liveTree : RecordingsTree where
  root := ["data", "recordings"]
  listing := .entries [⟨"s1", some ⟨.dir, 0, some 10⟩, some
    [⟨"a.lfsr", some ⟨.file, 120, some 20⟩⟩, ⟨"a.lfsr.idx", some ⟨.file, 49, some 20⟩⟩]⟩]
  nodup_sessions := by decide
  nodup_files := by
    intro s hs fs hfs
    cases List.mem_singleton.mp hs
    cases hfs
    decide

/-- The live recording is over the cap: its sidecar is deleted under it. -/
theorem live_sidecar_is_evicted :
    let main := ["data", "recordings", "s1", "a.lfsr"]
    ∃ r, enforceStorageCap liveTree 100 [main] (fun _ => none) = .ok r ∧
      r.removed.map (·.path) = [sidecarPath main] ∧ ¬ SoundSweep liveTree 100 [main] (fun _ => none) r := by
  intro main
  have hrun : ∃ r, enforceStorageCap liveTree 100 [main] (fun _ => none) = .ok r := ⟨_, rfl⟩
  obtain ⟨r, hr⟩ := hrun
  obtain ⟨hgone, -, -⟩ := enforceStorageCap_eq_ok hr
  have hsorted : liveTree.files.mergeSort older = liveTree.files := mergeSort_of_pairwise (by decide)
  rw [candidates, hsorted] at hgone
  have hremoved : r.removed = [⟨sidecarPath main, 49, some 20⟩] := hgone.trans (by decide)
  refine ⟨r, hr, by rw [hremoved]; rfl, fun hsound => ?_⟩
  exact (hsound.spared main mem_cons_self _ (by rw [hremoved]; exact mem_cons_self)).2 rfl

end LetsFlutSsh.Recorder
