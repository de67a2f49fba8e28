import LetsFlutSsh.Lib.BoundedWalk
import LetsFlutSsh.Sftp.DownloadDir

/-!
# The flat walk of a remote tree

* `flatWalkFiles` : the files below a remote directory, with their paths relative to it;
* `join` : a relative path on a local directory; on Windows a drive with a separator replaces the directory;
* `Exactly` : the safe files in reach, one by one in listing order, each of them below any local directory that its
  path is joined to;
* `flatWalk_spec` : what one level of the walk appends; `flatWalkFiles_iff`.

The server lists what it likes for each path, so the tree may well be infinite.
-/

namespace LetsFlutSsh.Sftp.FlatWalk
open Lib List

structure DirEntry where
  name : PathText
  size : UInt64
  isDir : Bool
  isSymlink : Bool

structure FlatRemoteFile where
  relPath : PathText
  size : UInt64

abbrev Remote := PathText → Except (List Char) (List DirEntry)

def list (remote : Remote) (path : PathText) : Except Error (List DirEntry) :=
  (remote path).mapError fun e => .sftp ("sftp read_dir: ".toList ++ e)

def joinRemoteChild (parent name : PathText) : PathText :=
  if parent.getLast? = some '/' then parent ++ name else parent ++ '/' :: name

/-- `out` is what was pushed so far. -/
def flatWalk (remote : Remote) (path relPrefix : PathText) (depth maxDepth : Nat) (out : List FlatRemoteFile) :
    Except Error (List FlatRemoteFile) :=
  if depth ≥ maxDepth then .ok out
  else do
    let entries ← list remote path
    entries.foldlM (fun out entry =>
      if entry.name = ['.'] ∨ entry.name = ['.', '.'] ∨ entry.isSymlink then .ok out
      else if !isSafeTransferEntryName entry.name then .ok out
      else
        let childPath := joinRemoteChild path entry.name
        let childRel := if relPrefix = [] then entry.name else relPrefix ++ '/' :: entry.name
        if entry.isDir then flatWalk remote childPath childRel (depth + 1) maxDepth out
        else .ok (out ++ [⟨childRel, entry.size⟩])) out
termination_by maxDepth - depth

def flatWalkFiles (remote : Remote) (path : PathText) (maxDepth : Nat) : Except Error (List FlatRemoteFile) :=
  flatWalk remote path [] 0 maxDepth []

/-! ## The files in reach -/

/-- A safe name that is no link is a file, or a directory to list. -/
def visit (dir : PathText) (entry : DirEntry) : Visit PathText :=
  if entry.isSymlink || !isSafeTransferEntryName entry.name then .skip
  else if entry.isDir then .enter (joinRemoteChild dir entry.name)
  else .leaf

def fileOf (entries : List DirEntry) : FlatRemoteFile :=
  ⟨['/'].intercalate (entries.map DirEntry.name), (entries.getLast?.map DirEntry.size).getD 0⟩

def AllListed (remote : Remote) (path : PathText) (levels : Nat) : Prop :=
  ∀ n dir, Reaches (list remote) visit path n dir → n < levels → ∃ entries, remote dir = .ok entries

/-! ## Local directories -/

abbrev LocalDir := {dir : PathText // dir ≠ []}

/-- A drive and a separator. -/
def isDriveRooted : Platform → PathText → Bool
  | .windows, c :: colon :: d :: _ => c.isAlpha && colon = ':' && Platform.windows.isSep d
  | _, _ => false

/-- `isAbsolute` of the `path` package. -/
def isAbsolute (p : Platform) (path : PathText) : Bool := isRooted p.isSep path || isDriveRooted p path

/-- `join` of the `path` package, on a part that no separator begins: an absolute part discards what is before it. -/
def join (p : Platform) (sep : Char) (dir part : PathText) : PathText :=
  if isAbsolute p part then part
  else if dir.getLast?.any p.isSep then dir ++ part
  else dir ++ sep :: part

/-- `_toNative` of the caller. -/
def respell (sep : Char) (rel : PathText) : PathText := rel.map fun c => if c = '/' then sep else c

def StaysBelow (p : Platform) (bare : Bool) (rel : PathText) : Prop :=
  ∀ (cwd : PathText → List PathText) (dir : LocalDir) (sep sep' : Char), (Bare p dir ↔ bare = true) →
    p.isSep sep = true → p.isSep sep' = true → InsideLocal p cwd dir (join p sep dir (respell sep' rel))

/-- Below an entry with the name of a drive. -/
def UnderDrive (entries : List DirEntry) : Prop :=
  ∃ c entry next rest, c.isAlpha = true ∧ entry.name = [c, ':'] ∧ entries = entry :: next :: rest

def Joinable (p : Platform) (bare : Bool) (entries : List DirEntry) : Prop :=
  p = .posix ∨ bare = false ∧ ¬ UnderDrive entries

/-- The files of the result: an entry that is `n` names down lies below `n - 1` directories. -/
structure Exactly (p : Platform) (bare : Bool) (remote : Remote) (path : PathText) (maxDepth : Nat) (files : List FlatRemoteFile) : Prop where
  listed : AllListed remote path maxDepth
  routes : ∃ routes : List (List Nat × List DirEntry), routes.Pairwise (fun r r' => r.1 < r'.1) ∧
    (∀ r, r ∈ routes ↔ LeafAt (list remote) visit path r.1 r.2 ∧ r.2.length ≤ maxDepth) ∧
    files = routes.map fun r => fileOf r.2
  below : ∀ file ∈ files, StaysBelow p bare file.relPath

def FailsWith (remote : Remote) (path : PathText) (maxDepth : Nat) (e : Error) : Prop :=
  ∃ levels dir, Reaches (list remote) visit path levels dir ∧ levels < maxDepth ∧ list remote dir = .error e

def Right (p : Platform) (bare : Bool) (remote : Remote) (path : PathText) (maxDepth : Nat) : Except Error (List FlatRemoteFile) → Prop
  | .ok files => Exactly p bare remote path maxDepth files
  | .error e => FailsWith remote path maxDepth e

variable {remote : Remote} {path dir rel name : PathText} {depth maxDepth remaining : Nat} {p : Platform} {bare : Bool}

/-! ## The walk -/

theorem ne_nil_of_isSafe (h : isSafeTransferEntryName name = true) : name ≠ [] := by
  simp only [isSafeTransferEntryName, Bool.and_eq_true, decide_eq_true_eq] at h
  exact h.1.1.1.1

theorem isSafe_dot : isSafeTransferEntryName ['.'] = false := by decide
theorem isSafe_dotDot : isSafeTransferEntryName ['.', '.'] = false := by decide

def childRel (relPrefix name : PathText) : PathText := if relPrefix = [] then name else relPrefix ++ '/' :: name

theorem flatWalk_of_ge (h : maxDepth ≤ depth) (relPrefix : PathText) (out : List FlatRemoteFile) :
    flatWalk remote path relPrefix depth maxDepth out = .ok out := by
  rw [flatWalk, if_pos h]

def loopBody (remote : Remote) (path relPrefix : PathText) (depth maxDepth : Nat) (out : List FlatRemoteFile)
    (entry : DirEntry) : Except Error (List FlatRemoteFile) :=
  match visit path entry with
  | .skip => .ok out
  | .leaf => .ok (out ++ [⟨childRel relPrefix entry.name, entry.size⟩])
  | .enter child => flatWalk remote child (childRel relPrefix entry.name) (depth + 1) maxDepth out

theorem flatWalk_of_lt (h : depth < maxDepth) (relPrefix : PathText) (out : List FlatRemoteFile) :
    flatWalk remote path relPrefix depth maxDepth out =
      (list remote path).bind fun entries => entries.foldlM (loopBody remote path relPrefix depth maxDepth) out := by
  rw [flatWalk, if_neg (Nat.not_le.2 h)]
  congr 1
  funext entries
  congr 1
  funext out entry
  by_cases hsafe : isSafeTransferEntryName entry.name = true
  · have hdot : entry.name ≠ ['.'] := by
      intro hname
      rw [hname, isSafe_dot] at hsafe
      cases hsafe
    have hdotDot : entry.name ≠ ['.', '.'] := by
      intro hname
      rw [hname, isSafe_dotDot] at hsafe
      cases hsafe
    cases hlink : entry.isSymlink <;> cases hkind : entry.isDir <;>
      simp [loopBody, visit, childRel, hsafe, hdot, hdotDot, hlink, hkind]
  · simp [loopBody, visit, hsafe]

variable {entry : DirEntry}

theorem isSafe_of_enter {child : PathText} (h : visit path entry = .enter child) :
    isSafeTransferEntryName entry.name = true := by
  unfold visit at h
  split at h
  · cases h
  · next hskip =>
    rw [Bool.or_eq_true, not_or] at hskip
    simpa using hskip.2

/-- A file that was found from a directory, with the directory's own path. -/
def under (relPrefix : PathText) (file : FlatRemoteFile) : FlatRemoteFile :=
  ⟨childRel relPrefix file.relPath, file.size⟩

theorem childRel_childRel (relPrefix : PathText) (hname : name ≠ []) (rest : PathText) :
    childRel (childRel relPrefix name) rest = childRel relPrefix (name ++ '/' :: rest) := by
  by_cases h : relPrefix = [] <;> simp [childRel, h, hname]

variable {entries : List DirEntry}

theorem under_cons (relPrefix : PathText) (hentries : entries ≠ [])
    (hname : entry.name ≠ []) :
    under (childRel relPrefix entry.name) (fileOf entries) = under relPrefix (fileOf (entry :: entries)) := by
  obtain ⟨next, rest, rfl⟩ := exists_cons_of_ne_nil hentries
  simp [under, fileOf, childRel_childRel relPrefix hname, intercalate_cons_cons]

def part (remote : Remote) (path relPrefix : PathText) (levels : Nat) : DirEntry → List FlatRemoteFile :=
  carried (list remote) visit (fun es => under relPrefix (fileOf es)) levels path

/-- What a walk may do from some level on: it stops at a listing that fails, or appends the files in reach. -/
def Appends (remote : Remote) (path relPrefix : PathText) (levels : Nat)
    (walk : List FlatRemoteFile → Except Error (List FlatRemoteFile)) : Prop :=
  (∃ e, FailsWith remote path levels e ∧ ∀ out, walk out = .error e) ∨ AllListed remote path levels ∧
      ∀ out, walk out = .ok (out ++ (leaves (list remote) visit levels path).map fun r => under relPrefix (fileOf r.2))

theorem loopBody_spec {levels : Nat} (relPrefix : PathText) (hlist : list remote path = .ok entries)
    (hwalk : ∀ child, Appends remote child (childRel relPrefix name) levels
      (flatWalk remote child (childRel relPrefix name) (depth + 1) maxDepth))
    (hentry : entry ∈ entries) (hname : entry.name = name) :
    (∃ e, FailsWith remote path (levels + 1) e ∧ ∀ out, loopBody remote path relPrefix depth maxDepth out entry = .error e) ∨
      (∀ child, visit path entry = .enter child → AllListed remote child levels) ∧
        ∀ out, loopBody remote path relPrefix depth maxDepth out entry = .ok (out ++ part remote path relPrefix levels entry) := by
  obtain ⟨i, hi, hget⟩ := getElem_of_mem hentry
  have hlists : Lists (list remote) path i entry := ⟨entries, hlist, by rw [getElem?_eq_getElem hi, hget]⟩
  unfold loopBody part carried
  cases hvisit : visit path entry with
  | skip => exact .inr ⟨nofun, by simp⟩
  | leaf => exact .inr ⟨nofun, by simp [under, fileOf]⟩
  | enter child =>
    obtain ⟨e, ⟨n, dir, hreach, hn, hfail⟩, hstop⟩ | ⟨hlisted, hok⟩ := hwalk child
    · refine .inl ⟨e, ⟨n + 1, dir, .down hlists hvisit hreach, Nat.succ_lt_succ hn, hfail⟩, ?_⟩
      rw [hname]
      exact hstop
    refine .inr ⟨fun child' hchild => ?_, fun out => ?_⟩
    · rw [Visit.enter.injEq] at hchild
      rw [← hchild]
      exact hlisted
    dsimp only
    rw [hname, hok, ← hname]
    congr 2
    apply map_congr_left
    intro r hr
    apply under_cons relPrefix
    · exact ne_nil_of_length_pos (mem_leaves.1 hr).1.length_pos
    · exact ne_nil_of_isSafe (isSafe_of_enter hvisit)

theorem allListed_succ {levels : Nat} (hlist : list remote path = .ok entries)
    (h : ∀ entry ∈ entries, ∀ child, visit path entry = .enter child → AllListed remote child levels) :
    AllListed remote path (levels + 1) := by
  intro n dir hreach hn
  cases hreach with
  | here =>
    rcases hr : remote path with text | entries'
    · simp [list, hr, Except.mapError] at hlist
    · exact ⟨entries', rfl⟩
  | @down _ child _ i n entry hentry hvisit hchild =>
    obtain ⟨entries', hlist', hget⟩ := hentry
    rw [hlist] at hlist'
    cases hlist'
    exact h entry (mem_of_getElem? hget) child hvisit n dir hchild (by omega)

theorem flatWalk_spec (h : maxDepth - depth = remaining) (relPrefix : PathText) :
    Appends remote path relPrefix remaining (flatWalk remote path relPrefix depth maxDepth) := by
  induction remaining generalizing path depth relPrefix with
  | zero =>
    refine .inr ⟨fun n dir _ hn => absurd hn (Nat.not_lt_zero n), fun out => ?_⟩
    rw [flatWalk_of_ge (by omega)]
    simp [leaves]
  | succ remaining ih =>
    have hlt : depth < maxDepth := by omega
    rcases hlist : list remote path with e | entries
    · refine .inl ⟨e, ⟨0, path, .here, Nat.succ_pos _, hlist⟩, fun out => ?_⟩
      rw [flatWalk_of_lt hlt, hlist]
      rfl
    have hwalk : ∀ (entry : DirEntry) (child : PathText), Appends remote child (childRel relPrefix entry.name) remaining
        (flatWalk remote child (childRel relPrefix entry.name) (depth + 1) maxDepth) :=
      fun entry child => ih (by omega) (childRel relPrefix entry.name)
    have hbody := fun entry hentry => loopBody_spec relPrefix hlist (hwalk entry) hentry rfl
    obtain ⟨e, he, hstop⟩ | ⟨hall, hok⟩ := foldlM_gathers entries hbody
    · refine .inl ⟨e, he, fun out => ?_⟩
      rw [flatWalk_of_lt hlt, hlist]
      exact hstop out
    · refine .inr ⟨allListed_succ hlist hall, fun out => ?_⟩
      rw [flatWalk_of_lt hlt, hlist]
      rw [map_leaves (f := fun es => under relPrefix (fileOf es)) hlist]
      exact hok out

/-! ## Where the paths may be joined to -/

theorem isSep_of_isSafe (h : isSafeTransferEntryName name = true) (p : Platform) : ∀ c ∈ name, p.isSep c = false := by
  simp only [isSafeTransferEntryName, Bool.and_eq_true, Bool.not_eq_true', Bool.or_eq_false_iff,
    decide_eq_false_iff_not] at h
  intro c hc
  have hslash : c ≠ '/' := fun heq => h.1.1.2.1 (heq ▸ hc)
  have hback : c ≠ '\\' := fun heq => h.1.1.2.2 (heq ▸ hc)
  cases p <;> simp [Platform.isSep, hslash, hback]

theorem safe_of_leafAt {is : List Nat} {es : List DirEntry} (h : LeafAt (list remote) visit path is es) :
    ∀ entry ∈ es, isSafeTransferEntryName entry.name = true := by
  induction h with
  | @leaf dir i entry hentry hvisit =>
    rw [forall_mem_singleton]
    unfold visit at hvisit
    split at hvisit
    · cases hvisit
    · next hskip =>
      rw [Bool.or_eq_true, not_or] at hskip
      simpa using hskip.2
  | down hentry hvisit hchild ih => exact forall_mem_cons.2 ⟨isSafe_of_enter hvisit, ih⟩

theorem respell_intercalate {names : List PathText} (sep : Char) (h : ∀ name ∈ names, '/' ∉ name) :
    respell sep (['/'].intercalate names) = [sep].intercalate names := by
  induction names with
  | nil => rfl
  | cons name names ih =>
    rw [forall_mem_cons] at h
    have hname : respell sep name = name := by
      nth_rw 2 [← map_id name]
      apply map_congr_left
      intro c hc
      exact if_neg fun heq : c = '/' => h.1 (heq ▸ hc)
    by_cases hlast : names = []
    · rw [hlast, intercalate_singleton, intercalate_singleton, hname]
    · rw [intercalate_cons_of_ne_nil hlast, intercalate_cons_of_ne_nil hlast, ← ih h.2]
      simpa [respell] using hname

theorem driveLength_append_of_le (h : 2 ≤ dir.length) (rel : PathText) : driveLength p (dir ++ rel) = driveLength p dir := by
  match dir, h with
  | c :: d :: rest, _ => cases p <;> rfl

theorem driveLength_append (hdir : dir ≠ []) (h : dir.getLast?.any p.isSep = true ∨ rel.head? ≠ some ':') :
    driveLength p (dir ++ rel) = driveLength p dir := by
  by_cases hlen : 2 ≤ dir.length
  · exact driveLength_append_of_le hlen rel
  -- One character: it is a separator, or no colon follows.
  obtain ⟨c, rfl⟩ := length_eq_one_iff.1 (by have := length_pos_iff.2 hdir; omega : dir.length = 1)
  cases p with
  | posix => rfl
  | windows =>
    cases rel with
    | nil => rfl
    | cons d rel =>
      apply if_neg
      rw [Bool.and_eq_true, decide_eq_true_eq]
      rintro ⟨halpha, rfl⟩
      rcases h with h | h
      · have hsep : c = '/' ∨ c = '\\' := by simpa [Platform.isSep] using h
        rcases hsep with rfl | rfl <;> exact absurd halpha (by decide)
      · simp at h

theorem driveLength_le (p : Platform) (dir : PathText) : driveLength p dir ≤ dir.length := by
  unfold driveLength
  split
  · split <;> simp
  · exact Nat.zero_le _

theorem insideLocal_of_append {cwd : PathText → List PathText} (hdrive : driveLength p (dir ++ rel) = driveLength p dir)
    (h : Inside p.isSep (cwd (dir.take (driveLength p dir))) (dir.drop (driveLength p dir))
      (dir.drop (driveLength p dir) ++ rel)) : InsideLocal p cwd dir (dir ++ rel) := by
  have hle := driveLength_le p dir
  refine ⟨?_, ?_⟩
  · rw [hdrive, take_append_of_le_length hle]
  · rw [hdrive, drop_append_of_le_length hle]
    exact h

theorem insideLocal_join {cwd : PathText → List PathText} {sep : Char} (hdir : dir ≠ []) (hbare : ¬ Bare p dir)
    (hsep : p.isSep sep = true) (habs : isAbsolute p rel = false) (hrel : ¬ Climbs p.isSep rel) :
    InsideLocal p cwd dir (join p sep dir rel) := by
  rw [join, if_neg (by simp [habs])]
  by_cases hlast : dir.getLast?.any p.isSep = true
  · rw [if_pos hlast]
    apply insideLocal_of_append (driveLength_append hdir (.inl hlast))
    apply inside_append _ hrel
    rwa [getLast?_drop, if_neg (drop_eq_nil_iff.not.1 hbare)]
  rw [if_neg hlast]
  apply insideLocal_of_append
  · apply driveLength_append hdir
    refine .inr ?_
    rw [head?_cons]
    intro heq
    cases heq
    cases p <;> exact absurd hsep (by decide)
  · exact inside_join hsep hbare hrel

/-- The drive's current directory need not be its root. -/
theorem not_insideLocal_root {c d : Char} {rest : PathText} (hc : c.isAlpha = true) (hd : Platform.windows.isSep d = true) :
    ¬ InsideLocal .windows (fun _ => [freshName rest]) [c, ':'] (c :: ':' :: d :: rest) := by
  rintro ⟨-, hin⟩
  have hbase : resolve Platform.windows.isSep [freshName rest] [] = [freshName rest] := rfl
  have hpath : resolve Platform.windows.isSep [freshName rest] (d :: rest) =
      (segments Platform.windows.isSep rest).foldl enter [] := by
    rw [resolve, isRooted, hd, if_pos rfl, ← nil_append (d :: _), segments_append hd]
    rfl
  rw [driveLength_windows hc, driveLength_windows hc] at hin
  change Inside _ _ [] (d :: rest) at hin
  rw [Inside, hbase, hpath] at hin
  exact absurd (hin.subset mem_cons_self) (not_mem_foldl_enter not_mem_nil (freshName_not_mem rest))

variable {names : List PathText} {sep : Char}

theorem isRooted_of_safe (hne : names ≠ []) (h : ∀ name ∈ names, isSafeTransferEntryName name = true) (p : Platform) :
    isRooted p.isSep ([sep].intercalate names) = false := by
  obtain ⟨name, rest, rfl⟩ := exists_cons_of_ne_nil hne
  rw [forall_mem_cons] at h
  obtain ⟨c, cs, hname⟩ := exists_cons_of_ne_nil (ne_nil_of_isSafe h.1)
  have hc : p.isSep c = false := isSep_of_isSafe h.1 p c (by simp [hname])
  by_cases hrest : rest = []
  · rw [hrest, intercalate_singleton, hname]
    exact hc
  · rw [intercalate_cons_of_ne_nil hrest, hname]
    exact hc

theorem isAbsolute_iff {path : PathText} (hroot : isRooted p.isSep path = false) : isAbsolute p path = true ↔
    ∃ c d rest, p = .windows ∧ c.isAlpha = true ∧ p.isSep d = true ∧ path = c :: ':' :: d :: rest := by
  rw [isAbsolute, hroot, Bool.false_or]
  constructor
  · intro h
    unfold isDriveRooted at h
    split at h
    · next c colon d rest =>
      rw [Bool.and_eq_true, Bool.and_eq_true, decide_eq_true_eq] at h
      exact ⟨c, d, rest, rfl, h.1.1, h.2, by rw [h.1.2]⟩
    · cases h
  · rintro ⟨c, d, rest, rfl, hc, hd, rfl⟩
    simp [isDriveRooted, hc, hd]

variable {entries : List DirEntry}

theorem underDrive_of_isAbsolute (hne : entries ≠ [])
    (h : ∀ entry ∈ entries, isSafeTransferEntryName entry.name = true) (hsep : Platform.windows.isSep sep = true)
    (habs : isAbsolute .windows ([sep].intercalate (entries.map DirEntry.name)) = true) : UnderDrive entries := by
  obtain ⟨entry, rest, rfl⟩ := exists_cons_of_ne_nil hne
  have hsafe := isSep_of_isSafe (forall_mem_cons.1 h).1 .windows
  have hroot : isRooted Platform.windows.isSep ([sep].intercalate ((entry :: rest).map DirEntry.name)) = false :=
    isRooted_of_safe (by simp) (by simpa using h) .windows
  obtain ⟨c, d, tail, -, hc, hd, hpath⟩ := (isAbsolute_iff hroot).1 habs
  rcases rest with _ | ⟨next, rest⟩
  · -- A separator in a single name.
    rw [map_cons, map_nil, intercalate_singleton] at hpath
    rw [hsafe d (by simp [hpath])] at hd
    cases hd
  rw [map_cons, intercalate_cons_of_ne_nil (by simp), append_assoc, singleton_append] at hpath
  refine ⟨c, entry, next, rest, hc, ?_, rfl⟩
  rcases hname : entry.name with _ | ⟨a, _ | ⟨b, _ | ⟨e, more⟩⟩⟩
  · rw [hname, nil_append, List.cons.injEq] at hpath
    rw [hpath.1] at hsep
    rcases (by simpa [Platform.isSep] using hsep : c = '/' ∨ c = '\\') with rfl | rfl <;> exact absurd hc (by decide)
  · rw [hname, singleton_append, List.cons.injEq, List.cons.injEq] at hpath
    rw [hpath.2.1] at hsep
    exact absurd hsep (by decide)
  · simp only [hname, cons_append, nil_append, List.cons.injEq] at hpath
    rw [hpath.1, hpath.2.1]
  · simp only [hname, cons_append, List.cons.injEq] at hpath
    rw [← hpath.2.2.1, hsafe e (by simp [hname])] at hd
    cases hd

/-- **Below the directory** exactly if no drive letter stands before another name, and the directory is not only a drive. -/
theorem staysBelow_iff (hne : entries ≠ []) (h : ∀ entry ∈ entries, isSafeTransferEntryName entry.name = true) :
    StaysBelow p bare (fileOf entries).relPath ↔ Joinable p bare entries := by
  have hnames : ∀ name ∈ entries.map DirEntry.name, isSafeTransferEntryName name = true := by simpa using h
  have hslash : ∀ name ∈ entries.map DirEntry.name, '/' ∉ name := by
    intro name hname hmem
    have := isSep_of_isSafe (hnames name hname) p '/' hmem
    rw [isSep_slash] at this
    cases this
  have hroot : ∀ sep, isRooted p.isSep ([sep].intercalate (entries.map DirEntry.name)) = false := fun sep =>
    isRooted_of_safe (by simpa using hne) hnames p
  constructor
  · intro hbelow
    rcases p with _ | _
    · exact .inl rfl
    rcases bare with _ | _
    · refine .inr ⟨rfl, ?_⟩
      rintro ⟨c, entry, next, rest, hc, hname, rfl⟩
      -- The root of the current drive, against the named one.
      obtain ⟨hdrive, -⟩ := hbelow (fun _ => []) ⟨['/'], by simp⟩ '/' '/' (by simp [Bare, driveLength]) rfl rfl
      have hrel : [('/' : Char)].intercalate ((entry :: next :: rest).map DirEntry.name) =
          c :: ':' :: '/' :: ['/'].intercalate ((next :: rest).map DirEntry.name) := by
        rw [map_cons, intercalate_cons_of_ne_nil (by simp), hname]
        rfl
      have habs := (isAbsolute_iff (hroot '/')).2 ⟨c, '/', _, rfl, hc, rfl, hrel⟩
      rw [fileOf, respell_intercalate _ hslash, join, if_pos habs, hrel, driveLength_windows hc] at hdrive
      cases hdrive
    · -- Only a drive.
      exfalso
      rcases habs : isAbsolute .windows (['/'].intercalate (entries.map DirEntry.name)) with _ | _
      · have hin := hbelow (fun _ => [freshName (['/'].intercalate (entries.map DirEntry.name))]) ⟨['C', ':'], by simp⟩
          '/' '/' (by simp [Bare, driveLength]) rfl rfl
        rw [fileOf, respell_intercalate _ hslash, join, if_neg (by simp [habs])] at hin
        exact not_insideLocal_root (by decide) rfl hin
      · obtain ⟨c, d, rest, -, hc, hd, hrel⟩ := (isAbsolute_iff (hroot '/')).1 habs
        have hin := hbelow (fun _ => [freshName rest]) ⟨[c, ':'], by simp⟩ '/' '/'
          (by simp [Bare, driveLength_windows hc]) rfl rfl
        rw [fileOf, respell_intercalate _ hslash, join, if_pos habs, hrel] at hin
        exact not_insideLocal_root hc hd hin
  · intro hjoin cwd dir sep sep' hbare hsep hsep'
    have hnotBare : ¬ Bare p dir := by
      rcases hjoin with rfl | ⟨rfl, -⟩
      · simpa [Bare, driveLength] using dir.2
      · simpa using hbare
    have hsegs : segments p.isSep ([sep'].intercalate (entries.map DirEntry.name)) = entries.map DirEntry.name :=
      segments_intercalate hsep' (by simpa using hne) fun name hname => isSep_of_isSafe (hnames name hname) p
    rw [fileOf, respell_intercalate sep' hslash]
    apply insideLocal_join dir.2 hnotBare hsep
    · rw [← Bool.not_eq_true]
      intro habs
      obtain ⟨-, -, -, rfl, -⟩ := (isAbsolute_iff (hroot sep')).1 habs
      exact (hjoin.resolve_left (by simp)).2 (underDrive_of_isAbsolute hne h hsep' habs)
    · rw [Climbs, hsegs, Bool.not_eq_true]
      apply climbsFrom_of_not_mem
      intro hmem
      have hsafe := hnames _ hmem
      rw [isSafe_dotDot] at hsafe
      cases hsafe

/-- **The flat walk** ends with the safe files in reach, none left out and none twice, or fails where a directory in
reach cannot be listed. Each of its paths stays below any directory it is joined to, exactly if on Windows no file
lies below an entry with the name of a drive and no directory is only a drive. -/
theorem flatWalkFiles_iff (p : Platform) (bare : Bool) (remote : Remote) (path : PathText) (maxDepth : Nat) :
    Right p bare remote path maxDepth (flatWalkFiles remote path maxDepth) ↔
      (AllListed remote path maxDepth → ∀ is es, LeafAt (list remote) visit path is es → es.length ≤ maxDepth →
        Joinable p bare es) := by
  have hspec : Appends remote path [] maxDepth (flatWalk remote path [] 0 maxDepth) := flatWalk_spec (Nat.sub_zero maxDepth) []
  obtain ⟨e, he, hstop⟩ | ⟨hlisted, hok⟩ := hspec
  · rw [flatWalkFiles, hstop]
    refine iff_of_true he fun hlisted => ?_
    obtain ⟨levels, dir, hreach, hlt, hfail⟩ := he
    obtain ⟨entries, hentries⟩ := hlisted levels dir hreach hlt
    rw [list, hentries] at hfail
    cases hfail
  rw [flatWalkFiles, hok, nil_append]
  have hbelow : ∀ is es, LeafAt (list remote) visit path is es →
      (StaysBelow p bare (fileOf es).relPath ↔ Joinable p bare es) := fun is es hleaf =>
    staysBelow_iff (ne_nil_of_length_pos hleaf.length_pos) (safe_of_leafAt hleaf)
  constructor
  · intro hexact _ is es hleaf hlen
    rw [← hbelow is es hleaf]
    exact hexact.below _ (mem_map_of_mem (mem_leaves.2 ⟨hleaf, hlen⟩ : (is, es) ∈ _))
  · intro hjoin
    refine ⟨hlisted, ⟨leaves (list remote) visit maxDepth path, pairwise_leaves maxDepth path, fun r => mem_leaves, rfl⟩, ?_⟩
    intro file hfile
    obtain ⟨r, hr, rfl⟩ := mem_map.1 hfile
    obtain ⟨hleaf, hlen⟩ := mem_leaves.1 hr
    exact (hbelow _ _ hleaf).2 (hjoin hlisted _ _ hleaf hlen)

/-- A directory with the name of a drive, and a program in it. -/
def plantsProgram : Remote := fun dir =>
  .ok (if dir = "/srv".toList then [⟨"C:".toList, 0, true, false⟩] else [⟨"evil.exe".toList, 7, false, false⟩])

theorem flatWalkFiles_plantsProgram :
    flatWalkFiles plantsProgram "/srv".toList 2 = .ok [⟨"C:/evil.exe".toList, 7⟩] := by
  rw [flatWalkFiles, flatWalk_of_lt (by decide)]
  change (flatWalk plantsProgram "/srv/C:".toList "C:".toList 1 2 []).bind _ = _
  rw [flatWalk_of_lt (by decide)]
  rfl

theorem flatWalkFiles_leaves_directory : ¬ ∀ (p : Platform) (remote : Remote) (path : PathText) (maxDepth : Nat),
    Right p false remote path maxDepth (flatWalkFiles remote path maxDepth) := by
  intro h
  have hright := h .windows plantsProgram "/srv".toList 2
  rw [flatWalkFiles_plantsProgram] at hright
  obtain ⟨hdrive, -⟩ := hright.below _ mem_cons_self (fun _ => []) ⟨"D:\\dl".toList, by decide⟩ '\\' '\\'
    (by unfold Bare; decide) rfl rfl
  exact absurd hdrive (by decide)

end LetsFlutSsh.Sftp.FlatWalk
