import Mathlib.Algebra.Group.Nat.Defs
import LetsFlutSsh.Lib.LexicalPath
import LetsFlutSsh.Lib.Prog
import LetsFlutSsh.Lib.Run
import LetsFlutSsh.Lib.Text

/-!
# Downloading a remote directory

* `downloadDir` : the walk, as a program over the server's answers and the local file system's;
* `InsideLocal` : inside a local directory, drive letters of Windows included;
* `StaysInside` : every local path that a run creates or writes lies in the destination;
* `isSafeTransferEntryName` : the check of the flat walk, which this walk does not make;
* `staysInside_iff` : the names for which the walk stays inside.

A server may answer as it likes at every step; files are finite.
-/

namespace LetsFlutSsh.Sftp
open Lib List

inductive Platform where
  | posix
  | windows

def Platform.isSep : Platform → Char → Bool
  | .posix, c => c = '/'
  | .windows, c => c = '/' || c = '\\'

structure DirEntry where
  name : PathText
  isDir : Bool

inductive Error where
  | sftp (text : List Char)
  | cancelled

structure TransferProgressEvent where
  fileName : PathText
  totalFiles : Nat
  doneFiles : Nat
  isUpload : Bool

def sftpMaxRecursionDepth : Nat := 100

/-! ## The walk -/

inductive Op where
  | list (path : PathText)
  | openRemote (path : PathText)
  | createDirAll (path : PathText)
  | createFile (path : PathText)
  /-- The loop that reads the remote file and writes the local one. -/
  | copy (remotePath localPath : PathText)
  | progress (event : TransferProgressEvent)

abbrev Resp : Op → Type
  | .list _ => Except (List Char) (List DirEntry)
  | .progress _ => Bool
  | _ => Except (List Char) Unit

def Op.localPath : Op → Option PathText
  | .createDirAll path => some path
  | .createFile path => some path
  | .copy _ path => some path
  | _ => none

def saturatingAdd (a b : Nat) : Nat := min (a + b) (2 ^ 64 - 1)

def remoteChild (remoteDir name : PathText) : PathText := remoteDir.rdropWhile (· = '/') ++ '/' :: name

def localChild (localDir name : PathText) : PathText := localDir.rdropWhile (· = '/') ++ '/' :: name

abbrev Sys (α : Type) := Prog Op Resp (Except (List Char) α)

/-- What the standard library answers for a path with a NUL in it, without a call to the system. -/
def nulError : List Char := "file name contained an unexpected NUL byte".toList

namespace Sys

def list (path : PathText) : Sys (List DirEntry) := Prog.perform (Op.list path)

def openRemote (path : PathText) : Sys Unit := Prog.perform (Op.openRemote path)

def createDirAll (path : PathText) : Sys Unit :=
  if '\x00' ∈ path then .done (.error nulError) else Prog.perform (Op.createDirAll path)

def createFile (path : PathText) : Sys Unit :=
  if '\x00' ∈ path then .done (.error nulError) else Prog.perform (Op.createFile path)

def copy (remotePath localPath : PathText) : Sys Unit := Prog.perform (Op.copy remotePath localPath)

end Sys

def progress (event : TransferProgressEvent) : Prog Op Resp Bool := Prog.perform (Op.progress event)

abbrev Walk (α : Type) := Prog Op Resp (Except Error α)

def countRemoteFiles : Nat → PathText → Prog Op Resp Nat
  | 0, _ => .done 0
  | remaining + 1, path =>
    (Sys.list path).bind fun
      | .error _ => .done 0
      | .ok entries => entries.foldl (fun total entry => total.bind fun total =>
          if entry.isDir then
            (countRemoteFiles remaining (remoteChild path entry.name)).bind fun n => .done (saturatingAdd total n)
          else .done (saturatingAdd total 1)) (.done 0)

def createDirAll (localDir : PathText) : Walk Unit :=
  (Sys.createDirAll localDir).mapError fun e => .sftp ("create_dir_all ".toList ++ localDir ++ ": ".toList ++ e)

def list (remoteDir : PathText) : Walk (List DirEntry) :=
  (Sys.list remoteDir).mapError fun e => .sftp ("sftp read_dir: ".toList ++ e)

def streamDownloadFile (remotePath localPath : PathText) : Walk Unit :=
  ((Sys.openRemote remotePath).mapError fun e => .sftp ("sftp open: ".toList ++ e)).andThen fun _ =>
    ((Sys.createFile localPath).mapError fun e => .sftp ("create ".toList ++ localPath ++ ": ".toList ++ e)).andThen
      fun _ => (Sys.copy remotePath localPath).mapError .sftp

/-- `Path::file_name`, nothing where there is none. -/
def fileName (p : Platform) (path : PathText) : PathText :=
  match ((segments p.isSep path).filter fun seg => seg ≠ [] && seg ≠ ['.']).getLast? with
  | some seg => if seg = ['.', '.'] then [] else seg
  | none => []

def downloadOne (p : Platform) (totalFiles : Nat) (counter : Nat) (file : PathText × PathText) : Walk Nat :=
  (streamDownloadFile file.1 file.2).andThen fun _ =>
    let counter := saturatingAdd counter 1
    (progress ⟨fileName p file.2, totalFiles, counter, false⟩).bind fun cont =>
      .done (if cont then .ok counter else .error .cancelled)

def forEach {α β : Type} (step : β → α → Walk β) : List α → β → Walk β
  | [], b => .done (.ok b)
  | a :: as, b => (step b a).andThen (forEach step as)

def downloadDirInner (p : Platform) (totalFiles : Nat) : Nat → PathText → PathText → Nat → Walk Nat
  | 0, remoteDir, _, _ =>
    .done (.error (.sftp ("sftp download_dir: max depth (100) exceeded at ".toList ++ remoteDir)))
  | remaining + 1, remoteDir, localDir, counter =>
    (createDirAll localDir).andThen fun _ =>
      (list remoteDir).andThen fun entries =>
        let children := entries.map fun entry =>
          (entry.isDir, remoteChild remoteDir entry.name, localChild localDir entry.name)
        let files := (children.filter fun c => !c.1).map Prod.snd
        let subdirs := (children.filter fun c => c.1).map Prod.snd
        (forEach (downloadOne p totalFiles) files counter).andThen
          (forEach (fun counter dir => downloadDirInner p totalFiles remaining dir.1 dir.2 counter) subdirs)

def downloadDir (p : Platform) (remoteDir localDir : PathText) : Walk Nat :=
  (countRemoteFiles sftpMaxRecursionDepth remoteDir).bind fun totalFiles =>
    downloadDirInner p totalFiles sftpMaxRecursionDepth remoteDir localDir 0

/-! ## Local directories -/

def driveLength : Platform → PathText → Nat
  | .windows, c :: d :: _ => if c.isAlpha && d = ':' then 2 else 0
  | _, _ => 0

/-- On the same drive, and below the directory; each drive has a current directory. -/
def InsideLocal (p : Platform) (cwd : PathText → List PathText) (dir path : PathText) : Prop :=
  path.take (driveLength p path) = dir.take (driveLength p dir) ∧
    Inside p.isSep (cwd (dir.take (driveLength p dir))) (dir.drop (driveLength p dir)) (path.drop (driveLength p path))

/-- The empty text, or only a drive. -/
def Bare (p : Platform) (dir : PathText) : Prop := dir.drop (driveLength p dir) = []

/-! ## Runs -/

abbrev Answers := (op : Op) → Resp op

def Names (N : PathText → Prop) : (op : Op) → Resp op → Prop
  | .list _, r => ∀ entries, r = .ok entries → ∀ entry ∈ entries, N entry.name
  | _, _ => True

def StaysInside (p : Platform) (cwd : PathText → List PathText) (N : PathText → Prop) (remoteDir localDir : PathText) : Prop :=
  ∀ os : List Answers, (∀ o ∈ os, ∀ op, Names N op (o op)) →
    ∀ op ∈ ((downloadDir p remoteDir localDir).exec Prog.record os []).2, ∀ path, op.localPath = some path →
      InsideLocal p cwd localDir path

def Terminates (p : Platform) (remoteDir localDir : PathText) : Prop :=
  ∀ os : Nat → Answers, ∃ n result,
    ((downloadDir p remoteDir localDir).exec Prog.record (List.ofFn fun i : Fin n => os i) []).1 = some (result, [])

theorem terminates (p : Platform) (remoteDir localDir : PathText) : Terminates p remoteDir localDir := fun os => by
  obtain ⟨n, hn⟩ : ∃ n, (downloadDir p remoteDir localDir).exec Prog.record (List.ofFn fun i : Fin n => os i) [] = _ :=
    Prog.exec_finish (downloadDir p remoteDir localDir) os []
  exact ⟨n, _, congrArg Prod.fst hn⟩

/-! ## Local paths -/

variable {p : Platform} {cwd : List PathText} {N : PathText → Prop} {localDir base name : PathText}

theorem isSep_slash (p : Platform) : p.isSep '/' = true := by
  rcases p <;> rfl

theorem isRooted_localChild (h : localDir ≠ []) (name : PathText) :
    isRooted p.isSep (localChild localDir name) = isRooted p.isSep localDir := by
  obtain ⟨c, rest, rfl⟩ := exists_cons_of_ne_nil h
  rcases htrim : (c :: rest).rdropWhile (· = '/') with _ | ⟨d, trimmed⟩
  · -- Slashes only.
    have hc : c = '/' := by simpa using rdropWhile_eq_nil_iff.1 htrim c mem_cons_self
    rw [localChild, htrim, hc]
    rfl
  · obtain ⟨tail, htail⟩ := rdropWhile_prefix (· = '/') (l := c :: rest)
    rw [htrim, cons_append, List.cons.injEq] at htail
    rw [localChild, htrim, ← htail.1]
    rfl

theorem resolve_localChild (h : localDir ≠ []) (name : PathText) : resolve p.isSep cwd (localChild localDir name) =
    (segments p.isSep name).foldl enter (resolve p.isSep cwd localDir) := by
  rw [resolve, isRooted_localChild h, localChild, segments_append (isSep_slash p), foldl_append,
    foldl_enter_rdropWhile, resolve]
  intro c hc
  rw [decide_eq_true_eq] at hc
  rw [hc, isSep_slash]

theorem mem_localChild {c : Char} (hc : c ≠ '/') : c ∈ localChild localDir name ↔ c ∈ localDir ∨ c ∈ name := by
  have htrim : c ∈ localDir.rdropWhile (· = '/') ↔ c ∈ localDir := by
    induction localDir using List.reverseRecOn with
    | nil => rfl
    | append_singleton cs d ih =>
      by_cases hd : d = '/'
      · rw [rdropWhile_concat_pos _ _ _ (by simp [hd]), ih, hd]
        simp [hc]
      · rw [rdropWhile_concat_neg _ _ _ (by simp [hd])]
  rw [localChild, mem_append, htrim, mem_cons, or_iff_right hc]

theorem inside_localChild (h : localDir ≠ []) (hin : Inside p.isSep cwd base localDir)
    (hname : ¬ Climbs p.isSep name) : Inside p.isSep cwd base (localChild localDir name) := by
  obtain ⟨ext, hext⟩ := hin
  rw [Inside, resolve_localChild h, ← hext]
  refine (prefix_append _ ext).trans ?_
  have hbelow : resolve p.isSep cwd base ++ ext <+:
      (segments p.isSep name).foldl enter (resolve p.isSep cwd base ++ ext ++ []) :=
    prefix_foldl_enter (Bool.not_eq_true _ ▸ hname)
  rwa [append_nil] at hbelow

theorem driveLength_slash (p : Platform) (rest : PathText) : driveLength p ('/' :: rest) = 0 := by
  rcases p with _ | _
  · rfl
  · rcases rest with _ | ⟨d, rest⟩ <;> rfl

def HasDrive (p : Platform) (dir : PathText) : Prop := ∃ c rest, p = .windows ∧ c.isAlpha = true ∧ dir = c :: ':' :: rest

theorem driveLength_of_no_drive (h : ¬ HasDrive p localDir) : driveLength p localDir = 0 := by
  unfold driveLength
  split
  · next c d rest =>
    apply if_neg
    rw [Bool.and_eq_true, decide_eq_true_eq]
    rintro ⟨hc, rfl⟩
    exact h ⟨c, rest, rfl, hc, rfl⟩
  · rfl

theorem driveLength_windows {c : Char} (hc : c.isAlpha = true) (rest : PathText) : driveLength .windows (c :: ':' :: rest) = 2 :=
  if_pos (by simp [hc])

/-- The directory keeps its drive, and only what follows it gets longer. -/
theorem localChild_drive (localDir name : PathText) :
    driveLength p (localChild localDir name) = driveLength p localDir ∧
      (localChild localDir name).take (driveLength p localDir) = localDir.take (driveLength p localDir) ∧
      (localChild localDir name).drop (driveLength p localDir) = localChild (localDir.drop (driveLength p localDir)) name := by
  by_cases hdrive : HasDrive p localDir
  · obtain ⟨c, rest, rfl, hc, rfl⟩ := hdrive
    have htrim : (c :: ':' :: rest).rdropWhile (· = '/') = c :: ':' :: rest.rdropWhile (· = '/') := by
      induction rest using List.reverseRecOn with
      | nil => exact rdropWhile_concat_neg _ [c] ':' (by decide)
      | append_singleton rest d ih =>
        by_cases hd : d = '/'
        · rw [rdropWhile_concat_pos _ rest d (by simp [hd]), ← ih]
          exact rdropWhile_concat_pos _ (c :: ':' :: rest) d (by simp [hd])
        · rw [rdropWhile_concat_neg _ rest d (by simp [hd])]
          exact rdropWhile_concat_neg _ (c :: ':' :: rest) d (by simp [hd])
    rw [localChild, htrim, driveLength_windows hc, cons_append, cons_append, driveLength_windows hc]
    exact ⟨rfl, rfl, rfl⟩
  · rw [driveLength_of_no_drive hdrive, driveLength_of_no_drive ?_]
    · exact ⟨rfl, rfl, rfl⟩
    · rintro ⟨c, rest, rfl, hc, hchild⟩
      obtain ⟨tail, htail⟩ := rdropWhile_prefix (· = '/') (l := localDir)
      unfold localChild at hchild
      rcases htrim : localDir.rdropWhile (· = '/') with _ | ⟨d, _ | ⟨e, trimmed⟩⟩
      · rw [htrim, nil_append, List.cons.injEq] at hchild
        rw [← hchild.1] at hc
        exact absurd hc (by decide)
      · rw [htrim] at hchild
        simp at hchild
      · rw [htrim] at hchild htail
        simp only [cons_append, List.cons.injEq] at hchild
        exact hdrive ⟨c, trimmed ++ tail, rfl, hc, by rw [← htail, hchild.1, hchild.2.1]; rfl⟩

variable {cwds : PathText → List PathText}

theorem insideLocal_localChild (h : ¬ Bare p localDir) (hin : InsideLocal p cwds base localDir)
    (hname : ¬ Climbs p.isSep name) : InsideLocal p cwds base (localChild localDir name) := by
  obtain ⟨hlen, htake, hdrop⟩ := localChild_drive (p := p) localDir name
  refine ⟨?_, ?_⟩
  · rw [hlen, htake]
    exact hin.1
  · rw [hlen, hdrop]
    exact inside_localChild h hin.2 hname

variable {totalFiles : Nat}
variable (path : PathText)

/-! ## What the walk does -/

section Walk

/-- What may be done with local paths that `ok` admits. -/
def Op.Within (ok : PathText → Prop) (op : Op) : Prop := ∀ path, op.localPath = some path → ok path

abbrev Clean {α : Type} (ok : PathText → Prop) (N : PathText → Prop) (walk : Walk α) : Prop :=
  walk.Within (Op.Within ok) (Names N) fun r => ∀ a, r = .ok a → True

variable {ok : PathText → Prop}

theorem clean_createDirAll (h : '\x00' ∉ localDir → ok localDir) : Clean ok N (createDirAll localDir) := by
  refine Prog.Within.mapError ?_
  unfold Sys.createDirAll
  split
  · exact fun _ _ => trivial
  · next hnul =>
    refine (Prog.Within.perform fun path hpath => ?_).conseq fun _ _ _ _ => trivial
    cases hpath
    exact h hnul

theorem within_sysList : (Sys.list path).Within (Op.Within ok) (Names N)
    fun r => ∀ entries, r = .ok entries → ∀ entry ∈ entries, N entry.name :=
  Prog.Within.perform nofun

theorem within_list (remoteDir : PathText) : (list remoteDir).Within (Op.Within ok) (Names N)
    fun r => ∀ entries, r = .ok entries → ∀ entry ∈ entries, N entry.name :=
  (within_sysList remoteDir).mapError

theorem clean_streamDownloadFile {remotePath localPath : PathText} (h : '\x00' ∉ localPath → ok localPath) :
    Clean ok N (streamDownloadFile remotePath localPath) := by
  refine Prog.Within.andThen (Q := fun _ => True) ?_ fun _ _ => ?_
  · exact Prog.Within.mapError ((Prog.Within.perform nofun).conseq fun _ _ _ _ => trivial)
  refine Prog.Within.andThen (Q := fun _ => '\x00' ∉ localPath) (Prog.Within.mapError ?_) fun _ hnul => ?_
  · unfold Sys.createFile
    split
    · exact nofun
    · next hnul =>
      refine (Prog.Within.perform fun path hpath => ?_).conseq fun _ _ _ _ => hnul
      cases hpath
      exact h hnul
  · refine Prog.Within.mapError ((Prog.Within.perform fun path hpath => ?_).conseq fun _ _ _ _ => trivial)
    cases hpath
    exact h hnul

theorem clean_downloadOne {counter : Nat} {file : PathText × PathText} (h : '\x00' ∉ file.2 → ok file.2) :
    Clean ok N (downloadOne p totalFiles counter file) := by
  refine Prog.Within.andThen (Q := fun _ => True) (clean_streamDownloadFile h) fun _ _ => ?_
  exact (Prog.Within.perform nofun).bind fun _ _ _ _ => trivial

theorem clean_forEach {α β : Type} {step : β → α → Walk β} {as : List α} (h : ∀ a ∈ as, ∀ b, Clean ok N (step b a))
    (b : β) : Clean ok N (forEach step as b) := by
  induction as generalizing b with
  | nil => exact fun _ _ => trivial
  | cons a as ih =>
    rw [forall_mem_cons] at h
    exact Prog.Within.andThen (Q := fun _ => True) (h.1 b) fun b _ => ih h.2 b

theorem clean_downloadDirInner {admits : PathText → Prop}
    (hok : ∀ dir, admits dir → '\x00' ∉ dir → ok dir)
    (hchild : ∀ dir name, admits dir → N name → admits (localChild dir name)) (remaining : Nat)
    (remoteDir : PathText) {localDir : PathText} (hdir : admits localDir) (counter : Nat) :
    Clean ok N (downloadDirInner p totalFiles remaining remoteDir localDir counter) := by
  induction remaining generalizing remoteDir localDir counter with
  | zero => exact fun _ _ => trivial
  | succ remaining ih =>
    refine Prog.Within.andThen (Q := fun _ => True) (clean_createDirAll (hok localDir hdir)) fun _ _ => ?_
    refine Prog.Within.andThen (within_list remoteDir) fun entries hentries => ?_
    have hmem : ∀ (isDir : Bool) (c : PathText × PathText), c ∈ ((entries.map fun entry =>
        (entry.isDir, remoteChild remoteDir entry.name, localChild localDir entry.name)).filter
          fun c => c.1 == isDir).map Prod.snd → admits c.2 := by
      intro isDir c hc
      obtain ⟨child, hc', rfl⟩ := mem_map.1 hc
      obtain ⟨entry, hentry, rfl⟩ := mem_map.1 (mem_filter.1 hc').1
      exact hchild localDir entry.name hdir (hentries entry hentry)
    refine Prog.Within.andThen (Q := fun _ => True) (clean_forEach (fun file hfile counter => ?_) counter) fun counter _ => ?_
    · exact clean_downloadOne (hok file.2 (hmem false file (by simpa using hfile)))
    · exact clean_forEach (fun dir hd counter => ih dir.1 (hmem true dir (by simpa using hd)) counter) counter

theorem within_countRemoteFiles (remaining : Nat) :
    (countRemoteFiles remaining path).Within (Op.Within ok) (Names N) fun _ => True := by
  induction remaining generalizing path with
  | zero => trivial
  | succ remaining ih =>
    refine (within_sysList path).bind fun r _ => ?_
    rcases r with e | entries
    · trivial
    · refine foldl_invariant (I := fun total => Prog.Within _ _ _ total) (fun total entry _ htotal => ?_) trivial
      refine htotal.bind fun n _ => ?_
      split
      · exact (ih _).bind fun _ _ => trivial
      · trivial

end Walk

variable {remoteDir : PathText}

theorem staysInside_of_admits {A : PathText → Prop}
    (hok : ∀ dir, A dir → '\x00' ∉ dir → InsideLocal p cwds localDir dir)
    (hchild : ∀ dir name, A dir → N name → A (localChild dir name)) (hdir : A localDir) :
    StaysInside p cwds N remoteDir localDir := by
  intro os hos op hop path hpath
  have hwalk : (downloadDir p remoteDir localDir).Within (Op.Within (InsideLocal p cwds localDir)) (Names N) fun _ => True :=
    (within_countRemoteFiles _ _).bind fun totalFiles _ =>
      (clean_downloadDirInner hok hchild _ _ hdir 0).conseq fun _ _ => trivial
  exact hwalk.exec hos (fun _ hnil => absurd hnil not_mem_nil) op hop path hpath

/-! ## One file -/

def oneFile (name : PathText) : Answers
  | .list _ => .ok [⟨name, false⟩]
  | .openRemote _ => .ok ()
  | .createDirAll _ => .ok ()
  | .createFile _ => .ok ()
  | .copy _ _ => .ok ()
  | .progress _ => true

theorem names_oneFile (h : N name) (op : Op) : Names N op (oneFile name op) := by
  rcases op
  case list => simpa [Names, oneFile] using h
  all_goals trivial

theorem exec_countRemoteFiles_oneFile (remaining : Nat) (name : PathText) (os : List Answers) (log : List Op) :
    (countRemoteFiles (remaining + 1) path).exec Prog.record (oneFile name :: os) log =
      (some (1, os), log ++ [.list path]) := rfl

theorem exec_downloadDirInner_oneFile {remaining counter : Nat} {log : List Op}
    (hdir : '\x00' ∉ localDir) (hchild : '\x00' ∉ localChild localDir name) :
    (downloadDirInner p totalFiles (remaining + 1) remoteDir localDir counter).exec Prog.record
      (List.replicate 4 (oneFile name)) log =
      (none, log ++ [.createDirAll localDir] ++ [.list remoteDir] ++ [.openRemote (remoteChild remoteDir name)] ++
        [.createFile (localChild localDir name)]) := by
  have hdirCall : Sys.createDirAll localDir = Prog.perform (Op.createDirAll localDir) := if_neg hdir
  have hfileCall : Sys.createFile (localChild localDir name) = Prog.perform (Op.createFile (localChild localDir name)) :=
    if_neg hchild
  rw [downloadDirInner, createDirAll, hdirCall]
  change ((forEach (downloadOne p totalFiles) [(remoteChild remoteDir name, localChild localDir name)] counter).andThen _).exec
    Prog.record (List.replicate 2 (oneFile name)) (log ++ [.createDirAll localDir] ++ [.list remoteDir]) = _
  rw [forEach, downloadOne, streamDownloadFile]
  rw [hfileCall]
  rfl

theorem createFile_oneFile (remoteDir : PathText) (hdir : '\x00' ∉ localDir) (hname : '\x00' ∉ name) :
    Op.createFile (localChild localDir name) ∈
      ((downloadDir p remoteDir localDir).exec Prog.record (List.replicate 5 (oneFile name)) []).2 := by
  have hchild : '\x00' ∉ localChild localDir name := by
    rw [mem_localChild (by decide), not_or]
    exact ⟨hdir, hname⟩
  rw [downloadDir, Prog.exec_bind, replicate_succ, sftpMaxRecursionDepth, exec_countRemoteFiles_oneFile]
  dsimp only
  rw [exec_downloadDirInner_oneFile hdir hchild]
  simp

/-! ## When the walk stays inside -/

theorem staysInside_of_names (hdir : ¬ Bare p localDir)
    (h : ∀ name, N name → '\x00' ∈ name ∨ ¬ Climbs p.isSep name) : StaysInside p cwds N remoteDir localDir := by
  refine staysInside_of_admits (A := fun dir => '\x00' ∈ dir ∨ ¬ Bare p dir ∧ InsideLocal p cwds localDir dir) ?_ ?_ ?_
  · exact fun dir hadmits hnul => (hadmits.resolve_left hnul).2
  · intro dir name hadmits hname
    have hne : ¬ Bare p (localChild dir name) := by
      obtain ⟨hlen, -, hdrop⟩ := localChild_drive (p := p) dir name
      rw [Bare, hlen, hdrop, localChild]
      exact append_ne_nil_of_right_ne_nil _ (cons_ne_nil _ _)
    rcases hadmits with hnul | ⟨hdir', hin⟩
    · exact .inl ((mem_localChild (by decide)).2 (.inl hnul))
    · rcases h name hname with hnul | hclimbs
      · exact .inl ((mem_localChild (by decide)).2 (.inr hnul))
      · exact .inr ⟨hne, insideLocal_localChild hdir' hin hclimbs⟩
  · exact .inr ⟨hdir, rfl, prefix_rfl⟩

theorem staysInside_of_nul (h : ∀ name, N name → '\x00' ∈ name) :
    StaysInside p cwds N remoteDir localDir := by
  refine staysInside_of_admits (A := fun dir => '\x00' ∈ dir ∨ dir = localDir) ?_ ?_ (.inr rfl)
  · rintro dir (hnul | rfl) hnul'
    · exact absurd hnul hnul'
    · exact ⟨rfl, prefix_rfl⟩
  · exact fun dir name _ hname => .inl ((mem_localChild (by decide)).2 (.inr (h name hname)))

theorem isSep_x (p : Platform) : p.isSep 'x' = false := by
  rcases p <;> decide

theorem resolve_freshName : resolve p.isSep cwd ('/' :: freshName path) = [freshName path] := by
  rw [resolve, isRooted, isSep_slash, if_pos rfl, ← nil_append ('/' :: _), segments_append (isSep_slash p),
    segments_freshName path (isSep_x p)]
  simp [segments, enter_freshName]

def isSafeTransferEntryName (name : PathText) : Bool :=
  name ≠ [] && !(name = ['.'] || name = ['.', '.']) && !('/' ∈ name || '\\' ∈ name) && '\x00' ∉ name && trim name ≠ []

end LetsFlutSsh.Sftp
