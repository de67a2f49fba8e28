import LetsFlutSsh.Lib.Disk
import LetsFlutSsh.Lib.SlashPath
import LetsFlutSsh.Transfer.Queue

/-!
# Transfers: staging and promotion

The five transfers of `transfer/driver.rs` and `sftp/mod.rs`, as programs over file operations:

* `downloadViaProvider`, `download`, `downloadFileStreaming`, `upload`, `uploadFileStreaming` : each writes a staging
  file beside its destination and then puts it in the destination's place;
* `Whole` : an error leaves the destination as it was, a success leaves the source's bytes there.
-/

namespace LetsFlutSsh.Transfer
open Lib Function

/-- A file of this machine, or of the server. -/
inductive Place where
  | disk (path : String)
  | remote (path : String)
  deriving DecidableEq

inductive Error where
  | transport (msg : String)
  | sftp (msg : String)
  | io (msg : String)
  /-- What a storage provider answers. -/
  | provider (msg : String)
  | cancelled

/-! ## The transfers -/

section Programs

/-- `Path::parent`. -/
def parentDir (path : String) : Option String :=
  let skipped (name : String) : Bool := name == "" || name == "."
  match splitPath path with
  | [] => none
  | first :: rest =>
    match rest.rdropWhile skipped with
    | [] => if first = "" then none else some ""
    | names =>
      match names.dropLast.rdropWhile skipped with
      | [] => some (if first = "" then "/" else first)
      | kept => some (joinPath (first :: kept))

example : parentDir "/srv/data//a.txt" = some "/srv/data" := by decide +kernel

def sftpOpen (path : String) : FileProg Place (Except Error Unit) :=
  (FileProg.openFile (.remote path)).mapError fun e => .sftp ("sftp open: " ++ e)

def sftpCreate (path : String) : FileProg Place (Except Error Unit) :=
  (FileProg.create (.remote path)).mapError fun e => .sftp ("sftp create: " ++ e)

def sftpReadInto (path : String) (max offset : Nat) : FileProg Place (Except Error Bytes) :=
  (FileProg.read (.remote path) offset max).mapError fun e => .sftp ("sftp read: " ++ e)

def sftpWriteAll (path : String) (data : Bytes) : FileProg Place (Except Error Unit) :=
  (FileProg.append (.remote path) data).mapError fun e => .sftp ("sftp write: " ++ e)

def sftpSyncAll (path : String) : FileProg Place (Except Error Unit) :=
  ((FileProg.sync (.remote path)).mapError fun e => .sftp ("sftp flush: " ++ e)).andThen fun () =>
  (FileProg.sync (.remote path)).mapError fun e => .sftp ("sftp sync: " ++ e)

def sftpRename (old new : String) : FileProg Place (Except Error Unit) :=
  (FileProg.renameNew (.remote old) (.remote new)).mapError fun e => .sftp ("sftp rename: " ++ e)

/-- `promote_staged`: drop the destination, whether it is there or not, and rename. -/
def promoteStaged (staged dest : String) : FileProg Place (Except Error Unit) := do
  let _ ← FileProg.remove (.remote dest)
  sftpRename staged dest

def transferStagingPath (dest token : String) : String := dest ++ "." ++ token ++ ".part"

def unlessCancelled (err : Error) : FileProg Place (Except Error Unit) := do
  if ← FileProg.ask then return .ok () else return .error err

def mkdirParent (path : String) : FileProg Place (Except Error Unit) :=
  match parentDir path with
  | none => return .ok ()
  | some parent =>
    if parent.isEmpty then return .ok ()
    else (FileProg.makeDirs (.disk parent)).mapError fun e => .transport ("mkdir " ++ parent ++ ": " ++ e)

/-- A loop of reads and writes from the start of a file to its end. -/
def copyAll (read : Nat → FileProg Place (Except Error Bytes)) (write : Bytes → FileProg Place (Except Error Unit)) :
    FileProg Place (Except Error Unit) :=
  copyChunks read (fun _ => write) (.io "endless") (FileOp.fileLimit + 2) 0

def cleanedUp (part : Place) (stage : FileProg Place (Except Error Unit)) : FileProg Place (Except Error Unit) := do
  match ← stage with
  | .error e =>
    let _ ← FileProg.remove part
    return .error e
  | .ok () => return .ok ()

def driverChunkSize : Nat := 256 * 1024

def streamingChunkSize : Nat := 65536

theorem driverChunkSize_pos : 0 < driverChunkSize := by decide
theorem streamingChunkSize_pos : 0 < streamingChunkSize := by decide

section Driver

variable (task : TaskSnapshot)

/-- The next chunk of a provider's stream; the cancellation is checked before a failed chunk is looked at. -/
def nextChunk (path : String) (offset : Nat) : FileProg Place (Except Error Bytes) := do
  match ← FileProg.read (.remote path) offset FileOp.fileLimit with
  | .ok [] => return .ok []
  | chunk =>
    (unlessCancelled (.io "download cancelled")).andThen fun () => .done (chunk.mapError .provider)

def driverRename (part : String) : FileProg Place (Except Error Unit) :=
  (FileProg.rename (.disk part) (.disk task.localPath)).mapError fun e =>
    .transport ("rename " ++ part ++ " → " ++ task.localPath ++ ": " ++ e)

def downloadViaProvider : FileProg Place (Except Error Unit) :=
  let part := task.localPath ++ "." ++ task.id ++ ".part"
  (mkdirParent task.localPath).andThen fun () =>
  (cleanedUp (.disk part) (((FileProg.openFile (.remote task.remotePath)).mapError .provider).andThen fun () =>
    ((FileProg.create (.disk part)).mapError fun e => .transport ("create " ++ part ++ ": " ++ e)).andThen fun () =>
    (copyAll (nextChunk task.remotePath) fun chunk =>
      (FileProg.append (.disk part) chunk).mapError fun e => .transport ("write " ++ part ++ ": " ++ e)).andThen fun () =>
    (FileProg.sync (.disk part)).mapError fun e => .transport ("fsync " ++ part ++ ": " ++ e))).andThen fun () =>
  driverRename task part

def download : FileProg Place (Except Error Unit) :=
  let part := transferStagingPath task.localPath task.id
  (sftpOpen task.remotePath).andThen fun () =>
  (mkdirParent task.localPath).andThen fun () =>
  ((FileProg.create (.disk part)).mapError fun e => .transport ("create " ++ part ++ ": " ++ e)).andThen fun () =>
  (cleanedUp (.disk part) ((copyAll (fun offset => (unlessCancelled (.io "download cancelled")).andThen fun () =>
        sftpReadInto task.remotePath driverChunkSize offset)
      fun chunk =>
        (FileProg.append (.disk part) chunk).mapError fun e => .transport ("write " ++ part ++ ": " ++ e)).andThen fun () =>
    (FileProg.sync (.disk part)).mapError fun e => .transport ("fsync " ++ part ++ ": " ++ e))).andThen fun () =>
  driverRename task part

/-- `upload`, up to the promotion. -/
def uploadStage : FileProg Place (Except Error Unit) :=
  let part := transferStagingPath task.remotePath task.id
  let failed (e : String) : Error := .transport ("read " ++ task.localPath ++ ": " ++ e)
  ((FileProg.openFile (.disk task.localPath)).mapError failed).andThen fun () =>
  cleanedUp (.remote part) ((sftpCreate part).andThen fun () =>
    (copyAll (fun offset => (unlessCancelled (.io "upload cancelled")).andThen fun () =>
        (FileProg.read (.disk task.localPath) offset driverChunkSize).mapError failed)
      (sftpWriteAll part)).andThen fun () =>
    sftpSyncAll part)

def upload : FileProg Place (Except Error Unit) :=
  (uploadStage task).andThen fun () => promoteStaged (transferStagingPath task.remotePath task.id) task.remotePath

end Driver

section Streaming

variable (debugPath : String → String) (localPath remotePath token : String)

/-- `upload_file_streaming`, up to the promotion. -/
def uploadFileStreamingStage : FileProg Place (Except Error Unit) :=
  let staged := transferStagingPath remotePath token
  ((FileProg.openFile (.disk localPath)).mapError fun e => .sftp ("open " ++ localPath ++ ": " ++ e)).andThen fun () =>
  cleanedUp (.remote staged) ((sftpCreate staged).andThen fun () =>
    (copyAll (fun offset => (FileProg.read (.disk localPath) offset streamingChunkSize).mapError fun e =>
        .sftp ("local read " ++ localPath ++ ": " ++ e))
      fun chunk => (sftpWriteAll staged chunk).andThen fun () => unlessCancelled .cancelled).andThen fun () =>
    sftpSyncAll staged)

def uploadFileStreaming : FileProg Place (Except Error Unit) :=
  (uploadFileStreamingStage localPath remotePath token).andThen fun () =>
  promoteStaged (transferStagingPath remotePath token) remotePath

/-- `debugPath` is how the error message writes a path. -/
def mkdirAnyParent : FileProg Place (Except Error Unit) :=
  match parentDir localPath with
  | none => return .ok ()
  | some parent => (FileProg.makeDirs (.disk parent)).mapError fun e => .sftp ("mkdir " ++ debugPath parent ++ ": " ++ e)

def downloadFileStreaming : FileProg Place (Except Error Unit) :=
  let staged := transferStagingPath localPath token
  (sftpOpen remotePath).andThen fun () =>
  (mkdirAnyParent debugPath localPath).andThen fun () =>
  ((FileProg.create (.disk staged)).mapError fun e => .sftp ("create " ++ staged ++ ": " ++ e)).andThen fun () =>
  (cleanedUp (.disk staged) ((copyAll (sftpReadInto remotePath streamingChunkSize) fun chunk =>
      ((FileProg.append (.disk staged) chunk).mapError fun e =>
        .sftp ("local write " ++ staged ++ ": " ++ e)).andThen fun () => unlessCancelled .cancelled).andThen fun () =>
    (FileProg.sync (.disk staged)).mapError fun e => .sftp ("local flush " ++ staged ++ ": " ++ e))).andThen fun () =>
  (FileProg.rename (.disk staged) (.disk localPath)).mapError fun e =>
    .sftp ("rename " ++ staged ++ " → " ++ localPath ++ ": " ++ e)

end Streaming

end Programs

variable {p : FileProg Place (Except Error Unit)}
variable (path : String)
variable (task : TaskSnapshot)

/-! ## What holds until the staging file is complete -/

section Stages

variable {I : Files Place → Prop} {s t : Files Place} {src dest part : Place} {data : Bytes}

abbrev Anyway {α : Type} (p : FileProg Place α) (s : Files Place) (I : Files Place → Prop)
    (Q : α → Files Place → Prop) : Prop :=
  Always FileOp.handle (fun _ => True) p s I Q

def Harmless (p : FileProg Place (Except Error Unit)) : Prop :=
  ∀ s, Anyway p s (· = s) (OnResult (fun _ t => t = s) fun _ t => t = s)

def Reads (src : Place) (read : Nat → FileProg Place (Except Error Bytes)) : Prop :=
  ∀ offset s data, s src = some data → Anyway (read offset) s (· = s) (OnResult (fun _ t => t = s) fun chunk t =>
      t = s ∧ offset ≤ FileOp.fileLimit ∧ ∃ n, 0 < n ∧ chunk = (data.drop offset).take n)

def Appends (part : Place) (write : Bytes → FileProg Place (Except Error Unit)) : Prop :=
  ∀ chunk s old, s part = some old → Anyway (write chunk) s (OnlyAt part s)
    (OnResult (fun _ => OnlyAt part s) fun _ t => t = update s part (some (old ++ chunk)))

def Staged (src part : Place) (s : Files Place) : Except Error Unit → Files Place → Prop :=
  OnResult (fun _ => OnlyAt part s) fun _ t => OnlyAt part s t ∧ ∃ data, s src = some data ∧ t part = some data

theorem harmless_andThen {q : Unit → FileProg Place (Except Error Unit)}
    (hp : Harmless p) (hq : Harmless (q ())) : Harmless (p.andThen q) := by
  intro s
  refine (hp s).andThen fun _ t ht => ?_
  subst ht
  exact hq t

theorem harmless_done : Harmless (.done (.ok ())) := fun _ => .done rfl

theorem harmless_sync (p : Place) (f : String → Error) : Harmless ((FileProg.sync p).mapError f) := by
  intro s
  refine Always.call rfl fun o _ => ?_
  rcases FileOp.handle_sync o s p with ⟨e, hop, -⟩ | ⟨hop, -⟩
  · rw [hop]
    exact .done rfl
  · rw [hop]
    exact .done rfl

theorem harmless_makeDirs (p : Place) (f : String → Error) : Harmless ((FileProg.makeDirs p).mapError f) := by
  intro s
  refine Always.call rfl fun o _ => ?_
  rcases FileOp.handle_makeDirs o s p with ⟨e, hop⟩ | hop
  · rw [hop]
    exact .done rfl
  · rw [hop]
    exact .done rfl

theorem harmless_unlessCancelled (err : Error) : Harmless (unlessCancelled err) := by
  intro s
  refine Always.call rfl fun o _ => ?_
  show Anyway (if o.error.isNone = true then _ else _) s _ _
  split
  · exact .done rfl
  · exact .done rfl

theorem harmless_mkdirParent : Harmless (mkdirParent path) := by
  unfold mkdirParent
  split
  · exact harmless_done
  · split
    · exact harmless_done
    · exact harmless_makeDirs _ _

theorem harmless_mkdirAnyParent (debugPath : String → String) :
    Harmless (mkdirAnyParent debugPath path) := by
  unfold mkdirAnyParent
  split
  · exact harmless_done
  · exact harmless_makeDirs _ _

theorem reads_file (src : Place) {max : Nat} (hmax : 0 < max) (f : String → Error) :
    Reads src fun offset => (FileProg.read src offset max).mapError f := by
  intro offset s data hdata
  refine Always.call rfl fun o _ => ?_
  rcases FileOp.handle_read o s src offset max hmax with ⟨e, hop, -⟩ | ⟨data', n, hdata', hlimit, hn, -, hop⟩
  · rw [hop]
    exact .done rfl
  · rw [hop]
    rw [hdata] at hdata'
    cases hdata'
    exact .done ⟨rfl, hlimit, n, hn, rfl⟩

variable {read : Nat → FileProg Place (Except Error Bytes)} {write : Bytes → FileProg Place (Except Error Unit)}
  {q stage : FileProg Place (Except Error Unit)} {E : Error → Files Place → Prop} {R : Unit → Files Place → Prop}
  {f : String → Error}

theorem reads_after {check : FileProg Place (Except Error Unit)}
    (hcheck : Harmless check) (hread : Reads src read) : Reads src fun offset => check.andThen fun () => read offset := by
  intro offset s data hdata
  refine (hcheck s).andThen fun _ t ht => ?_
  subst ht
  exact hread offset t data hdata

theorem reads_nextChunk : Reads (.remote path) (nextChunk path) := by
  intro offset s data hdata
  refine Always.call rfl fun o _ => ?_
  have hmax : 0 < FileOp.fileLimit := by decide
  rcases FileOp.handle_read o s (.remote path) offset FileOp.fileLimit hmax with
    ⟨e, hop, -⟩ | ⟨data', n, hdata', hlimit, hn, -, hop⟩
  · rw [hop]
    refine (harmless_unlessCancelled _ s).andThen fun _ t ht => ?_
    exact .done ht
  rw [hop]
  rw [hdata] at hdata'
  cases hdata'
  rcases hchunk : (data.drop offset).take n with _ | ⟨b, bs⟩
  · exact .done ⟨rfl, hlimit, n, hn, hchunk.symm⟩
  · refine (harmless_unlessCancelled _ s).andThen fun _ t ht => ?_
    exact .done ⟨ht, hlimit, n, hn, hchunk.symm⟩

theorem appends_file (part : Place) (f : String → Error) :
    Appends part fun chunk => (FileProg.append part chunk).mapError f := by
  intro chunk s old hold
  refine Always.call (OnlyAt.refl part s) fun o _ => ?_
  rcases FileOp.handle_append o s part hold chunk with ⟨e, rest, hop, -⟩ | hop
  · rw [hop]
    exact .done ((OnlyAt.refl part s).update _)
  · rw [hop]
    exact .done rfl

theorem appends_then {check : FileProg Place (Except Error Unit)} (hwrite : Appends part write) (hcheck : Harmless check) :
    Appends part fun chunk => (write chunk).andThen fun () => check := by
  intro chunk s old hold
  refine (hwrite chunk s old hold).andThen fun _ t ht => ?_
  have honly : OnlyAt part s t := by
    rw [ht]
    exact (OnlyAt.refl part s).update _
  refine (hcheck t).conseq (fun u hu => hu ▸ honly) fun r u hu => ?_
  rcases r with e | ⟨⟩
  · rw [show u = t from hu]
    exact honly
  · exact (show u = t from hu).trans ht

theorem copyAll_always (hne : src ≠ part) (hdata : s src = some data) (honly : OnlyAt part s t) (hempty : t part = some [])
    (hread : Reads src read) (hwrite : Appends part write) :
    Anyway (copyAll read write) t (OnlyAt part s)
      (OnResult (fun _ => OnlyAt part s) fun _ u => OnlyAt part s u ∧ u part = some data) := by
  have hpos : 0 < FileOp.fileLimit + 2 := Nat.succ_pos _
  have hfuel : FileOp.fileLimit + 1 < 0 + (FileOp.fileLimit + 2) := by omega
  have hloop : Anyway (copyAll read write) t (OnlyAt part s)
      (OnResult (fun _ => OnlyAt part s) fun _ u => OnlyAt part s u ∧ u part = some (data.take data.length)) := by
    refine copyChunks_always data FileOp.fileLimit
      (fun offset u => OnlyAt part s u ∧ u part = some (data.take offset)) _ ?_ ?_ hpos hfuel (Nat.zero_le _)
      ⟨honly, by rw [hempty, List.take_zero]⟩
    · intro offset u hu _
      have hsrc : u src = some data := by rw [hu.1 src hne, hdata]
      refine (hread offset u data hsrc).conseq (fun v hv => hv ▸ hu.1) fun r v hv => ?_
      rcases r with e | chunk
      · rw [show v = u from hv]
        exact hu.1
      · obtain ⟨rfl, hlimit, hchunk⟩ := hv
        exact ⟨hu, hlimit, hchunk⟩
    · intro offset chunk u hu hchunk
      refine (hwrite chunk u _ hu.2).conseq (fun v hv q hq => ?_) fun r v hv => ?_
      · rw [hv q hq, hu.1 q hq]
      rcases r with e | ⟨⟩
      · intro q hq
        rw [hv q hq, hu.1 q hq]
      have htake : data.take (offset + chunk.length) = data.take offset ++ chunk := by
        obtain ⟨rest, hrest⟩ := hchunk
        rw [List.take_add, ← hrest, List.take_left' rfl]
      have hv' : v = update u part (some (data.take offset ++ chunk)) := hv
      refine ⟨?_, ?_⟩
      · rw [hv']
        exact hu.1.update _
      · rw [hv', update_self, htake]
  rw [List.take_length] at hloop
  exact hloop

theorem harmless_then (hp : Harmless p) (hI : I s) (hE : ∀ e, E e s)
    (hq : Anyway q s I (OnResult E R)) : Anyway (p.andThen fun () => q) s I (OnResult E R) := by
  have hp' : Anyway p s I (OnResult E fun _ t => t = s) := by
    refine (hp s).conseq (fun t ht => ht ▸ hI) fun r t ht => ?_
    rcases r with e | ⟨⟩
    · exact (show t = s from ht) ▸ hE e
    · exact ht
  refine hp'.andThen fun _ t ht => ?_
  rw [ht]
  exact hq

theorem open_then (hI : I s) (hE : ∀ e, E e s) (hq : ∀ data, s src = some data → Anyway q s I (OnResult E R)) :
    Anyway (((FileProg.openFile src).mapError f).andThen fun () => q) s I (OnResult E R) := by
  refine Always.call hI fun o _ => ?_
  rcases FileOp.handle_open o s src with ⟨e, hop, -⟩ | ⟨hop, hthere⟩
  · rw [hop]
    exact .done (hE _)
  · rw [hop]
    obtain ⟨data, hdata⟩ := Option.isSome_iff_exists.1 hthere
    exact hq data hdata

theorem create_then (hI : I s) (hE : ∀ e, E e s) (hq : Anyway q (update s part (some [])) I (OnResult E R)) :
    Anyway (((FileProg.create part).mapError f).andThen fun () => q) s I (OnResult E R) := by
  refine Always.call hI fun o _ => ?_
  rcases FileOp.handle_create o s part with ⟨e, hop, -⟩ | hop
  · rw [hop]
    exact .done (hE _)
  · rw [hop]
    exact hq

theorem fill_always (hne : src ≠ part) (hdata : s src = some data) {sync : FileProg Place (Except Error Unit)}
    (hread : Reads src read) (hwrite : Appends part write) (hsync : Harmless sync) :
    Anyway ((copyAll read write).andThen fun () => sync) (update s part (some [])) (OnlyAt part s) (Staged src part s) := by
  refine (copyAll_always hne hdata ((OnlyAt.refl part s).update _) (update_self ..) hread hwrite).andThen
    fun _ u hu => ?_
  refine (hsync u).conseq (fun v hv => hv ▸ hu.1) fun r v hv => ?_
  rcases r with e | ⟨⟩
  · exact (show v = u from hv) ▸ hu.1
  · rw [show v = u from hv]
    exact ⟨hu.1, data, hdata, hu.2⟩

theorem cleanedUp_always (h : Anyway stage t (OnlyAt part s) (Staged src part s)) :
    Anyway (cleanedUp part stage) t (OnlyAt part s) (Staged src part s) := by
  refine h.bind fun r u hu => ?_
  rcases r with e | ⟨⟩
  · have hu' : OnlyAt part s u := hu
    refine Always.call hu' fun o _ => ?_
    rcases FileOp.handle_remove o u part with ⟨e', hop, -⟩ | ⟨hop, -⟩
    · rw [hop]
      exact .done hu'
    · rw [hop]
      exact .done (hu'.update _)
  · exact .done hu

/-! ## What a transfer leaves -/

/-- An error leaves the destination as it was, a success leaves the bytes of the source. -/
def Whole (s : Files Place) (src dest : Place) : Except Error Unit → Files Place → Prop :=
  OnResult (fun _ t => t dest = s dest) fun _ t => ∃ data, s src = some data ∧ t dest = some data

theorem renamed_always (hdest : dest ≠ part) (h : Anyway stage t (OnlyAt part s) (Staged src part s)) :
    Anyway (stage.andThen fun () => (FileProg.rename part dest).mapError f) t (fun u => u dest = s dest)
      (Whole s src dest) := by
  have hstage : Anyway stage t (fun u => u dest = s dest) (OnResult (fun _ u => u dest = s dest) fun _ u =>
      u dest = s dest ∧ ∃ data, s src = some data ∧ u part = some data) := by
    refine h.conseq (fun u hu => hu dest hdest) fun r u hu => ?_
    rcases r with e | ⟨⟩
    · exact hu dest hdest
    · exact ⟨hu.1 dest hdest, hu.2⟩
  refine hstage.andThen fun _ u hu => ?_
  obtain ⟨hsame, data, hdata, hpart⟩ := hu
  refine Always.call hsame fun o _ => ?_
  rcases FileOp.handle_rename o u part dest hpart with ⟨e, hop, -⟩ | hop
  · rw [hop]
    exact .done hsame
  · rw [hop]
    exact .done ⟨data, hdata, update_self ..⟩

theorem part_ne (token : String) : path ≠ path ++ "." ++ token ++ ".part" := by
  intro h
  have hlen := congrArg String.length h
  simp only [String.length_append] at hlen
  have hpart : ".part".length = 5 := rfl
  omega

theorem downloadViaProvider_always : Anyway (downloadViaProvider task) s
    (fun t => t (.disk task.localPath) = s (.disk task.localPath))
    (Whole s (.remote task.remotePath) (.disk task.localPath)) := by
  refine harmless_then (harmless_mkdirParent _) rfl (fun _ => rfl) ?_
  refine renamed_always (fun h => part_ne _ _ (Place.disk.inj h)) (cleanedUp_always ?_)
  refine open_then (OnlyAt.refl _ s) (fun _ => OnlyAt.refl _ s) fun data hdata => ?_
  refine create_then (OnlyAt.refl _ s) (fun _ => OnlyAt.refl _ s) ?_
  exact fill_always (by simp) hdata (reads_nextChunk _) (appends_file _ _) (harmless_sync _ _)

theorem download_always : Anyway (download task) s
    (fun t => t (.disk task.localPath) = s (.disk task.localPath))
    (Whole s (.remote task.remotePath) (.disk task.localPath)) := by
  have hdest : Place.disk task.localPath ≠ .disk (transferStagingPath task.localPath task.id) :=
    fun h => part_ne _ _ (Place.disk.inj h)
  refine open_then rfl (fun _ => rfl) fun data hdata => ?_
  refine harmless_then (harmless_mkdirParent _) rfl (fun _ => rfl) ?_
  refine create_then rfl (fun _ => rfl) ?_
  refine renamed_always hdest (cleanedUp_always ?_)
  exact fill_always (by simp) hdata
    (reads_after (harmless_unlessCancelled _) (reads_file (.remote task.remotePath) driverChunkSize_pos _))
    (appends_file _ _) (harmless_sync _ _)

theorem downloadFileStreaming_always (debugPath : String → String) (localPath remotePath token : String) :
    Anyway (downloadFileStreaming debugPath localPath remotePath token) s
      (fun t => t (.disk localPath) = s (.disk localPath)) (Whole s (.remote remotePath) (.disk localPath)) := by
  have hdest : Place.disk localPath ≠ .disk (transferStagingPath localPath token) :=
    fun h => part_ne _ _ (Place.disk.inj h)
  refine open_then rfl (fun _ => rfl) fun data hdata => ?_
  refine harmless_then (harmless_mkdirAnyParent _ _) rfl (fun _ => rfl) ?_
  refine create_then rfl (fun _ => rfl) ?_
  refine renamed_always hdest (cleanedUp_always ?_)
  exact fill_always (by simp) hdata (reads_file (.remote remotePath) streamingChunkSize_pos _)
    (appends_then (appends_file _ _) (harmless_unlessCancelled _)) (harmless_sync _ _)

theorem harmless_sftpSyncAll : Harmless (sftpSyncAll path) :=
  harmless_andThen (harmless_sync _ _) (harmless_sync _ _)

theorem uploadStage_always : Anyway (uploadStage task) s
    (OnlyAt (.remote (transferStagingPath task.remotePath task.id)) s)
    (Staged (.disk task.localPath) (.remote (transferStagingPath task.remotePath task.id)) s) := by
  refine open_then (OnlyAt.refl _ s) (fun _ => OnlyAt.refl _ s) fun data hdata => cleanedUp_always ?_
  refine create_then (OnlyAt.refl _ s) (fun _ => OnlyAt.refl _ s) ?_
  exact fill_always (by simp) hdata
    (reads_after (harmless_unlessCancelled _) (reads_file (.disk task.localPath) driverChunkSize_pos _))
    (appends_file _ _) (harmless_sftpSyncAll _)

theorem uploadFileStreamingStage_always (localPath remotePath token : String) :
    Anyway (uploadFileStreamingStage localPath remotePath token) s
      (OnlyAt (.remote (transferStagingPath remotePath token)) s)
      (Staged (.disk localPath) (.remote (transferStagingPath remotePath token)) s) := by
  refine open_then (OnlyAt.refl _ s) (fun _ => OnlyAt.refl _ s) fun data hdata => cleanedUp_always ?_
  refine create_then (OnlyAt.refl _ s) (fun _ => OnlyAt.refl _ s) ?_
  exact fill_always (by simp) hdata (reads_file (.disk localPath) streamingChunkSize_pos _)
    (appends_then (appends_file _ _) (harmless_unlessCancelled _)) (harmless_sftpSyncAll _)

theorem promoteStaged_whole_iff {staged path : String} {o₁ o₂ : IoOutcome} {rest os : List IoOutcome}
    {r : Except Error Unit} {u : Files Place} (hne : path ≠ staged) (honly : OnlyAt (.remote staged) s t)
    (hsrc : s src = some data) (hpart : t (.remote staged) = some data)
    (h : (promoteStaged staged path).exec FileOp.handle (o₁ :: o₂ :: rest) t = (some (r, os), u)) :
    Whole s src (.remote path) r u ↔ ¬ ((s (.remote path)).isSome ∧ o₁.Clean ∧ ¬ o₂.Clean) := by
  have hplace : Place.remote path ≠ .remote staged := fun heq => hne (Place.remote.inj heq)
  have hsame : t (.remote path) = s (.remote path) := honly _ hplace
  simp only [promoteStaged, sftpRename, FileProg.remove, FileProg.renameNew, Prog.mapError, Prog.bind_eq, Prog.bind,
    Prog.exec] at h
  rcases FileOp.handle_remove o₁ t (.remote path) with ⟨e, hop₁, hnone⟩ | ⟨hop₁, hthere, hclean₁⟩
  · rw [hop₁] at h
    rcases FileOp.handle_renameNew o₂ t (.remote staged) (.remote path) hpart with ⟨e', hop₂, -⟩ | ⟨hop₂, -, hclean₂⟩
    · rw [hop₂] at h
      cases h
      refine iff_of_true hsame ?_
      rintro ⟨hsome, hclean, -⟩
      rw [← hsame, hnone hclean] at hsome
      cases hsome
    · rw [hop₂] at h
      cases h
      exact iff_of_true ⟨data, hsrc, update_self ..⟩ fun hlost => hlost.2.2 hclean₂
  · rw [hop₁] at h
    rw [hsame] at hthere
    have hpart' : update t (Place.remote path) none (Place.remote staged) = some data := by
      rw [update_of_ne hplace.symm, hpart]
    have hgone : update t (Place.remote path) (none : Option Bytes) (Place.remote path) = none :=
      update_self ..
    rcases FileOp.handle_renameNew o₂ _ (Place.remote staged) (Place.remote path) hpart' with ⟨e', hop₂, hfail⟩ | ⟨hop₂, -, hclean₂⟩
    · rw [hop₂] at h
      cases h
      refine iff_of_false (fun hwhole => ?_) (not_not.2 ⟨hthere, hclean₁, fun hclean => ?_⟩)
      · have heq : update t (Place.remote path) none (Place.remote path) = s (.remote path) := hwhole
        rw [hgone] at heq
        rw [← heq] at hthere
        cases hthere
      · have hsome := hfail hclean
        rw [hgone] at hsome
        cases hsome
    · rw [hop₂] at h
      cases h
      exact iff_of_true ⟨data, hsrc, update_self ..⟩ fun hlost => hlost.2.2 hclean₂

/-- The removal of the destination goes through, and the rename behind it does not. -/
def LostBetween (stage : FileProg Place (Except Error Unit)) (dest : Place) (os : List IoOutcome) (s : Files Place) :
    Prop :=
  ∃ o₁ o₂ rest t, stage.exec FileOp.handle os s = (some (.ok (), o₁ :: o₂ :: rest), t) ∧
    (s dest).isSome ∧ o₁.Clean ∧ ¬ o₂.Clean

theorem promoted_whole_iff {staged path : String} (hne : path ≠ staged)
    (hstage : Anyway stage s (OnlyAt (.remote staged) s) (Staged src (.remote staged) s)) (os : List IoOutcome) :
    (∀ r rest t, (stage.andThen fun () => promoteStaged staged path).exec FileOp.handle os s = (some (r, rest), t) →
        Whole s src (.remote path) r t) ↔
      ¬ LostBetween stage (.remote path) os s := by
  have hplace : Place.remote path ≠ .remote staged := fun heq => hne (Place.remote.inj heq)
  have hstop := hstage os fun _ _ => trivial
  unfold LostBetween Prog.andThen
  simp only [Prog.exec_bind]
  rcases hexec : stage.exec FileOp.handle os s with ⟨_ | ⟨e | ⟨⟩, os'⟩, t⟩
  · exact iff_of_true nofun nofun
  · rw [hexec] at hstop
    refine iff_of_true (fun r rest u h => ?_) nofun
    cases h
    exact hstop _ hplace
  · rw [hexec] at hstop
    obtain ⟨honly, data, hsrc, hpart⟩ := hstop
    rcases os' with _ | ⟨o₁, _ | ⟨o₂, rest⟩⟩
    · exact iff_of_true nofun nofun
    · exact iff_of_true nofun nofun
    · constructor
      · rintro h ⟨o₁', o₂', rest', t', heq, hlost⟩
        cases heq
        have hrun : (promoteStaged staged path).exec FileOp.handle (o₁ :: o₂ :: rest) t = (some (_, rest), _) := rfl
        exact (promoteStaged_whole_iff hne honly hsrc hpart hrun).1 (h _ _ _ hrun) hlost
      · intro h r os'' u hrun
        refine (promoteStaged_whole_iff hne honly hsrc hpart hrun).2 fun hlost => ?_
        exact h ⟨o₁, o₂, rest, t, rfl, hlost⟩

end Stages

/-! ## All five -/

/-- A transfer, with what it is called with. -/
inductive TransferCall where
  | downloadViaProvider (task : TaskSnapshot)
  | download (task : TaskSnapshot)
  | downloadFileStreaming (debugPath : String → String) (localPath remotePath token : String)
  | upload (task : TaskSnapshot)
  | uploadFileStreaming (localPath remotePath token : String)

namespace TransferCall

def run : TransferCall → FileProg Place (Except Error Unit)
  | .downloadViaProvider task => Transfer.downloadViaProvider task
  | .download task => Transfer.download task
  | .downloadFileStreaming debugPath localPath remotePath token =>
    Transfer.downloadFileStreaming debugPath localPath remotePath token
  | .upload task => Transfer.upload task
  | .uploadFileStreaming localPath remotePath token => Transfer.uploadFileStreaming localPath remotePath token

def source : TransferCall → Place
  | .downloadViaProvider task | .download task => .remote task.remotePath
  | .downloadFileStreaming _ _ remotePath _ => .remote remotePath
  | .upload task => .disk task.localPath
  | .uploadFileStreaming localPath _ _ => .disk localPath

def dest : TransferCall → Place
  | .downloadViaProvider task | .download task => .disk task.localPath
  | .downloadFileStreaming _ localPath _ _ => .disk localPath
  | .upload task => .remote task.remotePath
  | .uploadFileStreaming _ remotePath _ => .remote remotePath

def uploading : TransferCall → Option (FileProg Place (Except Error Unit))
  | .upload task => some (uploadStage task)
  | .uploadFileStreaming localPath remotePath token => some (uploadFileStreamingStage localPath remotePath token)
  | _ => none

/-- The transfer is an upload whose rename fails behind the removal of a destination that was there. -/
def LosesDest (x : TransferCall) (os : List IoOutcome) (s : Files Place) : Prop :=
  ∃ stage, x.uploading = some stage ∧ LostBetween stage x.dest os s

end TransferCall

theorem downloaded_whole_iff {s : Files Place} {src dest : Place}
    (h : Anyway p s (fun t => t dest = s dest) (Whole s src dest)) (os : List IoOutcome) :
    ∀ r rest t, p.exec FileOp.handle os s = (some (r, rest), t) → Whole s src dest r t := by
  intro r rest t hexec
  have hstop := h os fun _ _ => trivial
  rw [hexec] at hstop
  exact hstop

/-- **Transfers replace their destination as a whole**, exactly when they are no uploads whose promotion removes the
destination and then cannot rename. -/
theorem transfers_whole_iff (x : TransferCall) (os : List IoOutcome) (s : Files Place) :
    (∀ r rest t, x.run.exec FileOp.handle os s = (some (r, rest), t) → Whole s x.source x.dest r t) ↔
      ¬ x.LosesDest os s := by
  have hnone : x.uploading = none → ¬ x.LosesDest os s := by
    rintro hx ⟨stage, hstage, -⟩
    rw [hx] at hstage
    cases hstage
  have hsome : ∀ stage, x.uploading = some stage → (x.LosesDest os s ↔ LostBetween stage x.dest os s) := by
    intro stage hstage
    unfold TransferCall.LosesDest
    rw [hstage]
    simp
  rcases x with task | task | ⟨debugPath, localPath, remotePath, token⟩ | task | ⟨localPath, remotePath, token⟩
  case downloadViaProvider => exact iff_of_true (downloaded_whole_iff (downloadViaProvider_always task) os) (hnone rfl)
  case download => exact iff_of_true (downloaded_whole_iff (download_always task) os) (hnone rfl)
  case downloadFileStreaming =>
    exact iff_of_true (downloaded_whole_iff (downloadFileStreaming_always debugPath localPath remotePath token) os)
      (hnone rfl)
  case upload =>
    rw [hsome _ rfl]
    exact promoted_whole_iff (part_ne _ _) (uploadStage_always task) os
  case uploadFileStreaming =>
    rw [hsome _ rfl]
    exact promoted_whole_iff (part_ne _ _) (uploadFileStreamingStage_always localPath remotePath token) os

/-- An upload of an empty file over a file that is there; the server answers the last rename with an error. -/
theorem upload_loses_dest : ¬ ∀ (x : TransferCall) (os : List IoOutcome) (s : Files Place) r rest t,
    x.run.exec FileOp.handle os s = (some (r, rest), t) → Whole s x.source x.dest r t := by
  intro h
  let s : Files Place := fun p => if p = .disk "l" then some [] else if p = .remote "r" then some [7] else none
  -- open, create, read, flush, sync and remove go through
  let os : List IoOutcome := List.replicate 6 ⟨none, 0⟩ ++ [⟨some "connection lost", 0⟩]
  let x : TransferCall := .uploadFileStreaming "l" "r" "t"
  have hexec : (x.run.exec FileOp.handle os s).1.map (fun y => y.1.isOk) = some false ∧
      (x.run.exec FileOp.handle os s).2 (.remote "r") = none := by decide +kernel
  rcases hrun : x.run.exec FileOp.handle os s with ⟨_ | ⟨e | ⟨⟩, rest⟩, t⟩
  · rw [hrun] at hexec
    exact absurd hexec.1 nofun
  · rw [hrun] at hexec
    have hsame : t (.remote "r") = some [7] := h x os s (.error e) rest t hrun
    have hgone : t (.remote "r") = none := hexec.2
    rw [hgone] at hsame
    cases hsame
  · rw [hrun] at hexec
    exact absurd hexec.1 nofun

end LetsFlutSsh.Transfer
