import LetsFlutSsh.Recorder.Playback
import LetsFlutSsh.Recorder.Registry

/-!
# Recorder: rotation

`rotate_to` gives up the files of a recording before it opens the next pair.

* `Registry.rotateTo` : the rotation, with the answers of the operating system as inputs;
* `OpenIo.Clear`, `SidecarIo.Clear` : no step of an opening fails (`openRecordingFile_cases`, `createIndex_cases`);
* `Survives` : a rotation left the recording as it was, for every later call;
* `survives_iff` : when a failed rotation does not stop its recording.
-/

namespace LetsFlutSsh.Recorder
open Lib Transfer Function

/-- What a rotation draws and what the operating system answers to its steps. -/
structure RotateIo where
  /-- The last flush of the previous sidecar's buffer. -/
  dropFlush : WriteOutcome
  recordingKey : Block 32
  wrapNonce : Block 12
  main : OpenIo
  sidecar : SidecarIo

/-- The files when a sidecar's `BufWriter` is dropped: it flushes once more and ignores an error. -/
def dropIndex (disk : Files) (index : Option SidecarHandle) (io : WriteOutcome) : Files :=
  match index with
  | none => disk
  | some h =>
    match (h.writer disk).flush io with
    | .ok w => update disk h.path w.file
    | .error _ => disk

def IoActor.taken (a : IoActor) : IoActor :=
  { a with file := none, index := none, file_path := nofun, index_path := nofun }

def IoActor.reopened (a : IoActor) (newPath : String) (opened : Opened a.dbKey) : IoActor :=
  { a with
    path := newPath, bytesWritten := opened.bytesWritten, file := some newPath, key := opened.key, frameIndex := 0,
    index := none, file_path := path_of_file newPath, index_path := nofun, keyed := opened.keyed }

def IoActor.withIndex (a : IoActor) (h : { h : SidecarHandle // h.path = sidecarFile a.path }) : IoActor :=
  { a with index := some h.1, index_path := fun _ hh => Option.some.inj hh ▸ h.2 }

namespace Registry

def rotateTexts : OpenTexts :=
  { mkdir := "rotate mkdir", openFile := "rotate open", harden := "recorder rotate harden", header := "rotate header write" }

def rotateTo (C : Crypto) (s : Registry) (id newPath : String) (io : RotateIo) : Registry × Except Error RecorderSnapshot :=
  match s.byId id with
  | none => (s, .error (notRegistered id))
  | some actor =>
    match actor.file with
    | none => (s, .error (noFileHandle id))
    | some _ =>
      let s := { s with disk := dropIndex s.disk actor.index io.dropFlush }
      match openRecordingFile C rotateTexts actor.dbKey io.recordingKey io.wrapNonce newPath (s.disk newPath) io.main with
      | .error e => (s.put id actor.taken, .error e)
      | .ok opened =>
        let s := s.write newPath opened.content
        let actor := actor.reopened newPath opened
        match createIndex s.disk newPath (deriveIndexKey C actor.key) io.sidecar with
        | (disk, .error e) => ({ s with disk }.put id actor, .error e)
        | (disk, .ok h) =>
          let actor := actor.withIndex h
          (({ s with disk }.put id actor).publish (.recorderStarted id newPath), .ok actor.snapshot)

end Registry

/-! ## When the openings succeed -/

def ParentReady (path : String) (io : WriteOutcome) : Prop :=
  io = none ∨ parentDir path = none ∨ parentDir path = some ""

/-- No step that opens a recording's file of `size` bytes fails. -/
structure OpenIo.Clear (dbKey : Option (Block 32)) (path : String) (size : Nat) (io : OpenIo) : Prop where
  parent : ParentReady path io.mkdir
  openFile : io.openFile = none
  harden : io.harden = none
  header : dbKey.isSome → io.header = none ∧ size + lfrHeaderLen ≤ maxFileLen

/-- No step that opens the sidecar of a recording fails. -/
structure SidecarIo.Clear (recordingPath : String) (io : SidecarIo) : Prop where
  parent : ParentReady (sidecarFile recordingPath) io.mkdir
  openFile : io.openFile = none
  harden : io.harden = none
  magic : io.magic = none
  version : io.version = none

theorem createParent_cases (step path : String) (io : WriteOutcome) :
    (ParentReady path io ∧ createParent step path io = .ok ()) ∨
      (¬ ParentReady path io ∧ ∃ e, createParent step path io = .error e) := by
  unfold createParent ParentReady
  rcases hparent : parentDir path with _ | parent
  · exact .inl ⟨.inr (.inl rfl), rfl⟩
  · rcases io with _ | e
    · exact .inl ⟨.inl rfl, rfl⟩
    · by_cases h : parent = ""
      · exact .inl ⟨.inr (.inr (by rw [h])), if_pos h⟩
      · exact .inr ⟨by simp [h], _, if_neg h⟩

theorem buildLfsrHeader_total (C : Crypto) (dk rk : Block 32) (wn : Block 12) :
    ∃ header, buildLfsrHeader C dk rk wn = .ok header := by
  have hlen : keywrapAad.length < 2 ^ 32 := by decide +kernel
  obtain ⟨wrapped, hw⟩ := Option.isSome_iff_exists.mp (C.encrypt_isSome dk wn rk.1 keywrapAad (by rw [rk.2]; decide) hlen)
  refine ⟨lfrMagic ++ [lfrVersion] ++ wn.1 ++ wrapped, ?_⟩
  simp only [buildLfsrHeader, aesGcmEncryptRaw, hw]
  rfl

/-- What an opening leaves in a file that held `content`. -/
def Opened.On (C : Crypto) {dbKey : Option (Block 32)} (rk : Block 32) (wn : Block 12) (content : Bytes)
    (opened : Opened dbKey) : Prop :=
  ∃ header, opened.content = content ++ header ∧ opened.bytesWritten = header.length ∧
    (dbKey = none → header = []) ∧ ∀ dk, dbKey = some dk → buildLfsrHeader C dk rk wn = .ok header ∧ opened.key = some rk

theorem openRecordingFile_cases (C : Crypto) (texts : OpenTexts) (dbKey : Option (Block 32)) (rk : Block 32)
    (wn : Block 12) (path : String) (content : Bytes) (io : OpenIo) :
    (io.Clear dbKey path content.length ∧
        ∃ opened, openRecordingFile C texts dbKey rk wn path content io = .ok opened ∧ opened.On C rk wn content) ∨
      (¬ io.Clear dbKey path content.length ∧ ∃ e, openRecordingFile C texts dbKey rk wn path content io = .error e) := by
  unfold openRecordingFile
  rcases createParent_cases texts.mkdir path io.mkdir with ⟨hparent, hmkdir⟩ | ⟨hparent, e, hmkdir⟩
  · rw [hmkdir]
    rcases hopen : io.openFile with _ | e
    · rcases hharden : io.harden with _ | msg
      · rcases dbKey with _ | dk
        · exact .inl ⟨⟨hparent, hopen, hharden, by simp⟩, _, rfl, [], by simp⟩
        obtain ⟨header, hheader⟩ := buildLfsrHeader_total C dk rk wn
        obtain ⟨-, -, -, hlen⟩ := buildLfsrHeader_ok hheader
        dsimp only
        rw [hheader]
        rcases hw : io.header with _ | e
        · by_cases hfit : content.length + lfrHeaderLen ≤ maxFileLen
          · refine .inl ⟨⟨hparent, hopen, hharden, fun _ => ⟨hw, hfit⟩⟩, ?_⟩
            simp only [writeAll, hlen, hfit, if_true]
            exact ⟨_, rfl, header, rfl, hlen.symm, by simp, fun _ hdk => ⟨Option.some.inj hdk ▸ hheader, rfl⟩⟩
          · refine .inr ⟨fun h => hfit (h.header rfl).2, ?_⟩
            simp only [writeAll, hlen, hfit, if_false]
            exact ⟨_, rfl⟩
        · exact .inr ⟨fun h => by simpa [hw] using (h.header rfl).1, _, rfl⟩
      · exact .inr ⟨fun h => by simpa [hharden] using h.harden, _, rfl⟩
    · exact .inr ⟨fun h => by simpa [hopen] using h.openFile, _, rfl⟩
  · rw [hmkdir]
    exact .inr ⟨fun h => hparent h.parent, _, rfl⟩

theorem createIndex_cases (disk : Files) (path : String) (key : Option (Block 32)) (io : SidecarIo) : (io.Clear path ∧
    createIndex disk path key io = (update disk (sidecarFile path) (lfiMagic ++ [lfiVersion]),
        .ok ⟨{ path := sidecarFile path, buf := [], key, nextSeq := 0 }, rfl⟩)) ∨
      (¬ io.Clear path ∧ ∃ disk' e, createIndex disk path key io = (disk', .error e) ∧
        ∀ p, p ≠ sidecarFile path → disk' p = disk p) := by
  have hother (content : Bytes) : ∀ p, p ≠ sidecarFile path → update disk (sidecarFile path) content p = disk p :=
    fun p hp => update_of_ne hp _ _
  unfold createIndex
  rcases createParent_cases "idx mkdir" (sidecarFile path) io.mkdir with ⟨hparent, hmkdir⟩ | ⟨hparent, e, hmkdir⟩
  · simp only [hmkdir]
    rcases hopen : io.openFile with _ | e
    · rcases hharden : io.harden with _ | msg
      · rcases hmagic : io.magic with _ | e
        · rcases hversion : io.version with _ | e
          · exact .inl ⟨⟨hparent, hopen, hharden, hmagic, hversion⟩, by simp [writeAll, lfiMagic, maxFileLen]⟩
          · refine .inr ⟨fun h => by simpa [hversion] using h.version, _, _, rfl, fun p hp => ?_⟩
            simp [update_of_ne hp]
        · exact .inr ⟨fun h => by simpa [hmagic] using h.magic, _, _, rfl, hother []⟩
      · exact .inr ⟨fun h => by simpa [hharden] using h.harden, _, _, rfl, hother []⟩
    · exact .inr ⟨fun h => by simpa [hopen] using h.openFile, _, _, rfl, fun p _ => rfl⟩
  · simp only [hmkdir]
    exact .inr ⟨fun h => hparent h.parent, _, _, rfl, fun p _ => rfl⟩

/-! ## What a rotation does -/

namespace Registry

section
variable {C : Crypto} {s : Registry} {id newPath path : String} {io : RotateIo} {a : IoActor}

/-- A registration that succeeds on a path without a file has the recording that `Recorder.registerWithIo` makes. -/
theorem registerWithIo_holds {t : Registry} {sessionId : String} {dbKey : Option (Block 32)} {rk : Block 32} {wn : Block 12}
    {secs : Nat} {main : OpenIo} {idx : SidecarIo} {snapshot : RecorderSnapshot} (hempty : s.disk path = [])
    (h : s.registerWithIo C id sessionId path dbKey rk wn secs main idx = (t, .ok snapshot)) :
    ∃ r, Recorder.registerWithIo C dbKey rk wn secs = .ok r ∧ t.Holds id r := by
  unfold registerWithIo at h
  rw [hempty] at h
  rcases openRecordingFile_cases C registerTexts dbKey rk wn path [] main with
    ⟨-, opened, hopen, header, hcontent, hbytes, hplain, hkeyed⟩ | ⟨-, e, hopen⟩
  · rw [hopen] at h
    rcases createIndex_cases (update s.disk path opened.content) path (deriveIndexKey C opened.key) idx with
      ⟨-, hindex⟩ | ⟨-, disk', e, hindex, -⟩
    · simp only [hindex] at h
      cases h
      obtain ⟨content, bytesWritten, key, hkey⟩ := opened
      have hapart : path ≠ sidecarFile path := (sidecarFile_ne path).symm
      rcases dbKey with _ | dk
      · obtain rfl : header = [] := hplain rfl
        obtain rfl : key = none := by simpa using hkey
        refine ⟨_, rfl, _, _, secs, put_byId _, rfl, rfl, rfl, ?_⟩
        simp_all [IoActor.actor, SidecarHandle.writer, IndexWriter.create]
      · obtain ⟨hheader, rfl⟩ := hkeyed dk rfl
        refine ⟨_, by rw [Recorder.registerWithIo, hheader]; rfl, _, _, secs, put_byId _, rfl, rfl, rfl, ?_⟩
        simp_all [IoActor.actor, SidecarHandle.writer, IndexWriter.create]
    · simp only [hindex] at h
      cases h
  · rw [hopen] at h
    cases h

/-- The files as a rotation finds them once the previous sidecar is closed. -/
def rotationDisk (s : Registry) (a : IoActor) (io : RotateIo) : Files := dropIndex s.disk a.index io.dropFlush

theorem rotateTo_cases (C : Crypto) (io : RotateIo) (newPath : String) (ha : s.byId id = some a) (hf : a.file = some path) :
    let disk := rotationDisk s a io
    let main := io.main.Clear a.dbKey newPath (disk newPath).length
    (¬ main ∧ ∃ e, s.rotateTo C id newPath io = ({ s with disk }.put id a.taken, .error e)) ∨
      ∃ opened : Opened a.dbKey, main ∧ opened.On C io.recordingKey io.wrapNonce (disk newPath) ∧
        ∃ disk', (∀ p, p ≠ sidecarFile newPath → disk' p = update disk newPath opened.content p) ∧
          ((¬ io.sidecar.Clear newPath ∧ ∃ e,
              s.rotateTo C id newPath io = ({ s with disk := disk' }.put id (a.reopened newPath opened), .error e)) ∨
            (io.sidecar.Clear newPath ∧ disk' (sidecarFile newPath) = lfiMagic ++ [lfiVersion] ∧
              ∃ h : { h : SidecarHandle // h.path = sidecarFile newPath },
                h.1 = { path := sidecarFile newPath, buf := [], key := deriveIndexKey C opened.key, nextSeq := 0 } ∧
                s.rotateTo C id newPath io =
                  (({ s with disk := disk' }.put id ((a.reopened newPath opened).withIndex h)).publish
                    (.recorderStarted id newPath), .ok ((a.reopened newPath opened).withIndex h).snapshot))) := by
  intro disk main
  unfold rotateTo
  simp only [ha, hf]
  rcases openRecordingFile_cases C rotateTexts a.dbKey io.recordingKey io.wrapNonce newPath (disk newPath) io.main with
    ⟨hmain, opened, hopened, hon⟩ | ⟨hmain, e, he⟩
  · right
    rw [show dropIndex s.disk a.index io.dropFlush = disk from rfl, hopened]
    rcases createIndex_cases (update disk newPath opened.content) newPath (deriveIndexKey C opened.key) io.sidecar with
      ⟨hside, heq⟩ | ⟨hside, disk', e, heq, hother⟩
    · refine ⟨opened, hmain, hon, _, fun p hp => update_of_ne hp _ _, .inr ⟨hside, update_self .., ?_⟩⟩
      exact ⟨_, rfl, by simp only [write, IoActor.reopened, heq]; rfl⟩
    · exact ⟨opened, hmain, hon, disk', hother, .inl ⟨hside, e, by simp only [write, IoActor.reopened, heq]⟩⟩
  · left
    rw [show dropIndex s.disk a.index io.dropFlush = disk from rfl, he]
    exact ⟨hmain, e, rfl⟩

/-! ## Whether the recording survives -/

def held (a : IoActor) : Option String × Option SidecarHandle × Nat × Nat := (a.file, a.index, a.bytesWritten, a.frameIndex)

/-- From `s` to `t` a recording on `path` kept its file, its index and its counters, and later calls return and write
what they would have without that step, so that playback shows it all. -/
structure Survives (C : Crypto) (id path : String) (s t : Registry) : Prop where
  held : (t.byId id).map held = (s.byId id).map held
  later : ∀ cs, (recordAll C id t cs).2 = (recordAll C id s cs).2 ∧
    (recordAll C id t cs).1.disk path = (recordAll C id s cs).1.disk path

/-- A recording that has not started: no key, no sidecar, nothing written, already on the path it is rotated to. -/
structure Blank (a : IoActor) (newPath : String) : Prop where
  path : a.file = some newPath
  dbKey : a.dbKey = none
  index : a.index = none
  bytesWritten : a.bytesWritten = 0
  frameIndex : a.frameIndex = 0

theorem Survives.of_alike {t : Registry} (h : Alike id path s t) : Survives C id path s t := by
  refine ⟨by rw [h.byId], fun cs => ?_⟩
  obtain ⟨hresults, hend⟩ := recordAll_congr (C := C) h cs
  exact ⟨hresults, hend.file⟩

theorem Blank.reopened (h : Blank a newPath) {opened : Opened a.dbKey} {content : Bytes} {rk : Block 32} {wn : Block 12}
    (hon : opened.On C rk wn content) : a.reopened newPath opened = a ∧ opened.content = content := by
  obtain ⟨header, hcontent, hbytes, hheader, -⟩ := hon
  have hpath : newPath = a.path := a.file_path newPath h.path
  have hkey : opened.key = a.key := by
    have hopened : opened.key = none := by simpa [h.dbKey] using opened.keyed
    have hheld : a.key = none := by simpa [h.dbKey] using a.keyed
    rw [hopened, hheld]
  rw [hheader h.dbKey] at hcontent hbytes
  refine ⟨?_, by rw [hcontent, List.append_nil]⟩
  ext1
  · rfl
  · rfl
  · exact hpath
  · exact hbytes.trans h.bytesWritten.symm
  · rfl
  · rfl
  · exact h.path.symm
  · exact hkey
  · rfl
  · exact h.frameIndex.symm
  · exact h.index.symm

/-- **Rotation and the recording.** A rotation that returns an error leaves its recording as it was exactly when none of
its steps fails, or only the sidecar's do and the recording has not started. -/
theorem survives_iff (C : Crypto) (s : Registry) (id newPath : String) (io : RotateIo) (a : IoActor) (path : String)
    (ha : s.byId id = some a) (hf : a.file = some path) :
    (∀ e, (s.rotateTo C id newPath io).2 = .error e → Survives C id path s (s.rotateTo C id newPath io).1) ↔
      io.main.Clear a.dbKey newPath (rotationDisk s a io newPath).length ∧
        (io.sidecar.Clear newPath ∨ Blank a newPath) := by
  rcases rotateTo_cases C io newPath ha hf with ⟨hmain, e, heq⟩ | ⟨opened, hmain, hon, disk', hdisk, hcase⟩
  · refine iff_of_false (fun h => ?_) (fun h => hmain h.1)
    -- the file was given up
    have hheld := (h e (by rw [heq])).held
    rw [heq, ha, put_byId] at hheld
    simp [Registry.held, IoActor.taken, hf] at hheld
  · rw [and_iff_right hmain]
    rcases hcase with ⟨hside, e, heq⟩ | ⟨hside, -, h, -, heq⟩
    · rw [or_iff_right hside]
      constructor
      · intro h
        have hsurvives := h e (by rw [heq])
        have hheld := hsurvives.held
        rw [heq, ha, put_byId] at hheld
        simp only [Option.map_some, Registry.held, IoActor.reopened, hf, Option.some.injEq, Prod.mk.injEq] at hheld
        obtain ⟨rfl, hindex, hbytes, hframe⟩ := hheld
        -- under a key the header would be written a second time
        obtain ⟨header, hcontent, hwritten, hnil, hheader⟩ := hon
        have hdbKey : a.dbKey = none := by
          by_contra hkeyed
          obtain ⟨dk, hdk⟩ := Option.ne_none_iff_exists'.mp hkeyed
          obtain ⟨-, -, -, hlen⟩ := buildLfsrHeader_ok (hheader dk hdk).1
          have hdrop : rotationDisk s a io = s.disk := by rw [rotationDisk, ← hindex, dropIndex]
          have hfile := congrArg List.length (hsurvives.later []).2
          rw [heq] at hfile
          simp only [recordAll, put_disk] at hfile
          rw [hdisk _ (sidecarFile_ne _).symm, update_self, hcontent, hdrop, List.length_append, hlen] at hfile
          have : lfrHeaderLen = 65 := rfl
          omega
        have hwritten' : a.bytesWritten = 0 := by rw [← hbytes, hwritten, hnil hdbKey, List.length_nil]
        exact ⟨hf, hdbKey, hindex.symm, hwritten', hframe.symm⟩
      · intro hblank e' _
        obtain ⟨hactor, hcontent⟩ := hblank.reopened hon
        have hpath : path = newPath := Option.some.inj (hf.symm.trans hblank.path)
        refine .of_alike ⟨?_, fun b p hb hp => ?_, ?_, fun b w hb hw => ?_⟩
        · rw [heq, hactor, put_byId, ha]
        · rw [ha] at hb
          cases hb
          exact Option.some.inj (hp.symm.trans hf)
        · have hne := (sidecarFile_ne newPath).symm
          rw [heq, hpath]
          simp [hdisk _ hne, hcontent, rotationDisk, dropIndex, hblank.index]
        · rw [ha] at hb
          cases hb
          rw [hblank.index] at hw
          cases hw
    · refine iff_of_true (fun e he => ?_) (.inl hside)
      rw [heq] at he
      cases he

/-- An encrypted recording on `a.lfsr`, newly registered. -/
def sampleOpen : Registry :=
  (registerWithIo Crypto.tagged { byId := fun _ => none, disk := fun _ => [], bus := [] } "r" "s" "a.lfsr"
    (some (Block.fill 32 1)) (Block.fill 32 2) (Block.fill 12 3) 0 { mkdir := none, openFile := none, harden := none, header := none }
    { mkdir := none, openFile := none, harden := none, magic := none, version := none }).1

def sampleDenied : RotateIo where
  dropFlush := none
  recordingKey := Block.fill 32 6
  wrapNonce := Block.fill 12 7
  main := { mkdir := none, openFile := some "Permission denied (os error 13)", harden := none, header := none }
  sidecar := { mkdir := none, openFile := none, harden := none, magic := none, version := none }

theorem survives_iff_sample : (∃ a, sampleOpen.byId "r" = some a ∧ a.file = some "a.lfsr" ∧
      ((∀ e, (sampleOpen.rotateTo Crypto.tagged "r" "b.lfsr" sampleDenied).2 = .error e →
          Survives Crypto.tagged "r" "a.lfsr" sampleOpen (sampleOpen.rotateTo Crypto.tagged "r" "b.lfsr" sampleDenied).1) ↔
        sampleDenied.main.Clear a.dbKey "b.lfsr" (rotationDisk sampleOpen a sampleDenied "b.lfsr").length ∧
          (sampleDenied.sidecar.Clear "b.lfsr" ∨ Blank a "b.lfsr"))) :=
  ⟨_, rfl, rfl, survives_iff Crypto.tagged sampleOpen "r" "b.lfsr" sampleDenied _ "a.lfsr" rfl rfl⟩

/-- The new file of a rotation is refused: the rotation returns an error, the recording has lost its previous file and
the next event is not recorded. -/
theorem denied_rotation_stops_recording : (∃ a, sampleOpen.byId "r" = some a ∧ a.file = some "a.lfsr") ∧
      let r := sampleOpen.rotateTo Crypto.tagged "r" "b.lfsr" sampleDenied
      r.2 = .error (.recorder "rotate open b.lfsr: Permission denied (os error 13)") ∧
        ¬ Survives Crypto.tagged "r" "a.lfsr" sampleOpen r.1 ∧
        (recordAll Crypto.tagged "r" sampleOpen [sampleEvent none]).2 = [.ok 109] ∧
        (recordAll Crypto.tagged "r" r.1 [sampleEvent none]).2 = [.error (noFileHandle "r")] := by
  have hlater : (recordAll Crypto.tagged "r" (sampleOpen.rotateTo Crypto.tagged "r" "b.lfsr" sampleDenied).1
      [sampleEvent none]).2 = [.error (noFileHandle "r")] := by decide +kernel
  have hbefore : (recordAll Crypto.tagged "r" sampleOpen [sampleEvent none]).2 = [.ok 109] := by decide +kernel
  refine ⟨⟨_, rfl, rfl⟩, by decide +kernel, fun h => ?_, hbefore, hlater⟩
  have hsame := (h.later [sampleEvent none]).1
  rw [hlater, hbefore] at hsame
  cases hsame

end
end Registry
end LetsFlutSsh.Recorder
