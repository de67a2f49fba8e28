import LetsFlutSsh.Recorder.Writer
import LetsFlutSsh.Transfer.Staging

/-!
# Recorder: the registry and the files its recordings hold open

The recordings of `RecorderRegistry`, each with the files it holds, over the files on disk:

* `IoActor` : one recording, whose handles are on its own path and on the sidecar beside it;
* `openRecordingFile`, `createIndex` : the steps that open a recording's two files, each of which can fail;
* `Registry.registerWithIo`, `Registry.recordFrameAt`, `Registry.recordEvent`, `Registry.recordAll` : the calls;
* `Registry.Holds` : the recording of `Recorder.Writer` that the registry has under an id (`Registry.recordAll_holds`).
-/

namespace LetsFlutSsh.Recorder
open Lib Transfer Function

abbrev Files := String → Bytes

/-- `sidecar_path`. -/
def sidecarFile (recordingPath : String) : String := recordingPath ++ ".idx"

/-- An `IndexWriter` by the file it has open. -/
structure SidecarHandle where
  path : String
  buf : Bytes
  key : Option (Block 32)
  nextSeq : Nat

def SidecarHandle.writer (h : SidecarHandle) (disk : Files) : IndexWriter :=
  { file := disk h.path, buf := h.buf, key := h.key, nextSeq := h.nextSeq }

/-- A `RecorderActor`. Its open files are its own: the recording at its path and the sidecar beside it. A recording
key comes with the key it is wrapped under. -/
@[ext] structure IoActor where
  id : String
  sessionId : String
  path : String
  bytesWritten : Nat
  encrypted : Bool
  startedAtSecs : Option Nat
  file : Option String
  key : Option (Block 32)
  dbKey : Option (Block 32)
  frameIndex : Nat
  index : Option SidecarHandle
  file_path : ∀ p, file = some p → p = path
  index_path : ∀ h, index = some h → h.path = sidecarFile path
  keyed : key.isSome = dbKey.isSome

structure RecorderSnapshot where
  id : String
  sessionId : String
  path : String
  bytesWritten : Nat
  encrypted : Bool
  deriving DecidableEq

theorem path_of_file (path p : String) (h : some path = some p) : p = path := (Option.some.inj h).symm

def IoActor.snapshot (a : IoActor) : RecorderSnapshot :=
  { id := a.id, sessionId := a.sessionId, path := a.path, bytesWritten := a.bytesWritten, encrypted := a.encrypted }

/-- The actor when its sidecar's writer has become `w'`. -/
def IoActor.indexed (a : IoActor) (w' : IndexWriter) : IoActor :=
  { a with
    index := a.index.map fun h => { h with buf := w'.buf, nextSeq := w'.nextSeq }
    index_path := by
      intro h' hh
      obtain ⟨h, hindex, rfl⟩ := Option.map_eq_some_iff.mp hh
      exact a.index_path h hindex }

/-- The recording that `Recorder.Writer` has for an actor with both its files open. -/
def IoActor.actor (a : IoActor) (w : SidecarHandle) (secs : Nat) (disk : Files) : RecorderActor where
  bytesWritten := a.bytesWritten
  startedAtSecs := secs
  file := disk a.path
  key := a.key
  frameIndex := a.frameIndex
  index := w.writer disk

/-- `record_frame_at` on the actor and the bytes of its file. -/
def IoActor.writeFrame (C : Crypto) (a : IoActor) (file plaintext : Bytes) (io : FrameIo) :
    IoActor × Bytes × Except Error (Nat × Nat) :=
  let idx := a.frameIndex
  let pre := a.bytesWritten
  let a := { a with frameIndex := satAdd a.frameIndex 1 }
  match buildFrame C plaintext a.key idx io.nonce with
  | .error e => (a, file, .error e)
  | .ok frame =>
    match writeAll file frame io.write with
    | .error e => (a, file, .error (.recorder ("frame write: " ++ e)))
    | .ok file =>
      let total := satAdd a.bytesWritten frame.length
      ({ a with bytesWritten := total }, file, .ok (pre, total))

inductive Event where
  | recorderStarted (id path : String)
  | recorderBytesWritten (id : String) (totalBytes : Nat)

structure Registry where
  byId : String → Option IoActor
  disk : Files
  bus : List Event

/-- What the operating system answers to the steps that open a recording's file. -/
structure OpenIo where
  mkdir : WriteOutcome
  openFile : WriteOutcome
  harden : WriteOutcome
  header : WriteOutcome

/-- The same for a sidecar, whose header takes two writes. -/
structure SidecarIo where
  mkdir : WriteOutcome
  openFile : WriteOutcome
  harden : WriteOutcome
  magic : WriteOutcome
  version : WriteOutcome

/-- The words with which the errors of the opening steps start. -/
structure OpenTexts where
  mkdir : String
  openFile : String
  harden : String
  header : String

/-- `create_dir_all` on the parent directory, where a path has one. -/
def createParent (step path : String) (io : WriteOutcome) : Except Error Unit :=
  match parentDir path, io with
  | some parent, some e => if parent = "" then .ok () else .error (.recorder (step ++ " " ++ parent ++ ": " ++ e))
  | _, _ => .ok ()

/-- A recording's file, opened: what is in it, how much of that this opening wrote, the recording key. -/
structure Opened (dbKey : Option (Block 32)) where
  content : Bytes
  bytesWritten : Nat
  key : Option (Block 32)
  keyed : key.isSome = dbKey.isSome

/-- Open a recording's file for appending and, under a wrap key, write the header with a fresh recording key. -/
def openRecordingFile (C : Crypto) (texts : OpenTexts) (dbKey : Option (Block 32)) (recordingKey : Block 32)
    (wrapNonce : Block 12) (path : String) (content : Bytes) (io : OpenIo) : Except Error (Opened dbKey) :=
  match createParent texts.mkdir path io.mkdir with
  | .error e => .error e
  | .ok () =>
    match io.openFile with
    | some e => .error (.recorder (texts.openFile ++ " " ++ path ++ ": " ++ e))
    | none =>
      match io.harden with
      | some msg => .error (.recorder (texts.harden ++ " " ++ path ++ ": " ++ msg))
      | none =>
        match dbKey with
        | none => .ok { content, bytesWritten := 0, key := none, keyed := rfl }
        | some dk =>
          match buildLfsrHeader C dk recordingKey wrapNonce with
          | .error e => .error e
          | .ok header =>
            match writeAll content header io.header with
            | .error e => .error (.recorder (texts.header ++ ": " ++ e))
            | .ok content =>
              .ok { content, bytesWritten := header.length, key := some recordingKey, keyed := rfl }

/-- `IndexWriter::create`, through `open_index_writer`. The open truncates. -/
def createIndex (disk : Files) (recordingPath : String) (key : Option (Block 32)) (io : SidecarIo) :
    Files × Except Error { h : SidecarHandle // h.path = sidecarFile recordingPath } :=
  let path := sidecarFile recordingPath
  match createParent "idx mkdir" path io.mkdir with
  | .error e => (disk, .error e)
  | .ok () =>
    match io.openFile with
    | some e => (disk, .error (.recorder ("idx open " ++ path ++ ": " ++ e)))
    | none =>
      let disk := update disk path []
      match io.harden with
      | some msg => (disk, .error (.recorder ("idx harden " ++ path ++ ": " ++ msg)))
      | none =>
        match writeAll [] lfiMagic io.magic with
        | .error e => (disk, .error (.recorder ("idx header write: " ++ e)))
        | .ok magic =>
          let disk := update disk path magic
          match writeAll magic [lfiVersion] io.version with
          | .error e => (disk, .error (.recorder ("idx header write: " ++ e)))
          | .ok header => (update disk path header, .ok ⟨{ path, buf := [], key, nextSeq := 0 }, rfl⟩)

namespace Registry

def put (s : Registry) (id : String) (a : IoActor) : Registry := { s with byId := update s.byId id (some a) }

def write (s : Registry) (path : String) (file : Bytes) : Registry := { s with disk := update s.disk path file }

def publish (s : Registry) (e : Event) : Registry := { s with bus := s.bus ++ [e] }

def registerTexts : OpenTexts := { mkdir := "mkdir", openFile := "open", harden := "harden", header := "header write" }

/-- `register_with_io`, up to the sweep of the storage cap. -/
def registerWithIo (C : Crypto) (s : Registry) (id sessionId path : String) (dbKey : Option (Block 32))
    (recordingKey : Block 32) (wrapNonce : Block 12) (startedAtSecs : Nat) (io : OpenIo) (idx : SidecarIo) :
    Registry × Except Error RecorderSnapshot :=
  match openRecordingFile C registerTexts dbKey recordingKey wrapNonce path (s.disk path) io with
  | .error e => (s, .error e)
  | .ok opened =>
    let disk := update s.disk path opened.content
    match createIndex disk path (deriveIndexKey C opened.key) idx with
    | (disk, .error e) => ({ s with disk }, .error e)
    | (disk, .ok h) =>
      let actor : IoActor := {
        id, sessionId, path, bytesWritten := opened.bytesWritten, encrypted := dbKey.isSome,
        startedAtSecs := some startedAtSecs, file := some path, key := opened.key, dbKey, frameIndex := 0,
        index := some h.1, file_path := path_of_file path,
        index_path := fun _ hh => Option.some.inj hh ▸ h.2, keyed := opened.keyed }
      (({ s with disk }.put id actor).publish (.recorderStarted id path), .ok actor.snapshot)

def notRegistered (id : String) : Error := .recorder (id ++ " not registered")

def noFileHandle (id : String) : Error :=
  .recorder ("recorder " ++ id ++ " has no file handle (counter-only registration)")

def recordFrameAt (C : Crypto) (s : Registry) (id : String) (plaintext : Bytes) (io : FrameIo) :
    Registry × Except Error (Nat × Nat) :=
  match s.byId id with
  | none => (s, .error (notRegistered id))
  | some actor =>
    match actor.file with
    | none => (s, .error (noFileHandle id))
    | some path =>
      match actor.writeFrame C (s.disk path) plaintext io with
      | (actor, file, .error e) => ((s.put id actor).write path file, .error e)
      | (actor, file, .ok (pre, total)) =>
        (((s.put id actor).write path file).publish (.recorderBytesWritten id total), .ok (pre, total))

def startedAt (s : Registry) (id : String) : Except Error Nat :=
  match s.byId id with
  | none => .error (notRegistered id)
  | some actor =>
    match actor.startedAtSecs with
    | none => .error (.recorder (id ++ " has no started_at anchor"))
    | some secs => .ok secs

def recordHeader (C : Crypto) (s : Registry) (id : String) (width height : UInt32) (shellLabel : String) (io : FrameIo) :
    Registry × Except Error Nat :=
  match s.startedAt id with
  | .error e => (s, .error e)
  | .ok secs =>
    let r := s.recordFrameAt C id (utf8 (headerLine width.toNat height.toNat secs shellLabel)) io
    (r.1, r.2.map Prod.snd)

/-- The index entry of an event, on the sidecar its recording holds. -/
def appendIndex (C : Crypto) (s : Registry) (id : String) (entry : IndexEntry) (io : IndexIo) : Registry :=
  match s.byId id with
  | none => s
  | some actor =>
    match actor.index with
    | none => s
    | some w =>
      let w' := ((w.writer s.disk).append C entry io).1
      (s.put id (actor.indexed w')).write w.path w'.file

def recordEvent (C : Crypto) (s : Registry) (id : String) (kind : RecordDirection) (bytes : Bytes) (micros : Nat)
    (io : FrameIo) (idx : IndexIo) : Registry × Except Error Nat :=
  if bytes.isEmpty then (s, .ok (((s.byId id).map (·.bytesWritten)).getD 0))
  else
    match s.startedAt id with
    | .error e => (s, .error e)
    | .ok _ =>
      match s.recordFrameAt C id (utf8 (eventLine kind bytes micros)) io with
      | (s, .error e) => (s, .error e)
      | (s, .ok (offset, total)) =>
        (s.appendIndex C id { offset, timestampMs := idx.timestampMs.toNat } idx, .ok total)

def call (C : Crypto) (s : Registry) (id : String) : Call → Registry × Except Error Nat
  | .header w h label io => s.recordHeader C id w h label io
  | .event k b m io idx => s.recordEvent C id k b m io idx

/-- The calls on one recording in order, with the result of each. -/
def recordAll (C : Crypto) (id : String) : Registry → List Call → Registry × List (Except Error Nat)
  | s, [] => (s, [])
  | s, c :: cs =>
    let r := s.call C id c
    let rs := recordAll C id r.1 cs
    (rs.1, r.2 :: rs.2)

/-- Two registries that hold one recording alike, with no file but `path` and the same bytes in its open files. -/
structure Alike (id path : String) (s t : Registry) : Prop where
  byId : t.byId id = s.byId id
  held : ∀ a p, s.byId id = some a → a.file = some p → p = path
  file : t.disk path = s.disk path
  index : ∀ a h, s.byId id = some a → a.index = some h → t.disk h.path = s.disk h.path

section
variable {C : Crypto} {s t : Registry} {id path : String}

@[simp] theorem put_byId (a : IoActor) : (s.put id a).byId id = some a := update_self ..
@[simp] theorem put_disk (a : IoActor) : (s.put id a).disk = s.disk := rfl

@[simp] theorem write_byId (path : String) (file : Bytes) : (s.write path file).byId = s.byId := rfl
@[simp] theorem write_disk (path : String) (file : Bytes) : (s.write path file).disk = update s.disk path file := rfl

@[simp] theorem publish_byId (e : Event) : (s.publish e).byId = s.byId := rfl
@[simp] theorem publish_disk (e : Event) : (s.publish e).disk = s.disk := rfl

theorem Alike.write (h : Alike id path s t) (p : String) (file : Bytes) :
    Alike id path (s.write p file) (t.write p file) := by
  have hdisk (q : String) (hq : t.disk q = s.disk q) : (t.write p file).disk q = (s.write p file).disk q := by
    by_cases hqp : q = p
    · simp [hqp]
    · simp [update_of_ne hqp, hq]
  exact ⟨h.byId, h.held, hdisk path h.file, fun a w ha hw => hdisk _ (h.index a w ha hw)⟩

theorem Alike.publish (h : Alike id path s t) (e : Event) : Alike id path (s.publish e) (t.publish e) :=
  ⟨h.byId, h.held, h.file, h.index⟩

theorem Alike.put {a b : IoActor} (h : Alike id path s t) (ha : s.byId id = some a) (hf : b.file = a.file)
    (hi : b.index.map (·.path) = a.index.map (·.path)) : Alike id path (s.put id b) (t.put id b) := by
  refine ⟨by simp, fun c p hc hp => ?_, h.file, fun c w hc hw => ?_⟩
  · rw [put_byId] at hc
    cases hc
    exact h.held a p ha (hf ▸ hp)
  rw [put_byId] at hc
  cases hc
  rw [hw] at hi
  obtain ⟨w', hw', hpath⟩ := Option.map_eq_some_iff.mp hi.symm
  have hsame : w'.path = w.path := hpath
  rw [put_disk, put_disk, ← hsame]
  exact h.index a w' ha hw'

@[simp] theorem writeFrame_file (a : IoActor) (file plaintext : Bytes) (io : FrameIo) :
    (a.writeFrame C file plaintext io).1.file = a.file := by
  unfold IoActor.writeFrame
  dsimp only
  split
  · rfl
  · split <;> rfl

@[simp] theorem writeFrame_index (a : IoActor) (file plaintext : Bytes) (io : FrameIo) :
    (a.writeFrame C file plaintext io).1.index = a.index := by
  unfold IoActor.writeFrame
  dsimp only
  split
  · rfl
  · split <;> rfl

theorem recordFrameAt_congr (h : Alike id path s t) (plaintext : Bytes) (io : FrameIo) :
    (t.recordFrameAt C id plaintext io).2 = (s.recordFrameAt C id plaintext io).2 ∧
      Alike id path (s.recordFrameAt C id plaintext io).1 (t.recordFrameAt C id plaintext io).1 := by
  rcases ha : s.byId id with _ | a
  · simp [recordFrameAt, h.byId, ha, h]
  rcases hp : a.file with _ | p
  · simp [recordFrameAt, h.byId, ha, hp, h]
  have hput := h.put ha (writeFrame_file (C := C) a (s.disk p) plaintext io) (by rw [writeFrame_index])
  have hfile : t.disk p = s.disk p := by rw [h.held a p ha hp, h.file]
  rcases hw : a.writeFrame C (s.disk p) plaintext io with ⟨b, file, e | ⟨pre, total⟩⟩
  · rw [hw] at hput
    simpa [recordFrameAt, h.byId, ha, hp, hfile, hw] using hput.write p file
  · rw [hw] at hput
    simpa [recordFrameAt, h.byId, ha, hp, hfile, hw] using (hput.write p file).publish _

theorem appendIndex_congr (h : Alike id path s t) (entry : IndexEntry) (io : IndexIo) :
    Alike id path (s.appendIndex C id entry io) (t.appendIndex C id entry io) := by
  rcases ha : s.byId id with _ | a
  · simpa [appendIndex, h.byId, ha] using h
  · rcases hw : a.index with _ | w
    · simpa [appendIndex, h.byId, ha, hw] using h
    · have hwriter : w.writer t.disk = w.writer s.disk := by rw [SidecarHandle.writer, h.index a w ha hw, SidecarHandle.writer]
      have hput := h.put (b := a.indexed ((w.writer s.disk).append C entry io).1) ha rfl (by simp [IoActor.indexed, hw])
      simpa [appendIndex, h.byId, ha, hw, hwriter] using hput.write w.path _

theorem call_congr (h : Alike id path s t) (c : Call) :
    (t.call C id c).2 = (s.call C id c).2 ∧ Alike id path (s.call C id c).1 (t.call C id c).1 := by
  have hstart : t.startedAt id = s.startedAt id := by simp only [startedAt, h.byId]
  cases c with
  | header w h' label io =>
    simp only [call, recordHeader, hstart]
    cases s.startedAt id with
    | error e => exact ⟨rfl, h⟩
    | ok secs =>
      obtain ⟨hr, hs⟩ := recordFrameAt_congr (C := C) h (utf8 (headerLine w.toNat h'.toNat secs label)) io
      exact ⟨congrArg (Except.map Prod.snd) hr, hs⟩
  | event k b m io idx =>
    simp only [call, recordEvent, hstart, h.byId]
    split
    · exact ⟨rfl, h⟩
    cases s.startedAt id with
    | error e => exact ⟨rfl, h⟩
    | ok secs =>
      obtain ⟨hr, hs⟩ := recordFrameAt_congr (C := C) h (utf8 (eventLine k b m)) io
      rcases hs' : s.recordFrameAt C id (utf8 (eventLine k b m)) io with ⟨s', e | ⟨offset, total⟩⟩
      · rcases ht' : t.recordFrameAt C id (utf8 (eventLine k b m)) io with ⟨t', r⟩
        rw [hs', ht'] at hr hs
        subst hr
        exact ⟨rfl, hs⟩
      · rcases ht' : t.recordFrameAt C id (utf8 (eventLine k b m)) io with ⟨t', r⟩
        rw [hs', ht'] at hr hs
        subst hr
        exact ⟨rfl, appendIndex_congr hs _ idx⟩

theorem recordAll_congr (h : Alike id path s t) (cs : List Call) : (recordAll C id t cs).2 = (recordAll C id s cs).2 ∧
      Alike id path (recordAll C id s cs).1 (recordAll C id t cs).1 := by
  induction cs generalizing s t with
  | nil => exact ⟨rfl, h⟩
  | cons c cs ih =>
    obtain ⟨hr, hs⟩ := call_congr (C := C) h c
    obtain ⟨hrs, hend⟩ := ih hs
    exact ⟨by rw [recordAll, recordAll, hr, hrs], hend⟩

theorem sidecarFile_ne (path : String) : sidecarFile path ≠ path := by
  intro h
  have hlen := congrArg String.length h
  rw [sidecarFile, String.length_append] at hlen
  have : ".idx".length = 4 := rfl
  omega

/-! ## The recordings of the registry -/

/-- The registry has the recording `r`. -/
def Holds (s : Registry) (id : String) (r : RecorderActor) : Prop :=
  ∃ a w secs, s.byId id = some a ∧ a.file = some a.path ∧ a.index = some w ∧ a.startedAtSecs = some secs ∧
    r = a.actor w secs s.disk

variable {r : RecorderActor}

theorem recordFrameAt_holds (h : Holds s id r) (plaintext : Bytes) (io : FrameIo) :
    (s.recordFrameAt C id plaintext io).2 = (Recorder.recordFrameAt C r plaintext io).2 ∧
      Holds (s.recordFrameAt C id plaintext io).1 id (Recorder.recordFrameAt C r plaintext io).1 := by
  obtain ⟨a, w, secs, ha, hfile, hindex, hstart, rfl⟩ := h
  have hapart : w.path ≠ a.path := by
    rw [a.index_path w hindex]
    exact sidecarFile_ne a.path
  unfold recordFrameAt Recorder.recordFrameAt
  rw [ha]
  dsimp only
  rw [hfile]
  dsimp only [IoActor.writeFrame, IoActor.actor]
  rcases buildFrame C plaintext a.key a.frameIndex io.nonce with e | frame
  · refine ⟨rfl, _, w, secs, put_byId _, hfile, hindex, hstart, ?_⟩
    simp [IoActor.actor, SidecarHandle.writer]
  dsimp only
  rcases writeAll (s.disk a.path) frame io.write with e | file
  · refine ⟨rfl, _, w, secs, put_byId _, hfile, hindex, hstart, ?_⟩
    simp [IoActor.actor, SidecarHandle.writer]
  · refine ⟨rfl, _, w, secs, put_byId _, hfile, hindex, hstart, ?_⟩
    simp [IoActor.actor, SidecarHandle.writer, update_of_ne hapart]

theorem appendIndex_holds (h : Holds s id r) (entry : IndexEntry) (io : IndexIo) :
    Holds (s.appendIndex C id entry io) id { r with index := (r.index.append C entry io).1 } := by
  obtain ⟨a, w, secs, ha, hfile, hindex, hstart, rfl⟩ := h
  have hapart : a.path ≠ w.path := by
    rw [a.index_path w hindex]
    exact (sidecarFile_ne a.path).symm
  have hkey := append_key C (w.writer s.disk) entry io
  have hstep : s.appendIndex C id entry io =
      (s.put id (a.indexed ((w.writer s.disk).append C entry io).1)).write w.path ((w.writer s.disk).append C entry io).1.file := by
    simp [appendIndex, ha, hindex]
  change Holds _ id { a.actor w secs s.disk with index := ((w.writer s.disk).append C entry io).1 }
  rw [hstep]
  generalize ((w.writer s.disk).append C entry io).1 = w' at hkey
  have hheld : (a.indexed w').index = some { w with buf := w'.buf, nextSeq := w'.nextSeq } := by
    simp [IoActor.indexed, hindex]
  refine ⟨_, _, secs, put_byId _, hfile, hheld, hstart, ?_⟩
  have hsame : w' = { w' with key := w.key } := by
    rw [show w.key = w'.key from hkey.symm]
  simp only [IoActor.actor, IoActor.indexed, SidecarHandle.writer, write_disk, put_disk, update_of_ne hapart, update_self]
  exact congrArg (RecorderActor.mk _ _ _ _ _) hsame

/-- **A call on the registry is the call on its recording**, while both its files are open. -/
theorem call_holds (h : Holds s id r) (c : Call) :
    (s.call C id c).2 = (c.run C r).2 ∧ Holds (s.call C id c).1 id (c.run C r).1 := by
  obtain ⟨secs, hstarted, hsecs, hwritten⟩ : ∃ secs, s.startedAt id = .ok secs ∧ r.startedAtSecs = secs ∧
      ((s.byId id).map (·.bytesWritten)).getD 0 = r.bytesWritten := by
    obtain ⟨a, w, secs, ha, -, -, hstart, rfl⟩ := h
    exact ⟨secs, by simp only [startedAt, ha, hstart], rfl, by rw [ha]; rfl⟩
  cases c with
  | header width height label io =>
    have hframe := recordFrameAt_holds (C := C) h (utf8 (headerLine width.toNat height.toNat secs label)) io
    simp only [call, recordHeader, Call.run, Recorder.recordHeader, hstarted, hsecs]
    exact ⟨congrArg (Except.map Prod.snd) hframe.1, hframe.2⟩
  | event kind bytes micros io idx =>
    simp only [call, recordEvent, Call.run, Recorder.recordEvent, hstarted, hwritten]
    split
    · exact ⟨rfl, h⟩
    obtain ⟨hr, hs⟩ := recordFrameAt_holds (C := C) h (utf8 (eventLine kind bytes micros)) io
    rcases hframe : s.recordFrameAt C id (utf8 (eventLine kind bytes micros)) io with ⟨s', result⟩
    rcases hframe' : Recorder.recordFrameAt C r (utf8 (eventLine kind bytes micros)) io with ⟨r', result'⟩
    rw [hframe, hframe'] at hr hs
    obtain rfl : result = result' := hr
    rcases result with e | ⟨offset, total⟩
    · exact ⟨rfl, hs⟩
    · exact ⟨rfl, appendIndex_holds hs _ idx⟩

theorem recordAll_holds (h : Holds s id r) (cs : List Call) :
    (recordAll C id s cs).2 = (Recorder.recordAll C r cs).2 ∧ Holds (recordAll C id s cs).1 id (Recorder.recordAll C r cs).1 := by
  induction cs generalizing s r with
  | nil => exact ⟨rfl, h⟩
  | cons c cs ih =>
    obtain ⟨hr, hs⟩ := call_holds (C := C) h c
    obtain ⟨hrs, hend⟩ := ih hs
    exact ⟨by rw [recordAll, Recorder.recordAll, hr, hrs], hend⟩

end

end Registry
end LetsFlutSsh.Recorder
