import LetsFlutSsh.Lib.Aead
import LetsFlutSsh.Recorder.Line

/-!
# Recorder: writing an encrypted recording and its seek index

The writing half of `recorder/mod.rs` and `recorder/index_sidecar.rs` for one registered recording:

* `registerWithIo` : the `LFR1` header with the wrapped recording key, the empty index;
* `recordFrameAt` : claim a frame index, build the frame, append it; `recordHeader`, `recordEvent`;
* `IndexWriter.append` : one index block for each event, through a `BufWriter`;
* `recordAll` : a list of calls on one recording, with the result each caller sees.

The clock, the random nonces and the outcome of each file write are inputs of the calls. A write that
fails leaves the file as it was.
-/

namespace LetsFlutSsh.Recorder
open Lib

structure Crypto extends Aead where
  hkdfSha256 : (ikm salt info : Bytes) → (length : Nat) → Bytes
  length_hkdfSha256 : ∀ ikm salt info n, n ≤ 255 * 32 → (hkdfSha256 ikm salt info n).length = n

theorem length_stretched (ikm _salt _info : Bytes) (n : Nat) (_h : n ≤ 255 * 32) :
    ((ikm ++ List.replicate n 0).take n).length = n := by
  simp

/-- An instance to evaluate on: readable text under a tag, keys stretched with zeros. -/
def Crypto.tagged : Crypto where
  toAead := Aead.tagged
  hkdfSha256 ikm _ _ n := (ikm ++ List.replicate n 0).take n
  length_hkdfSha256 := length_stretched

inductive Error where
  | io (msg : String)
  | recorder (msg : String)
  | crypto (msg : String)
  deriving DecidableEq

def Error.text : Error → String
  | .io m => "io: " ++ m
  | .recorder m => "recorder: " ++ m
  | .crypto m => "crypto: " ++ m

/-! ## Counters and files -/

def u64Max : Nat := 2 ^ 64 - 1

/-- `u64::saturating_add`. -/
def satAdd (a b : Nat) : Nat := min (a + b) u64Max

/-- What the operating system answers to one write: nothing, or the text of its error. -/
abbrev WriteOutcome := Option String

/-- File lengths are signed 64-bit numbers: a longer file cannot be written. -/
def maxFileLen : Nat := 2 ^ 63 - 1

/-- `write_all` on a file opened for appending. -/
def writeAll (file data : Bytes) (io : WriteOutcome) : Except String Bytes :=
  match io with
  | some e => .error e
  | none =>
    if file.length + data.length ≤ maxFileLen then .ok (file ++ data)
    else .error "File too large (os error 27)"

/-! ## The `LFR1` header -/

def lfrMagic : Bytes := [0x4C, 0x46, 0x52, 0x31]
def lfrVersion : UInt8 := 1
def nonceLen : Nat := 12
def lfrHeaderLen : Nat := 4 + 1 + nonceLen + 32 + 16
def keywrapAad : Bytes := utf8 "letsflutssh-recording-keywrap-v1"

/-- `aes_gcm_encrypt_raw` with its error. -/
def aesGcmEncryptRaw (C : Crypto) (key : Block 32) (nonce : Block 12) (pt aad : Bytes) : Except Error Bytes :=
  match C.encrypt key nonce pt aad with
  | some ct => .ok ct
  | none => .error (.crypto "aes-gcm encrypt-raw: aead::Error")

def buildLfsrHeader (C : Crypto) (dbKey recordingKey : Block 32) (wrapNonce : Block 12) : Except Error Bytes := do
  let wrapped ← aesGcmEncryptRaw C dbKey wrapNonce recordingKey.1 keywrapAad
  return lfrMagic ++ [lfrVersion] ++ wrapNonce.1 ++ wrapped

/-- `build_frame`: `[len(4 LE)][nonce(12)][ciphertext + tag]` under a key, the text itself without
one. The frame index is the associated data and is not written. -/
def buildFrame (C : Crypto) (plaintext : Bytes) (key : Option (Block 32)) (frameIndex : Nat)
    (nonce : Block 12) : Except Error Bytes :=
  match key with
  | none => .ok plaintext
  | some key => do
    let ct ← aesGcmEncryptRaw C key nonce plaintext (leBytes 8 frameIndex)
    if plaintext.length < 2 ^ 32 then
      return leBytes 4 plaintext.length ++ nonce.1 ++ ct
    else throw (.io "recorder plaintext exceeds u32 frame length")

/-! ## The index sidecar -/

def lfiMagic : Bytes := [0x4C, 0x46, 0x49, 0x31]
def lfiVersion : UInt8 := 1
def entryPlaintextLen : Nat := 12
def indexHkdfInfo : Bytes := utf8 "letsflutssh-recording-idx-v1"

structure IndexEntry where
  offset : Nat
  timestampMs : Nat
  deriving DecidableEq

def encodeEntry (e : IndexEntry) : Bytes := leBytes 8 e.offset ++ leBytes 4 e.timestampMs

def decodeEntry (b : Bytes) : IndexEntry where
  offset := ofLeBytes (b.take 8)
  timestampMs := ofLeBytes (b.drop 8)

/-- The default capacity of a `BufWriter`. -/
def bufCapacity : Nat := 8192

/-- The sidecar: the bytes on disk, the bytes its `BufWriter` still holds, the key, the number of
the next entry. -/
structure IndexWriter where
  file : Bytes
  buf : Bytes
  key : Option (Block 32)
  nextSeq : Nat

def IndexWriter.create (key : Option (Block 32)) : IndexWriter where
  file := lfiMagic ++ [lfiVersion]
  buf := []
  key := key
  nextSeq := 0

/-- `BufWriter::flush`: what is buffered goes to the file, or stays buffered when the write fails. -/
def IndexWriter.flush (w : IndexWriter) (io : WriteOutcome) : Except String IndexWriter := do
  let file ← writeAll w.file w.buf io
  return { w with file, buf := [] }

/-- `BufWriter::write_all` for data shorter than the buffer: it is copied there, after a flush when it
does not fit. -/
def IndexWriter.bufferAll (w : IndexWriter) (data : Bytes) (io : WriteOutcome) : Except String IndexWriter := do
  let w ← if data.length > bufCapacity - w.buf.length then w.flush io else pure w
  return { w with buf := w.buf ++ data }

def buildEncryptedBlock (C : Crypto) (plaintext : Bytes) (key : Block 32) (seq : Nat)
    (nonce : Block 12) : Except Error Bytes := do
  let ct ← aesGcmEncryptRaw C key nonce plaintext (leBytes 8 seq)
  return leBytes 4 entryPlaintextLen ++ nonce.1 ++ ct

/-- What only an event's index entry depends on: the nonce of its block, the outcome of the flush that
makes room for it and of the flush that writes it, the time it carries. -/
structure IndexIo where
  nonce : Block 12
  room : WriteOutcome
  write : WriteOutcome
  timestampMs : UInt32

/-- `IndexWriter::append`. The sequence number advances only when the flush succeeded. -/
def IndexWriter.append (C : Crypto) (w : IndexWriter) (entry : IndexEntry) (io : IndexIo) :
    IndexWriter × Except Error Unit :=
  let pt := encodeEntry entry
  let block : Except Error Bytes := match w.key with
    | none => .ok pt
    | some key => buildEncryptedBlock C pt key w.nextSeq io.nonce
  match block with
  | .error e => (w, .error e)
  | .ok block =>
    match w.bufferAll block io.room with
    | .error e => (w, .error (.recorder ("idx append: " ++ e)))
    | .ok w =>
      match w.flush io.write with
      | .error e => (w, .error (.recorder ("idx flush: " ++ e)))
      | .ok w => ({ w with nextSeq := satAdd w.nextSeq 1 }, .ok ())

theorem flush_key {w w' : IndexWriter} {io : WriteOutcome} (h : w.flush io = .ok w') : w'.key = w.key := by
  unfold IndexWriter.flush at h
  rcases hwrite : writeAll w.file w.buf io with e | file
  · rw [hwrite] at h
    cases h
  · rw [hwrite] at h
    cases h
    rfl

theorem append_key (C : Crypto) (w : IndexWriter) (entry : IndexEntry) (io : IndexIo) :
    (w.append C entry io).1.key = w.key := by
  unfold IndexWriter.append
  dsimp only
  split
  · rfl
  next block _ =>
  have hroom : ∀ w₁, w.bufferAll block io.room = .ok w₁ → w₁.key = w.key := by
    intro w₁ h
    unfold IndexWriter.bufferAll at h
    split_ifs at h
    · rcases hflush : w.flush io.room with e | w₂
      · rw [hflush] at h
        cases h
      · rw [hflush] at h
        cases h
        exact (flush_key hflush : w₂.key = w.key)
    · cases h
      rfl
  split
  · rfl
  next w₁ hbuffered =>
  split
  · exact hroom w₁ hbuffered
  · next w₂ hflush => exact (flush_key hflush).trans (hroom w₁ hbuffered)

def deriveIndexKey (C : Crypto) : Option (Block 32) → Option (Block 32)
  | none => none
  | some rk => some ⟨C.hkdfSha256 rk.1 [] indexHkdfInfo 32, C.length_hkdfSha256 _ _ _ _ (by decide)⟩

/-! ## The recording -/

/-- The part of a `RecorderActor` that frame writes use. -/
structure RecorderActor where
  bytesWritten : Nat
  startedAtSecs : Nat
  file : Bytes
  key : Option (Block 32)
  frameIndex : Nat
  index : IndexWriter

/-- `register_with_io` on a path that holds no file yet. The random recording key and the nonce it is
wrapped with are arguments. -/
def registerWithIo (C : Crypto) (dbKey : Option (Block 32)) (recordingKey : Block 32)
    (wrapNonce : Block 12) (startedAtSecs : Nat) : Except Error RecorderActor :=
  match dbKey with
  | none => .ok
    { bytesWritten := 0, startedAtSecs, file := [], key := none, frameIndex := 0,
      index := .create (deriveIndexKey C none) }
  | some dk => do
    let header ← buildLfsrHeader C dk recordingKey wrapNonce
    return {
      bytesWritten := header.length, startedAtSecs, file := header, key := some recordingKey,
      frameIndex := 0, index := .create (deriveIndexKey C (some recordingKey)) }

/-- The nonce drawn for a frame and what the operating system answers to its write. -/
structure FrameIo where
  nonce : Block 12
  write : WriteOutcome

/-- `record_frame_at`: the frame index is claimed before the frame is built and written. -/
def recordFrameAt (C : Crypto) (a : RecorderActor) (plaintext : Bytes) (io : FrameIo) :
    RecorderActor × Except Error (Nat × Nat) :=
  let idx := a.frameIndex
  let pre := a.bytesWritten
  let a := { a with frameIndex := satAdd a.frameIndex 1 }
  match buildFrame C plaintext a.key idx io.nonce with
  | .error e => (a, .error e)
  | .ok frame =>
    match writeAll a.file frame io.write with
    | .error e => (a, .error (.recorder ("frame write: " ++ e)))
    | .ok file =>
      let total := satAdd a.bytesWritten frame.length
      ({ a with file, bytesWritten := total }, .ok (pre, total))

theorem recordFrameAt_keeps {C : Crypto} (r : RecorderActor) (plaintext : Bytes) (io : FrameIo) :
    let r' := (recordFrameAt C r plaintext io).1
    r'.key = r.key ∧ r'.startedAtSecs = r.startedAtSecs ∧ r'.index = r.index := by
  unfold recordFrameAt
  dsimp only
  split
  · exact ⟨rfl, rfl, rfl⟩
  · split <;> exact ⟨rfl, rfl, rfl⟩

def recordHeader (C : Crypto) (a : RecorderActor) (width height : UInt32) (shellLabel : String)
    (io : FrameIo) : RecorderActor × Except Error Nat :=
  let r := recordFrameAt C a (utf8 (headerLine width.toNat height.toNat a.startedAtSecs shellLabel)) io
  (r.1, r.2.map Prod.snd)

/-- `record_event`. An empty chunk records nothing. The index entry follows the frame; a failure to
write it is logged and dropped. -/
def recordEvent (C : Crypto) (a : RecorderActor) (kind : RecordDirection) (bytes : Bytes)
    (micros : Nat) (io : FrameIo) (idx : IndexIo) : RecorderActor × Except Error Nat :=
  if bytes.isEmpty then (a, .ok a.bytesWritten)
  else
    match recordFrameAt C a (utf8 (eventLine kind bytes micros)) io with
    | (a, .error e) => (a, .error e)
    | (a, .ok (offset, total)) =>
      let entry := { offset, timestampMs := idx.timestampMs.toNat }
      ({ a with index := (a.index.append C entry idx).1 }, .ok total)

/-! ## Calls on one recording -/

inductive Call where
  | header (width height : UInt32) (shellLabel : String) (io : FrameIo)
  | event (kind : RecordDirection) (bytes : Bytes) (micros : Nat) (io : FrameIo) (idx : IndexIo)

def Call.run (C : Crypto) (a : RecorderActor) : Call → RecorderActor × Except Error Nat
  | .header w h s io => recordHeader C a w h s io
  | .event k b m io idx => recordEvent C a k b m io idx

def recordAll (C : Crypto) : RecorderActor → List Call → RecorderActor × List (Except Error Nat)
  | a, [] => (a, [])
  | a, c :: cs =>
    let r := c.run C a
    let rs := recordAll C r.1 cs
    (rs.1, r.2 :: rs.2)

/-- The files a closed recording leaves: `close_with_io` drops the sidecar's `BufWriter`, which
flushes once more and ignores an error. -/
def closeWithIo (a : RecorderActor) (io : WriteOutcome) : Bytes × Bytes :=
  (a.file, match a.index.flush io with
    | .ok w => w.file
    | .error _ => a.index.file)

end LetsFlutSsh.Recorder
