import LetsFlutSsh.Lib.BoundedLines
import LetsFlutSsh.Recorder.Playback

/-!
# Recorder: migration between plaintext and encrypted recordings

`recorder/migrate.rs` and the plaintext half of `recorder/reader.rs`:

* `castRecords` : what `CastFrameIter` yields, line by line;
* `convertOneCastToLfsr`, `convertOneLfsrToCast` : one recording promoted and demoted;
* `lineRecords` : what an encrypted recording made of lines yields (`playback_convertCastToLfsr`);
* `Faithful` : a line that both readers show the same way, and that survives being written back;
* `migrate_faithful_iff` : playback survives the two migrations exactly when every line is faithful.
-/

namespace LetsFlutSsh.Recorder
open Lib List Option

/-! ## Plaintext playback -/

def maxCastLineBytes : Nat := maxFramePlaintextBytes

/-- What `read_until(b'\n')` returns on a reader bounded by one byte more than the cap, call after call. -/
def castLines (file : Bytes) : List Bytes := boundedLines 10 maxCastLineBytes file

def isLineEnd (b : UInt8) : Bool := b = 13 || b = 10

/-- Everything `CastFrameIter` yields. A line over the cap ends the stream; a line that is not UTF-8 does not. -/
def castRecords : List Bytes → List (Except ReaderError String)
  | [] => []
  | buf :: rest =>
    if buf.length > maxCastLineBytes then [.error (.frameTooLarge (maxFramePlaintextBytes + 1))]
    else
      let line := buf.rdropWhile isLineEnd
      if line.isEmpty then castRecords rest
      else
        (match fromUtf8 line with
          | some s => .ok s
          | none => .error .nonUtf8Frame) :: castRecords rest

def castPlayback (file : Bytes) : List (Except ReaderError String) := castRecords (castLines file)

def ReaderError.text : ReaderError → String
  | .badMagic => "bad LFR1 magic"
  | .unsupportedVersion v => s!"unsupported version: {v.toNat}"
  | .truncatedHeader => "truncated header"
  | .truncatedFrame => "truncated frame"
  | .frameTooLarge n => s!"frame plaintext {n} exceeds {maxFramePlaintextBytes} cap"
  | .crypto detail => "decrypt: " ++ detail
  | .nonUtf8Frame => "non-utf8 plaintext frame"

/-! ## Promotion -/

/-- What a promotion draws at random, what the system answers to its writes, and the reading of an
event's time off its line. -/
structure PromoteIo where
  recordingKey : Block 32
  wrapNonce : Block 12
  header : WriteOutcome
  frames : Nat → FrameIo
  index : Nat → IndexIo
  close : WriteOutcome
  parseEventTimestampMs : Bytes → Option UInt32

structure Recording where
  cast : Option Bytes := none
  lfsr : Option Bytes := none
  index : Option Bytes := none

section Promote

variable (C : Crypto) (io : PromoteIo)

/-- `encode_cast_frame`: the file, the sidecar and the number of bytes written. A failed index entry is
logged and dropped. -/
def encodeCastFrame (payload : Bytes) (frameIndex frameOffset : Nat) (out : Bytes) (sidecar : IndexWriter) :
    Except Error (Bytes × IndexWriter × Nat) := do
  let nonce := (io.frames frameIndex).nonce
  let ct ← aesGcmEncryptRaw C io.recordingKey nonce payload (leBytes 8 frameIndex)
  if payload.length ≥ 2 ^ 32 then throw (.recorder "cast frame payload exceeds u32 length")
  let out ← (writeAll out (leBytes 4 payload.length ++ nonce.1 ++ ct) (io.frames frameIndex).write).mapError
    fun e => .recorder ("cast→lfsr frame write: " ++ e)
  let sidecar := match io.parseEventTimestampMs payload with
    | some ts => (sidecar.append C ⟨frameOffset, ts.toNat⟩ (io.index frameIndex)).1
    | none => sidecar
  return (out, sidecar, 4 + nonceLen + ct.length)

def encodeCastLines : List Bytes → Nat → Nat → Bytes → IndexWriter → Except Error (Bytes × IndexWriter)
  | [], _, _, out, sidecar => .ok (out, sidecar)
  | buf :: rest, frameIndex, bytesWritten, out, sidecar =>
    if buf.all isLineEnd then encodeCastLines rest frameIndex bytesWritten out sidecar
    else
      match encodeCastFrame C io buf frameIndex bytesWritten out sidecar with
      | .error e => .error e
      | .ok (out, sidecar, n) => encodeCastLines rest (satAdd frameIndex 1) (bytesWritten + n) out sidecar

/-- The contents a promotion gives the encrypted file and its sidecar. -/
def convertCastToLfsr (newDbKey : Block 32) (cast : Bytes) : Except Error (Bytes × Bytes) := do
  let header ← buildLfsrHeader C newDbKey io.recordingKey io.wrapNonce
  let out ← (writeAll [] header io.header).mapError fun e => .recorder ("cast→lfsr header: " ++ e)
  let (out, sidecar) ← encodeCastLines C io (castLines cast) 0 header.length out
    (.create (deriveIndexKey C (some io.recordingKey)))
  return (out, match sidecar.flush io.close with
    | .ok w => w.file
    | .error _ => sidecar.file)

/-- `convert_one_cast_to_lfsr`: nothing changes when there is an encrypted file, or on an error. -/
def convertOneCastToLfsr (newDbKey : Block 32) (r : Recording) : Recording × Except Error Bool :=
  if r.lfsr.isSome then (r, .ok false)
  else
    match r.cast with
    | none => (r, .error (.recorder "cast open: No such file or directory (os error 2)"))
    | some cast =>
      match convertCastToLfsr C io newDbKey cast with
      | .error e => (r, .error e)
      | .ok (lfsr, index) => ({ cast := none, lfsr := some lfsr, index := some index }, .ok true)

end Promote

/-! ## Demotion -/

/-- The loop over the records of the encrypted file; `io` answers the writes. -/
def writeCastLines (io : Nat → WriteOutcome) : List (Except ReaderError String) → Nat → Bytes → Except Error Bytes
  | [], _, out => .ok out
  | .error e :: _, _, _ => .error (.recorder ("lfsr→cast frame: " ++ e.text))
  | .ok line :: rest, n, out =>
    match writeAll out (utf8 line ++ [10]) (io n) with
    | .error e => .error (.recorder ("lfsr→cast line write: " ++ e))
    | .ok out => writeCastLines io rest (n + 1) out

def convertLfsrToCast (C : Crypto) (io : Nat → WriteOutcome) (currentDbKey : Block 32) (lfsr : Bytes) :
    Except Error Bytes :=
  match openLfsrIterAt C lfsr currentDbKey none with
  | .error e => .error (.recorder ("lfsr open: " ++ e.text))
  | .ok it => writeCastLines io (it.records C) 0 []

def convertOneLfsrToCast (C : Crypto) (io : Nat → WriteOutcome) (currentDbKey : Block 32) (r : Recording) :
    Recording × Except Error Bool :=
  if r.cast.isSome then (r, .ok false)
  else
    match r.lfsr with
    | none => (r, .error (.recorder "lfsr open: No such file or directory (os error 2)"))
    | some lfsr =>
      match convertLfsrToCast C io currentDbKey lfsr with
      | .error e => (r, .error e)
      | .ok cast => ({ cast := some cast, lfsr := none, index := none }, .ok true)

/-! ## Playing a promoted recording -/

def lineRecords : List Bytes → List (Except ReaderError String)
  | [] => []
  | buf :: rest =>
    if buf.all isLineEnd then lineRecords rest
    else if buf.length > maxFramePlaintextBytes then [.error (.frameTooLarge buf.length)]
    else
      match fromUtf8 buf with
      | none => [.error .nonUtf8Frame]
      | some s => .ok (trimEndNewlines s) :: lineRecords rest

variable {C : Crypto}

theorem LfsrFrameIter.records_payload {key : Block 32} {i : Nat} {nonce : Block 12} {pt f : Bytes}
    (hi : i < 2 ^ 64) (hsize : pt.length < 2 ^ 32) (hf : C.frame key i nonce pt = some f) (rest : Bytes) :
    ({ rest := f ++ rest, key, frameIndex := i, finished := false } : LfsrFrameIter).records C =
      if pt.length > maxFramePlaintextBytes then [.error (.frameTooLarge pt.length)]
      else
        match fromUtf8 pt with
        | none => [.error .nonUtf8Frame]
        | some s => .ok (trimEndNewlines s) ::
            ({ rest, key, frameIndex := satAdd i 1, finished := false } : LfsrFrameIter).records C := by
  obtain ⟨ct, hct, h₁, h₂, h₃⟩ := Aead.readExact_frame hf rest
  have hlen : ofLeBytes (leBytes 4 pt.length) = pt.length := ofLeBytes_leBytes (by omega)
  by_cases hcap : pt.length > maxFramePlaintextBytes
  · rw [if_pos hcap]
    have hnext : ({ rest := f ++ rest, key, frameIndex := i, finished := false } : LfsrFrameIter).next C =
        (some (.error (.frameTooLarge pt.length)), { rest := f ++ rest, key, frameIndex := i, finished := true }) := by
      simp only [LfsrFrameIter.next, h₁, hlen, hcap, if_true, Bool.false_eq_true, if_false]
    rw [records_of_some hnext, records_finished]
  · rw [if_neg hcap]
    rcases hs : fromUtf8 pt with _ | s
    · have hnext : ({ rest := f ++ rest, key, frameIndex := i, finished := false } : LfsrFrameIter).next C =
          (some (.error .nonUtf8Frame), { rest := f ++ rest, key, frameIndex := i, finished := true }) := by
        simp only [LfsrFrameIter.next, h₁, hlen, hcap, h₂, h₃, aesGcmDecryptRaw_counter hi hi hct, if_true, hs,
          Bool.false_eq_true, if_false]
      rw [records_of_some hnext, records_finished]
    · apply records_of_some
      simp only [LfsrFrameIter.next, h₁, hlen, hcap, h₂, h₃, aesGcmDecryptRaw_counter hi hi hct, if_true, hs,
        Bool.false_eq_true, if_false]

variable {out' : Bytes} {io : PromoteIo} {lines : List Bytes} {dk : Block 32}

section Promoted

variable {C : Crypto}

theorem satAdd_lt (a b : Nat) : satAdd a b < 2 ^ 64 := by
  unfold satAdd u64Max
  omega

variable {out cast lfsr index : Bytes}

theorem writeAll_eq_ok {file data : Bytes} {w : WriteOutcome} (h : writeAll file data w = .ok out) :
    out = file ++ data ∧ out.length ≤ maxFileLen := by
  unfold writeAll at h
  rcases w with _ | e
  · split_ifs at h with hlen
    cases h
    exact ⟨rfl, by rwa [length_append]⟩
  · cases h

theorem encodeCastFrame_eq_ok {payload : Bytes} {i offset n : Nat} {sidecar sidecar' : IndexWriter}
    (h : encodeCastFrame C io payload i offset out sidecar = .ok (out', sidecar', n)) :
    ∃ f, C.frame io.recordingKey i (io.frames i).nonce payload = some f ∧ out' = out ++ f ∧ out'.length ≤ maxFileLen := by
  unfold encodeCastFrame aesGcmEncryptRaw at h
  rcases hct : C.encrypt io.recordingKey (io.frames i).nonce payload (leBytes 8 i) with _ | ct
  · simp only [hct] at h
    cases h
  simp only [hct, bind, Except.bind, pure, Except.pure] at h
  split_ifs at h
  rcases hw : writeAll out (leBytes 4 payload.length ++ (io.frames i).nonce.1 ++ ct) (io.frames i).write with e | out₁
  · rw [hw] at h
    cases h
  · rw [hw] at h
    cases h
    refine ⟨leBytes 4 payload.length ++ (io.frames i).nonce.1 ++ ct, ?_, (writeAll_eq_ok hw).1, (writeAll_eq_ok hw).2⟩
    unfold Aead.frame
    rw [hct]
    rfl

theorem encodeCastLines_eq_ok (hlines : ∀ l ∈ lines, l.length < 2 ^ 32) {i bytesWritten : Nat}
    (hi : i < 2 ^ 64) {sidecar sidecar' : IndexWriter}
    (h : encodeCastLines C io lines i bytesWritten out sidecar = .ok (out', sidecar')) :
    ∃ body, out' = out ++ body ∧
      ({ rest := body, key := io.recordingKey, frameIndex := i, finished := false } : LfsrFrameIter).records C =
        lineRecords lines := by
  induction lines generalizing i bytesWritten out sidecar with
  | nil =>
    cases h
    exact ⟨[], (append_nil _).symm, LfsrFrameIter.records_nil C _ i⟩
  | cons buf rest ih =>
    obtain ⟨hbuf, hrest⟩ := forall_mem_cons.1 hlines
    unfold encodeCastLines at h
    unfold lineRecords
    by_cases hblank : buf.all isLineEnd = true
    · rw [if_pos hblank] at h ⊢
      exact ih hrest hi h
    rw [if_neg hblank] at h ⊢
    rcases hframe : encodeCastFrame C io buf i bytesWritten out sidecar with e | ⟨out₁, sidecar₁, n⟩
    · rw [hframe] at h
      cases h
    rw [hframe] at h
    obtain ⟨f, hf, rfl, -⟩ := encodeCastFrame_eq_ok hframe
    obtain ⟨body, rfl, hbody⟩ := ih hrest (satAdd_lt i 1) h
    refine ⟨f ++ body, append_assoc .., ?_⟩
    rw [LfsrFrameIter.records_payload hi hbuf hf, hbody]

theorem length_castLine {file line : Bytes} (h : line ∈ castLines file) : line.length ≤ maxCastLineBytes + 1 :=
  (mem_boundedLines h).length_le

section

variable (h : convertCastToLfsr C io dk cast = .ok (lfsr, index))
include h

theorem convertCastToLfsr_eq_ok :
    ∃ header sidecar, buildLfsrHeader C dk io.recordingKey io.wrapNonce = .ok header ∧ header.length ≤ maxFileLen ∧
      encodeCastLines C io (castLines cast) 0 header.length header
        (.create (deriveIndexKey C (some io.recordingKey))) = .ok (lfsr, sidecar) := by
  unfold convertCastToLfsr at h
  simp only [bind, Except.bind, pure, Except.pure] at h
  rcases hheader : buildLfsrHeader C dk io.recordingKey io.wrapNonce with e | header
  · rw [hheader] at h
    cases h
  rw [hheader] at h
  dsimp only at h
  rcases hout : writeAll [] header io.header with e | out
  · rw [hout] at h
    cases h
  rw [hout] at h
  obtain ⟨hheadered, hlen⟩ := writeAll_eq_ok hout
  rw [nil_append] at hheadered
  subst hheadered
  dsimp only [Except.mapError] at h
  rcases hlines : encodeCastLines C io (castLines cast) 0 out.length out
      (.create (deriveIndexKey C (some io.recordingKey))) with e | ⟨out', sidecar⟩
  · rw [hlines] at h
    cases h
  rw [hlines] at h
  cases h
  exact ⟨out, sidecar, rfl, hlen, hlines⟩

theorem openLfsrIterAt_convertCastToLfsr :
    ∃ it, openLfsrIterAt C lfsr dk none = .ok it ∧ it.records C = lineRecords (castLines cast) := by
  obtain ⟨header, sidecar, hheader, -, hlines⟩ := convertCastToLfsr_eq_ok h
  have hshort : ∀ l ∈ castLines cast, l.length < 2 ^ 32 := by
    intro l hl
    have := length_castLine hl
    unfold maxCastLineBytes maxFramePlaintextBytes at this
    omega
  obtain ⟨body, rfl, hbody⟩ := encodeCastLines_eq_ok hshort (by decide) hlines
  exact ⟨_, openLfsrIterAt_header hheader body none, hbody⟩

theorem playback_convertCastToLfsr : playback C lfsr dk none = .ok (lineRecords (castLines cast)) := by
  obtain ⟨it, hit, hrecords⟩ := openLfsrIterAt_convertCastToLfsr h
  unfold playback
  rw [hit, ← hrecords]
  rfl

end

end Promoted

/-! ## Faithful lines -/

def lineText (line : Bytes) : Bytes := line.rdropWhile (· == 10)

/-- A line that both readers show the same way, and that is shown that way after it was written back. -/
structure Faithful (line : Bytes) : Prop where
  fits : line.length ≤ maxCastLineBytes
  shown : line.all isLineEnd = true ∨
    (fromUtf8 (lineText line)).isSome ∧ (lineText line).getLast? ≠ some 13 ∧ (lineText line).length < maxCastLineBytes

def lineTexts (lines : List Bytes) : List Bytes := (lines.filter fun l => !l.all isLineEnd).map lineText

theorem rdropWhile_eq_nil_iff {p : UInt8 → Bool} {l : Bytes} : l.rdropWhile p = [] ↔ l.all p = true := by
  rw [List.rdropWhile_eq_nil_iff, List.all_eq_true]

theorem rdropWhile_lineText (line : Bytes) : (lineText line).rdropWhile isLineEnd = line.rdropWhile isLineEnd := by
  unfold lineText
  induction line using List.reverseRecOn with
  | nil => rfl
  | append_singleton l b ih =>
    by_cases hb : b = 10
    · subst hb
      rw [rdropWhile_concat_pos _ _ _ (by decide), rdropWhile_concat_pos _ _ _ (by decide), ih]
    · rw [rdropWhile_concat_neg _ _ _ (by simpa using hb)]

variable {line out : Bytes}

theorem lineText_eq (h : (lineText line).getLast? ≠ some 13) : line.rdropWhile isLineEnd = lineText line := by
  rw [← rdropWhile_lineText]
  rcases eq_nil_or_concat (lineText line) with hnil | ⟨l, b, hb⟩
  · rw [hnil]
    rfl
  rw [concat_eq_append] at hb
  have hne : b ≠ 10 := by
    rintro rfl
    have hlast := rdropWhile_last_not (fun b : UInt8 => b == 10) line (by
      show lineText line ≠ []
      rw [hb]
      simp)
    unfold lineText at hb
    simp [hb] at hlast
  rw [hb] at h ⊢
  refine rdropWhile_concat_neg _ _ _ ?_
  unfold isLineEnd
  simp only [getLast?_append, getLast?_singleton, some_or, ne_eq, Option.some.injEq] at h
  simp [h, hne]

theorem length_lineText_le (line : Bytes) : (lineText line).length ≤ line.length :=
  ( rdropWhile_prefix _ line).length_le

theorem fromUtf8_of_lineText {t : String} (ht : fromUtf8 (lineText line) = some t) :
    ∃ s, fromUtf8 line = some s ∧ utf8 (trimEndNewlines s) = lineText line := by
  have hsome : (fromUtf8 line).isSome := by
    unfold lineText at ht
    induction line using List.reverseRecOn with
    | nil => rfl
    | append_singleton l b ih =>
      by_cases hb : b = 10
      · subst hb
        rw [rdropWhile_concat_pos _ _ _ (by decide)] at ht
        obtain ⟨s, hs⟩ := isSome_iff_exists.1 (ih ht)
        have hnew : fromUtf8 (l ++ [10]) = some (s ++ "\n") := by
          rw [fromUtf8_eq_some_iff, utf8_append, fromUtf8_eq_some_iff.1 hs]
          rfl
        rw [hnew]
        rfl
      · rw [rdropWhile_concat_neg _ _ _ (by simpa using hb)] at ht
        rw [ht]
        rfl
  obtain ⟨s, hs⟩ := isSome_iff_exists.1 hsome
  refine ⟨s, hs, ?_⟩
  rw [utf8_trimEndNewlines, fromUtf8_eq_some_iff.1 hs]
  rfl

def NoError (rs : List (Except ReaderError String)) : Prop := ∀ r ∈ rs, ∃ s, r = .ok s

theorem shown_of_castRecords_eq (heq : castRecords lines = lineRecords lines)
    (hok : NoError (lineRecords lines)) (hline : line ∈ lines) :
    line.length ≤ maxCastLineBytes ∧ (line.all isLineEnd = true ∨
      (fromUtf8 (lineText line)).isSome ∧ (lineText line).getLast? ≠ some 13) := by
  induction lines with
  | nil => exact absurd hline not_mem_nil
  | cons buf rest ih =>
    unfold castRecords lineRecords at heq
    unfold lineRecords at hok
    by_cases hcap : buf.length > maxCastLineBytes
    · rw [if_pos hcap] at heq
      rw [← heq] at hok
      obtain ⟨_, h⟩ := hok _ mem_cons_self
      cases h
    rw [if_neg hcap] at heq
    by_cases hblank : buf.all isLineEnd = true
    · rw [rdropWhile_eq_nil_iff.2 hblank, if_pos hblank] at heq
      rw [if_pos hblank] at hok
      rcases mem_cons.1 hline with rfl | hline
      · exact ⟨not_lt.1 hcap, .inl hblank⟩
      · exact ih heq hok hline
    have htext : buf.rdropWhile isLineEnd ≠ [] := fun h => hblank (rdropWhile_eq_nil_iff.1 h)
    have hframe : ¬ buf.length > maxFramePlaintextBytes := hcap
    rw [if_neg (by simpa using htext), if_neg hblank, if_neg hframe] at heq
    rw [if_neg hblank, if_neg hframe] at hok
    rcases hs : fromUtf8 buf with _ | s
    · rw [hs] at hok
      obtain ⟨_, h⟩ := hok _ mem_cons_self
      cases h
    rw [hs] at heq hok
    obtain ⟨hhead, htail⟩ := List.cons.inj heq
    have hrest := ih htail fun r hr => hok r (mem_cons_of_mem _ hr)
    rcases mem_cons.1 hline with rfl | hline
    · refine ⟨not_lt.1 hcap, .inr ?_⟩
      have hsome : fromUtf8 (lineText line) = some (trimEndNewlines s) := by
        rw [fromUtf8_eq_some_iff, utf8_trimEndNewlines, fromUtf8_eq_some_iff.1 hs]
        rfl
      refine ⟨by rw [hsome]; rfl, fun hlast => ?_⟩
      rcases ht : fromUtf8 (line.rdropWhile isLineEnd) with _ | t
      · rw [ht] at hhead
        cases hhead
      rw [ht] at hhead
      cases hhead
      have hsame : line.rdropWhile isLineEnd = lineText line := by
        rw [← fromUtf8_eq_some_iff.1 ht, fromUtf8_eq_some_iff.1 hsome]
      -- what the plaintext reader shows does not end in a carriage return
      obtain ⟨l, hl⟩ := getLast?_eq_some_iff.1 hlast
      have hnot := rdropWhile_last_not isLineEnd line htext
      simp [hsame, hl, isLineEnd] at hnot
    · exact hrest hline

theorem lineRecords_of_shown (h : ∀ l ∈ lines, l.length ≤ maxCastLineBytes ∧
      (l.all isLineEnd = true ∨ (fromUtf8 (lineText l)).isSome)) :
    ∃ texts : List String, lineRecords lines = texts.map .ok ∧ texts.map utf8 = lineTexts lines := by
  induction lines with
  | nil => exact ⟨[], rfl, rfl⟩
  | cons buf rest ih =>
    obtain ⟨⟨hcap, hbuf⟩, hrest⟩ := forall_mem_cons.1 h
    obtain ⟨texts, hrecords, htexts⟩ := ih hrest
    unfold lineRecords lineTexts
    by_cases hblank : buf.all isLineEnd = true
    · rw [if_pos hblank, filter_cons_of_neg (by simp [hblank])]
      exact ⟨texts, hrecords, htexts⟩
    have hframe : ¬ buf.length > maxFramePlaintextBytes := not_lt.2 hcap
    rw [if_neg hblank, if_neg hframe, filter_cons_of_pos (by simpa using hblank)]
    obtain ⟨t, ht⟩ := isSome_iff_exists.1 (hbuf.resolve_left hblank)
    obtain ⟨s, hs, htrim⟩ := fromUtf8_of_lineText ht
    rw [hs]
    refine ⟨trimEndNewlines s :: texts, by rw [hrecords]; rfl, ?_⟩
    rw [map_cons, htexts, map_cons, htrim]
    rfl

theorem castRecords_of_faithful (h : ∀ l ∈ lines, Faithful l) : castRecords lines = lineRecords lines := by
  induction lines with
  | nil => rfl
  | cons buf rest ih =>
    obtain ⟨⟨hcap, hbuf⟩, hrest⟩ := forall_mem_cons.1 h
    have hframe : ¬ buf.length > maxFramePlaintextBytes := not_lt.2 hcap
    unfold castRecords lineRecords
    rw [if_neg (not_lt.2 hcap), ih hrest]
    by_cases hblank : buf.all isLineEnd = true
    · rw [rdropWhile_eq_nil_iff.2 hblank, if_pos hblank]
      rfl
    obtain ⟨hsome, hlast, -⟩ := hbuf.resolve_left hblank
    obtain ⟨t, ht⟩ := isSome_iff_exists.1 hsome
    obtain ⟨s, hs, htrim⟩ := fromUtf8_of_lineText ht
    have htext : buf.rdropWhile isLineEnd ≠ [] := fun hnil => hblank (rdropWhile_eq_nil_iff.1 hnil)
    rw [if_neg (by simpa using htext), if_neg hblank, if_neg hframe, hs, lineText_eq hlast, ← htrim, fromUtf8_utf8]

theorem length_le_of_noError (h : NoError (castRecords lines)) (hline : line ∈ lines) : line.length ≤ maxCastLineBytes := by
  induction lines with
  | nil => exact absurd hline not_mem_nil
  | cons buf rest ih =>
    unfold castRecords at h
    by_cases hcap : buf.length > maxCastLineBytes
    · rw [if_pos hcap] at h
      obtain ⟨_, hok⟩ := h _ mem_cons_self
      cases hok
    rw [if_neg hcap] at h
    rcases mem_cons.1 hline with rfl | hline
    · exact not_lt.1 hcap
    · refine ih (fun r hr => h r ?_) hline
      dsimp only
      split_ifs
      · exact hr
      · exact mem_cons_of_mem _ hr

/-! ## Writing back -/

def terminated (texts : List Bytes) : List Bytes := texts.map fun t => t ++ [10]

theorem noError_of_writeCastLines {io : Nat → WriteOutcome} {rs : List (Except ReaderError String)} {n : Nat}
    {back : Bytes} (h : writeCastLines io rs n out = .ok back) : NoError rs := by
  induction rs generalizing n out with
  | nil => exact fun r hr => absurd hr not_mem_nil
  | cons r rs ih =>
    rcases r with e | line
    · cases h
    · unfold writeCastLines at h
      rcases hw : writeAll out (utf8 line ++ [10]) (io n) with e | out₁
      · rw [hw] at h
        cases h
      · rw [hw] at h
        exact forall_mem_cons.2 ⟨⟨line, rfl⟩, ih h⟩

theorem writeCastLines_ok (texts : List String) (n : Nat)
    (hsize : out.length + (terminated (texts.map utf8)).flatten.length ≤ maxFileLen) :
    writeCastLines (fun _ => none) (texts.map .ok) n out = .ok (out ++ (terminated (texts.map utf8)).flatten) := by
  induction texts generalizing n out with
  | nil => simp [writeCastLines, terminated]
  | cons t texts ih =>
    have hcons : (terminated ((t :: texts).map utf8)).flatten =
        (utf8 t ++ [10]) ++ (terminated (texts.map utf8)).flatten := rfl
    rw [hcons, length_append] at hsize
    have hfit : out.length + (utf8 t ++ [10]).length ≤ maxFileLen := by omega
    have hroom : (out ++ (utf8 t ++ [10])).length + (terminated (texts.map utf8)).flatten.length ≤ maxFileLen := by
      rw [length_append]
      omega
    have hnext := ih (n + 1) hroom
    have hwrite : writeAll out (utf8 t ++ [10]) none = .ok (out ++ (utf8 t ++ [10])) := if_pos hfit
    rw [map_cons, writeCastLines, hwrite, hcons]
    exact hnext.trans (by rw [append_assoc])

theorem length_encodeCastLines {i bytesWritten : Nat}
    {sidecar sidecar' : IndexWriter} (hout : out.length ≤ maxFileLen)
    (h : encodeCastLines C io lines i bytesWritten out sidecar = .ok (out', sidecar')) :
    out.length + (terminated (lineTexts lines)).flatten.length ≤ out'.length ∧ out'.length ≤ maxFileLen := by
  induction lines generalizing i bytesWritten out sidecar with
  | nil =>
    cases h
    exact ⟨Nat.le_refl _, hout⟩
  | cons buf rest ih =>
    unfold encodeCastLines at h
    unfold lineTexts
    by_cases hblank : buf.all isLineEnd = true
    · rw [if_pos hblank] at h
      rw [filter_cons_of_neg (by simp [hblank])]
      exact ih hout h
    rw [if_neg hblank] at h
    rw [filter_cons_of_pos (by simpa using hblank)]
    rcases hframe : encodeCastFrame C io buf i bytesWritten out sidecar with e | ⟨out₁, sidecar₁, n⟩
    · rw [hframe] at h
      cases h
    rw [hframe] at h
    obtain ⟨f, hf, rfl, hfit⟩ := encodeCastFrame_eq_ok hframe
    obtain ⟨hgrow, hle⟩ := ih hfit h
    refine ⟨?_, hle⟩
    have hlen := Aead.length_frame hf
    have htext := length_lineText_le buf
    have hcons : (terminated ((buf :: rest.filter fun l => !l.all isLineEnd).map lineText)).flatten =
        (lineText buf ++ [10]) ++ (terminated (lineTexts rest)).flatten := rfl
    rw [length_append] at hgrow
    rw [hcons, length_append, length_append, length_singleton]
    omega

theorem length_convertCastToLfsr {cast lfsr index : Bytes}
    (h : convertCastToLfsr C io dk cast = .ok (lfsr, index)) :
    (terminated (lineTexts (castLines cast))).flatten.length ≤ maxFileLen := by
  obtain ⟨header, sidecar, -, hheader, hlines⟩ := convertCastToLfsr_eq_ok h
  have hlen := length_encodeCastLines hheader hlines
  omega

theorem castLines_terminated {cast : Bytes} (hlines : ∀ l ∈ lines, l ∈ castLines cast)
    (hcap : ∀ l ∈ lines, l.all isLineEnd = true ∨ l.length ≤ maxCastLineBytes) :
    castLines (terminated (lineTexts lines)).flatten = terminated (lineTexts lines) := by
  refine boundedLines_terminated fun t ht => ?_
  obtain ⟨l, hl, rfl⟩ := mem_map.1 ht
  obtain ⟨hmem, hshown⟩ := mem_filter.1 hl
  have hlen := (hcap l hmem).resolve_left (by simpa using hshown)
  refine ⟨fun hten => ?_, (length_lineText_le l).trans hlen⟩
  obtain ⟨xs, rfl, hxs⟩ := (mem_boundedLines (hlines l hmem)).ends (( rdropWhile_prefix _ l).subset hten)
  unfold lineText at hten
  rw [rdropWhile_concat_pos _ _ _ (by decide)] at hten
  exact hxs (( rdropWhile_prefix _ xs).subset hten)

theorem faithful_terminated (h : Faithful line) (hblank : line.all isLineEnd = false) :
    Faithful (lineText line ++ [10]) ∧ lineText (lineText line ++ [10]) = lineText line ∧
      (lineText line ++ [10]).all isLineEnd = false := by
  obtain ⟨hsome, hlast, hlen⟩ := h.shown.resolve_left (by simp [hblank])
  have htext : lineText (lineText line ++ [10]) = lineText line := by
    unfold lineText
    rw [rdropWhile_concat_pos _ _ _ (by decide), rdropWhile_idempotent]
  refine ⟨⟨?_, .inr ?_⟩, htext, ?_⟩
  · rw [length_append, length_singleton]
    exact hlen
  · rw [htext]
    exact ⟨hsome, hlast, hlen⟩
  · rw [all_append, Bool.and_eq_false_iff]
    left
    rw [Bool.eq_false_iff]
    intro hall
    have hnil := rdropWhile_eq_nil_iff.2 hall
    rw [rdropWhile_lineText, rdropWhile_eq_nil_iff, hblank] at hnil
    cases hnil

theorem lineTexts_terminated (h : ∀ l ∈ lines, Faithful l) :
    (∀ l ∈ terminated (lineTexts lines), Faithful l) ∧ lineTexts (terminated (lineTexts lines)) = lineTexts lines := by
  induction lines with
  | nil => exact ⟨fun l hl => absurd hl not_mem_nil, rfl⟩
  | cons buf rest ih =>
    obtain ⟨hbuf, hrest⟩ := forall_mem_cons.1 h
    obtain ⟨hall, htexts⟩ := ih hrest
    by_cases hblank : buf.all isLineEnd = true
    · have hskip : lineTexts (buf :: rest) = lineTexts rest := by
        unfold lineTexts
        rw [filter_cons_of_neg (by simp [hblank])]
      rw [hskip]
      exact ⟨hall, htexts⟩
    · rw [Bool.not_eq_true] at hblank
      obtain ⟨hline, htext, hshown⟩ := faithful_terminated hbuf hblank
      have hkeep : lineTexts (buf :: rest) = lineText buf :: lineTexts rest := by
        unfold lineTexts
        rw [filter_cons_of_pos (by simp [hblank])]
        rfl
      have hkeep' : lineTexts ((lineText buf ++ [10]) :: terminated (lineTexts rest)) =
          lineText (lineText buf ++ [10]) :: lineTexts (terminated (lineTexts rest)) := by
        unfold lineTexts
        rw [filter_cons_of_pos (by rw [hshown]; rfl)]
        rfl
      rw [hkeep]
      refine ⟨forall_mem_cons.2 ⟨hline, hall⟩, ?_⟩
      show lineTexts ((lineText buf ++ [10]) :: terminated (lineTexts rest)) = _
      rw [hkeep', htext, htexts]

/-- **Migrating there and back.** A plaintext recording plays the same after its promotion, and again after
its demotion, exactly when each of its lines is faithful. -/
theorem migrate_faithful_iff (C : Crypto) (io : PromoteIo) (dk : Block 32) (cast : Bytes) (r : Recording)
    (h : convertOneCastToLfsr C io dk { cast := some cast } = (r, .ok true)) :
    ((∃ lfsr, r.lfsr = some lfsr ∧ playback C lfsr dk none = .ok (castPlayback cast)) ∧
      ∃ back, convertOneLfsrToCast C (fun _ => none) dk r = ({ cast := some back }, .ok true) ∧
        castPlayback back = castPlayback cast) ↔
      ∀ line ∈ castLines cast, Faithful line := by
  unfold convertOneCastToLfsr at h
  dsimp only [isSome_none] at h
  rw [if_neg Bool.false_ne_true] at h
  rcases hconvert : convertCastToLfsr C io dk cast with e | ⟨lfsr, index⟩
  · rw [hconvert] at h
    cases h
  rw [hconvert] at h
  cases h
  obtain ⟨it, hopen, hrecords⟩ := openLfsrIterAt_convertCastToLfsr hconvert
  have hplay := playback_convertCastToLfsr hconvert
  have hback : convertLfsrToCast C (fun _ => none) dk lfsr =
      writeCastLines (fun _ => none) (lineRecords (castLines cast)) 0 [] := by
    unfold convertLfsrToCast
    rw [hopen, ← hrecords]
  have hdemote : ∀ back, convertOneLfsrToCast C (fun _ => none) dk { lfsr := some lfsr, index := some index } =
      ({ cast := some back }, .ok true) ↔ convertLfsrToCast C (fun _ => none) dk lfsr = .ok back := by
    intro back
    unfold convertOneLfsrToCast
    dsimp only [isSome_none]
    rw [if_neg Bool.false_ne_true]
    rcases convertLfsrToCast C (fun _ => none) dk lfsr with e | cast'
    · simp
    · simp
  simp only [hdemote, Option.some.injEq, exists_eq_left', hplay, hback, Except.ok.injEq]
  have hsize := length_convertCastToLfsr hconvert
  constructor
  · rintro ⟨heq, back, hwrite, hsame⟩ line hline
    have hok := noError_of_writeCastLines hwrite
    have hshown := fun l (hl : l ∈ castLines cast) => shown_of_castRecords_eq heq.symm hok hl
    obtain ⟨texts, htexts, hutf⟩ := lineRecords_of_shown fun l hl =>
      ⟨(hshown l hl).1, (hshown l hl).2.imp id And.left⟩
    rw [htexts, writeCastLines_ok texts 0 (by rw [hutf]; simpa using hsize), hutf, nil_append] at hwrite
    cases hwrite
    obtain ⟨hfits, hline'⟩ := hshown line hline
    refine ⟨hfits, ?_⟩
    by_cases hblank : line.all isLineEnd = true
    · exact .inl hblank
    obtain ⟨hsome, hlast⟩ := hline'.resolve_left hblank
    refine .inr ⟨hsome, hlast, ?_⟩
    -- the line that is written back is read whole
    have hlines : castLines (terminated (lineTexts (castLines cast))).flatten = terminated (lineTexts (castLines cast)) :=
      castLines_terminated (fun _ hl => hl) fun l hl => .inr (hshown l hl).1
    have hnoerr : NoError (castRecords (castLines (terminated (lineTexts (castLines cast))).flatten)) := by
      show NoError (castPlayback _)
      rw [hsame, ← heq]
      exact hok
    rw [hlines] at hnoerr
    have hmem : lineText line ++ [10] ∈ terminated (lineTexts (castLines cast)) :=
      mem_map_of_mem (mem_map_of_mem (mem_filter.2 ⟨hline, by simpa using hblank⟩))
    have hlen := length_le_of_noError hnoerr hmem
    rwa [length_append, length_singleton] at hlen
  · intro hfaithful
    have heq := castRecords_of_faithful hfaithful
    obtain ⟨texts, htexts, hutf⟩ := lineRecords_of_shown fun l hl =>
      ⟨(hfaithful l hl).fits, (hfaithful l hl).shown.imp id And.left⟩
    obtain ⟨hall, hagain⟩ := lineTexts_terminated hfaithful
    refine ⟨heq.symm, (terminated (lineTexts (castLines cast))).flatten, ?_, ?_⟩
    · rw [htexts, writeCastLines_ok texts 0 (by rw [hutf]; simpa using hsize), hutf, nil_append]
    unfold castPlayback
    rw [castLines_terminated (fun _ hl => hl) fun l hl => .inr (hfaithful l hl).fits, castRecords_of_faithful hall,
      heq, htexts]
    obtain ⟨texts', htexts', hutf'⟩ := lineRecords_of_shown fun l hl =>
      ⟨(hall l hl).fits, (hall l hl).shown.imp id And.left⟩
    rw [htexts']
    refine congrArg (List.map Except.ok) (map_injective_iff.2 utf8_injective ?_)
    rw [hutf', hagain, hutf]

section Sample

/-- A promotion whose writes succeed and which reads no time off a line. -/
def sampleIo : PromoteIo where
  recordingKey := Block.fill 32 2
  wrapNonce := Block.fill 12 3
  header := none
  frames _ := { nonce := Block.fill 12 4, write := none }
  index _ := { nonce := Block.fill 12 5, room := none, write := none, timestampMs := 0 }
  close := none
  parseEventTimestampMs _ := none

theorem migrate_faithful_sample :
    let r := (convertOneCastToLfsr Crypto.tagged sampleIo (Block.fill 32 1) { cast := some (utf8 "a\nb") }).1
    ((∃ lfsr, r.lfsr = some lfsr ∧ playback Crypto.tagged lfsr (Block.fill 32 1) none = .ok (castPlayback (utf8 "a\nb"))) ∧
      ∃ back, convertOneLfsrToCast Crypto.tagged (fun _ => none) (Block.fill 32 1) r = ({ cast := some back }, .ok true) ∧
        castPlayback back = castPlayback (utf8 "a\nb")) ↔
      ∀ line ∈ castLines (utf8 "a\nb"), Faithful line :=
  migrate_faithful_iff Crypto.tagged sampleIo _ _ _ (Prod.ext rfl (by decide +kernel))

/-- A carriage return before the newline is dropped from the plaintext recording and played from the promoted one. -/
theorem migrate_carriage_return :
    let r := (convertOneCastToLfsr Crypto.tagged sampleIo (Block.fill 32 1) { cast := some (utf8 "a\r\n") }).1
    castPlayback (utf8 "a\r\n") = [.ok "a"] ∧
      r.lfsr.map (fun lfsr => playback Crypto.tagged lfsr (Block.fill 32 1) none) = some (.ok [.ok "a\r"]) := by
  decide +kernel

end Sample

end LetsFlutSsh.Recorder
