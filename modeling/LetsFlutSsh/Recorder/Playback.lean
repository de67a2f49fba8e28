import LetsFlutSsh.Recorder.Attempts

/-!
# Recorder: what playback gives back

* `playback_recordAll` : sequential playback of a recording is `played` on its log;
* `playback_okRecords_iff` : playback gives back exactly the records whose calls returned `Ok` when
  the log is `Intact`, and only then.
-/

namespace LetsFlutSsh.Recorder
open Lib List

/-- Everything `open_for_playback_at` yields on an encrypted recording. -/
def playback (C : Crypto) (file : Bytes) (dbKey : Block 32) (start : Option (Nat × Nat)) :
    Except ReaderError (List (Except ReaderError String)) :=
  (openLfsrIterAt C file dbKey start).map (·.records C)

variable {wn : Block 12} {C : Crypto} {dk rk : Block 32} {header : Bytes}

section

variable (h : buildLfsrHeader C dk rk wn = .ok header)
include h

theorem buildLfsrHeader_ok : ∃ wrapped, C.encrypt dk wn rk.1 keywrapAad = some wrapped ∧
    header = lfrMagic ++ [lfrVersion] ++ (wn.1 ++ wrapped) ∧ header.length = lfrHeaderLen := by
  cases henc : C.encrypt dk wn rk.1 keywrapAad with
  | none => simp [buildLfsrHeader, aesGcmEncryptRaw, henc, bind, Except.bind] at h
  | some wrapped =>
    simp only [buildLfsrHeader, aesGcmEncryptRaw, henc, bind, Except.bind, pure, Except.pure,
      Except.ok.injEq, append_assoc] at h
    refine ⟨wrapped, rfl, by simp only [← h, append_assoc], ?_⟩
    rw [← h]
    simp only [length_append, wn.2, C.length_encrypt _ _ _ _ _ henc, rk.2]
    rfl

theorem unwrapLfsrHeader_iff (key : Block 32) : ∃ wrapped, C.encrypt dk wn rk.1 keywrapAad = some wrapped ∧
    ∀ rk', unwrapLfsrHeader C header key = .ok rk' ↔ C.decrypt key wn wrapped keywrapAad = some rk'.1 := by
  obtain ⟨wrapped, henc, heq, hlen⟩ := buildLfsrHeader_ok h
  refine ⟨wrapped, henc, fun rk' => ?_⟩
  have hread : readExact lfrHeaderLen header = some (header, []) := by
    simpa using readExact_append hlen []
  have htake : header.take 4 = lfrMagic := by rw [heq]; rfl
  have hver : header.getD 4 0 = lfrVersion := by rw [heq]; rfl
  have hdrop : header.drop 5 = wn.1 ++ wrapped := by rw [heq]; rfl
  have hct : ¬ wrapped.length < 16 := by
    rw [C.length_encrypt _ _ _ _ _ henc]
    omega
  simp only [unwrapLfsrHeader, hread, htake, hver, hdrop, readBlock_append, aesGcmDecryptRaw, hct, ne_eq, not_true_eq_false,
    if_false]
  rcases C.decrypt key wn wrapped keywrapAad with _ | pt
  · simp
  · dsimp only
    split_ifs with hpt
    · exact ⟨fun heq => congrArg (some ·.1) (Except.ok.inj heq), fun heq => congrArg _ (Subtype.ext (Option.some.inj heq))⟩
    · refine ⟨fun heq => (by cases heq), fun heq => absurd ?_ hpt⟩
      rw [Option.some.inj heq, rk'.2]

theorem unwrapLfsrHeader_ok : unwrapLfsrHeader C header dk = .ok rk := by
  obtain ⟨wrapped, henc, hunwrap⟩ := unwrapLfsrHeader_iff h dk
  exact (hunwrap rk).2 (C.decrypt_encrypt _ _ _ _ _ henc)

theorem openLfsrIterAt_header (rest : Bytes) (start : Option (Nat × Nat)) :
    openLfsrIterAt C (header ++ rest) dk start = .ok (match start with
      | none => { rest, key := rk, frameIndex := 0, finished := false }
      | some (offset, i) =>
        { rest := (header ++ rest).drop offset, key := rk, frameIndex := i, finished := false }) := by
  obtain ⟨wrapped, henc, heq, hlen⟩ := buildLfsrHeader_ok h
  have hread : readExact lfrHeaderLen (header ++ rest) = some (header, rest) :=
    readExact_append hlen rest
  have htake : header.take 4 = lfrMagic := by rw [heq]; rfl
  have hver : header.getD 4 0 = lfrVersion := by rw [heq]; rfl
  simp only [openLfsrIterAt, hread, htake, hver, unwrapLfsrHeader_ok h, ne_eq, not_true_eq_false, if_false]
  cases start with
  | none => rfl
  | some s => rfl

end

variable {a : RecorderActor}

theorem registerWithIo_some {secs : Nat} (h : registerWithIo C (some dk) rk wn secs = .ok a) :
    ∃ header, buildLfsrHeader C dk rk wn = .ok header ∧ header.length = lfrHeaderLen ∧
      a = { bytesWritten := lfrHeaderLen, startedAtSecs := secs, file := header, key := some rk,
            frameIndex := 0, index := .create (deriveIndexKey C (some rk)) } := by
  cases hb : buildLfsrHeader C dk rk wn with
  | error e => simp [registerWithIo, hb, bind, Except.bind] at h
  | ok header =>
    obtain ⟨-, -, -, hlen⟩ := buildLfsrHeader_ok hb
    simp only [registerWithIo, hb, bind, Except.bind, pure, Except.pure, Except.ok.injEq, hlen] at h
    exact ⟨header, rfl, hlen, h.symm⟩

section
variable {C : Crypto} {dk rk : Block 32} {secs : Nat}

abbrev log (secs : Nat) (cs : List Call) : List Attempt := attempts secs lfrHeaderLen cs

theorem recordAll_file_fresh (h : registerWithIo C (some dk) rk wn secs = .ok a) (cs : List Call) :
    ∃ header, buildLfsrHeader C dk rk wn = .ok header ∧ header.length = lfrHeaderLen ∧
      (recordAll C a cs).1.file = header ++ body C rk (numbered 0 (log secs cs)) := by
  obtain ⟨header, hb, hlen, rfl⟩ := registerWithIo_some h
  refine ⟨header, hb, hlen, ?_⟩
  rw [recordAll_file C cs _ 0 rfl rfl, hlen]

theorem numbered_log_fit (cs : List Call) : ∀ x ∈ numbered 0 (log secs cs), (utf8 x.1.line).length < 2 ^ 32 := by
  intro x hx
  have hmem : x.1 ∈ (log secs cs).filter (·.landed) := by
    rw [← numbered_map_fst 0]
    exact mem_map_of_mem hx
  obtain ⟨hlog, hl⟩ := mem_filter.mp hmem
  exact (attempts_fit hlog hl).1

theorem numbered_log_length (cs : List Call) : (numbered 0 (log secs cs)).length ≤ u64Max := by
  have h := attempts_landed_length cs secs lfrHeaderLen (by decide)
  rw [length_numbered, u64Max]
  rw [maxFileLen] at h
  simp only [log]
  omega

theorem playback_recordAll (h : registerWithIo C (some dk) rk wn secs = .ok a) (cs : List Call) :
    playback C (recordAll C a cs).1.file dk none = .ok (played 0 (numbered 0 (log secs cs))) := by
  obtain ⟨header, hb, -, hfile⟩ := recordAll_file_fresh h cs
  rw [playback, hfile, openLfsrIterAt_header hb]
  exact congrArg Except.ok (records_body C rk _ 0 (numbered_log_fit cs))

theorem playback_okRecords_iff_aligned (h : registerWithIo C (some dk) rk wn secs = .ok a) (cs : List Call) :
    playback C (recordAll C a cs).1.file dk none = .ok ((okRecords secs cs (recordAll C a cs).2).map .ok) ↔
      Aligned 0 (numbered 0 (log secs cs)) := by
  obtain ⟨header, -, hlen, ha⟩ := registerWithIo_some h
  have hok : okRecords secs cs (recordAll C a cs).2 = (numbered 0 (log secs cs)).map fun x => trimEndNewlines x.1.line := by
    have hkey : a.key = some rk := by rw [ha]
    have hlanded := recordAll_okRecords C cs a hkey
    rw [ha] at hlanded ⊢
    simp only [hlen] at hlanded
    rw [hlanded, ← numbered_map_fst 0, map_map]
    rfl
  rw [playback_recordAll h, hok, Except.ok.injEq, map_map]
  constructor
  · intro hp
    refine aligned_of_played (by simpa using numbered_log_length cs) ?_
    rw [hp]
    intro r hr
    obtain ⟨x, -, rfl⟩ := mem_map.mp hr
    rfl
  · exact played_of_aligned

end

/-- **Round trip of a recording.** On a registered encrypted recording, after any calls with any
pattern of failed writes, sequential playback yields exactly the records whose calls returned `Ok`,
in order and without an error, if and only if no failed attempt precedes a landed one and no landed
line exceeds the reader's cap. -/
theorem playback_okRecords_iff (C : Crypto) (dk rk : Block 32) (wn : Block 12) (secs : Nat)
    (a : RecorderActor) (h : registerWithIo C (some dk) rk wn secs = .ok a) (cs : List Call) :
    playback C (recordAll C a cs).1.file dk none =
        .ok ((okRecords secs cs (recordAll C a cs).2).map .ok) ↔ Intact (log secs cs) :=
  (playback_okRecords_iff_aligned h cs).trans (aligned_numbered 0 _)

/-- A fixed recording: registered under `Crypto.tagged` at time 0. -/
def sample : Except Error RecorderActor :=
  registerWithIo Crypto.tagged (some (Block.fill 32 1)) (Block.fill 32 2) (Block.fill 12 3) 0

def sampleHeader (e : WriteOutcome) : Call := .header 80 24 "sh" { nonce := Block.fill 12 4, write := e }

def sampleEvent (e : WriteOutcome) : Call :=
  .event .output [0x61] 0 { nonce := Block.fill 12 4, write := e }
    { nonce := Block.fill 12 5, room := none, write := none, timestampMs := 0 }

theorem playback_okRecords_iff_sample : ∃ a, sample = .ok a ∧
      (playback Crypto.tagged (recordAll Crypto.tagged a [sampleHeader none, sampleEvent none]).1.file
          (Block.fill 32 1) none =
        .ok ((okRecords 0 [sampleHeader none, sampleEvent none]
          (recordAll Crypto.tagged a [sampleHeader none, sampleEvent none]).2).map .ok) ↔
        Intact (log 0 [sampleHeader none, sampleEvent none])) :=
  ⟨_, rfl, playback_okRecords_iff Crypto.tagged _ _ _ 0 _ rfl _⟩

/-- The write of the header fails and that of the event succeeds: playback does not give the event
back. -/
theorem playback_okRecords_failed_header : ∃ a, sample = .ok a ∧
      let cs := [sampleHeader (some "No space left on device (os error 28)"), sampleEvent none]
      (recordAll Crypto.tagged a cs).2.map Except.toBool = [false, true] ∧
      playback Crypto.tagged (recordAll Crypto.tagged a cs).1.file (Block.fill 32 1) none ≠
        .ok ((okRecords 0 cs (recordAll Crypto.tagged a cs).2).map .ok) := by
  refine ⟨_, rfl, by decide +kernel, fun hplay => ?_⟩
  have hintact : Intact (log 0 [sampleHeader (some "No space left on device (os error 28)"), sampleEvent none]) :=
    (aligned_numbered 0 _).mp ((playback_okRecords_iff_aligned rfl _).mp hplay)
  exact absurd hintact (by decide +kernel)

end LetsFlutSsh.Recorder
