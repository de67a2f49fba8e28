import LetsFlutSsh.Recorder.EventText
import LetsFlutSsh.Recorder.LossyUnits
import LetsFlutSsh.Recorder.Migrate

/-!
# Recorder: the text of a recording and the chunks it came in

Terminal output reaches `record_event` in chunks, cut wherever a read happened to end.

* `landed` : the calls whose line reaches the file, with a key and without (`recordAll_landed`);
* `Replays` : playback shows all of them (`playRecording_iff`);
* `recordedText` : the data of one direction's events, put together (`recordedText_landed`);
* `recordedText_faithful` : it is the decoding of the whole stream exactly when the recording is
  readable and no cut falls inside a UTF-8 sequence.
-/

namespace LetsFlutSsh.Recorder
open Lib List

/-! ## The calls that landed -/

/-- Whether a line reaches a file of `size` bytes. -/
def reaches (encrypted : Bool) (size : Nat) (line : String) (io : FrameIo) : Bool :=
  if encrypted then lands size line io
  else io.write.isNone && decide (size + (utf8 line).length ≤ maxFileLen)

def storedLen (encrypted : Bool) (line : String) : Nat :=
  if encrypted then frameLen line else (utf8 line).length

def landed (encrypted : Bool) (secs : Nat) : Nat → List Call → List (Call × String)
  | _, [] => []
  | size, c :: cs =>
    match c.frame secs with
    | none => landed encrypted secs size cs
    | some (line, _, io) =>
      if reaches encrypted size line io then (c, line) :: landed encrypted secs (size + storedLen encrypted line) cs
      else landed encrypted secs size cs

def Call.chunk (kind : RecordDirection) : Call → Option Bytes
  | .header .. => none
  | .event k b _ _ _ => if k = kind ∧ b ≠ [] then some b else none

/-- The chunks of a direction whose calls returned `Ok`. -/
def okChunks (kind : RecordDirection) : List Call → List (Except Error Nat) → List Bytes
  | c :: cs, .ok _ :: rs => (c.chunk kind).toList ++ okChunks kind cs rs
  | _ :: cs, .error _ :: rs => okChunks kind cs rs
  | _, _ => []

def landedChunks (kind : RecordDirection) (L : List (Call × String)) : List Bytes :=
  L.filterMap fun x => x.1.chunk kind

variable (C : Crypto)

theorem recordFrameAt_line (a : RecorderActor) (line : String) (io : FrameIo) :
    (reaches a.key.isSome a.file.length line io = true ∧
        ∃ f n, f.length = storedLen a.key.isSome line ∧ (a.key = none → f = utf8 line) ∧
          recordFrameAt C a (utf8 line) io = ({ a with
            frameIndex := satAdd a.frameIndex 1
            file := a.file ++ f
            bytesWritten := n }, .ok (a.bytesWritten, n))) ∨
      (reaches a.key.isSome a.file.length line io = false ∧
        ∃ e, recordFrameAt C a (utf8 line) io = ({ a with frameIndex := satAdd a.frameIndex 1 }, .error e)) := by
  by_cases hkey : a.key = none
  · have hbuild : buildFrame C (utf8 line) a.key a.frameIndex io.nonce = .ok (utf8 line) := by rw [hkey]; rfl
    have hmode : a.key.isSome = false := by rw [hkey]; rfl
    rw [hmode]
    rcases hw : io.write with _ | e
    · by_cases hfit : a.file.length + (utf8 line).length ≤ maxFileLen
      · refine .inl ⟨by simp [reaches, hw, hfit], utf8 line, satAdd a.bytesWritten (utf8 line).length,
          rfl, fun _ => rfl, ?_⟩
        simp only [recordFrameAt, hbuild, writeAll, hw, if_pos hfit]
      · refine .inr ⟨by simp [reaches, hfit], .recorder ("frame write: File too large (os error 27)"), ?_⟩
        simp only [recordFrameAt, hbuild, writeAll, hw, if_neg hfit]
        rfl
    · refine .inr ⟨by simp [reaches, hw], .recorder ("frame write: " ++ e), ?_⟩
      simp only [recordFrameAt, hbuild, writeAll, hw]
  · obtain ⟨key, hsome⟩ := Option.ne_none_iff_exists'.mp hkey
    have hmode : a.key.isSome = true := by rw [hsome]; rfl
    rw [hmode]
    rcases recordFrameAt_cases C hsome line io with ⟨hl, f, hf, hr⟩ | ⟨hl, e, hr⟩
    · exact .inl ⟨hl, f, _, Aead.length_frame hf, fun hnone => absurd hnone hkey, hr⟩
    · exact .inr ⟨hl, e, hr⟩

variable {stamp : Option UInt32} {c : Call} {line : String} {io : FrameIo} {a : RecorderActor}

theorem Call.run_of_line
    (h : c.frame a.startedAtSecs = some (line, stamp, io)) :
    (c.run C a).1.key = a.key ∧ (c.run C a).1.startedAtSecs = a.startedAtSecs ∧
      (reaches a.key.isSome a.file.length line io = true ∧ (∃ n, (c.run C a).2 = .ok n) ∧
          (∃ f, f.length = storedLen a.key.isSome line ∧ (a.key = none → f = utf8 line) ∧
            (c.run C a).1.file = a.file ++ f) ∨
        reaches a.key.isSome a.file.length line io = false ∧ (∃ e, (c.run C a).2 = .error e) ∧
          (c.run C a).1.file = a.file) := by
  cases c with
  | header w h' s io' =>
    simp only [Call.frame, Option.some.injEq, Prod.mk.injEq] at h
    obtain ⟨rfl, rfl, rfl⟩ := h
    rcases recordFrameAt_line C a (headerLine w.toNat h'.toNat a.startedAtSecs s) io' with
      ⟨hl, f, n, hlen, hplain, hr⟩ | ⟨hl, e, hr⟩
    · rw [Call.run, recordHeader, hr]
      exact ⟨rfl, rfl, .inl ⟨hl, ⟨n, rfl⟩, f, hlen, hplain, rfl⟩⟩
    · rw [Call.run, recordHeader, hr]
      exact ⟨rfl, rfl, .inr ⟨hl, ⟨e, rfl⟩, rfl⟩⟩
  | event k b m io' idx =>
    have hb : ¬ b.isEmpty := by
      intro hb
      simp [Call.frame, hb] at h
    simp only [Call.frame, hb, Bool.false_eq_true, if_false, Option.some.injEq, Prod.mk.injEq] at h
    obtain ⟨rfl, rfl, rfl⟩ := h
    rcases recordFrameAt_line C a (eventLine k b m) io' with ⟨hl, f, n, hlen, hplain, hr⟩ | ⟨hl, e, hr⟩
    · rw [Call.run, recordEvent, if_neg hb, hr]
      exact ⟨rfl, rfl, .inl ⟨hl, ⟨n, rfl⟩, f, hlen, hplain, rfl⟩⟩
    · rw [Call.run, recordEvent, if_neg hb, hr]
      exact ⟨rfl, rfl, .inr ⟨hl, ⟨e, rfl⟩, rfl⟩⟩

variable {secs : Nat}

theorem Call.chunk_of_frame {kind : RecordDirection} (h : c.frame secs = none) :
    c.chunk kind = none := by
  cases c with
  | header w h' s io => rfl
  | event k b m io idx =>
    have hb : b = [] := by
      by_contra hb
      simp [Call.frame, hb] at h
    simp [Call.chunk, hb]

theorem recordAll_landed (cs : List Call) (a : RecorderActor) :
    let L := landed a.key.isSome a.startedAtSecs a.file.length cs
    okRecords a.startedAtSecs cs (recordAll C a cs).2 = L.map (fun x => trimEndNewlines x.2) ∧
      (∀ kind, okChunks kind cs (recordAll C a cs).2 = landedChunks kind L) ∧
      (a.key = none → (recordAll C a cs).1.file = a.file ++ L.flatMap fun x => utf8 x.2) := by
  induction cs generalizing a with
  | nil => exact ⟨rfl, fun _ => rfl, fun _ => by simp [recordAll, landed]⟩
  | cons c cs ih =>
    have hrecord := c.record_eq a.startedAtSecs
    rcases hc : c.frame a.startedAtSecs with _ | ⟨line, stamp, io⟩
    · rw [hc, Option.map_none] at hrecord
      simp only [recordAll, Call.run_of_none C hc, landed, hc, okRecords, okChunks, hrecord, Option.toList_none,
        nil_append, Call.chunk_of_frame hc]
      exact ih a
    rw [hc, Option.map_some] at hrecord
    obtain ⟨hkey, hsecs, hrest⟩ := Call.run_of_line C hc
    have hstep := ih (c.run C a).1
    rw [hkey, hsecs] at hstep
    rcases hrest with ⟨hl, ⟨n, hn⟩, f, hlen, hplain, hfile⟩ | ⟨hl, ⟨e, he⟩, hfile⟩
    · rw [hfile, length_append, hlen] at hstep
      obtain ⟨hrecords, hchunks, hbytes⟩ := hstep
      simp only [recordAll, landed, hc, hl, if_true, hn, okRecords, okChunks, hrecord, Option.toList_some, hrecords]
      refine ⟨rfl, fun kind => ?_, fun hnone => ?_⟩
      · rw [hchunks kind, landedChunks, landedChunks, filterMap_cons]
        cases c.chunk kind <;> rfl
      · rw [hbytes hnone, hplain hnone, flatMap_cons, append_assoc]
    · rw [hfile] at hstep
      simp only [recordAll, landed, hc, hl, Bool.false_eq_true, if_false, he, okRecords, okChunks]
      exact hstep

/-! ## Lines of visible text -/

def Visible (t : List Char) : Prop := ∀ c ∈ t, 0x20 ≤ c.toNat

variable {t : List Char}

theorem Visible.append {s : List Char} (hs : Visible s) (ht : Visible t) : Visible (s ++ t) := by
  intro c hc
  rcases mem_append.mp hc with h | h
  · exact hs c h
  · exact ht c h

theorem visible_digits (h : ∀ c ∈ t, c.isDigit = true) : Visible t := by
  intro c hc
  have hdigit := h c hc
  simp only [Char.isDigit, Bool.and_eq_true, decide_eq_true_eq, UInt32.le_iff_toNat_le] at hdigit
  have hlow : (48 : Nat) ≤ c.toNat := hdigit.1
  omega

theorem visible_toString (n : Nat) : Visible (toString n).toList := by
  rw [toList_toString]
  exact visible_digits fun c hc => Nat.isDigit_of_mem_toDigits (by decide) (by decide) hc

theorem NumberText.visible {num : List Char} (h : NumberText num) : Visible num := by
  cases h with
  | int n => exact visible_toString n
  | frac n _ hds =>
    apply (visible_toString n).append
    intro c hc
    rcases mem_cons.mp hc with rfl | hc
    · decide
    · exact visible_digits hds c hc

theorem Literal.visible {s : List Char} (h : Literal t s) : Visible t := by
  have hhex : ∀ n, 0x20 ≤ (hexDigit n).toNat := by
    intro n
    have hall : ∀ d < 16, 0x20 ≤ ("0123456789abcdef".toList.getD d '0').toNat := by decide
    exact hall (n % 16) (Nat.mod_lt _ (by decide))
  induction h with
  | nil => exact fun c hc => absurd hc not_mem_nil
  | cons hc _ ih =>
    apply Visible.append _ ih
    cases hc with
    | plain _ _ hlow => simpa [Visible] using hlow
    | short hmem =>
      have hall : ∀ x ∈ shortEscapes, 0x20 ≤ x.1.toNat := by decide
      simpa [Visible] using hall _ hmem
    | unit hn => simp [Visible, hex4, hhex]

theorem visible_eventText (kind : RecordDirection) (bytes : Bytes) (micros : Nat) : Visible (eventText kind bytes micros) := by
  have hkind : Visible [kind.kindChar] := by cases kind <;> simp [Visible, RecordDirection.kindChar]
  have hopen : Visible ('[' :: formatDelta micros) := by
    simpa [Visible] using (numberText_formatDelta micros).visible
  have hdata := (literal_jsonEscape (fromUtf8Lossy bytes)).visible
  have hsep₁ : Visible ",\"".toList := by simp [Visible]
  have hsep₂ : Visible "\",\"".toList := by simp [Visible]
  have hclose : Visible "\"]".toList := by simp [Visible]
  exact ((((hopen.append hsep₁).append hkind).append hsep₂).append hdata).append hclose

theorem visible_headerText (w h t : Nat) (shell : String) : Visible (headerText w h t shell) := by
  have hfixed : ∀ s : String, s.toList.all (fun c => decide (0x20 ≤ c.toNat)) = true → Visible s.toList := by
    intro s hs c hc
    simpa using all_eq_true.mp hs c hc
  have hshell := (literal_jsonEscape shell.toList).visible
  have hopen := hfixed "\x7b\"version\":2,\"width\":" (by decide)
  have hheight := hfixed ",\"height\":" (by decide)
  have hstamp := hfixed ",\"timestamp\":" (by decide)
  have henv := hfixed ",\"env\":\x7b\"TERM\":\"xterm-256color\",\"SHELL\":\"" (by decide)
  have hclose := hfixed "\"\x7d\x7d" (by decide)
  have hwidth := (hopen.append (visible_toString w)).append hheight
  have hsize := (hwidth.append (visible_toString h)).append hstamp
  have hfields := (hsize.append (visible_toString t)).append henv
  exact (hfields.append hshell).append hclose

theorem exists_text_of_frame
    (h : c.frame secs = some (line, stamp, io)) :
    ∃ t, t ≠ [] ∧ Visible t ∧ line = String.ofList (t ++ ['\n']) ∧ trimEndNewlines line = String.ofList t := by
  cases c with
  | header w h' s io' =>
    simp only [Call.frame, Option.some.injEq, Prod.mk.injEq] at h
    obtain ⟨rfl, -, -⟩ := h
    have hne : headerText w.toNat h'.toNat secs s ≠ [] := by
      obtain ⟨r, hr⟩ := headerText_brace w.toNat h'.toNat secs s
      rw [hr]
      exact cons_ne_nil _ _
    exact ⟨_, hne, visible_headerText _ _ _ _, rfl, trimEndNewlines_headerLine _ _ _ _⟩
  | event k b m io' idx =>
    have hb : ¬ b.isEmpty := by
      intro hb
      simp [Call.frame, hb] at h
    simp only [Call.frame, hb, Bool.false_eq_true, if_false, Option.some.injEq, Prod.mk.injEq] at h
    obtain ⟨rfl, -, -⟩ := h
    exact ⟨_, cons_ne_nil _ _, visible_eventText _ _ _, rfl, trimEndNewlines_eventLine _ _ _⟩

theorem mem_landed {encrypted : Bool} {size : Nat} {cs : List Call} {x : Call × String}
    (h : x ∈ landed encrypted secs size cs) :
    x.1 ∈ cs ∧ ∃ stamp io, x.1.frame secs = some (x.2, stamp, io) := by
  induction cs generalizing size with
  | nil => exact absurd h not_mem_nil
  | cons c cs ih =>
    have hlater : ∀ {size}, x ∈ landed encrypted secs size cs →
        x.1 ∈ c :: cs ∧ ∃ stamp io, x.1.frame secs = some (x.2, stamp, io) := by
      intro size hx
      exact ⟨mem_cons_of_mem _ (ih hx).1, (ih hx).2⟩
    rw [landed] at h
    rcases hc : c.frame secs with _ | ⟨line, stamp, io⟩
    · simp only [hc] at h
      exact hlater h
    · simp only [hc] at h
      split_ifs at h
      · rcases mem_cons.mp h with rfl | h
        · exact ⟨mem_cons_self, stamp, io, hc⟩
        · exact hlater h
      · exact hlater h

/-! ## Playback -/

theorem not_mem_utf8_of_visible (h : Visible t) {b : UInt8} (hb : b < 0x20) :
    b ∉ utf8 (String.ofList t) := by
  rw [utf8_eq_flatMap, String.toList_ofList, mem_flatMap]
  rintro ⟨c, hc, hmem⟩
  have hlt : b.toNat < 32 := by simpa using UInt8.lt_iff_toNat_lt.mp hb
  have hascii : b < 128 := by
    rw [UInt8.lt_iff_toNat_lt]
    exact Nat.lt_trans hlt (by decide)
  have hcontrol : ∀ n < 32, (Char.ofNat n).toNat < 32 := by decide
  have hlow := h c hc
  rw [eq_of_mem_utf8EncodeChar hascii hmem] at hlow
  exact absurd (hcontrol _ hlt) (by omega)

theorem castRecords_visible {texts : List String}
    (h : ∀ t ∈ texts, t.toList ≠ [] ∧ Visible t.toList ∧ (utf8 t).length < maxCastLineBytes) :
    castRecords (texts.map fun t => utf8 t ++ [10]) = texts.map .ok := by
  induction texts with
  | nil => rfl
  | cons t texts ih =>
    obtain ⟨⟨hne, hvisible, hcap⟩, hrest⟩ := forall_mem_cons.mp h
    have hbyte : ∀ {b : UInt8}, b < 0x20 → b ∉ utf8 t := by
      intro b hb
      have hnot := not_mem_utf8_of_visible hvisible hb
      rwa [String.ofList_toList] at hnot
    -- only the newline is trimmed
    have htrim : (utf8 t ++ [10]).rdropWhile isLineEnd = utf8 t := by
      rw [rdropWhile_concat_pos _ _ _ (by decide), rdropWhile_eq_self_iff]
      intro hnil hend
      have hmem := getLast_mem hnil
      simp only [isLineEnd, Bool.or_eq_true, decide_eq_true_eq] at hend
      rcases hend with h | h
      · rw [h] at hmem
        exact hbyte (by decide) hmem
      · rw [h] at hmem
        exact hbyte (by decide) hmem
    have hsome : (utf8 t).isEmpty = false := by
      rw [isEmpty_eq_false_iff]
      intro hnil
      have hlen := length_le_utf8 t
      rw [hnil, ← String.length_toList, length_nil] at hlen
      exact hne (eq_nil_of_length_eq_zero (Nat.le_zero.mp hlen))
    have hshort : ¬ (utf8 t ++ [10]).length > maxCastLineBytes := by
      rw [length_append, length_singleton]
      omega
    rw [map_cons, castRecords, if_neg hshort]
    simp only [htrim, hsome, Bool.false_eq_true, if_false, fromUtf8_utf8, ih hrest, map_cons]

/-- Everything `open_for_playback` yields on a recording. -/
def playRecording (C : Crypto) (file : Bytes) : Option (Block 32) → Except ReaderError (List (Except ReaderError String))
  | some dbKey => playback C file dbKey none
  | none => .ok (castPlayback file)

/-- Playback shows every landed line: none is over the reader's cap and, with a key, no failed attempt comes
before a landed one. -/
def Replays (dbKey : Option (Block 32)) (secs : Nat) (cs : List Call) : Prop :=
  match dbKey with
  | some _ => Intact (log secs cs)
  | none => ∀ x ∈ landed false secs 0 cs, (utf8 x.2).length ≤ maxCastLineBytes

section
variable {C : Crypto} {dbKey : Option (Block 32)} {rk : Block 32} {wn : Block 12} {secs : Nat}

def startLen (dbKey : Option (Block 32)) : Nat := if dbKey.isSome then lfrHeaderLen else 0

theorem registerWithIo_start (h : registerWithIo C dbKey rk wn secs = .ok a) :
    a.key.isSome = dbKey.isSome ∧ a.startedAtSecs = secs ∧ a.file.length = startLen dbKey := by
  rcases dbKey with _ | dk
  · cases h
    exact ⟨rfl, rfl, rfl⟩
  · obtain ⟨header, -, hlen, rfl⟩ := registerWithIo_some h
    exact ⟨rfl, rfl, hlen⟩

def landedTexts (L : List (Call × String)) : List String := L.map fun x => trimEndNewlines x.2

theorem utf8_line {encrypted : Bool} {size : Nat} {cs : List Call} {x : Call × String}
    (h : x ∈ landed encrypted secs size cs) :
    (trimEndNewlines x.2).toList ≠ [] ∧ Visible (trimEndNewlines x.2).toList ∧
      utf8 x.2 = utf8 (trimEndNewlines x.2) ++ [10] := by
  obtain ⟨-, stamp, io, hframe⟩ := mem_landed h
  obtain ⟨t, hne, hvisible, hline, htrim⟩ := exists_text_of_frame hframe
  rw [htrim, String.toList_ofList, hline, String.ofList_append, utf8_append]
  exact ⟨hne, hvisible, rfl⟩

theorem castPlayback_landed (secs size : Nat) (cs : List Call) :
    let L := landed false secs size cs
    ((∀ x ∈ L, (utf8 x.2).length ≤ maxCastLineBytes) → castPlayback (L.flatMap fun x => utf8 x.2) = (landedTexts L).map .ok) ∧
      (NoError (castPlayback (L.flatMap fun x => utf8 x.2)) → ∀ x ∈ L, (utf8 x.2).length ≤ maxCastLineBytes) := by
  intro L
  have hfile : (L.flatMap fun x => utf8 x.2) = ((landedTexts L).map utf8).flatMap fun t => t ++ [10] := by
    rw [landedTexts, map_map, flatMap_map]
    exact flatMap_congr fun x hx => (utf8_line hx).2.2
  have htext : ∀ t ∈ landedTexts L, t.toList ≠ [] ∧ Visible t.toList ∧ 10 ∉ utf8 t := by
    intro t ht
    obtain ⟨x, hx, rfl⟩ := mem_map.mp ht
    obtain ⟨hne, hvisible, -⟩ := utf8_line hx
    refine ⟨hne, hvisible, ?_⟩
    have hnot := not_mem_utf8_of_visible hvisible (b := 10) (by decide)
    rwa [String.ofList_toList] at hnot
  have hlen : ∀ x ∈ L, (utf8 x.2).length = (utf8 (trimEndNewlines x.2)).length + 1 := by
    intro x hx
    rw [(utf8_line hx).2.2, length_append, length_singleton]
  rw [hfile]
  constructor
  · intro hcap
    have hshort : ∀ t ∈ landedTexts L, (utf8 t).length < maxCastLineBytes := by
      intro t ht
      obtain ⟨x, hx, rfl⟩ := mem_map.mp ht
      have h := hcap x hx
      rw [hlen x hx] at h
      omega
    have hlines : ∀ l ∈ (landedTexts L).map utf8, 10 ∉ l ∧ l.length ≤ maxCastLineBytes := by
      intro l hl
      obtain ⟨t, ht, rfl⟩ := mem_map.mp hl
      exact ⟨(htext t ht).2.2, (hshort t ht).le⟩
    rw [castPlayback, castLines, boundedLines_terminated hlines, map_map]
    exact castRecords_visible fun t ht => ⟨(htext t ht).1, (htext t ht).2.1, hshort t ht⟩
  · intro hok x hx
    by_contra hlong
    rw [hlen x hx] at hlong
    have hnot : ∀ l ∈ (landedTexts L).map utf8, (10 : UInt8) ∉ l := by
      intro l hl
      obtain ⟨t, ht, rfl⟩ := mem_map.mp hl
      exact (htext t ht).2.2
    obtain ⟨r, hr, hlt⟩ := exists_long_of_terminated (n := maxCastLineBytes) hnot
      ⟨_, mem_map_of_mem (mem_map_of_mem hx), by omega⟩
    exact absurd (length_le_of_noError hok hr) (not_le.mpr hlt)

theorem playRecording_iff (h : registerWithIo C dbKey rk wn secs = .ok a) (cs : List Call) (lines : List String) :
    playRecording C (recordAll C a cs).1.file dbKey = .ok (lines.map .ok) ↔
      Replays dbKey secs cs ∧ lines = okRecords secs cs (recordAll C a cs).2 := by
  have hinj : ∀ {xs ys : List String}, xs.map (Except.ok (ε := ReaderError)) = ys.map .ok → xs = ys := by
    intro xs ys heq
    exact map_injective_iff.mpr (fun x y hxy => by cases hxy; rfl) heq
  rcases dbKey with _ | dk
  · obtain ⟨hrecords, -, hfile⟩ := recordAll_landed C cs a
    cases h
    have hbytes := hfile rfl
    simp only [Option.isSome_none, length_nil, nil_append] at hbytes hrecords
    obtain ⟨hplay, hcap⟩ := castPlayback_landed secs 0 cs
    rw [playRecording, hbytes, Except.ok.injEq, hrecords]
    constructor
    · intro heq
      have hok := hcap (by rw [heq]; intro r hr; obtain ⟨t, -, rfl⟩ := mem_map.mp hr; exact ⟨t, rfl⟩)
      exact ⟨hok, hinj (heq.symm.trans (hplay hok))⟩
    · rintro ⟨hok, rfl⟩
      exact hplay hok
  · have hiff := playback_okRecords_iff C dk rk wn secs a h cs
    rw [playRecording, Replays]
    constructor
    · intro heq
      have hintact : Intact (log secs cs) := by
        rw [playback_recordAll h, Except.ok.injEq] at heq
        refine (aligned_numbered 0 _).mp (aligned_of_played (by simpa using numbered_log_length cs) ?_)
        rw [heq]
        intro r hr
        obtain ⟨t, -, rfl⟩ := mem_map.mp hr
        rfl
      rw [hiff.mpr hintact, Except.ok.injEq] at heq
      exact ⟨hintact, hinj heq.symm⟩
    · rintro ⟨hintact, rfl⟩
      exact hiff.mpr hintact

end

/-! ## The text of a direction -/

def recordedText (R : JsonReader) (kind : RecordDirection) (lines : List String) : List Char :=
  (lines.filterMap (decodeEventLine R)).flatMap fun e =>
    if e.direction = String.ofList [kind.kindChar] then e.data.toList else []

def Call.micros : Call → Nat
  | .header .. => 0
  | .event _ _ m _ _ => m

theorem recordedText_cons (R : JsonReader) (kind : RecordDirection)
    (h : c.frame secs = some (line, stamp, io)) (hm : c.micros < 2 ^ 128)
    (lines : List String) :
    recordedText R kind (trimEndNewlines line :: lines) =
      (c.chunk kind).toList.flatMap fromUtf8Lossy ++ recordedText R kind lines := by
  unfold recordedText
  cases c with
  | header w h' s io' =>
    simp only [Call.frame, Option.some.injEq, Prod.mk.injEq] at h
    obtain ⟨rfl, -, -⟩ := h
    rw [trimEndNewlines_headerLine, filterMap_cons, decodeEventLine_headerText]
    rfl
  | event k b m io' idx =>
    have hb : ¬ b.isEmpty := by
      intro hb
      simp [Call.frame, hb] at h
    have hne : b ≠ [] := by simpa using hb
    simp only [Call.frame, hb, Bool.false_eq_true, if_false, Option.some.injEq, Prod.mk.injEq] at h
    obtain ⟨rfl, -, -⟩ := h
    have hmicros : m < 2 ^ 128 := hm
    obtain ⟨x, hx⟩ := decodeEventLine_eventText R k b hmicros
    rw [trimEndNewlines_eventLine, filterMap_cons, hx, flatMap_cons]
    have hdirection : String.ofList [k.kindChar] = String.ofList [kind.kindChar] ↔ k = kind := by
      cases k <;> cases kind <;> decide
    simp only [hdirection, Call.chunk]
    by_cases hk : k = kind
    · simp [hk, hne]
    · simp [hk]

theorem recordedText_landed (R : JsonReader) (kind : RecordDirection) {L : List (Call × String)}
    (h : ∀ x ∈ L, x.1.micros < 2 ^ 128 ∧ ∃ stamp io, x.1.frame secs = some (x.2, stamp, io)) :
    recordedText R kind (landedTexts L) = (landedChunks kind L).flatMap fromUtf8Lossy := by
  induction L with
  | nil => rfl
  | cons x L ih =>
    obtain ⟨⟨hm, stamp, io, hframe⟩, hrest⟩ := forall_mem_cons.mp h
    rw [landedTexts, map_cons, recordedText_cons R kind hframe hm, landedChunks, filterMap_cons]
    have htail := ih hrest
    rw [landedTexts, landedChunks] at htail
    rw [htail]
    cases x.1.chunk kind <;> simp

/-- **Chunks and the recorded text.** On a registered recording, with a key or without, after any calls with
any pattern of failed writes, playback shows the lossy decoding of a direction's whole stream exactly when
every landed line is readable and no cut between two of the direction's chunks falls inside a UTF-8 sequence. -/
theorem recordedText_faithful (C : Crypto) (R : JsonReader) (dbKey : Option (Block 32)) (rk : Block 32) (wn : Block 12)
    (secs : Nat) (a : RecorderActor) (h : registerWithIo C dbKey rk wn secs = .ok a) (cs : List Call)
    (hm : ∀ c ∈ cs, c.micros < 2 ^ 128) (kind : RecordDirection) :
    (∃ lines : List String, playRecording C (recordAll C a cs).1.file dbKey = .ok (lines.map .ok) ∧
        recordedText R kind lines = fromUtf8Lossy (okChunks kind cs (recordAll C a cs).2).flatten) ↔
      Replays dbKey secs cs ∧ WholeUnits (landedChunks kind (landed dbKey.isSome secs (startLen dbKey) cs)) := by
  obtain ⟨hmode, hsecs, hlen⟩ := registerWithIo_start h
  obtain ⟨hrecords, hchunks, -⟩ := recordAll_landed C cs a
  rw [hmode, hsecs, hlen] at hrecords hchunks
  have hshown : recordedText R kind (okRecords secs cs (recordAll C a cs).2) =
      (landedChunks kind (landed dbKey.isSome secs (startLen dbKey) cs)).flatMap fromUtf8Lossy := by
    rw [hrecords]
    exact recordedText_landed R kind fun x hx => ⟨hm _ (mem_landed hx).1, (mem_landed hx).2⟩
  rw [← flatMap_fromUtf8Lossy_iff, ← hshown, hchunks kind]
  constructor
  · rintro ⟨lines, hplay, hdata⟩
    obtain ⟨hread, rfl⟩ := (playRecording_iff h cs lines).mp hplay
    exact ⟨hread, hdata⟩
  · rintro ⟨hread, hdata⟩
    exact ⟨_, (playRecording_iff h cs _).mpr ⟨hread, rfl⟩, hdata⟩

def sampleChunk (bytes : Bytes) : Call :=
  .event .output bytes 1500000 { nonce := Block.fill 12 4, write := none }
    { nonce := Block.fill 12 5, room := none, write := none, timestampMs := 1500 }

/-- A letter and a sign of three bytes, each in a chunk of its own. -/
theorem recordedText_faithful_sample : ∃ a, sample = .ok a ∧ ∃ lines : List String,
      playRecording Crypto.tagged (recordAll Crypto.tagged a [sampleChunk [0x68], sampleChunk [0xE2, 0x82, 0xAC]]).1.file
          (some (Block.fill 32 1)) = .ok (lines.map .ok) ∧
        recordedText eventReader .output lines = fromUtf8Lossy (okChunks .output
          [sampleChunk [0x68], sampleChunk [0xE2, 0x82, 0xAC]]
          (recordAll Crypto.tagged a [sampleChunk [0x68], sampleChunk [0xE2, 0x82, 0xAC]]).2).flatten := by
  refine ⟨_, rfl, (recordedText_faithful Crypto.tagged eventReader (some (Block.fill 32 1)) _ _ 0 _ rfl _ ?_ .output).mpr ⟨?_, ?_⟩⟩
  · simp [sampleChunk, Call.micros]
  · show Intact _
    decide +kernel
  · exact (flatMap_fromUtf8Lossy_iff _).mp (by decide +kernel)

/-- The sign cut after its second byte: every call returns `Ok`, and playback shows two replacement
characters. -/
theorem cut_sequence_is_replaced : ∃ a, sample = .ok a ∧
      let cs := [sampleChunk [0xE2, 0x82], sampleChunk [0xAC]]
      (recordAll Crypto.tagged a cs).2.map Except.toBool = [true, true] ∧
      ¬ ∃ lines : List String,
        playRecording Crypto.tagged (recordAll Crypto.tagged a cs).1.file (some (Block.fill 32 1)) = .ok (lines.map .ok) ∧
          recordedText eventReader .output lines = fromUtf8Lossy (okChunks .output cs (recordAll Crypto.tagged a cs).2).flatten := by
  refine ⟨_, rfl, by decide +kernel, ?_⟩
  rintro ⟨lines, hplay, htext⟩
  obtain ⟨-, rfl⟩ := (playRecording_iff rfl _ _).mp hplay
  revert htext
  decide +kernel

end LetsFlutSsh.Recorder
