import LetsFlutSsh.Recorder.Playback
import LetsFlutSsh.Recorder.Sidecar

/-!
# Recorder: playback from a seek hit

A hit names a byte offset and the position of its index entry; playback takes that position as the
frame index to go on with. The header has a frame and no entry, so the two counts differ after it:

* `recordOf` : the record that an index entry was written for;
* `seekAgrees_iff_aligned`, `seek_playback_iff` : playback from a hit is the end of the sequential
  record list exactly when the header was recorded after the event that was hit and the log is
  `Intact`.
-/

namespace LetsFlutSsh.Recorder
open Lib List Option

/-- The position among the landed frames of the event that index entry `i` was written for. -/
def recordOf : List Attempt → Nat → Nat
  | [], _ => 0
  | x :: r, i =>
    if x.isEvent then
      match i with
      | 0 => 0
      | i + 1 => recordOf r i + 1
    else recordOf r i + 1

variable {x : Attempt} {i : Nat}

theorem recordOf_split {l₁ l₂ : List Attempt} (hx : x.isEvent = true)
    (hi : (l₁.filter (·.isEvent)).length = i) : recordOf (l₁ ++ x :: l₂) i = l₁.length := by
  induction l₁ generalizing i with
  | nil =>
    subst hi
    simp [recordOf, hx]
  | cons y r ih =>
    subst hi
    by_cases hy : y.isEvent
    · simp only [cons_append, filter_cons, hy, if_true, length_cons, recordOf, ih rfl]
    · simp only [cons_append, filter_cons, hy, Bool.false_eq_true, if_false, recordOf, ih rfl, length_cons]

theorem exists_split_of_event {L : List Attempt} (h : (L.filter (·.isEvent))[i]? = some x) :
    ∃ l₁ l₂, L = l₁ ++ x :: l₂ ∧ x.isEvent = true ∧ (l₁.filter (·.isEvent)).length = i := by
  induction L generalizing i with
  | nil => simp at h
  | cons y r ih =>
    by_cases hy : y.isEvent
    · simp only [filter_cons, hy, if_true] at h
      cases i with
      | zero =>
        simp only [getElem?_cons_zero, Option.some.injEq] at h
        subst h
        exact ⟨[], r, rfl, hy, rfl⟩
      | succ i =>
        rw [getElem?_cons_succ] at h
        obtain ⟨l₁, l₂, rfl, hx, hi⟩ := ih h
        refine ⟨y :: l₁, l₂, rfl, hx, ?_⟩
        simp only [filter_cons, hy, if_true, length_cons, hi]
    · simp only [filter_cons, hy, Bool.false_eq_true, if_false] at h
      obtain ⟨l₁, l₂, rfl, hx, hi⟩ := ih h
      refine ⟨y :: l₁, l₂, rfl, hx, ?_⟩
      simp only [filter_cons, hy, Bool.false_eq_true, if_false, hi]

variable {secs : Nat}

theorem numbered_offset (C : Crypto) (key : Block 32) (cs : List Call) (size n : Nat)
    {N₁ N₂ : List (Attempt × Nat)} {j : Nat}
    (h : numbered n (attempts secs size cs) = N₁ ++ (x, j) :: N₂) :
    x.offset = size + (body C key N₁).length := by
  induction cs generalizing size n N₁ with
  | nil => simp [attempts, numbered] at h
  | cons c cs ih =>
    cases hc : c.frame secs with
    | none =>
      simp only [attempts, hc] at h
      exact ih size n h
    | some y =>
      obtain ⟨line, stamp, io⟩ := y
      by_cases hl : lands size line io
      · simp only [attempts, hc, hl, if_true, numbered] at h
        cases N₁ with
        | nil =>
          simp only [nil_append, List.cons.injEq, Prod.mk.injEq] at h
          simp [← h.1.1, body]
        | cons z zs =>
          simp only [cons_append, List.cons.injEq] at h
          obtain ⟨rfl, hrest⟩ := h
          obtain ⟨f, hf⟩ := isSome_iff_exists.mp (C.frame_isSome key (min n u64Max) io.nonce (lands_size hl).1)
          have hflen : f.length = frameLen line := Aead.length_frame hf
          rw [ih _ _ hrest]
          simp only [body, flatMap_cons, hf, getD_some, length_append, hflen]
          omega
      · simp only [attempts, hc, hl, Bool.false_eq_true, if_false, numbered] at h
        exact ih size (n + 1) h

variable {a : RecorderActor} {wn : Block 12}

section
variable {C : Crypto} {dk rk : Block 32} {secs : Nat}

theorem playback_entry (h : registerWithIo C (some dk) rk wn secs = .ok a) (cs : List Call)
    {N₁ N₂ : List (Attempt × Nat)} {j : Nat} (hi : i ≤ u64Max)
    (hsplit : numbered 0 (log secs cs) = N₁ ++ (x, j) :: N₂) :
    playback C (recordAll C a cs).1.file dk (some (x.offset, i)) = .ok (played i ((x, j) :: N₂)) := by
  obtain ⟨header, hb, hlen, hfile⟩ := recordAll_file_fresh h cs
  have hoff : x.offset = (header ++ body C rk N₁).length := by
    rw [length_append, hlen]
    exact numbered_offset C rk cs lfrHeaderLen 0 hsplit
  have hdrop : (header ++ body C rk (N₁ ++ (x, j) :: N₂)).drop x.offset = body C rk ((x, j) :: N₂) := by
    rw [hoff, body_append, ← append_assoc]
    exact drop_left
  have hfit : ∀ y ∈ (x, j) :: N₂, (utf8 y.1.line).length < 2 ^ 32 := fun y hy =>
    numbered_log_fit cs y (hsplit ▸ mem_append_right _ hy)
  have hread := records_body C rk ((x, j) :: N₂) i hfit
  rw [Nat.min_eq_left hi] at hread
  rw [playback, hfile, openLfsrIterAt_header hb, hsplit]
  simp only [Except.map, hdrop, hread]

/-- **Agreement of seek and sequential playback**: from the hit, the records from number `r` of
sequential playback on, without an error. -/
def SeekAgrees (C : Crypto) (file : Bytes) (dk : Block 32) (hit : SeekHit) (r : Nat) : Prop :=
  ∃ sequential fromHit, playback C file dk none = .ok sequential ∧
    playback C file dk (some (hit.offset, hit.entryIndex)) = .ok fromHit ∧
    r < sequential.length ∧ fromHit = sequential.drop r ∧ ∀ x ∈ fromHit, x.toBool = true

theorem aligned_append (p : Nat) (A B : List (Attempt × Nat)) :
    Aligned p (A ++ B) ↔ Aligned p A ∧ Aligned (p + A.length) B := by
  induction A generalizing p with
  | nil => simp [Aligned]
  | cons x r ih =>
    obtain ⟨x, i⟩ := x
    have harith : p + 1 + r.length = p + (r.length + 1) := by omega
    simp only [cons_append, Aligned, ih, length_cons, and_assoc, harith]

theorem played_drop_iff {N₁ N₂ : List (Attempt × Nat)} {j : Nat}
    (hi : i ≤ N₁.length) (hlen : (N₁ ++ (x, j) :: N₂).length ≤ u64Max) :
    (N₁.length < (played 0 (N₁ ++ (x, j) :: N₂)).length ∧
      played i ((x, j) :: N₂) = (played 0 (N₁ ++ (x, j) :: N₂)).drop N₁.length ∧
      ∀ y ∈ played i ((x, j) :: N₂), y.toBool = true) ↔
    i = N₁.length ∧ Aligned 0 (N₁ ++ (x, j) :: N₂) := by
  have hlen' : i + ((x, j) :: N₂).length ≤ u64Max := by
    rw [length_append] at hlen
    omega
  constructor
  · rintro ⟨hr, heq, hok⟩
    -- an error could only be last, and the last record is among those read from the hit
    have hall : ∀ y ∈ played 0 (N₁ ++ (x, j) :: N₂), y.toBool = true := by
      intro y hy
      obtain ⟨z, hz⟩ : ∃ z, (played 0 (N₁ ++ (x, j) :: N₂)).getLast? = some z :=
        isSome_iff_exists.mp (by simp [getLast?_isSome]; rintro h; simp [h] at hr)
      obtain ⟨ys, hys⟩ := getLast?_eq_some_iff.mp hz
      rw [hys] at hy hr heq
      rcases mem_append.mp hy with hy | hy
      · refine played_dropLast y (p := 0) (L := N₁ ++ (x, j) :: N₂) ?_
        rw [hys, dropLast_concat]
        exact hy
      · rw [mem_singleton.mp hy]
        apply hok
        rw [heq, drop_append_of_le_length (by simpa using Nat.le_of_lt_succ (by simpa using hr))]
        exact mem_append_right _ (mem_singleton.mpr rfl)
    have hal := aligned_of_played (by simpa using hlen) hall
    have hhit := aligned_of_played hlen' hok
    have hj := ((aligned_append 0 N₁ _).mp hal).2.1.2
    have hj' := hhit.1.2
    exact ⟨by omega, hal⟩
  · rintro ⟨rfl, hal⟩
    have hhit : Aligned N₁.length ((x, j) :: N₂) := by
      simpa using ((aligned_append 0 N₁ _).mp hal).2
    rw [played_of_aligned hal, played_of_aligned hhit]
    refine ⟨by simp, by simp, ?_⟩
    intro y hy
    obtain ⟨z, -, rfl⟩ := mem_map.mp hy
    rfl

end

theorem attempts_append (secs : Nat) (cs ds : List Call) (size : Nat) :
    ∃ size', attempts secs size (cs ++ ds) = attempts secs size cs ++ attempts secs size' ds := by
  induction cs generalizing size with
  | nil => exact ⟨size, rfl⟩
  | cons c cs ih =>
    cases hc : c.frame secs with
    | none =>
      obtain ⟨size', h⟩ := ih size
      exact ⟨size', by simp only [cons_append, attempts, hc, h]⟩
    | some x =>
      obtain ⟨line, stamp, io⟩ := x
      obtain ⟨size', h⟩ := ih (if lands size line io then size + frameLen line else size)
      exact ⟨size', by simp only [cons_append, attempts, hc, h]⟩

def Call.isEvent : Call → Bool
  | .header .. => false
  | .event .. => true

theorem attempts_isEvent {size : Nat} {cs : List Call} (h : ∀ c ∈ cs, c.isEvent = true)
    (hx : x ∈ attempts secs size cs) : x.isEvent = true := by
  induction cs generalizing size with
  | nil => cases hx
  | cons c cs ih =>
    have hcs := fun d hd => h d (mem_cons_of_mem _ hd)
    cases hc : c.frame secs with
    | none =>
      simp only [attempts, hc] at hx
      exact ih hcs hx
    | some y =>
      obtain ⟨line, stamp, io⟩ := y
      simp only [attempts, hc, mem_cons] at hx
      rcases hx with rfl | hx
      · cases c with
        | header w h' s io' => cases h _ mem_cons_self
        | event k b m io' idx =>
          by_cases hb : b.isEmpty
          · simp [Call.frame, hb] at hc
          · simp only [Call.frame, hb, Bool.false_eq_true, if_false, Option.some.injEq, Prod.mk.injEq] at hc
            simp [Attempt.isEvent, ← hc.2.1]
      · exact ih hcs hx

/-- The number of events that landed before the header is recorded. -/
def eventsBefore (secs : Nat) (pre : List Call) : Nat := ((log secs pre).filter (·.landed)).length

theorem entry_eq_record_iff {P T l₁ l₂ : List Attempt} {hd : Attempt}
    (hP : ∀ y ∈ P, y.isEvent = true) (hhd : hd.isEvent = false) (hx : x.isEvent = true)
    (hint : Intact (P ++ hd :: T)) (hsplit : (P ++ hd :: T).filter (·.landed) = l₁ ++ x :: l₂) :
    (l₁.filter (·.isEvent)).length = l₁.length ↔ (l₁.filter (·.isEvent)).length < (P.filter (·.landed)).length := by
  have hPL : ∀ y ∈ P.filter (·.landed), y.isEvent = true := fun y hy => hP y (mem_filter.mp hy).1
  -- the header lands whenever something after it does
  have hhdl : ∀ y ∈ T, y.landed = true → hd.landed = true := by
    intro y hy hl
    have hpair := (pairwise_append.mp hint.1).2.1
    exact (pairwise_cons.mp hpair).1 y hy hl
  rw [filter_append] at hsplit
  have hcases : (∃ b, l₁ = P.filter (·.landed) ++ b ∧ (hd :: T).filter (·.landed) = b ++ x :: l₂) ∨
      ∃ y ys, P.filter (·.landed) = l₁ ++ y :: ys := by
    rcases append_eq_append_iff.mp hsplit with hb | ⟨c, hc₁, hc₂⟩
    · exact .inl hb
    · cases c with
      | nil => exact .inl ⟨[], by simpa using hc₁.symm, hc₂.symm⟩
      | cons y ys => exact .inr ⟨y, ys, hc₁⟩
  rcases hcases with ⟨b, hb₁, hb₂⟩ | ⟨y, ys, hc⟩
  · have hle : (P.filter (·.landed)).length ≤ (l₁.filter (·.isEvent)).length := by
      rw [hb₁, filter_append, filter_eq_self.mpr hPL, length_append]
      omega
    have hlanded : hd.landed = true := by
      by_contra hc
      rw [filter_cons, if_neg hc] at hb₂
      have hxT : x ∈ T.filter (·.landed) := hb₂ ▸ mem_append_right _ mem_cons_self
      obtain ⟨hxT, hxl⟩ := mem_filter.mp hxT
      exact hc (hhdl x hxT hxl)
    rw [filter_cons, if_pos hlanded] at hb₂
    have hhead : hd ∈ l₁ := by
      cases b with
      | nil =>
        rw [nil_append, List.cons.injEq] at hb₂
        rw [hb₂.1, hx] at hhd
        cases hhd
      | cons y ys =>
        rw [cons_append, List.cons.injEq] at hb₂
        rw [hb₁, hb₂.1]
        exact mem_append_right _ mem_cons_self
    constructor
    · intro heq
      have := length_filter_eq_length_iff.mp heq hd hhead
      rw [hhd] at this
      cases this
    · intro hlt
      omega
  · have hself : (l₁.filter (·.isEvent)).length = l₁.length := by
      rw [filter_eq_self.mpr fun z hz => hPL z (hc ▸ mem_append_left _ hz)]
    rw [hself, hc, length_append, length_cons]
    omega

theorem seekAgrees_iff_aligned {C : Crypto} {dk rk ik : Block 32}
    (h : registerWithIo C (some dk) rk wn secs = .ok a)
    (hik : deriveIndexKey C (some rk) = some ik) (cs : List Call) (drop : WriteOutcome) (target : Nat)
    (hit : SeekHit)
    (hhit : seek C (closeWithIo (recordAll C a cs).1 drop).2 target true (some ik) = some hit) :
    ∃ l₁ x l₂, (log secs cs).filter (·.landed) = l₁ ++ x :: l₂ ∧ x.isEvent = true ∧
      (l₁.filter (·.isEvent)).length = hit.entryIndex ∧
      (SeekAgrees C (recordAll C a cs).1.file dk hit (recordOf ((log secs cs).filter (·.landed)) hit.entryIndex) ↔
        hit.entryIndex = l₁.length ∧ Aligned 0 (numbered 0 (log secs cs))) := by
  obtain ⟨header, -, hlen, ha⟩ := registerWithIo_some h
  -- the hit is an entry of the sidecar, hence of an event that landed
  have hkey : a.key = some rk := by rw [ha]
  have hfresh : Indexed C ik [] a.index [] [] := by
    rw [ha, hik]
    exact Indexed.create C ik
  obtain ⟨D, R, hidx⟩ := recordAll_indexed C cs a [] [] [] hkey (by rw [ha, hlen]) (by rw [ha, hlen]; decide) hfresh
  have hpre := hidx.readAll_initial drop
  obtain ⟨e, he, hoff⟩ := seek_eq_some hhit
  have hE : (entries (log secs cs))[hit.entryIndex]? = some e := by
    obtain ⟨t, ht⟩ := hpre
    have hsecs : attempts a.startedAtSecs a.file.length cs = log secs cs := by rw [ha, hlen]
    rw [nil_append, hsecs] at ht
    rw [← ht, List.getElem?_append_left (List.getElem?_eq_some_iff.mp he).1, he]
  rw [entries, getElem?_map, map_eq_some_iff] at hE
  obtain ⟨x, hx, hxe⟩ := hE
  obtain ⟨l₁, l₂, hsplit, hxev, hi⟩ := exists_split_of_event hx
  refine ⟨l₁, x, l₂, hsplit, hxev, hi, ?_⟩
  rw [hsplit, recordOf_split hxev hi]
  -- the same split of the numbered frames
  have hnum : (numbered 0 (log secs cs)).map Prod.fst = l₁ ++ x :: l₂ := by
    rw [numbered_map_fst, hsplit]
  obtain ⟨N₁, N', hN, hN₁, hN'⟩ := map_eq_append_iff.mp hnum
  obtain ⟨⟨x', j⟩, N₂, rfl, rfl, -⟩ := map_eq_cons_iff.mp hN'
  have hlen₁ : l₁.length = N₁.length := by rw [← hN₁, length_map]
  have hle : hit.entryIndex ≤ N₁.length := by
    rw [← hi, ← hlen₁]
    exact length_filter_le _ _
  have hmax : (N₁ ++ (x', j) :: N₂).length ≤ u64Max := hN ▸ numbered_log_length cs
  have hi64 : hit.entryIndex ≤ u64Max := by
    rw [length_append] at hmax
    omega
  have hoff' : x'.offset = hit.offset := by rw [← hoff, ← hxe]; rfl
  rw [hlen₁, hN, ← played_drop_iff hle hmax, SeekAgrees, playback_recordAll h, hN, ← hoff', playback_entry h cs hi64 hN]
  simp only [Except.ok.injEq, exists_and_left, exists_eq_left']

/-- **Seek and sequential playback.** For an encrypted recording made of events, a header and then any
calls, whichever writes failed, and for every hit: playback from the hit yields, without an error,
the records of sequential playback from the hit's event on, if and only if that event was recorded
before the header, no failed attempt precedes a landed one and no landed line exceeds the cap. With
the header recorded first this is never so. -/
theorem seek_playback_iff (C : Crypto) (dk rk : Block 32) (wn : Block 12) (secs : Nat)
    (a : RecorderActor) (h : registerWithIo C (some dk) rk wn secs = .ok a) (pre post : List Call)
    (hpre : ∀ c ∈ pre, c.isEvent = true) (width height : UInt32) (shell : String) (io : FrameIo)
    (drop : WriteOutcome) (target : Nat) (hit : SeekHit) :
    let cs := pre ++ .header width height shell io :: post
    let a' := (recordAll C a cs).1
    seek C (closeWithIo a' drop).2 target true (deriveIndexKey C (some rk)) = some hit →
      (SeekAgrees C (closeWithIo a' drop).1 dk hit (recordOf ((log secs cs).filter (·.landed)) hit.entryIndex) ↔
        hit.entryIndex < eventsBefore secs pre ∧ Intact (log secs cs)) := by
  intro cs a' hhit
  obtain ⟨l₁, x, l₂, hsplit, hx, hi, hiff⟩ := seekAgrees_iff_aligned h rfl cs drop target hit hhit
  have hfile : (closeWithIo a' drop).1 = a'.file := rfl
  rw [hfile, hiff, aligned_numbered, and_congr_left_iff]
  intro hint
  obtain ⟨size', hlog⟩ := attempts_append secs pre (.header width height shell io :: post) lfrHeaderLen
  rw [log, hlog] at hint hsplit
  rw [← hi, eventsBefore, ← entry_eq_record_iff (fun y hy => attempts_isEvent hpre hy) rfl hx hint hsplit, eq_comm]

theorem seek_playback_iff_sample : ∃ a hit, sample = .ok a ∧
      let a' := (recordAll Crypto.tagged a [sampleEvent none, sampleHeader none]).1
      seek Crypto.tagged (closeWithIo a' none).2 0 true (deriveIndexKey Crypto.tagged (some (Block.fill 32 2))) = some hit ∧
      (SeekAgrees Crypto.tagged (closeWithIo a' none).1 (Block.fill 32 1) hit
          (recordOf ((log 0 [sampleEvent none, sampleHeader none]).filter (·.landed)) hit.entryIndex) ↔
        hit.entryIndex < eventsBefore 0 [sampleEvent none] ∧ Intact (log 0 [sampleEvent none, sampleHeader none])) := by
  refine ⟨_, ⟨65, 0, 0⟩, rfl, by decide +kernel, ?_⟩
  exact seek_playback_iff Crypto.tagged _ _ _ 0 _ rfl [sampleEvent none] [] (by decide) 80 24 "sh" _
    none 0 ⟨65, 0, 0⟩ (by decide +kernel)

/-- A recording of a header and one event: the hit for time 0 is the event, and playback from the hit
fails to decode its frame. -/
theorem seek_playback_header_first : ∃ a hit, sample = .ok a ∧
      let cs := [sampleHeader none, sampleEvent none]
      let a' := (recordAll Crypto.tagged a cs).1
      (recordAll Crypto.tagged a cs).2.map Except.toBool = [true, true] ∧
      seek Crypto.tagged (closeWithIo a' none).2 0 true (deriveIndexKey Crypto.tagged (some (Block.fill 32 2))) = some hit ∧
      playback Crypto.tagged (closeWithIo a' none).1 (Block.fill 32 1) (some (hit.offset, hit.entryIndex)) =
        .ok [.error (.crypto "crypto: aes-gcm decrypt-raw: aead::Error")] ∧
      ¬ SeekAgrees Crypto.tagged (closeWithIo a' none).1 (Block.fill 32 1) hit
        (recordOf ((log 0 cs).filter (·.landed)) hit.entryIndex) := by
  have hplay : playback Crypto.tagged (closeWithIo (recordAll Crypto.tagged
        { bytesWritten := 65, startedAtSecs := 0,
          file := lfrMagic ++ [lfrVersion] ++ (Block.fill 12 3).1 ++ ((Block.fill 32 2).1 ++ Aead.tag keywrapAad),
          key := some (Block.fill 32 2), frameIndex := 0,
          index := .create (deriveIndexKey Crypto.tagged (some (Block.fill 32 2))) }
        [sampleHeader none, sampleEvent none]).1 none).1 (Block.fill 32 1) (some (193, 0)) =
        .ok [.error (.crypto "crypto: aes-gcm decrypt-raw: aead::Error")] := by
    decide +kernel
  refine ⟨_, ⟨193, 0, 0⟩, rfl, by decide +kernel, by decide +kernel, hplay, ?_⟩
  rintro ⟨sequential, fromHit, -, hfrom, -, -, hok⟩
  have hsame := Except.ok.inj (hfrom.symm.trans hplay)
  rw [hsame] at hok
  cases hok _ mem_cons_self

end LetsFlutSsh.Recorder
