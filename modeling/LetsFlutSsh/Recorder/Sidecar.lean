import LetsFlutSsh.Recorder.Attempts

/-!
# Recorder: what the sidecar holds

The sidecar is written through a `BufWriter` and its failures are dropped, so a failed flush leaves a
block in the buffer and its number is used again. Whatever fails:

* `Indexed C ik E w` : the readable blocks of the sidecar `w`, on disk and buffered, are the first
  ones of the entries `E` of the events recorded so far;
* `readAll_initial` : the index that a reader finds is an initial part of `E`, also after closing.
-/

namespace LetsFlutSsh.Recorder
open Lib List

/-- A block of the sidecar, before encryption. -/
structure IndexBlock where
  entry : IndexEntry
  seq : Nat
  nonce : Block 12

/-- What a block keeps: the entry and the number fit their words. -/
structure IndexBlock.Fits (b : IndexBlock) : Prop where
  offset : b.entry.offset < 2 ^ 64
  timestampMs : b.entry.timestampMs < 2 ^ 32
  seq : b.seq < 2 ^ 64

def IndexBlock.bytes (C : Crypto) (ik : Block 32) (b : IndexBlock) : Bytes :=
  (C.frame ik b.seq b.nonce (encodeEntry b.entry)).getD []

def blocks (C : Crypto) (ik : Block 32) (B : List IndexBlock) : Bytes := B.flatMap (·.bytes C ik)

/-- The entries a reader gets from blocks when it counts from `q`: up to the first wrong number. -/
def readable : Nat → List IndexBlock → List IndexEntry
  | _, [] => []
  | q, b :: r => if b.seq = q then b.entry :: readable (q + 1) r else []

section

variable (C : Crypto) (ik : Block 32)

theorem IndexBlock.frame_bytes (b : IndexBlock) : C.frame ik b.seq b.nonce (encodeEntry b.entry) = some (b.bytes C ik) := by
  have hlen : (encodeEntry b.entry).length < 2 ^ 32 := by
    rw [length_encodeEntry]
    decide
  obtain ⟨f, hf⟩ := Option.isSome_iff_exists.mp (C.frame_isSome ik b.seq b.nonce hlen)
  rw [IndexBlock.bytes, hf, Option.getD_some]

@[simp] theorem IndexBlock.length_bytes (b : IndexBlock) : (b.bytes C ik).length = 44 := by
  rw [Aead.length_frame (b.frame_bytes C ik), length_encodeEntry]
  rfl

theorem length_blocks (B : List IndexBlock) : (blocks C ik B).length = 44 * B.length := by
  induction B with
  | nil => rfl
  | cons b r ih =>
    simp only [blocks, flatMap_cons, length_append, IndexBlock.length_bytes, length_cons] at ih ⊢
    omega

theorem readBlocks_blocks (B : List IndexBlock) (q : Nat) (hfit : ∀ b ∈ B, b.Fits) (hq : q + B.length ≤ u64Max) :
    readBlocks C ik q (blocks C ik B) = readable q B := by
  induction B generalizing q with
  | nil => exact readBlocks_nil C ik q
  | cons b r ih =>
    have hb := hfit b mem_cons_self
    rw [length_cons, u64Max] at hq
    have hsat : satAdd q 1 = q + 1 := by
      rw [satAdd, u64Max]
      omega
    have hcons : blocks C ik (b :: r) = b.bytes C ik ++ blocks C ik r := flatMap_cons
    rw [hcons, readBlocks_block hb.seq (by omega) hb.offset hb.timestampMs (b.frame_bytes C ik), readable, hsat]
    by_cases hseq : b.seq = q
    · rw [if_pos hseq, if_pos hseq, ih (q + 1) (fun x hx => hfit x (mem_cons_of_mem _ hx)) (by rw [u64Max]; omega)]
    · rw [if_neg hseq, if_neg hseq]

end

theorem readable_length_le (q : Nat) (B : List IndexBlock) : (readable q B).length ≤ B.length := by
  induction B generalizing q with
  | nil => exact Nat.le_refl 0
  | cons b r ih =>
    rw [readable]
    split
    · simpa using ih (q + 1)
    · simp

theorem readable_append_mono (q : Nat) (B R : List IndexBlock) : readable q B <+: readable q (B ++ R) := by
  induction B generalizing q with
  | nil => exact nil_prefix
  | cons b r ih =>
    rw [readable, cons_append, readable]
    split
    · exact prefix_cons_inj _ |>.mpr (ih (q + 1))
    · exact nil_prefix

theorem readable_concat (q : Nat) (B : List IndexBlock) (b : IndexBlock) : readable q (B ++ [b]) =
    if (readable q B).length = B.length ∧ b.seq = q + B.length then readable q B ++ [b.entry]
    else readable q B := by
  induction B generalizing q with
  | nil => simp [readable]
  | cons c r ih =>
    simp only [cons_append, readable, length_cons]
    by_cases hc : c.seq = q
    · have harith : q + (r.length + 1) = q + 1 + r.length := by omega
      simp only [hc, if_true, ih, length_cons, Nat.add_right_cancel_iff, harith]
      split <;> rfl
    · simp [hc]

/-- **What the sidecar holds.** `D` is on disk and `R` still buffered. As long as all blocks are
readable, either nothing is buffered and every entry is there, or the last flush failed and the next
block will repeat a number. -/
structure Indexed (C : Crypto) (ik : Block 32) (E : List IndexEntry) (w : IndexWriter) (D R : List IndexBlock) : Prop where
  key : w.key = some ik
  file : w.file = lfiMagic ++ [lfiVersion] ++ blocks C ik D
  buf : w.buf = blocks C ik R
  size : w.file.length ≤ maxFileLen
  fits : ∀ b ∈ D ++ R, b.Fits
  seq : w.nextSeq < 2 ^ 64
  sub : readable 0 (D ++ R) <+: E
  next : (readable 0 (D ++ R)).length = (D ++ R).length → (R = [] ∧ readable 0 (D ++ R) = E ∧ w.nextSeq = (D ++ R).length) ∨
      w.nextSeq + 1 = (D ++ R).length

theorem Indexed.create (C : Crypto) (ik : Block 32) : Indexed C ik [] (.create (some ik)) [] [] where
  key := rfl
  file := rfl
  buf := rfl
  size := (by decide : (lfiMagic ++ [lfiVersion]).length ≤ maxFileLen)
  fits := by simp
  seq := (by decide : 0 < 2 ^ 64)
  sub := prefix_rfl
  next _ := .inl ⟨rfl, rfl, rfl⟩

theorem flush_cases (w : IndexWriter) (io : WriteOutcome) :
    (w.flush io = .ok { w with file := w.file ++ w.buf, buf := [] } ∧
      w.file.length + w.buf.length ≤ maxFileLen) ∨ ∃ e, w.flush io = .error e := by
  cases io with
  | some e => exact .inr ⟨e, rfl⟩
  | none =>
    by_cases h : w.file.length + w.buf.length ≤ maxFileLen
    · refine .inl ⟨?_, h⟩
      simp only [IndexWriter.flush, writeAll, h, if_true]
      rfl
    · refine .inr ⟨"File too large (os error 27)", ?_⟩
      simp only [IndexWriter.flush, writeAll, h, if_false]
      rfl

variable {C : Crypto} {ik : Block 32} {E : List IndexEntry} {w : IndexWriter} {D R : List IndexBlock}

theorem Indexed.flushed (h : Indexed C ik E w D R) (hfit : w.file.length + w.buf.length ≤ maxFileLen) :
    Indexed C ik E { w with file := w.file ++ w.buf, buf := [] } (D ++ R) [] where
  key := h.key
  file := by
    simp only [h.file, h.buf, blocks, flatMap_append, append_assoc]
  buf := rfl
  size := by simpa using hfit
  fits := by simpa using h.fits
  seq := h.seq
  sub := by simpa using h.sub
  next hlen := by
    rw [append_nil] at hlen ⊢
    rcases h.next hlen with ⟨-, heq, hseq⟩ | hseq
    · exact .inl ⟨rfl, heq, hseq⟩
    · exact .inr hseq

theorem Indexed.skip (h : Indexed C ik E w D R) (hbusy : R ≠ []) (e : IndexEntry) : Indexed C ik (E ++ [e]) w D R :=
  { h with
    sub := h.sub.trans (prefix_append _ _)
    next := fun hlen => by
      rcases h.next hlen with ⟨hR, -, -⟩ | hseq
      · exact absurd hR hbusy
      · exact .inr hseq }

/-- The block that `append` builds next. -/
def nextBlock (w : IndexWriter) (entry : IndexEntry) (nonce : Block 12) : IndexBlock where
  entry := entry
  seq := w.nextSeq
  nonce := nonce

theorem Indexed.buffered (h : Indexed C ik E w D R) {e : IndexEntry} (nonce : Block 12)
    (ho : e.offset < 2 ^ 64) (ht : e.timestampMs < 2 ^ 32) :
    let b := nextBlock w e nonce
    let B := D ++ (R ++ [b])
    Indexed C ik (E ++ [e]) { w with buf := w.buf ++ b.bytes C ik } D (R ++ [b]) ∧
      ((readable 0 B).length = B.length → readable 0 B = E ++ [e] ∧ w.nextSeq + 1 = B.length) := by
  intro b B
  have hB : B = (D ++ R) ++ [b] := (append_assoc D R [b]).symm
  have hread : readable 0 B = if (readable 0 (D ++ R)).length = (D ++ R).length ∧
      w.nextSeq = (D ++ R).length then readable 0 (D ++ R) ++ [e] else readable 0 (D ++ R) := by
    rw [hB, readable_concat, Nat.zero_add]
    rfl
  have hBlen : B.length = (D ++ R).length + 1 := by rw [hB, length_append]; rfl
  have hle := readable_length_le 0 (D ++ R)
  have hdone : (readable 0 B).length = B.length → readable 0 B = E ++ [e] ∧ w.nextSeq + 1 = B.length := by
    intro hlen
    by_cases hc : (readable 0 (D ++ R)).length = (D ++ R).length ∧ w.nextSeq = (D ++ R).length
    · rw [if_pos hc] at hread
      rcases h.next hc.1 with ⟨-, heq, -⟩ | hseq
      · exact ⟨by rw [hread, heq], by omega⟩
      · omega
    · rw [if_neg hc] at hread
      rw [hread] at hlen
      omega
  refine ⟨?_, hdone⟩
  exact {
    key := h.key
    file := h.file
    buf := by simp only [h.buf, blocks, flatMap_append, flatMap_singleton]
    size := h.size
    fits := by
      intro x hx
      have hx' : x ∈ (D ++ R) ++ [b] := by simpa [append_assoc] using hx
      rcases mem_append.mp hx' with hx' | hx'
      · exact h.fits x hx'
      · rw [mem_singleton.mp hx']
        exact ⟨ho, ht, h.seq⟩
    seq := h.seq
    sub := by
      show readable 0 B <+: E ++ [e]
      rw [hread]
      split
      · rename_i hc
        rcases h.next hc.1 with ⟨-, heq, -⟩ | hseq
        · exact heq ▸ prefix_rfl
        · omega
      · exact h.sub.trans (prefix_append _ _)
    next := fun hlen => .inr (hdone hlen).2 }

theorem Indexed.advance {B : List IndexBlock} (h : Indexed C ik E w B [])
    (hdone : (readable 0 B).length = B.length → readable 0 B = E ∧ w.nextSeq + 1 = B.length) :
    Indexed C ik E { w with nextSeq := satAdd w.nextSeq 1 } B [] :=
  { h with
    seq := by simp only [satAdd, u64Max]; omega
    next := fun hlen => by
      rw [append_nil] at hlen ⊢
      obtain ⟨heq, hseq⟩ := hdone hlen
      refine .inl ⟨rfl, heq, ?_⟩
      have hsize := h.size
      rw [h.file, length_append, length_blocks, maxFileLen] at hsize
      simp only [satAdd, u64Max]
      omega }

theorem append_cases (hkey : w.key = some ik) (e : IndexEntry) (io : IndexIo) : ((w.append C e io).1 = w ∧ w.buf ≠ []) ∨
    ∃ w₁, (w₁ = w ∨ (w₁ = { w with file := w.file ++ w.buf, buf := [] } ∧ w.file.length + w.buf.length ≤ maxFileLen)) ∧
      let b := nextBlock w e io.nonce
      let w₂ := { w₁ with buf := w₁.buf ++ b.bytes C ik }
      ((w.append C e io).1 = w₂ ∨ ((w.append C e io).1 =
            { w₂ with file := w₂.file ++ w₂.buf, buf := [], nextSeq := satAdd w.nextSeq 1 } ∧
          w₂.file.length + w₂.buf.length ≤ maxFileLen)) := by
  have hblock : buildEncryptedBlock C (encodeEntry e) ik w.nextSeq io.nonce =
      .ok ((nextBlock w e io.nonce).bytes C ik) := by
    obtain ⟨ct, hct, hf⟩ := Aead.frame_eq_some ((nextBlock w e io.nonce).frame_bytes C ik)
    simp only [nextBlock] at hct hf
    simp only [buildEncryptedBlock, aesGcmEncryptRaw, hct, nextBlock, hf, length_encodeEntry]
    rfl
  have hflush : ∀ w₁ : IndexWriter, w.bufferAll ((nextBlock w e io.nonce).bytes C ik) io.room =
      .ok { w₁ with buf := w₁.buf ++ (nextBlock w e io.nonce).bytes C ik } → w₁.nextSeq = w.nextSeq →
      let w₂ := { w₁ with buf := w₁.buf ++ (nextBlock w e io.nonce).bytes C ik }
      ((w.append C e io).1 = w₂ ∨ ((w.append C e io).1 =
            { w₂ with file := w₂.file ++ w₂.buf, buf := [], nextSeq := satAdd w.nextSeq 1 } ∧
          w₂.file.length + w₂.buf.length ≤ maxFileLen)) := by
    intro w₁ hbuf hseq w₂
    rcases flush_cases w₂ io.write with ⟨hok, hfit⟩ | ⟨err, herr⟩
    · refine .inr ⟨?_, hfit⟩
      simp only [IndexWriter.append, hkey, hblock, hbuf]
      rw [hok, ← hseq]
    · refine .inl ?_
      simp only [IndexWriter.append, hkey, hblock, hbuf]
      rw [herr]
  by_cases hroom : ((nextBlock w e io.nonce).bytes C ik).length > bufCapacity - w.buf.length
  · rcases flush_cases w io.room with ⟨hok, hfit⟩ | ⟨err, herr⟩
    · refine .inr ⟨_, .inr ⟨rfl, hfit⟩, hflush _ ?_ rfl⟩
      simp only [IndexWriter.bufferAll, hroom, if_true, hok]
      rfl
    · refine .inl ⟨?_, ?_⟩
      · simp only [IndexWriter.append, hkey, hblock, IndexWriter.bufferAll, hroom, if_true, herr]
        rfl
      · intro hnil
        rw [hnil, IndexBlock.length_bytes] at hroom
        exact absurd hroom (by decide)
  · refine .inr ⟨w, .inl rfl, hflush w ?_ rfl⟩
    simp only [IndexWriter.bufferAll, hroom, if_false]
    rfl

theorem Indexed.append (h : Indexed C ik E w D R) {e : IndexEntry} (io : IndexIo)
    (ho : e.offset < 2 ^ 64) (ht : e.timestampMs < 2 ^ 32) :
    ∃ D' R', Indexed C ik (E ++ [e]) (w.append C e io).1 D' R' := by
  rcases append_cases (C := C) h.key e io with ⟨hw, hbuf⟩ | ⟨w₁, hw₁, hw₂⟩
  · rw [hw]
    refine ⟨D, R, h.skip ?_ e⟩
    rintro rfl
    exact hbuf h.buf
  have h₁ : ∃ D₁ R₁, Indexed C ik E w₁ D₁ R₁ ∧ w₁.nextSeq = w.nextSeq := by
    rcases hw₁ with rfl | ⟨rfl, hfit⟩
    · exact ⟨D, R, h, rfl⟩
    · exact ⟨D ++ R, [], h.flushed hfit, rfl⟩
  obtain ⟨D₁, R₁, h₁, hseq⟩ := h₁
  have hnext : nextBlock w e io.nonce = nextBlock w₁ e io.nonce := by
    simp only [nextBlock, hseq]
  rw [hnext] at hw₂
  obtain ⟨h₂, hdone⟩ := h₁.buffered io.nonce ho ht
  rcases hw₂ with hw₂ | ⟨hw₂, hfit⟩
  · rw [hw₂]
    exact ⟨_, _, h₂⟩
  · rw [hw₂, ← hseq]
    exact ⟨_, [], (h₂.flushed hfit).advance hdone⟩

def Attempt.isEvent (x : Attempt) : Bool := x.stamp.isSome

def Attempt.entry (x : Attempt) : IndexEntry where
  offset := x.offset
  timestampMs := (x.stamp.getD 0).toNat

def entries (as : List Attempt) : List IndexEntry :=
  ((as.filter (·.landed)).filter (·.isEvent)).map Attempt.entry

theorem entries_cons_landed {x : Attempt} (hx : x.landed = true) (r : List Attempt) :
    entries (x :: r) = (if x.isEvent then [x.entry] else []) ++ entries r := by
  simp only [entries, filter_cons, hx, if_true]
  split <;> rfl

theorem entries_cons_failed {x : Attempt} (hx : x.landed = false) (r : List Attempt) : entries (x :: r) = entries r := by
  simp only [entries, filter_cons, hx, Bool.false_eq_true, if_false]

theorem recordAll_indexed (C : Crypto) {key ik : Block 32} (cs : List Call) (a : RecorderActor)
    (E : List IndexEntry) (D R : List IndexBlock) (hkey : a.key = some key)
    (hbytes : a.bytesWritten = a.file.length) (hsize : a.file.length ≤ maxFileLen)
    (hidx : Indexed C ik E a.index D R) :
    ∃ D' R', Indexed C ik (E ++ entries (attempts a.startedAtSecs a.file.length cs)) (recordAll C a cs).1.index D' R' := by
  induction cs generalizing a E D R with
  | nil => exact ⟨D, R, by simpa [attempts, entries, recordAll] using hidx⟩
  | cons c cs ih =>
    cases hc : c.frame a.startedAtSecs with
    | none =>
      simp only [recordAll, Call.run_of_none C hc, attempts, hc]
      exact ih a E D R hkey hbytes hsize hidx
    | some x =>
      obtain ⟨line, stamp, io⟩ := x
      rcases Call.run_of_some C hkey hc with ⟨hl, f, hf, hr⟩ | ⟨hl, e, hr⟩
      · have hlen : (a.file ++ f).length = a.file.length + frameLen line := by
          rw [length_append, Aead.length_frame hf, frameLen]
        have hfit := (lands_size hl).2
        have hbytes' : satAdd a.bytesWritten f.length = (a.file ++ f).length := by
          rw [hlen, hbytes, Aead.length_frame hf, satAdd, u64Max]
          rw [maxFileLen, frameLen] at hfit
          rw [frameLen]
          omega
        have hstep : ∃ D' R', Indexed C ik (E ++ if stamp.isSome then [⟨a.file.length, (stamp.getD 0).toNat⟩] else [])
            (c.indexed C a.index a.bytesWritten) D' R' := by
          cases c with
          | header w h s io' =>
            simp only [Call.frame, Option.some.injEq, Prod.mk.injEq] at hc
            obtain ⟨-, rfl, -⟩ := hc
            exact ⟨D, R, by simpa [Call.indexed] using hidx⟩
          | event k b m io' idx =>
            have hb : ¬ b.isEmpty := by
              intro hb
              simp [Call.frame, hb] at hc
            simp only [Call.frame, hb, Bool.false_eq_true, if_false, Option.some.injEq, Prod.mk.injEq] at hc
            obtain ⟨-, rfl, -⟩ := hc
            rw [hbytes]
            refine hidx.append idx ?_ idx.timestampMs.toNat_lt
            show a.file.length < 2 ^ 64
            rw [maxFileLen] at hsize
            omega
        obtain ⟨D', R', hstep⟩ := hstep
        have hrest := ih (c.run C a).1 _ D' R' (by rw [hr]; exact hkey) (by rw [hr]; exact hbytes')
          (by rw [hr, hlen]; exact hfit) (by rw [hr]; exact hstep)
        rw [hr, hlen] at hrest
        simp only [recordAll, hr, attempts, hc, hl, if_true]
        rw [entries_cons_landed rfl, ← append_assoc]
        exact hrest
      · have hrest := ih (c.run C a).1 E D R (by rw [hr]; exact hkey) (by rw [hr]; exact hbytes)
          (by rw [hr]; exact hsize) (by rw [hr]; exact hidx)
        rw [hr] at hrest
        simp only [recordAll, hr, attempts, hc, hl, Bool.false_eq_true, if_false]
        rw [entries_cons_failed rfl]
        exact hrest

theorem readAll_header (C : Crypto) (ik : Block 32) (rest : Bytes) :
    readAll C (lfiMagic ++ [lfiVersion] ++ rest) (some ik) = readBlocks C ik 0 rest := by
  have hread : readExact 5 (lfiMagic ++ [lfiVersion] ++ rest) = some (lfiMagic ++ [lfiVersion], rest) :=
    readExact_append (by decide) rest
  have hhead : ¬ ((lfiMagic ++ [lfiVersion]).take 4 ≠ lfiMagic ∨
      (lfiMagic ++ [lfiVersion]).getD 4 0 ≠ lfiVersion) := by decide
  simp only [readAll, hread, hhead, if_false]

theorem Indexed.readAll_initial {a : RecorderActor} (h : Indexed C ik E a.index D R)
    (drop : WriteOutcome) : readAll C (closeWithIo a drop).2 (some ik) <+: E := by
  have hdisk : ∀ B T : List IndexBlock, B ++ T = D ++ R → (lfiMagic ++ [lfiVersion] ++ blocks C ik B).length ≤ maxFileLen →
      readAll C (lfiMagic ++ [lfiVersion] ++ blocks C ik B) (some ik) <+: E := by
    intro B T hBT hsize
    have hfit : ∀ b ∈ B, b.Fits := fun b hb => h.fits b (by rw [← hBT]; exact mem_append_left _ hb)
    rw [length_append, length_blocks, maxFileLen] at hsize
    rw [readAll_header, readBlocks_blocks C ik B 0 hfit (by rw [u64Max]; omega)]
    refine (readable_append_mono 0 B T).trans ?_
    rw [hBT]
    exact h.sub
  rcases flush_cases a.index drop with ⟨hok, hfit⟩ | ⟨e, herr⟩
  · have hfile : (closeWithIo a drop).2 = a.index.file ++ a.index.buf := by
      simp only [closeWithIo, hok]
    have hall : a.index.file ++ a.index.buf = lfiMagic ++ [lfiVersion] ++ blocks C ik (D ++ R) := by
      simp only [h.file, h.buf, blocks, flatMap_append, append_assoc]
    rw [hfile, hall]
    exact hdisk (D ++ R) [] (append_nil _) (by rw [← hall, length_append]; exact hfit)
  · have hfile : (closeWithIo a drop).2 = a.index.file := by
      simp only [closeWithIo, herr]
    rw [hfile, h.file]
    exact hdisk D R rfl (by rw [← h.file]; exact h.size)

end LetsFlutSsh.Recorder
