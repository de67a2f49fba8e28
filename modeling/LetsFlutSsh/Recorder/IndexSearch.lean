import LetsFlutSsh.Recorder.Playback
import LetsFlutSsh.Recorder.Registry

/-!
# Recorder: searching the index

A sidecar is a header and blocks of one size, plain or encrypted, so a cut leaves whole blocks and a piece of one.

* `partitionPoint_append` : what `partition_point` finds in a list that is partitioned;
* `search`, `lastAtMost` : the entry that is searched and the one that is meant (`search_of_partitioned`);
* `IndexWriter.appendAll` : the sidecar after appends that succeed;
* `indexCalls`, `recordAll_index` : the appends that a recording's calls make.
-/

namespace LetsFlutSsh.Recorder
open Lib List

/-! ## Partitioned lists -/

theorem partitionLoop_spec {q : Nat → Bool} {k n : Nat} (hq : ∀ i < n, q i = decide (i < k)) (base size : Nat)
    (hsize : 0 < size) (hn : base + size ≤ n) (hbase : base = 0 ∨ base < k) (hk : k ≤ base + size) :
    let r := partitionLoop q base size
    r < n ∧ (r = 0 ∨ r < k) ∧ k ≤ r + 1 := by
  induction size using Nat.strongRecOn generalizing base with
  | ind size ih =>
    rw [partitionLoop]
    split_ifs with hlt hmid
    · have hmid' := hq (base + size / 2) (by omega)
      rw [hmid, eq_comm, decide_eq_true_eq] at hmid'
      exact ih (size - size / 2) (by omega) _ (by omega) (by omega) (by omega) (by omega)
    · have hmid' := hq (base + size / 2) (by omega)
      rw [Bool.not_eq_true] at hmid
      rw [hmid, eq_comm, decide_eq_false_iff_not] at hmid'
      exact ih (size - size / 2) (by omega) _ (by omega) (by omega) hbase (by omega)
    · exact ⟨by omega, hbase, by omega⟩

theorem partitionPoint_append {α : Type} {p : α → Bool} {ys zs : List α} (hy : ∀ y ∈ ys, p y = true)
    (hz : ∀ z ∈ zs, p z = false) : partitionPoint p (ys ++ zs) = ys.length := by
  rcases hxs : ys ++ zs with _ | ⟨x, xs⟩
  · obtain ⟨rfl, -⟩ := append_eq_nil_iff.mp hxs
    rfl
  rw [← hxs]
  have hpos : 0 < (ys ++ zs).length := by simp [hxs]
  have hq : ∀ i < (ys ++ zs).length, ((ys ++ zs)[i]?).any p = decide (i < ys.length) := by
    intro i hi
    by_cases hlt : i < ys.length
    · rw [getElem?_append_left hlt, getElem?_eq_getElem hlt]
      simp [hlt, hy _ (getElem_mem hlt)]
    · have hlt' : i - ys.length < zs.length := by
        rw [length_append] at hi
        omega
      rw [getElem?_append_right (by omega), getElem?_eq_getElem hlt']
      simp [hlt, hz _ (getElem_mem hlt')]
  have hempty : (ys ++ zs).isEmpty = false := by simp [hxs]
  obtain ⟨hr, hlow, hhigh⟩ := partitionLoop_spec hq 0 _ hpos (by omega) (.inl rfl) (by simp)
  have hmid := hq _ hr
  simp only [partitionPoint, hempty, Bool.false_eq_true, if_false]
  split_ifs with hlt
  · rw [hlt, eq_comm, decide_eq_true_eq] at hmid
    omega
  · rw [Bool.not_eq_true] at hlt
    rw [hlt, eq_comm, decide_eq_false_iff_not] at hmid
    omega

/-! ## The search -/

def search (entries : List IndexEntry) (targetMs : Nat) : Option IndexEntry :=
  if entries.isEmpty then none
  else
    let idx := partitionPoint (fun e => decide (e.timestampMs ≤ targetMs)) entries
    if idx = 0 then none else entries[idx - 1]?

def lastAtMost (entries : List IndexEntry) (targetMs : Nat) : Option IndexEntry :=
  (entries.filter fun e => decide (e.timestampMs ≤ targetMs)).getLast?

def PartitionedAt (entries : List IndexEntry) (targetMs : Nat) : Prop :=
  entries.Pairwise fun d e => e.timestampMs ≤ targetMs → d.timestampMs ≤ targetMs

variable {targetMs : Nat} {entries : List IndexEntry}

theorem PartitionedAt.split (h : PartitionedAt entries targetMs) :
    ∃ ys zs, entries = ys ++ zs ∧ (∀ y ∈ ys, y.timestampMs ≤ targetMs) ∧ ∀ z ∈ zs, ¬ z.timestampMs ≤ targetMs := by
  induction entries with
  | nil => exact ⟨[], [], rfl, nofun, nofun⟩
  | cons e es ih =>
    obtain ⟨hhead, htail⟩ := pairwise_cons.mp h
    by_cases he : e.timestampMs ≤ targetMs
    · obtain ⟨ys, zs, rfl, hy, hz⟩ := ih htail
      exact ⟨e :: ys, zs, rfl, forall_mem_cons.mpr ⟨he, hy⟩, hz⟩
    · exact ⟨[], e :: es, rfl, nofun, forall_mem_cons.mpr ⟨he, fun z hz hle => he (hhead z hz hle)⟩⟩

section

variable {ys zs : List IndexEntry} (hy : ∀ y ∈ ys, y.timestampMs ≤ targetMs)
  (hz : ∀ z ∈ zs, ¬ z.timestampMs ≤ targetMs)
include hy hz

theorem lastAtMost_append : lastAtMost (ys ++ zs) targetMs = ys.getLast? := by
  have hys : ys.filter (fun e => decide (e.timestampMs ≤ targetMs)) = ys :=
    filter_eq_self.mpr fun y hmem => decide_eq_true (hy y hmem)
  have hzs : zs.filter (fun e => decide (e.timestampMs ≤ targetMs)) = [] :=
    filter_eq_nil_iff.mpr fun z hmem => by simpa using hz z hmem
  rw [lastAtMost, filter_append, hys, hzs, append_nil]

theorem partitionPoint_split : partitionPoint (fun e => decide (e.timestampMs ≤ targetMs)) (ys ++ zs) = ys.length :=
  partitionPoint_append (fun y hmem => decide_eq_true (hy y hmem)) fun z hmem => decide_eq_false (hz z hmem)

end

theorem getElem?_partition (ys zs : List IndexEntry) :
    (if ys.length = 0 then none else (ys ++ zs)[ys.length - 1]?) = ys.getLast? := by
  rcases ys with _ | ⟨y, ys⟩
  · rfl
  · rw [if_neg (by simp), getElem?_append_left (by simp), getLast?_eq_getElem?]

theorem search_of_partitioned (h : PartitionedAt entries targetMs) :
    search entries targetMs = lastAtMost entries targetMs := by
  obtain ⟨ys, zs, rfl, hy, hz⟩ := h.split
  rw [search, lastAtMost_append hy hz, partitionPoint_split hy hz]
  by_cases hempty : (ys ++ zs).isEmpty
  · obtain ⟨rfl, -⟩ := append_eq_nil_iff.mp (isEmpty_iff.mp hempty)
    exact if_pos hempty
  · rw [if_neg hempty]
    exact getElem?_partition ys zs

def SeekHit.entry (hit : SeekHit) : IndexEntry := { offset := hit.offset, timestampMs := hit.timestampMs }

variable {key : Option (Block 32)} {C : Crypto}

theorem seek_of_partitioned {sidecar : Bytes}
    (h : PartitionedAt (readAll C sidecar key) targetMs) :
    (seek C sidecar targetMs key.isSome key).map SeekHit.entry = lastAtMost (readAll C sidecar key) targetMs := by
  have hkey : (if key.isSome then key else none) = key := by cases key <;> rfl
  have hmode : (key.isSome && key.isNone) = false := by cases key <;> rfl
  obtain ⟨ys, zs, hentries, hy, hz⟩ := h.split
  simp only [seek, hmode, hkey, Bool.false_eq_true, if_false]
  rw [hentries, lastAtMost_append hy hz, partitionPoint_split hy hz, ← getElem?_partition ys zs]
  split_ifs with hlen
  · rfl
  · rw [Option.map_map]
    exact congrFun Option.map_id _

/-! ## Blocks of one size -/

/-- An entry in the words of the file. -/
structure IndexEntry.Fits (e : IndexEntry) : Prop where
  offset : e.offset < 2 ^ 64
  timestampMs : e.timestampMs < 2 ^ 32

def indexBlock (C : Crypto) (key : Option (Block 32)) (seq : Nat) (nonce : Block 12) (e : IndexEntry) : Bytes :=
  match key with
  | none => encodeEntry e
  | some ik => (C.frame ik seq nonce (encodeEntry e)).getD []

def blockLen : Option (Block 32) → Nat
  | none => entryPlaintextLen
  | some _ => 4 + nonceLen + entryPlaintextLen + 16

/-- The blocks of entries, numbered from `seq` on. -/
def indexBody (C : Crypto) (key : Option (Block 32)) : Nat → List (IndexEntry × Block 12) → Bytes
  | _, [] => []
  | seq, (e, nonce) :: L => indexBlock C key seq nonce e ++ indexBody C key (seq + 1) L

/-- The loop of `read_all`. -/
def readEntries (C : Crypto) (key : Option (Block 32)) (seq : Nat) (bs : Bytes) : List IndexEntry :=
  match key with
  | some key => readBlocks C key seq bs
  | none => readPlainEntries bs

section
variable {seq : Nat} {nonce : Block 12} {e : IndexEntry}

theorem blockLen_pos : 0 < blockLen key := by cases key <;> simp [blockLen, entryPlaintextLen]

theorem indexBlock_some (C : Crypto) (ik : Block 32) (seq : Nat) (nonce : Block 12) (e : IndexEntry) :
    C.frame ik seq nonce (encodeEntry e) = some (indexBlock C (some ik) seq nonce e) := by
  have hlen : (encodeEntry e).length < 2 ^ 32 := by
    rw [length_encodeEntry]
    decide
  obtain ⟨f, hf⟩ := Option.isSome_iff_exists.mp (C.frame_isSome ik seq nonce hlen)
  rw [indexBlock, hf, Option.getD_some]

@[simp] theorem length_indexBlock : (indexBlock C key seq nonce e).length = blockLen key := by
  rcases key with _ | ik
  · exact length_encodeEntry e
  · rw [Aead.length_frame (indexBlock_some C ik seq nonce e), length_encodeEntry]
    rfl

theorem length_indexBody (L : List (IndexEntry × Block 12)) : (indexBody C key seq L).length = blockLen key * L.length := by
  induction L generalizing seq with
  | nil => rfl
  | cons x L ih =>
    rw [indexBody, length_append, length_indexBlock, ih, length_cons]
    ring

theorem indexBody_concat (L : List (IndexEntry × Block 12)) :
    indexBody C key seq (L ++ [(e, nonce)]) = indexBody C key seq L ++ indexBlock C key (seq + L.length) nonce e := by
  induction L generalizing seq with
  | nil => simp [indexBody]
  | cons x L ih =>
    rw [cons_append, indexBody, indexBody, ih, append_assoc, length_cons, Nat.add_right_comm, Nat.add_assoc]

theorem readEntries_block (hseq : seq < u64Max) (hfit : e.Fits) (rest : Bytes) :
    readEntries C key seq (indexBlock C key seq nonce e ++ rest) = e :: readEntries C key (seq + 1) rest := by
  rcases key with _ | ik
  · have hread : readExact entryPlaintextLen (encodeEntry e ++ rest) = some (encodeEntry e, rest) :=
      readExact_append (length_encodeEntry e) rest
    rw [readEntries, indexBlock, readPlainEntries]
    split
    · rename_i b rest' hb
      rw [hread] at hb
      cases hb
      rw [decodeEntry_encodeEntry hfit.offset hfit.timestampMs]
      rfl
    · rename_i hb
      rw [hread] at hb
      cases hb
  · have hbound : seq < 2 ^ 64 := by
      unfold u64Max at hseq
      omega
    have hsat : satAdd seq 1 = seq + 1 := by
      unfold satAdd u64Max at *
      omega
    rw [readEntries, readBlocks_block hbound hbound hfit.offset hfit.timestampMs (indexBlock_some C ik seq nonce e),
      if_pos rfl, hsat]
    rfl

theorem le_of_readEncryptedBlock {ik : Block 32} {bs rest : Bytes}
    (h : readEncryptedBlock C ik seq bs = .ok (some (e, rest))) : blockLen (some ik) ≤ bs.length := by
  simp only [readEncryptedBlock] at h
  split at h
  · cases h
  rename_i lenBytes rest₁ h₁
  split at h
  · cases h
  rename_i hpt
  split at h
  · cases h
  rename_i nonce rest₂ h₂
  split at h
  · cases h
  rename_i ct rest₃ h₃
  have l₁ := le_of_readExact h₁
  have l₂ := le_of_readBlock h₂
  have l₃ := le_of_readExact h₃
  have r₁ := (readExact_length h₁).2
  have r₂ := readBlock_length h₂
  have hblock : blockLen (some ik) = 44 := rfl
  have hplain : entryPlaintextLen = 12 := rfl
  rw [not_not.mp hpt, hplain] at l₃
  omega

theorem readEntries_short {bs : Bytes} (h : bs.length < blockLen key) : readEntries C key seq bs = [] := by
  rcases key with _ | ik
  · rw [readEntries, readPlainEntries]
    split
    · rename_i b rest hb
      exact absurd (le_of_readExact hb) (by simpa [blockLen] using h)
    · rfl
  · rw [readEntries, readBlocks]
    split
    · rename_i e rest hb
      exact absurd (le_of_readEncryptedBlock hb) (by omega)
    · rfl
    · rfl

theorem readEntries_take (L : List (IndexEntry × Block 12)) (hfit : ∀ x ∈ L, x.1.Fits) (hlen : seq + L.length ≤ u64Max)
    (n : Nat) :
    readEntries C key seq ((indexBody C key seq L).take n) = (L.take (n / blockLen key)).map Prod.fst := by
  induction L generalizing seq n with
  | nil =>
    have hshort : readEntries C key seq [] = [] := readEntries_short blockLen_pos
    simpa [indexBody] using hshort
  | cons x L ih =>
    obtain ⟨e, nonce⟩ := x
    obtain ⟨he, hL⟩ := forall_mem_cons.mp hfit
    rw [length_cons] at hlen
    rw [indexBody]
    by_cases hn : n < blockLen key
    · rw [Nat.div_eq_of_lt hn, take_zero, map_nil]
      exact readEntries_short (by rw [length_take]; omega)
    · obtain ⟨m, rfl⟩ := Nat.exists_eq_add_of_le (Nat.le_of_not_lt hn)
      have htake : (indexBlock C key seq nonce e ++ indexBody C key (seq + 1) L).take (blockLen key + m) =
          indexBlock C key seq nonce e ++ (indexBody C key (seq + 1) L).take m := by
        rw [take_append, length_indexBlock, Nat.add_sub_cancel_left, take_of_length_le (by simp)]
      rw [htake, readEntries_block (by omega) he, ih hL (by omega), Nat.add_div_left _ blockLen_pos, take_succ_cons,
        map_cons]

/-! ## The sidecar -/

def indexHeader : Bytes := lfiMagic ++ [lfiVersion]

theorem length_indexHeader : indexHeader.length = 5 := rfl

theorem readAll_take (C : Crypto) (key : Option (Block 32)) (L : List (IndexEntry × Block 12)) (hfit : ∀ x ∈ L, x.1.Fits)
    (hlen : L.length ≤ u64Max) (n : Nat) :
    readAll C ((indexHeader ++ indexBody C key 0 L).take n) key = (L.take ((n - 5) / blockLen key)).map Prod.fst := by
  by_cases hn : n < 5
  · have hshort : readExact 5 ((indexHeader ++ indexBody C key 0 L).take n) = none := by
      rw [readExact, if_neg]
      rw [length_take]
      omega
    rw [readAll, hshort, Nat.sub_eq_zero_of_le (by omega), Nat.zero_div, take_zero]
    rfl
  · obtain ⟨m, rfl⟩ := Nat.exists_eq_add_of_le (Nat.le_of_not_lt hn)
    have htake : (indexHeader ++ indexBody C key 0 L).take (5 + m) = indexHeader ++ (indexBody C key 0 L).take m := by
      rw [take_append, length_indexHeader, Nat.add_sub_cancel_left, take_of_length_le (by rw [length_indexHeader]; omega)]
    have hread := readExact_append length_indexHeader ((indexBody C key 0 L).take m)
    have hhead : ¬ (indexHeader.take 4 ≠ lfiMagic ∨ indexHeader.getD 4 0 ≠ lfiVersion) := by decide
    have hbody : readEntries C key 0 ((indexBody C key 0 L).take m) = (L.take (m / blockLen key)).map Prod.fst :=
      readEntries_take L hfit (by omega) m
    rw [htake, readAll, hread, Nat.add_sub_cancel_left, ← hbody]
    simp only [hhead, if_false]
    rfl

def IndexWriter.appendAll (C : Crypto) : IndexWriter → List (IndexEntry × IndexIo) → IndexWriter
  | w, [] => w
  | w, (e, io) :: es => (w.append C e io).1.appendAll C es

/-- What appends that succeed leave: every entry is in the file, nothing is buffered. -/
structure Stored (C : Crypto) (key : Option (Block 32)) (L : List (IndexEntry × Block 12)) (w : IndexWriter) : Prop where
  keyed : w.key = key
  file : w.file = indexHeader ++ indexBody C key 0 L
  buf : w.buf = []
  seq : w.nextSeq = L.length

theorem Stored.create (C : Crypto) (key : Option (Block 32)) : Stored C key [] (.create key) := ⟨rfl, rfl, rfl, rfl⟩

theorem append_eq (w : IndexWriter) (io : IndexIo) : w.append C e io =
    match w.bufferAll (indexBlock C w.key w.nextSeq io.nonce e) io.room with
    | .error msg => (w, .error (.recorder ("idx append: " ++ msg)))
    | .ok w =>
      match w.flush io.write with
      | .error msg => (w, .error (.recorder ("idx flush: " ++ msg)))
      | .ok w => ({ w with nextSeq := satAdd w.nextSeq 1 }, .ok ()) := by
  unfold IndexWriter.append
  rcases hkey : w.key with _ | ik
  · rfl
  obtain ⟨ct, hct, hframe⟩ := Aead.frame_eq_some (indexBlock_some C ik w.nextSeq io.nonce e)
  rw [length_encodeEntry] at hframe
  have hraw : aesGcmEncryptRaw C ik io.nonce (encodeEntry e) (leBytes 8 w.nextSeq) = .ok ct := by
    unfold aesGcmEncryptRaw
    rw [hct]
  have hblock : buildEncryptedBlock C (encodeEntry e) ik w.nextSeq io.nonce =
      .ok (leBytes 4 entryPlaintextLen ++ io.nonce.1 ++ ct) := by
    unfold buildEncryptedBlock
    exact congrArg (fun r : Except Error Bytes => r.bind fun ct => .ok (leBytes 4 entryPlaintextLen ++ io.nonce.1 ++ ct)) hraw
  rw [hframe]
  dsimp only
  generalize buildEncryptedBlock C (encodeEntry e) ik w.nextSeq io.nonce = block at hblock ⊢
  subst hblock
  rfl

theorem Stored.append {L : List (IndexEntry × Block 12)} {w : IndexWriter} {io : IndexIo} (h : Stored C key L w)
    (hwrite : io.write = none) (hsize : 5 + blockLen key * (L.length + 1) ≤ maxFileLen) :
    (w.append C e io).2 = .ok () ∧ Stored C key (L ++ [(e, io.nonce)]) (w.append C e io).1 := by
  have hlen : (indexBlock C key w.nextSeq io.nonce e).length = blockLen key := length_indexBlock
  have hcap : blockLen key ≤ bufCapacity := by cases key <;> simp [blockLen, entryPlaintextLen, nonceLen, bufCapacity]
  have hpos : L.length ≤ blockLen key * L.length := Nat.le_mul_of_pos_left _ blockLen_pos
  rw [Nat.mul_add, Nat.mul_one] at hsize
  have hroom : ¬ (indexBlock C key w.nextSeq io.nonce e).length > bufCapacity - w.buf.length := by
    rw [h.buf, hlen, length_nil]
    omega
  have hfile : w.file.length + (indexBlock C key w.nextSeq io.nonce e).length ≤ maxFileLen := by
    rw [h.file, length_append, length_indexHeader, length_indexBody, hlen]
    omega
  have hseq : satAdd w.nextSeq 1 = L.length + 1 := by
    rw [h.seq, satAdd]
    unfold u64Max maxFileLen at *
    omega
  have happend : w.append C e io =
      ({ w with file := w.file ++ indexBlock C key w.nextSeq io.nonce e, buf := [], nextSeq := L.length + 1 }, .ok ()) := by
    rw [append_eq, h.keyed]
    simp only [IndexWriter.bufferAll, hroom, if_false, bind, Except.bind, pure, Except.pure]
    simp only [h.buf, h.keyed, nil_append, IndexWriter.flush, writeAll, hwrite, hfile, if_true, bind, Except.bind, pure,
      Except.pure, hseq]
  rw [happend]
  refine ⟨rfl, h.keyed, ?_, rfl, ?_⟩
  · rw [indexBody_concat, Nat.zero_add, ← append_assoc, ← h.file, ← h.seq]
  · rw [length_append, length_singleton]

theorem Stored.appendAll {L : List (IndexEntry × Block 12)} {w : IndexWriter} (h : Stored C key L w)
    (es : List (IndexEntry × IndexIo)) (hwrite : ∀ x ∈ es, x.2.write = none)
    (hsize : 5 + blockLen key * (L.length + es.length) ≤ maxFileLen) :
    Stored C key (L ++ es.map fun x => (x.1, x.2.nonce)) (w.appendAll C es) := by
  induction es generalizing L w with
  | nil => simpa [IndexWriter.appendAll] using h
  | cons x es ih =>
    obtain ⟨e, io⟩ := x
    obtain ⟨hio, hes⟩ := forall_mem_cons.mp hwrite
    rw [length_cons] at hsize
    have hmono : blockLen key * (L.length + 1) ≤ blockLen key * (L.length + (es.length + 1)) :=
      Nat.mul_le_mul_left _ (by omega)
    obtain ⟨-, hstored⟩ := h.append (e := e) hio (by omega)
    have hrest := ih hstored hes (by rw [length_append, length_singleton, Nat.add_assoc, Nat.add_comm 1]; exact hsize)
    simpa [IndexWriter.appendAll] using hrest

end

/-! ## The recorder's appends -/

section
variable {a : RecorderActor}

def Call.indexCall (C : Crypto) (a : RecorderActor) : Call → Option (IndexEntry × IndexIo)
  | .header .. => none
  | .event k b m io idx =>
    if b.isEmpty then none
    else
      match (recordFrameAt C a (utf8 (eventLine k b m)) io).2 with
      | .error _ => none
      | .ok (offset, _) => some ({ offset, timestampMs := idx.timestampMs.toNat }, idx)

def indexCalls (C : Crypto) : RecorderActor → List Call → List (IndexEntry × IndexIo)
  | _, [] => []
  | a, c :: cs =>
    match c.indexCall C a with
    | none => indexCalls C (c.run C a).1 cs
    | some x => x :: indexCalls C (c.run C a).1 cs

def Call.stamp : Call → Option Nat
  | .header .. => none
  | .event _ b _ _ idx => if b.isEmpty then none else some idx.timestampMs.toNat

/-- The clock of a recording does not go back between its events. -/
def ClockForward (cs : List Call) : Prop := (cs.filterMap Call.stamp).Pairwise (· ≤ ·)

instance : DecidablePred ClockForward := fun cs => List.instDecidablePairwise (cs.filterMap Call.stamp)

theorem recordFrameAt_bound (h : a.bytesWritten ≤ u64Max) (plaintext : Bytes) (io : FrameIo) :
    (recordFrameAt C a plaintext io).1.bytesWritten ≤ u64Max ∧
      ∀ r, (recordFrameAt C a plaintext io).2 = .ok r → r.1 ≤ u64Max := by
  unfold recordFrameAt
  dsimp only
  split
  · exact ⟨h, nofun⟩
  · split
    · exact ⟨h, nofun⟩
    · refine ⟨Nat.min_le_right _ _, fun r hr => ?_⟩
      cases hr
      exact h

theorem Call.run_index (c : Call) : (c.run C a).1.index = match c.indexCall C a with
    | none => a.index
    | some x => (a.index.append C x.1 x.2).1 := by
  cases c with
  | header w h label io => exact (recordFrameAt_keeps a _ io).2.2
  | event k b m io idx =>
    have hkeeps := (recordFrameAt_keeps (C := C) a (utf8 (eventLine k b m)) io).2.2
    simp only [Call.run, recordEvent, Call.indexCall]
    split_ifs
    · rfl
    · rcases hr : recordFrameAt C a (utf8 (eventLine k b m)) io with ⟨a', e | ⟨offset, total⟩⟩
      · rw [hr] at hkeeps
        exact hkeeps
      · rw [hr] at hkeeps
        dsimp only at hkeeps ⊢
        rw [hkeeps]

theorem Call.run_bound (h : a.bytesWritten ≤ u64Max) (c : Call) : (c.run C a).1.bytesWritten ≤ u64Max := by
  cases c with
  | header w h' label io => exact (recordFrameAt_bound h _ io).1
  | event k b m io idx =>
    have hbound := (recordFrameAt_bound (C := C) h (utf8 (eventLine k b m)) io).1
    simp only [Call.run, recordEvent]
    split_ifs
    · exact h
    · rcases hr : recordFrameAt C a (utf8 (eventLine k b m)) io with ⟨a', e | ⟨offset, total⟩⟩
      · rw [hr] at hbound
        exact hbound
      · rw [hr] at hbound
        exact hbound

theorem recordAll_index (a : RecorderActor) (cs : List Call) :
    (recordAll C a cs).1.index = a.index.appendAll C (indexCalls C a cs) := by
  induction cs generalizing a with
  | nil => rfl
  | cons c cs ih =>
    have hindex := c.run_index (C := C) (a := a)
    simp only [recordAll, ih, indexCalls]
    rcases hc : c.indexCall C a with _ | x
    · rw [hc] at hindex
      rw [hindex]
    · rw [hc] at hindex
      rw [hindex]
      rfl

theorem Call.indexCall_eq_some {c : Call} {x : IndexEntry × IndexIo} (h : c.indexCall C a = some x)
    (hbound : a.bytesWritten ≤ u64Max) : x.1.Fits ∧ c.stamp = some x.1.timestampMs := by
  cases c with
  | header w h' label io => cases h
  | event k b m io idx =>
    have hoffset := (recordFrameAt_bound (C := C) hbound (utf8 (eventLine k b m)) io).2
    simp only [Call.indexCall] at h
    split_ifs at h with hb
    split at h
    · cases h
    rename_i offset total hr
    cases h
    have hle := hoffset _ hr
    refine ⟨⟨?_, idx.timestampMs.toNat_lt⟩, if_neg hb⟩
    unfold u64Max at hle
    dsimp only at hle ⊢
    omega

theorem indexCalls_spec (a : RecorderActor) (hbound : a.bytesWritten ≤ u64Max) (cs : List Call) :
    (∀ x ∈ indexCalls C a cs, x.1.Fits) ∧
      ((indexCalls C a cs).map fun x => x.1.timestampMs).Sublist (cs.filterMap Call.stamp) := by
  induction cs generalizing a with
  | nil => exact ⟨nofun, .refl _⟩
  | cons c cs ih =>
    obtain ⟨hfit, hsub⟩ := ih (c.run C a).1 (c.run_bound hbound)
    rw [indexCalls]
    rcases hc : c.indexCall C a with _ | x
    · refine ⟨hfit, hsub.trans ?_⟩
      rw [filterMap_cons]
      split
      · exact .refl _
      · exact sublist_cons_self _ _
    · obtain ⟨hx, hstamp⟩ := Call.indexCall_eq_some hc hbound
      refine ⟨forall_mem_cons.mpr ⟨hx, hfit⟩, ?_⟩
      rw [filterMap_cons_some hstamp]
      exact hsub.cons_cons _

theorem registerWithIo_index {dbKey : Option (Block 32)} {rk : Block 32} {wn : Block 12} {secs : Nat}
    (h : registerWithIo C dbKey rk wn secs = .ok a) :
    a.index = .create (deriveIndexKey C a.key) ∧ a.bytesWritten ≤ u64Max := by
  rcases dbKey with _ | dk
  · cases h
    exact ⟨rfl, Nat.zero_le _⟩
  · obtain ⟨header, -, -, rfl⟩ := registerWithIo_some h
    exact ⟨rfl, (by decide : lfrHeaderLen ≤ u64Max)⟩

theorem partitionedAt_of_forward {cs : List Call} (hbound : a.bytesWritten ≤ u64Max) (hclock : ClockForward cs)
    (h : entries <+: (indexCalls C a cs).map Prod.fst) (targetMs : Nat) :
    PartitionedAt entries targetMs := by
  have hsorted : (((indexCalls C a cs).map Prod.fst).map IndexEntry.timestampMs).Pairwise (· ≤ ·) := by
    rw [map_map]
    exact hclock.sublist (indexCalls_spec a hbound cs).2
  rw [pairwise_map] at hsorted
  exact (hsorted.sublist h.sublist).imp fun hle htarget => hle.trans htarget

theorem readAll_appended {es : List (IndexEntry × IndexIo)} (hfit : ∀ x ∈ es, x.1.Fits)
    (hwrite : ∀ x ∈ es, x.2.write = none) (hsize : 5 + blockLen key * es.length ≤ maxFileLen) :
    let sidecar := ((IndexWriter.create key).appendAll C es).file
    sidecar.length = 5 + blockLen key * es.length ∧
      ∀ n, readAll C (sidecar.take n) key = (es.map Prod.fst).take ((n - 5) / blockLen key) := by
  intro sidecar
  have hstored := (Stored.create C key).appendAll es hwrite (by simpa using hsize)
  rw [nil_append] at hstored
  have hfile : sidecar = _ := hstored.file
  have hlen : es.length ≤ u64Max := by
    have hpos : es.length ≤ blockLen key * es.length := Nat.le_mul_of_pos_left _ blockLen_pos
    unfold u64Max maxFileLen at *
    omega
  have hfits : ∀ x ∈ es.map fun x => (x.1, x.2.nonce), x.1.Fits := by
    intro x hx
    obtain ⟨y, hy, rfl⟩ := mem_map.mp hx
    exact hfit y hy
  refine ⟨by rw [hfile, length_append, length_indexHeader, length_indexBody, length_map], fun n => ?_⟩
  rw [hfile, readAll_take C key _ hfits (by simpa using hlen), map_take, map_map]
  rfl

/-- **The index of a recording.** Appends whose writes succeed leave a sidecar of which every cut reads as an initial
part of the entries, and the whole as all of them. When calls on a recording whose clock does not go back made them, the
search and the seek return the last entry at or before any target. -/
theorem readAll_search (C : Crypto) (key : Option (Block 32)) (es : List (IndexEntry × IndexIo))
    (hfit : ∀ x ∈ es, x.1.Fits) (hwrite : ∀ x ∈ es, x.2.write = none)
    (hsize : 5 + blockLen key * es.length ≤ maxFileLen) (n : Nat) :
    let sidecar := ((IndexWriter.create key).appendAll C es).file
    let entries := readAll C (sidecar.take n) key
    (entries <+: es.map Prod.fst ∧ (sidecar.length ≤ n → entries = es.map Prod.fst)) ∧
      ∀ dbKey rk wn secs a cs, registerWithIo C dbKey rk wn secs = .ok a → key = deriveIndexKey C a.key →
        es = indexCalls C a cs → ClockForward cs →
        (recordAll C a cs).1.index.file = sidecar ∧ ∀ targetMs, search entries targetMs = lastAtMost entries targetMs ∧
            (seek C (sidecar.take n) targetMs key.isSome key).map SeekHit.entry = lastAtMost entries targetMs := by
  intro sidecar entries
  obtain ⟨hlen, hread⟩ := readAll_appended hfit hwrite hsize
  have hread : entries = (es.map Prod.fst).take ((n - 5) / blockLen key) := hread n
  have hinitial : entries <+: es.map Prod.fst := hread ▸ take_prefix _ _
  refine ⟨⟨hinitial, fun hn => ?_⟩, ?_⟩
  · rw [show sidecar.length = _ from hlen] at hn
    rw [hread, take_of_length_le]
    rw [length_map, Nat.le_div_iff_mul_le blockLen_pos, Nat.mul_comm]
    omega
  · intro dbKey rk wn secs a cs hregister hkey hes hclock
    obtain ⟨hindex, hbound⟩ := registerWithIo_index hregister
    have hpartitioned := partitionedAt_of_forward hbound hclock (hes ▸ hinitial)
    refine ⟨?_, fun targetMs => ⟨search_of_partitioned (hpartitioned targetMs), seek_of_partitioned (hpartitioned targetMs)⟩⟩
    rw [recordAll_index, hindex, ← hkey, ← hes]

def sampleAt (ms : UInt32) : Call :=
  .event .output [0x61] (1000 * ms.toNat) { nonce := Block.fill 12 4, write := none }
    { nonce := Block.fill 12 5, room := none, write := none, timestampMs := ms }

theorem readAll_search_sample : ∃ a, registerWithIo Crypto.tagged none (Block.fill 32 2) (Block.fill 12 3) 0 = .ok a ∧
      let sidecar := (recordAll Crypto.tagged a [sampleAt 5000, sampleAt 9000]).1.index.file
      ∀ n targetMs, search (readAll Crypto.tagged (sidecar.take n) none) targetMs =
        lastAtMost (readAll Crypto.tagged (sidecar.take n) none) targetMs := by
  refine ⟨_, rfl, fun n targetMs => ?_⟩
  have h := (readAll_search Crypto.tagged none (indexCalls Crypto.tagged _ [sampleAt 5000, sampleAt 9000])
    (indexCalls_spec _ (Nat.zero_le _) _).1 (by decide +kernel) (by decide +kernel) n).2 none (Block.fill 32 2)
    (Block.fill 12 3) 0 _ _ rfl rfl rfl (by decide +kernel)
  rw [h.1]
  exact (h.2 targetMs).1

/-- The clock is set back between the second and the third event: the search finds nothing at a time that the third
event has. -/
theorem clock_back_misleads_search : ∃ a, registerWithIo Crypto.tagged none (Block.fill 32 2) (Block.fill 12 3) 0 = .ok a ∧
      let sidecar := (recordAll Crypto.tagged a [sampleAt 5000, sampleAt 9000, sampleAt 3000]).1.index.file
      readAll Crypto.tagged sidecar none = [⟨0, 5000⟩, ⟨12, 9000⟩, ⟨24, 3000⟩] ∧
        search (readAll Crypto.tagged sidecar none) 3000 = none ∧
        lastAtMost (readAll Crypto.tagged sidecar none) 3000 = some ⟨24, 3000⟩ := by
  refine ⟨_, rfl, ?_⟩
  intro sidecar
  let es := indexCalls Crypto.tagged
    { bytesWritten := 0, startedAtSecs := 0, file := [], key := none, frameIndex := 0, index := .create none }
    [sampleAt 5000, sampleAt 9000, sampleAt 3000]
  have hes : es.map Prod.fst = [⟨0, 5000⟩, ⟨12, 9000⟩, ⟨24, 3000⟩] := by decide +kernel
  have hsize : 5 + blockLen none * es.length ≤ maxFileLen := by decide +kernel
  obtain ⟨hlen, hread⟩ := readAll_appended (C := Crypto.tagged) (indexCalls_spec _ (Nat.zero_le _) _).1
    (by decide +kernel : ∀ x ∈ es, x.2.write = none) hsize
  have hsidecar : sidecar = ((IndexWriter.create none).appendAll Crypto.tagged es).file :=
    congrArg IndexWriter.file (recordAll_index _ _)
  have hall : readAll Crypto.tagged sidecar none = [⟨0, 5000⟩, ⟨12, 9000⟩, ⟨24, 3000⟩] := by
    have hwhole := hread sidecar.length
    rw [← hsidecar] at hwhole hlen
    rw [take_length, hes, hlen] at hwhole
    exact hwhole
  rw [hall]
  exact ⟨rfl, by simp [search, partitionPoint, partitionLoop], by decide⟩

end

end LetsFlutSsh.Recorder
