import LetsFlutSsh.Recorder.Writer

/-!
# Recorder: playback and seek

The reading half of `recorder/reader.rs` and `recorder/index_sidecar.rs` on encrypted recordings:

* `openLfsrIterAt`, `LfsrFrameIter.next` : unwrap the recording key, then one record for each frame;
  the frame index is not on disk, the reader counts it from where it starts;
* `LfsrFrameIter.records` : everything the iterator yields (`records_nil`, `records_frame`);
* `readAll` : the index entries up to the first block that does not decode (`readBlocks_block`);
* `seek` : the entry at or before a time, by `partition_point` (`seek_eq_some`).
-/

namespace LetsFlutSsh.Recorder
open Lib

inductive ReaderError where
  | badMagic
  | unsupportedVersion (v : UInt8)
  | truncatedHeader
  | truncatedFrame
  | frameTooLarge (n : Nat)
  | crypto (detail : String)
  | nonUtf8Frame
  deriving DecidableEq

def maxFramePlaintextBytes : Nat := 16 * 1024 * 1024

/-- `aes_gcm_decrypt_raw` with its errors. -/
def aesGcmDecryptRaw (C : Crypto) (key : Block 32) (nonce : Block 12) (ct aad : Bytes) : Except Error Bytes :=
  if ct.length < 16 then
    .error (.crypto s!"aes-gcm ciphertext too short ({ct.length} bytes; need ≥ 16)")
  else
    match C.decrypt key nonce ct aad with
    | some pt => .ok pt
    | none => .error (.crypto "aes-gcm decrypt-raw: aead::Error")

/-! ## Opening -/

def unwrapLfsrHeader (C : Crypto) (header : Bytes) (dbKey : Block 32) : Except Error (Block 32) :=
  match readExact lfrHeaderLen header with
  | none =>
    .error (.recorder s!"lfsr header truncated: {header.length} bytes, want {lfrHeaderLen}")
  | some (header, _) =>
    if header.take 4 ≠ lfrMagic then .error (.recorder "lfsr header bad magic")
    else if header.getD 4 0 ≠ lfrVersion then
      .error (.recorder ("lfsr header unsupported version: 0x" ++
        String.ofList [hexDigit ((header.getD 4 0).toNat / 16), hexDigit (header.getD 4 0).toNat]))
    else
      match readBlock 12 (header.drop 5) with
      | none => .error (.recorder s!"lfsr header truncated: {header.length} bytes, want {lfrHeaderLen}")
      | some (wrapNonce, wrapped) =>
        match aesGcmDecryptRaw C dbKey wrapNonce wrapped keywrapAad with
        | .error e => .error e
        | .ok plain =>
          if h : plain.length = 32 then .ok ⟨plain, h⟩
          else .error (.recorder s!"wrapped recording key wrong length: {plain.length}")

structure LfsrFrameIter where
  rest : Bytes
  key : Block 32
  frameIndex : Nat
  finished : Bool

/-- `open_lfsr_iter_at`: from the first frame, or from a byte offset with the frame index to go on
with. -/
def openLfsrIterAt (C : Crypto) (file : Bytes) (dbKey : Block 32) (start : Option (Nat × Nat)) :
    Except ReaderError LfsrFrameIter :=
  match readExact lfrHeaderLen file with
  | none => .error .truncatedHeader
  | some (header, rest) =>
    if header.take 4 ≠ lfrMagic then .error .badMagic
    else if header.getD 4 0 ≠ lfrVersion then .error (.unsupportedVersion (header.getD 4 0))
    else
      match unwrapLfsrHeader C header dbKey with
      | .error e => .error (.crypto e.text)
      | .ok key =>
        match start with
        | none => .ok { rest, key, frameIndex := 0, finished := false }
        | some (offset, fi) => .ok { rest := file.drop offset, key, frameIndex := fi, finished := false }

/-! ## Frames -/

/-- `LfsrFrameIter::next`. Fewer than four bytes left end the stream; every error ends it too. -/
def LfsrFrameIter.next (C : Crypto) (it : LfsrFrameIter) : Option (Except ReaderError String) × LfsrFrameIter :=
  let stop (r : Option (Except ReaderError String)) := (r, { it with finished := true })
  if it.finished then (none, it)
  else
    match readExact 4 it.rest with
    | none => stop none
    | some (lenBytes, rest) =>
      let ptLen := ofLeBytes lenBytes
      if ptLen > maxFramePlaintextBytes then stop (some (.error (.frameTooLarge ptLen)))
      else
        match readBlock 12 rest with
        | none => stop (some (.error .truncatedFrame))
        | some (nonce, rest) =>
          match readExact (ptLen + 16) rest with
          | none => stop (some (.error .truncatedFrame))
          | some (ct, rest) =>
            match aesGcmDecryptRaw C it.key nonce ct (leBytes 8 it.frameIndex) with
            | .error e => stop (some (.error (.crypto e.text)))
            | .ok pt =>
              match fromUtf8 pt with
              | none => stop (some (.error .nonUtf8Frame))
              | some s => (some (.ok (trimEndNewlines s)), { it with rest, frameIndex := satAdd it.frameIndex 1 })

def LfsrFrameIter.left (it : LfsrFrameIter) : Nat := if it.finished then 0 else it.rest.length + 1

variable {C : Crypto} {it : LfsrFrameIter} {key : Block 32} {nonce : Block 12} {i j : Nat} {e : IndexEntry}

theorem LfsrFrameIter.next_left {it' : LfsrFrameIter} {r : Except ReaderError String}
    (h : it.next C = (some r, it')) : it'.left < it.left := by
  unfold LfsrFrameIter.next at h
  by_cases hfin : it.finished
  · simp [hfin] at h
  simp only [hfin, Bool.false_eq_true, if_false] at h
  split at h
  · simp at h
  rename_i lenBytes rest₁ h₁
  have hstop : ({ it with finished := true } : LfsrFrameIter).left < it.left := by
    simp [LfsrFrameIter.left, hfin]
  split at h
  · obtain ⟨-, rfl⟩ := Prod.mk.inj h
    exact hstop
  split at h
  · obtain ⟨-, rfl⟩ := Prod.mk.inj h
    exact hstop
  rename_i nonce rest₂ h₂
  split at h
  · obtain ⟨-, rfl⟩ := Prod.mk.inj h
    exact hstop
  rename_i ct rest₃ h₃
  split at h
  · obtain ⟨-, rfl⟩ := Prod.mk.inj h
    exact hstop
  split at h
  · obtain ⟨-, rfl⟩ := Prod.mk.inj h
    exact hstop
  -- a decoded frame takes at least its length prefix off the stream
  obtain ⟨-, rfl⟩ := Prod.mk.inj h
  have l₁ := (readExact_length h₁).2
  have l₂ := readBlock_length h₂
  have l₃ := (readExact_length h₃).2
  have hlen : 4 ≤ it.rest.length := by
    by_contra hc
    simp [readExact, hc] at h₁
  simp only [LfsrFrameIter.left, hfin, Bool.false_eq_true, if_false]
  omega

def LfsrFrameIter.records (C : Crypto) (it : LfsrFrameIter) : List (Except ReaderError String) :=
  match _h : it.next C with
  | (none, _) => []
  | (some r, it') => r :: it'.records C
termination_by it.left
decreasing_by exact LfsrFrameIter.next_left _h

theorem LfsrFrameIter.records_of_none (h : (it.next C).1 = none) : it.records C = [] := by
  rw [LfsrFrameIter.records]
  split
  · rfl
  · rename_i h'
    rw [h'] at h
    cases h

theorem LfsrFrameIter.records_of_some {it' : LfsrFrameIter}
    {r : Except ReaderError String} (h : it.next C = (some r, it')) :
    it.records C = r :: it'.records C := by
  rw [LfsrFrameIter.records]
  split
  · rename_i h'
    rw [h] at h'
    cases h'
  · rename_i h'
    rw [h] at h'
    cases h'
    rfl

@[simp] theorem LfsrFrameIter.records_finished (C : Crypto) (rest : Bytes) (key : Block 32) (i : Nat) :
    ({ rest, key, frameIndex := i, finished := true } : LfsrFrameIter).records C = [] :=
  records_of_none (by simp only [LfsrFrameIter.next, if_true])

theorem LfsrFrameIter.records_nil (C : Crypto) (key : Block 32) (i : Nat) :
    ({ rest := [], key, frameIndex := i, finished := false } : LfsrFrameIter).records C = [] := by
  apply records_of_none
  simp only [LfsrFrameIter.next, readExact_nil (by decide : 0 < 4), Bool.false_eq_true, if_false]

theorem aesGcmDecryptRaw_counter {pt ct : Bytes} (hi : i < 2 ^ 64) (hj : j < 2 ^ 64)
    (h : C.encrypt key nonce pt (leBytes 8 i) = some ct) :
    aesGcmDecryptRaw C key nonce ct (leBytes 8 j) =
      if i = j then .ok pt else .error (.crypto "aes-gcm decrypt-raw: aead::Error") := by
  have hlen := C.length_encrypt _ _ _ _ _ h
  rw [aesGcmDecryptRaw, if_neg (by omega)]
  by_cases hij : i = j
  · subst hij
    rw [C.decrypt_encrypt _ _ _ _ _ h, if_pos rfl]
  · rw [C.decrypt_counter _ _ _ _ _ _ hi hj hij h, if_neg hij]

/-- **Reading one frame.** A frame written at index `i` and read at index `j` gives its line exactly
when it is within the cap and `i = j`; otherwise it gives one error and the stream ends. -/
theorem LfsrFrameIter.records_frame {line : String} {f : Bytes} (hi : i < 2 ^ 64) (hj : j < 2 ^ 64)
    (hsize : (utf8 line).length < 2 ^ 32) (hf : C.frame key i nonce (utf8 line) = some f)
    (rest : Bytes) :
    ({ rest := f ++ rest, key, frameIndex := j, finished := false } : LfsrFrameIter).records C =
      if (utf8 line).length ≤ maxFramePlaintextBytes ∧ i = j then
        .ok (trimEndNewlines line) :: ({ rest, key, frameIndex := satAdd j 1, finished := false } : LfsrFrameIter).records C
      else if (utf8 line).length ≤ maxFramePlaintextBytes then
        [.error (.crypto "crypto: aes-gcm decrypt-raw: aead::Error")]
      else [.error (.frameTooLarge (utf8 line).length)] := by
  obtain ⟨ct, hct, h₁, h₂, h₃⟩ := Aead.readExact_frame hf rest
  have hlen : ofLeBytes (leBytes 4 (utf8 line).length) = (utf8 line).length :=
    ofLeBytes_leBytes (by omega)
  by_cases hcap : (utf8 line).length ≤ maxFramePlaintextBytes
  · by_cases hij : i = j
    · rw [if_pos ⟨hcap, hij⟩]
      apply records_of_some
      simp only [LfsrFrameIter.next, h₁, hlen, not_lt.mpr hcap, h₂, h₃,
        aesGcmDecryptRaw_counter hi hj hct, if_pos hij, fromUtf8_utf8, Bool.false_eq_true, if_false]
    · rw [if_neg (fun h => hij h.2), if_pos hcap]
      have hnext : ({ rest := f ++ rest, key, frameIndex := j, finished := false } : LfsrFrameIter).next C =
            (some (.error (.crypto "crypto: aes-gcm decrypt-raw: aead::Error")),
              { rest := f ++ rest, key, frameIndex := j, finished := true }) := by
        simp only [LfsrFrameIter.next, h₁, hlen, not_lt.mpr hcap, h₂, h₃,
          aesGcmDecryptRaw_counter hi hj hct, if_neg hij, Bool.false_eq_true, if_false]
        rfl
      rw [records_of_some hnext, records_finished]
  · rw [if_neg (fun h => hcap h.1), if_neg hcap]
    have hnext : ({ rest := f ++ rest, key, frameIndex := j, finished := false } : LfsrFrameIter).next C =
          (some (.error (.frameTooLarge (utf8 line).length)),
            { rest := f ++ rest, key, frameIndex := j, finished := true }) := by
      simp only [LfsrFrameIter.next, h₁, hlen, not_le.mp hcap, if_true, Bool.false_eq_true, if_false]
    rw [records_of_some hnext, records_finished]

/-! ## The index -/

/-- `read_encrypted_block`: nothing at the end of the file, an entry and the bytes after its block,
or an error. -/
def readEncryptedBlock (C : Crypto) (key : Block 32) (seq : Nat) (bs : Bytes) :
    Except Error (Option (IndexEntry × Bytes)) :=
  match readExact 4 bs with
  | none => .ok none
  | some (lenBytes, rest) =>
    let ptLen := ofLeBytes lenBytes
    if ptLen ≠ entryPlaintextLen then
      .error (.recorder s!"idx block plaintext len {ptLen} (expected {entryPlaintextLen})")
    else
      match readBlock 12 rest with
      | none => .error (.recorder "idx block nonce: failed to fill whole buffer")
      | some (nonce, rest) =>
        match readExact (ptLen + 16) rest with
        | none => .error (.recorder "idx block ct: failed to fill whole buffer")
        | some (ct, rest) =>
          match aesGcmDecryptRaw C key nonce ct (leBytes 8 seq) with
          | .error e => .error (.recorder ("idx block decrypt: " ++ e.text))
          | .ok pt =>
            if pt.length = entryPlaintextLen then .ok (some (decodeEntry pt, rest))
            else .error (.recorder "idx block plaintext size")

theorem readEncryptedBlock_rest {seq : Nat} {bs rest : Bytes} (h : readEncryptedBlock C key seq bs = .ok (some (e, rest))) :
    rest.length < bs.length := by
  simp only [readEncryptedBlock] at h
  split at h
  · cases h
  rename_i lenBytes rest₁ h₁
  split at h
  · cases h
  split at h
  · cases h
  rename_i nonce rest₂ h₂
  split at h
  · cases h
  rename_i ct rest₃ h₃
  split at h
  · cases h
  split at h
  · cases h
    have l₁ := (readExact_length h₁).2
    have l₂ := readBlock_length h₂
    have l₃ := (readExact_length h₃).2
    have hlen : 4 ≤ bs.length := by
      by_contra hc
      simp [readExact, hc] at h₁
    omega
  · cases h

/-- The entries of the encrypted blocks from number `seq` on; a block that does not decode ends them. -/
def readBlocks (C : Crypto) (key : Block 32) (seq : Nat) (bs : Bytes) : List IndexEntry :=
  match _h : readEncryptedBlock C key seq bs with
  | .ok (some (e, rest)) => e :: readBlocks C key (satAdd seq 1) rest
  | .ok none => []
  | .error _ => []
termination_by bs.length
decreasing_by exact readEncryptedBlock_rest _h

def readPlainEntries (bs : Bytes) : List IndexEntry :=
  match _h : readExact entryPlaintextLen bs with
  | some (b, rest) => decodeEntry b :: readPlainEntries rest
  | none => []
termination_by bs.length
decreasing_by
  have hle : entryPlaintextLen ≤ bs.length := by
    by_contra hc
    simp [readExact, hc] at _h
  have := (readExact_length _h).2
  simp only [entryPlaintextLen] at hle this
  omega

/-- `read_all`: a short or foreign header reads as an empty index. -/
def readAll (C : Crypto) (sidecar : Bytes) (key : Option (Block 32)) : List IndexEntry :=
  match readExact 5 sidecar with
  | none => []
  | some (header, rest) =>
    if header.take 4 ≠ lfiMagic ∨ header.getD 4 0 ≠ lfiVersion then []
    else
      match key with
      | some key => readBlocks C key 0 rest
      | none => readPlainEntries rest

theorem decodeEntry_encodeEntry (ho : e.offset < 2 ^ 64)
    (ht : e.timestampMs < 2 ^ 32) : decodeEntry (encodeEntry e) = e := by
  have h8 : (leBytes 8 e.offset).length = 8 := length_leBytes 8 _
  rw [decodeEntry, encodeEntry, List.take_left' h8, List.drop_left' h8,
    ofLeBytes_leBytes (by omega), ofLeBytes_leBytes (by omega)]

@[simp] theorem length_encodeEntry (e : IndexEntry) : (encodeEntry e).length = entryPlaintextLen := by
  simp [encodeEntry, entryPlaintextLen]

theorem readBlocks_nil (C : Crypto) (key : Block 32) (seq : Nat) : readBlocks C key seq [] = [] := by
  have h : readEncryptedBlock C key seq [] = .ok none := by
    simp only [readEncryptedBlock, readExact_nil (by decide : 0 < 4)]
  rw [readBlocks]
  split
  · rename_i h'
    rw [h] at h'
    cases h'
  · rfl
  · rfl

theorem readBlocks_block {b : Bytes} (hi : i < 2 ^ 64) (hj : j < 2 ^ 64) (ho : e.offset < 2 ^ 64)
    (ht : e.timestampMs < 2 ^ 32) (hb : C.frame key i nonce (encodeEntry e) = some b) (rest : Bytes) :
    readBlocks C key j (b ++ rest) =
      if i = j then e :: readBlocks C key (satAdd j 1) rest else [] := by
  obtain ⟨ct, hct, h₁, h₂, h₃⟩ := Aead.readExact_frame hb rest
  have hlen : ofLeBytes (leBytes 4 (encodeEntry e).length) = entryPlaintextLen := by
    rw [length_encodeEntry]
    exact ofLeBytes_leBytes (by decide)
  rw [length_encodeEntry] at h₃
  have hread : readEncryptedBlock C key j (b ++ rest) =
      if i = j then .ok (some (e, rest))
      else .error (.recorder "idx block decrypt: crypto: aes-gcm decrypt-raw: aead::Error") := by
    simp only [readEncryptedBlock, h₁, hlen, h₂, h₃, aesGcmDecryptRaw_counter hi hj hct, ne_eq, not_true_eq_false, if_false]
    by_cases hij : i = j
    · simp only [hij, if_true, length_encodeEntry, decodeEntry_encodeEntry ho ht]
    · simp only [hij, if_false]
      rfl
  rw [readBlocks]
  by_cases hij : i = j
  · rw [if_pos hij] at hread ⊢
    split
    · rename_i h'
      rw [hread] at h'
      cases h'
      rfl
    · simp_all
    · simp_all
  · rw [if_neg hij] at hread ⊢
    split
    · rename_i h'
      rw [hread] at h'
      cases h'
    · rfl
    · rfl

/-! ## Seek -/

/-- The loop of `slice::binary_search_by` for a predicate that stands for "less": it halves the
window `[base, base + size)`. -/
def partitionLoop (p : Nat → Bool) (base size : Nat) : Nat :=
  if 1 < size then
    partitionLoop p (if p (base + size / 2) then base + size / 2 else base) (size - size / 2)
  else base
termination_by size
decreasing_by omega

def partitionPoint {α : Type} (p : α → Bool) (xs : List α) : Nat :=
  if xs.isEmpty then 0
  else
    let q (i : Nat) := (xs[i]?).any p
    let base := partitionLoop q 0 xs.length
    if q base then base + 1 else base

structure SeekHit where
  offset : Nat
  entryIndex : Nat
  timestampMs : Nat
  deriving DecidableEq

/-- `index_sidecar::seek` on an existing sidecar. -/
def seek (C : Crypto) (sidecar : Bytes) (targetMs : Nat) (encrypted : Bool) (key : Option (Block 32)) : Option SeekHit :=
  if encrypted && key.isNone then none
  else
    let entries := readAll C sidecar (if encrypted then key else none)
    let idx := partitionPoint (fun e => decide (e.timestampMs ≤ targetMs)) entries
    if idx = 0 then none
    else (entries[idx - 1]?).map fun e =>
      { offset := e.offset, entryIndex := idx - 1, timestampMs := e.timestampMs }

theorem seek_eq_some {sidecar : Bytes} {target : Nat} {hit : SeekHit}
    (h : seek C sidecar target true (some key) = some hit) :
    ∃ e, (readAll C sidecar (some key))[hit.entryIndex]? = some e ∧ e.offset = hit.offset := by
  simp only [seek, Option.isNone_some, Bool.and_false, Bool.false_eq_true, if_false, if_true] at h
  split at h
  · cases h
  · obtain ⟨e, he, rfl⟩ := Option.map_eq_some_iff.mp h
    exact ⟨e, he, rfl⟩

end LetsFlutSsh.Recorder
