import LetsFlutSsh.Recorder.Reader

/-!
# Recorder: the log of attempted frames

What a list of calls does to the main file, without the bytes. Each call that has something to record
is one `Attempt`; it lands or fails by itself (`lands`). The writer numbers attempts, the reader
numbers landed frames, and the number is authenticated:

* `attempts` : the attempts of a list of calls, with the offset each one would land at;
* `numbered n as` : the landed attempts with the frame index each one was written under;
* `played` : what a reader makes of a list of numbered frames (`records_body`);
* `Aligned` : every frame is within the cap and its index is its position (`played_of_aligned`,
  `aligned_of_played`), which for a whole log is `Intact` (`aligned_numbered`).
-/

namespace LetsFlutSsh.Recorder
open Lib List Option

/-- One frame that a call tried to append. `stamp` is the index timestamp of an event, nothing for
the header. -/
structure Attempt where
  line : String
  stamp : Option UInt32
  nonce : Block 12
  offset : Nat
  landed : Bool

def Call.frame (secs : Nat) : Call → Option (String × Option UInt32 × FrameIo)
  | .header w h s io => some (headerLine w.toNat h.toNat secs s, none, io)
  | .event k b m io idx => if b.isEmpty then none else some (eventLine k b m, some idx.timestampMs, io)

def frameLen (line : String) : Nat := (utf8 line).length + 32

/-- Whether a line reaches a file of `size` bytes. -/
def lands (size : Nat) (line : String) (io : FrameIo) : Bool :=
  io.write.isNone && decide ((utf8 line).length < 2 ^ 32) && decide (size + frameLen line ≤ maxFileLen)

/-- The attempts of the calls on a file of `size` bytes. -/
def attempts (secs : Nat) : Nat → List Call → List Attempt
  | _, [] => []
  | size, c :: cs =>
    match c.frame secs with
    | none => attempts secs size cs
    | some (line, stamp, io) =>
      ⟨line, stamp, io.nonce, size, lands size line io⟩ ::
        attempts secs (if lands size line io then size + frameLen line else size) cs

/-- The landed attempts, each with its number among all attempts from `n` on. -/
def numbered : Nat → List Attempt → List (Attempt × Nat)
  | _, [] => []
  | n, x :: r => if x.landed then (x, n) :: numbered (n + 1) r else numbered (n + 1) r

def body (C : Crypto) (key : Block 32) (L : List (Attempt × Nat)) : Bytes :=
  L.flatMap fun x => (C.frame key (min x.2 u64Max) x.1.nonce (utf8 x.1.line)).getD []

variable (C : Crypto)

theorem body_append (key : Block 32) (A B : List (Attempt × Nat)) :
    body C key (A ++ B) = body C key A ++ body C key B := flatMap_append

/-- **An intact log.** No failed attempt comes before a landed one, and what landed is within the
reader's cap. -/
def Intact (as : List Attempt) : Prop :=
  as.Pairwise (fun x y => y.landed → x.landed) ∧ ∀ x ∈ as, x.landed → (utf8 x.line).length ≤ maxFramePlaintextBytes

instance : DecidablePred Intact := fun _ => instDecidableAnd

theorem lands_size {size : Nat} {line : String} {io : FrameIo} (h : lands size line io = true) :
    (utf8 line).length < 2 ^ 32 ∧ size + frameLen line ≤ maxFileLen := by
  simp only [lands, Bool.and_eq_true, decide_eq_true_eq] at h
  exact ⟨h.1.2, h.2⟩

theorem satAdd_min (n : Nat) : satAdd (min n u64Max) 1 = min (n + 1) u64Max := by
  unfold satAdd
  omega

variable {a : RecorderActor} {key : Block 32} {x : Attempt} {p : Nat} {L : List (Attempt × Nat)}

theorem recordFrameAt_cases (hkey : a.key = some key) (line : String) (io : FrameIo) :
    (lands a.file.length line io = true ∧ ∃ f, C.frame key a.frameIndex io.nonce (utf8 line) = some f ∧
      recordFrameAt C a (utf8 line) io = ({ a with
            frameIndex := satAdd a.frameIndex 1
            file := a.file ++ f
            bytesWritten := satAdd a.bytesWritten f.length },
          .ok (a.bytesWritten, satAdd a.bytesWritten f.length))) ∨
    (lands a.file.length line io = false ∧ ∃ e, recordFrameAt C a (utf8 line) io =
        ({ a with frameIndex := satAdd a.frameIndex 1 }, .error e)) := by
  by_cases hlen : (utf8 line).length < 2 ^ 32
  · obtain ⟨f, hf⟩ := isSome_iff_exists.mp (C.frame_isSome key a.frameIndex io.nonce hlen)
    obtain ⟨ct, hct, hfeq⟩ := Aead.frame_eq_some hf
    have hbuild : buildFrame C (utf8 line) a.key a.frameIndex io.nonce = .ok f := by
      simp only [buildFrame, hkey, aesGcmEncryptRaw, hct, hlen, hfeq]
      rfl
    have hflen : f.length = frameLen line := Aead.length_frame hf
    cases hw : io.write with
    | some e =>
      refine .inr ⟨by simp [lands, hw], .recorder ("frame write: " ++ e), ?_⟩
      simp only [recordFrameAt, hbuild, writeAll, hw]
    | none =>
      by_cases hfit : a.file.length + frameLen line ≤ maxFileLen
      · refine .inl ⟨by simp only [lands, hw, hlen, hfit]; rfl, f, hf, ?_⟩
        simp only [recordFrameAt, hbuild, writeAll, hw, hflen, hfit, if_true]
      · refine .inr ⟨by simp [lands, hfit], .recorder ("frame write: File too large (os error 27)"), ?_⟩
        simp only [recordFrameAt, hbuild, writeAll, hw, hflen, hfit, if_false]
        rfl
  · have hbuild : ∃ e, buildFrame C (utf8 line) a.key a.frameIndex io.nonce = .error e := by
      simp only [buildFrame, hkey]
      cases aesGcmEncryptRaw C key io.nonce (utf8 line) (leBytes 8 a.frameIndex) with
      | error e => exact ⟨e, rfl⟩
      | ok ct =>
        refine ⟨.io "recorder plaintext exceeds u32 frame length", ?_⟩
        simp only [hlen, if_false, bind, Except.bind]
        rfl
    obtain ⟨e, he⟩ := hbuild
    refine .inr ⟨by simp only [lands, hlen, decide_false, Bool.and_false, Bool.false_and], e, ?_⟩
    simp only [recordFrameAt, he]

/-- The sidecar after a call whose frame landed at `offset`. -/
def Call.indexed (C : Crypto) (w : IndexWriter) (offset : Nat) : Call → IndexWriter
  | .header .. => w
  | .event _ _ _ _ idx => (w.append C { offset, timestampMs := idx.timestampMs.toNat } idx).1

theorem Call.run_of_none {c : Call}
    (h : c.frame a.startedAtSecs = none) : c.run C a = (a, .ok a.bytesWritten) := by
  cases c with
  | header w h' s io => cases h
  | event k b m io idx =>
    have hb : b.isEmpty := by
      by_contra hb
      simp [Call.frame, hb] at h
    simp only [Call.run, recordEvent, hb, if_true]

theorem Call.run_of_some (hkey : a.key = some key)
    {c : Call} {line : String} {stamp : Option UInt32} {io : FrameIo}
    (h : c.frame a.startedAtSecs = some (line, stamp, io)) :
    (lands a.file.length line io = true ∧ ∃ f, C.frame key a.frameIndex io.nonce (utf8 line) = some f ∧
      c.run C a = ({ a with
            frameIndex := satAdd a.frameIndex 1
            file := a.file ++ f
            bytesWritten := satAdd a.bytesWritten f.length
            index := c.indexed C a.index a.bytesWritten },
          .ok (satAdd a.bytesWritten f.length))) ∨
    (lands a.file.length line io = false ∧ ∃ e,
      c.run C a = ({ a with frameIndex := satAdd a.frameIndex 1 }, .error e)) := by
  cases c with
  | header w h' s io' =>
    simp only [Call.frame, Option.some.injEq, Prod.mk.injEq] at h
    obtain ⟨rfl, rfl, rfl⟩ := h
    rcases recordFrameAt_cases C hkey (headerLine w.toNat h'.toNat a.startedAtSecs s) io' with
      ⟨hl, f, hf, hr⟩ | ⟨hl, e, hr⟩
    · refine .inl ⟨hl, f, hf, ?_⟩
      simp only [Call.run, recordHeader, hr, Call.indexed]
      rfl
    · refine .inr ⟨hl, e, ?_⟩
      simp only [Call.run, recordHeader, hr]
      rfl
  | event k b m io' idx =>
    have hb : ¬ b.isEmpty := by
      intro hb
      simp [Call.frame, hb] at h
    simp only [Call.frame, hb, Bool.false_eq_true, if_false, Option.some.injEq, Prod.mk.injEq] at h
    obtain ⟨rfl, rfl, rfl⟩ := h
    rcases recordFrameAt_cases C hkey (eventLine k b m) io' with ⟨hl, f, hf, hr⟩ | ⟨hl, e, hr⟩
    · refine .inl ⟨hl, f, hf, ?_⟩
      simp only [Call.run, recordEvent, hb, hr, Call.indexed, Bool.false_eq_true, if_false]
    · refine .inr ⟨hl, e, ?_⟩
      simp only [Call.run, recordEvent, hb, hr, Bool.false_eq_true, if_false]

variable (cs : List Call)

theorem recordAll_file (a : RecorderActor) (n : Nat)
    (hkey : a.key = some key) (hn : a.frameIndex = min n u64Max) :
    (recordAll C a cs).1.file = a.file ++ body C key (numbered n (attempts a.startedAtSecs a.file.length cs)) := by
  induction cs generalizing a n with
  | nil => simp [recordAll, attempts, numbered, body]
  | cons c cs ih =>
    cases hc : c.frame a.startedAtSecs with
    | none =>
      simp only [recordAll, Call.run_of_none C hc, attempts, hc]
      exact ih a n hkey hn
    | some x =>
      obtain ⟨line, stamp, io⟩ := x
      rcases Call.run_of_some C hkey hc with ⟨hl, f, hf, hr⟩ | ⟨hl, e, hr⟩
      · have hlen : (a.file ++ f).length = a.file.length + frameLen line := by
          rw [length_append, Aead.length_frame hf, frameLen]
        have hrest := ih (c.run C a).1 (n + 1) (by rw [hr]; exact hkey) (by rw [hr, hn, satAdd_min])
        rw [hr, hlen] at hrest
        rw [hn] at hf
        simp only [recordAll, hr, attempts, hc, hl, if_true, numbered, hrest, body, flatMap_cons,
          hf, getD_some, append_assoc]
      · have hrest := ih (c.run C a).1 (n + 1) (by rw [hr]; exact hkey) (by rw [hr, hn, satAdd_min])
        rw [hr] at hrest
        simp only [recordAll, hr, attempts, hc, hl, Bool.false_eq_true, if_false, numbered, hrest]

/-- The record a call is meant to leave: its line without the newline. -/
def Call.record (secs : Nat) : Call → Option String
  | .header w h s _ => some (String.ofList (headerText w.toNat h.toNat secs s))
  | .event k b m _ _ => if b.isEmpty then none else some (String.ofList (eventText k b m))

/-- The records of the calls that returned `Ok`, in order. -/
def okRecords (secs : Nat) : List Call → List (Except Error Nat) → List String
  | c :: cs, .ok _ :: rs => (c.record secs).toList ++ okRecords secs cs rs
  | _ :: cs, .error _ :: rs => okRecords secs cs rs
  | _, _ => []

theorem Call.record_eq (secs : Nat) (c : Call) : c.record secs = (c.frame secs).map fun x => trimEndNewlines x.1 := by
  cases c with
  | header w h s io => simp [Call.record, Call.frame, trimEndNewlines_headerLine]
  | event k b m io idx =>
    by_cases hb : b.isEmpty
    · simp [Call.record, Call.frame, hb]
    · simp [Call.record, Call.frame, hb, trimEndNewlines_eventLine]

theorem recordAll_okRecords (a : RecorderActor) (hkey : a.key = some key) :
    okRecords a.startedAtSecs cs (recordAll C a cs).2 = ((attempts a.startedAtSecs a.file.length cs).filter (·.landed)).map
        (fun x => trimEndNewlines x.line) := by
  induction cs generalizing a with
  | nil => rfl
  | cons c cs ih =>
    have hrec := c.record_eq a.startedAtSecs
    cases hc : c.frame a.startedAtSecs with
    | none =>
      rw [hc, map_none] at hrec
      simp only [recordAll, Call.run_of_none C hc, attempts, hc, okRecords, hrec, toList_none, nil_append]
      exact ih a hkey
    | some x =>
      obtain ⟨line, stamp, io⟩ := x
      rw [hc, map_some] at hrec
      rcases Call.run_of_some C hkey hc with ⟨hl, f, hf, hr⟩ | ⟨hl, e, hr⟩
      · have hlen : (a.file ++ f).length = a.file.length + frameLen line := by
          rw [length_append, Aead.length_frame hf, frameLen]
        have hrest := ih (c.run C a).1 (by rw [hr]; exact hkey)
        rw [hr, hlen] at hrest
        simp only [recordAll, hr, attempts, hc, hl, okRecords, hrec, hrest, toList_some,
          if_true, filter_cons, map_cons, singleton_append]
      · have hrest := ih (c.run C a).1 (by rw [hr]; exact hkey)
        rw [hr] at hrest
        simp only [recordAll, hr, attempts, hc, hl, okRecords, hrest, Bool.false_eq_true, if_false, filter_cons]

theorem numbered_map_fst (n : Nat) (as : List Attempt) : (numbered n as).map Prod.fst = as.filter (·.landed) := by
  induction as generalizing n with
  | nil => rfl
  | cons x r ih =>
    by_cases hx : x.landed
    · simp only [numbered, hx, if_true, map_cons, ih, filter_cons]
    · simp only [numbered, hx, Bool.false_eq_true, if_false, ih, filter_cons]

theorem length_numbered (n : Nat) (as : List Attempt) : (numbered n as).length = (as.filter (·.landed)).length := by
  rw [← numbered_map_fst n as, length_map]

theorem le_of_mem_numbered {n i : Nat} {as : List Attempt} (h : (x, i) ∈ numbered n as) : n ≤ i := by
  induction as generalizing n with
  | nil => cases h
  | cons y r ih =>
    by_cases hy : y.landed
    · simp only [numbered, hy, if_true, mem_cons, Prod.mk.injEq] at h
      rcases h with ⟨-, rfl⟩ | h
      · exact Nat.le_refl _
      · have := ih h
        omega
    · simp only [numbered, hy, Bool.false_eq_true, if_false] at h
      have := ih h
      omega

theorem attempts_fit {secs size : Nat} {cs : List Call} (hx : x ∈ attempts secs size cs) (hl : x.landed = true) :
    (utf8 x.line).length < 2 ^ 32 ∧ x.offset + frameLen x.line ≤ maxFileLen := by
  induction cs generalizing size with
  | nil => cases hx
  | cons c cs ih =>
    cases hc : c.frame secs with
    | none =>
      simp only [attempts, hc] at hx
      exact ih hx
    | some y =>
      obtain ⟨line, stamp, io⟩ := y
      simp only [attempts, hc, mem_cons] at hx
      rcases hx with rfl | hx
      · exact lands_size hl
      · exact ih hx

theorem attempts_landed_length (secs : Nat) (size : Nat) (h : size ≤ maxFileLen) :
    size + 32 * ((attempts secs size cs).filter (·.landed)).length ≤ maxFileLen := by
  induction cs generalizing size with
  | nil => simpa [attempts] using h
  | cons c cs ih =>
    cases hc : c.frame secs with
    | none =>
      simp only [attempts, hc]
      exact ih size h
    | some y =>
      obtain ⟨line, stamp, io⟩ := y
      by_cases hl : lands size line io
      · have hrest := ih (size + frameLen line) (lands_size hl).2
        simp only [attempts, hc, hl, if_true, filter_cons, length_cons]
        simp only [frameLen] at hrest ⊢
        omega
      · simp only [attempts, hc, hl, Bool.false_eq_true, if_false, filter_cons]
        exact ih size h

/-- What the reader makes of numbered frames when it counts from `p`. -/
def played : Nat → List (Attempt × Nat) → List (Except ReaderError String)
  | _, [] => []
  | p, (x, i) :: r =>
    if (utf8 x.line).length ≤ maxFramePlaintextBytes ∧ min i u64Max = min p u64Max then
      .ok (trimEndNewlines x.line) :: played (p + 1) r
    else if (utf8 x.line).length ≤ maxFramePlaintextBytes then
      [.error (.crypto "crypto: aes-gcm decrypt-raw: aead::Error")]
    else [.error (.frameTooLarge (utf8 x.line).length)]

theorem records_body (key : Block 32) (L : List (Attempt × Nat)) (p : Nat)
    (h : ∀ x ∈ L, (utf8 x.1.line).length < 2 ^ 32) :
    ({ rest := body C key L, key, frameIndex := min p u64Max, finished := false } :
      LfsrFrameIter).records C = played p L := by
  have hlt : ∀ m : Nat, min m u64Max < 2 ^ 64 := by
    intro m
    unfold u64Max
    omega
  induction L generalizing p with
  | nil => exact LfsrFrameIter.records_nil C key _
  | cons x r ih =>
    obtain ⟨x, i⟩ := x
    have hx : (utf8 x.line).length < 2 ^ 32 := h (x, i) mem_cons_self
    obtain ⟨f, hf⟩ := isSome_iff_exists.mp (C.frame_isSome key (min i u64Max) x.nonce hx)
    have hbody : body C key ((x, i) :: r) = f ++ body C key r := by
      simp only [body, flatMap_cons, hf, getD_some]
    rw [hbody, LfsrFrameIter.records_frame (hlt i) (hlt p) hx hf, satAdd_min, played,
      ih (p + 1) (fun y hy => h y (mem_cons_of_mem _ hy))]

/-- Every frame is within the cap, and numbered by its position when counting starts at `p`. -/
def Aligned : Nat → List (Attempt × Nat) → Prop
  | _, [] => True
  | p, (x, i) :: r =>
    ((utf8 x.line).length ≤ maxFramePlaintextBytes ∧ i = p) ∧ Aligned (p + 1) r

theorem played_of_aligned (h : Aligned p L) : played p L = L.map fun x => .ok (trimEndNewlines x.1.line) := by
  induction L generalizing p with
  | nil => rfl
  | cons x r ih =>
    obtain ⟨x, i⟩ := x
    obtain ⟨⟨hcap, rfl⟩, hr⟩ := h
    rw [played, if_pos ⟨hcap, rfl⟩, ih hr, map_cons]

theorem aligned_of_played (hp : p + L.length ≤ u64Max) (h : ∀ r ∈ played p L, r.toBool = true) : Aligned p L := by
  induction L generalizing p with
  | nil => trivial
  | cons x r ih =>
    obtain ⟨x, i⟩ := x
    rw [length_cons] at hp
    by_cases hx : (utf8 x.line).length ≤ maxFramePlaintextBytes ∧ min i u64Max = min p u64Max
    · rw [played, if_pos hx] at h
      refine ⟨⟨hx.1, by omega⟩, ih (by omega) fun y hy => h y (mem_cons_of_mem _ hy)⟩
    · rw [played, if_neg hx] at h
      by_cases hcap : (utf8 x.line).length ≤ maxFramePlaintextBytes
      · rw [if_pos hcap] at h
        cases h _ mem_cons_self
      · rw [if_neg hcap] at h
        cases h _ mem_cons_self

theorem played_dropLast : ∀ r ∈ (played p L).dropLast, r.toBool = true := by
  induction L generalizing p with
  | nil => intro r hr; cases hr
  | cons x r ih =>
    obtain ⟨x, i⟩ := x
    rw [played]
    split
    · cases hpl : played (p + 1) r with
      | nil => intro y hy; cases hy
      | cons y ys =>
        intro z hz
        rw [dropLast_cons_cons, ← hpl, mem_cons] at hz
        rcases hz with rfl | hz
        · rfl
        · exact ih z hz
    · split <;> intro y hy <;> cases hy

theorem intact_cons_landed {r : List Attempt} (hx : x.landed = true) :
    Intact (x :: r) ↔ (utf8 x.line).length ≤ maxFramePlaintextBytes ∧ Intact r := by
  simp only [Intact, pairwise_cons, forall_mem_cons, hx, forall_const, implies_true, true_and]
  tauto

theorem intact_cons_failed {r : List Attempt} (hx : x.landed = false) :
    Intact (x :: r) ↔ ∀ y ∈ r, y.landed = false := by
  simp only [Intact, pairwise_cons, forall_mem_cons, hx]
  constructor
  · intro h y hy
    by_contra hc
    exact Bool.false_ne_true (h.1.1 y hy (by simpa using hc))
  · intro h
    have hno : ∀ y ∈ r, y.landed = true → False := fun y hy hl => by simp [h y hy] at hl
    refine ⟨⟨fun y hy hl => (hno y hy hl).elim, ?_⟩, by simp, fun y hy hl => (hno y hy hl).elim⟩
    exact List.Pairwise.imp_mem.mpr (pairwise_of_forall fun y z _ hz hl => (hno z hz hl).elim)

/-- **When the reader's count agrees with the writer's.** The frames of a log are numbered by their
positions exactly when no failed attempt comes before a landed one. -/
theorem aligned_numbered (n : Nat) (as : List Attempt) : Aligned n (numbered n as) ↔ Intact as := by
  induction as generalizing n with
  | nil => simp [numbered, Aligned, Intact]
  | cons x r ih =>
    cases hx : x.landed with
    | true => simp only [numbered, hx, if_true, Aligned, and_true, ih, intact_cons_landed hx]
    | false =>
      rw [intact_cons_failed hx]
      simp only [numbered, hx, Bool.false_eq_true, if_false]
      constructor
      · intro hal
        -- the first frame that lands after a failed attempt carries too large a number
        cases hL : numbered (n + 1) r with
        | nil =>
          have hfilter := numbered_map_fst (n + 1) r
          rw [hL, map_nil] at hfilter
          simpa using filter_eq_nil_iff.mp hfilter.symm
        | cons z zs =>
          obtain ⟨z, i⟩ := z
          have hle : n + 1 ≤ i := le_of_mem_numbered (hL ▸ mem_cons_self)
          rw [hL] at hal
          have := hal.1.2
          omega
      · intro h
        have hfilter := numbered_map_fst (n + 1) r
        rw [filter_eq_nil_iff.mpr (fun y hy => by simp [h y hy])] at hfilter
        rw [map_eq_nil_iff.mp hfilter]
        trivial

end LetsFlutSsh.Recorder
