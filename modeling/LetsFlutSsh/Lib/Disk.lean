import LetsFlutSsh.Lib.Bytes
import LetsFlutSsh.Lib.Prog

/-!
# Files and the operations on them

* `Files` : what the files at some addresses hold;
* `FileOp`, `IoOutcome`, `FileOp.handle` : the operations, what decides how one goes, and what it does;
* `FileProg` : programs over them;
* `handle_read`, `handle_append`, … : what each operation can do, one lemma each;
* `OnlyAt` : every file but one is as it was;
* `copyChunks` : the loop that copies a file in chunks (`copyChunks_always`).

An operation fails when its outcome carries an error, or by itself (a file that is not there). A write that fails
may have written a part; `replace` is the atomic write, `rename` replaces its target and `renameNew` refuses one
that is there.
-/

namespace Lib
open Function List

variable {π : Type}

abbrev Files (π : Type) := π → Option Bytes

inductive FileOp (π : Type) where
  | open (p : π)
  | exists (p : π)
  | readAll (p : π)
  | readExact (p : π) (n : Nat)
  | read (p : π) (offset max : Nat)
  | create (p : π)
  | append (p : π) (data : Bytes)
  | sync (p : π)
  | replace (p : π) (data : Bytes)
  | rename (a b : π)
  | renameNew (a b : π)
  | remove (p : π)
  /-- Directories are not kept: making them leaves the files alone. -/
  | makeDirs (p : π)
  /-- A question to the caller: whether to go on. -/
  | ask

/-- What decides how an operation goes: an error, and how many bytes a read or a failing write moves. -/
structure IoOutcome where
  error : Option String := none
  moved : Nat := 0

def IoOutcome.Clean (o : IoOutcome) : Prop := o.error = none

instance : DecidablePred IoOutcome.Clean := fun o => inferInstanceAs (Decidable (o.error = none))

namespace FileOp

@[reducible] def Resp : FileOp π → Type
  | .exists _ | .ask => Bool
  | .readAll _ | .readExact _ _ | .read _ _ _ => Except String Bytes
  | _ => Except String Unit

end FileOp

abbrev FileProg (π : Type) := Prog (FileOp π) FileOp.Resp

namespace FileProg

def openFile (p : π) : FileProg π (Except String Unit) := .call (.open p) .done

def isThere (p : π) : FileProg π Bool := .call (.exists p) .done

def readAll (p : π) : FileProg π (Except String Bytes) := .call (.readAll p) .done
def readExact (p : π) (n : Nat) : FileProg π (Except String Bytes) := .call (.readExact p n) .done
def read (p : π) (offset max : Nat) : FileProg π (Except String Bytes) := .call (.read p offset max) .done

def create (p : π) : FileProg π (Except String Unit) := .call (.create p) .done

def append (p : π) (data : Bytes) : FileProg π (Except String Unit) := .call (.append p data) .done

def sync (p : π) : FileProg π (Except String Unit) := .call (.sync p) .done

def replace (p : π) (data : Bytes) : FileProg π (Except String Unit) := .call (.replace p data) .done

def rename (a b : π) : FileProg π (Except String Unit) := .call (.rename a b) .done
def renameNew (a b : π) : FileProg π (Except String Unit) := .call (.renameNew a b) .done

def remove (p : π) : FileProg π (Except String Unit) := .call (.remove p) .done

def makeDirs (p : π) : FileProg π (Except String Unit) := .call (.makeDirs p) .done

def ask : FileProg π Bool := .call .ask .done

end FileProg

namespace FileOp

def noSuchFile : String := "No such file or directory (os error 2)"

def fileLimit : Nat := 2 ^ 63 - 1

variable [DecidableEq π]

def handle (o : IoOutcome) : (op : FileOp π) → Files π → op.Resp × Files π
  | .open p, s =>
    match o.error, s p with
    | some e, _ => (.error e, s)
    | none, none => (.error noSuchFile, s)
    | none, some _ => (.ok (), s)
  | .exists p, s => (o.error.isNone && (s p).isSome, s)
  | .readAll p, s =>
    match o.error, s p with
    | some e, _ => (.error e, s)
    | none, none => (.error noSuchFile, s)
    | none, some data => (.ok data, s)
  | .readExact p n, s =>
    match o.error, s p with
    | some e, _ => (.error e, s)
    | none, none => (.error noSuchFile, s)
    | none, some data => (if n ≤ data.length then .ok (data.take n) else .error "failed to fill whole buffer", s)
  | .read p offset max, s =>
    match o.error, s p with
    | some e, _ => (.error e, s)
    | none, none => (.error noSuchFile, s)
    | none, some data =>
      if offset > fileLimit then (.error "Value too large for defined data type (os error 75)", s)
      -- a short read moves at least one byte
      else (.ok ((data.drop offset).take (min max (o.moved + 1))), s)
  | .create p, s =>
    match o.error with
    | some e => (.error e, s)
    | none => (.ok (), update s p (some []))
  | .append p data, s =>
    match o.error, s p with
    | some e, none => (.error e, s)
    | none, none => (.error noSuchFile, s)
    | some e, some old => (.error e, update s p (some (old ++ data.take o.moved)))
    | none, some old =>
      if (old ++ data).length ≤ fileLimit then (.ok (), update s p (some (old ++ data)))
      else (.error "File too large (os error 27)", update s p (some (old ++ data.take (fileLimit - old.length))))
  | .sync _, s | .makeDirs _, s =>
    match o.error with
    | some e => (.error e, s)
    | none => (.ok (), s)
  | .replace p data, s =>
    match o.error with
    | some e => (.error e, s)
    | none => (.ok (), update s p (some data))
  | .rename a b, s =>
    match o.error, s a with
    | some e, _ => (.error e, s)
    | none, none => (.error noSuchFile, s)
    | none, some data => (.ok (), update (update s a none) b (some data))
  | .renameNew a b, s =>
    match o.error, s a, s b with
    | some e, _, _ => (.error e, s)
    | none, none, _ => (.error noSuchFile, s)
    | none, some _, some _ => (.error "Failure", s)
    | none, some data, none => (.ok (), update (update s a none) b (some data))
  | .remove p, s =>
    match o.error, s p with
    | some e, _ => (.error e, s)
    | none, none => (.error noSuchFile, s)
    | none, some _ => (.ok (), update s p none)
  | .ask, s => (o.error.isNone, s)

variable (o : IoOutcome) (s : Files π) (p q : π)

theorem handle_open : (∃ e, handle o (.open p) s = (.error e, s) ∧ (o.Clean → s p = none)) ∨
    handle o (.open p) s = (.ok (), s) ∧ (s p).isSome := by
  simp only [handle, IoOutcome.Clean]
  rcases o.error with _ | e
  · rcases s p with _ | data
    · exact .inl ⟨noSuchFile, rfl, fun _ => rfl⟩
    · exact .inr ⟨rfl, rfl⟩
  · exact .inl ⟨e, rfl, nofun⟩

theorem handle_readExact (n : Nat) :
    (∃ e, handle o (.readExact p n) s = (.error e, s) ∧ (o.Clean → ∀ data, s p = some data → data.length < n)) ∨
    ∃ data, s p = some data ∧ n ≤ data.length ∧ handle o (.readExact p n) s = (.ok (data.take n), s) := by
  simp only [handle, IoOutcome.Clean]
  rcases o.error with _ | e
  · rcases s p with _ | data
    · exact .inl ⟨noSuchFile, rfl, nofun⟩
    · by_cases hlen : n ≤ data.length
      · exact .inr ⟨data, rfl, hlen, by simp [hlen]⟩
      · refine .inl ⟨"failed to fill whole buffer", by simp [hlen], fun _ data' hdata => ?_⟩
        cases hdata
        exact not_le.1 hlen
  · exact .inl ⟨e, rfl, nofun⟩

theorem handle_read (offset max : Nat) (hmax : 0 < max) :
    (∃ e, handle o (.read p offset max) s = (.error e, s) ∧ (o.Clean → s p = none ∨ fileLimit < offset)) ∨
    ∃ data n, s p = some data ∧ offset ≤ fileLimit ∧ 0 < n ∧ n ≤ max ∧
      handle o (.read p offset max) s = (.ok ((data.drop offset).take n), s) := by
  simp only [handle, IoOutcome.Clean]
  rcases o.error with _ | e
  · rcases s p with _ | data
    · exact .inl ⟨noSuchFile, rfl, fun _ => .inl rfl⟩
    · by_cases hlimit : fileLimit < offset
      · exact .inl ⟨_, if_pos hlimit, fun _ => .inr hlimit⟩
      · exact .inr ⟨data, min max (o.moved + 1), rfl, not_lt.1 hlimit, by omega, by omega, if_neg hlimit⟩
  · exact .inl ⟨e, rfl, nofun⟩

theorem handle_create : (∃ e, handle o (.create p) s = (.error e, s) ∧ ¬ o.Clean) ∨
    handle o (.create p) s = (.ok (), update s p (some [])) := by
  simp only [handle, IoOutcome.Clean]
  rcases o.error with _ | e
  · exact .inr rfl
  · exact .inl ⟨e, rfl, nofun⟩

theorem handle_append {old : Bytes} (h : s p = some old) (data : Bytes) :
    (∃ e part, handle o (.append p data) s = (.error e, update s p (some (old ++ part))) ∧
      (o.Clean → fileLimit < (old ++ data).length)) ∨
    handle o (.append p data) s = (.ok (), update s p (some (old ++ data))) := by
  simp only [handle, IoOutcome.Clean]
  rw [h]
  rcases o.error with _ | e
  · by_cases hlimit : (old ++ data).length ≤ fileLimit
    · exact .inr (if_pos hlimit)
    · exact .inl ⟨_, _, if_neg hlimit, fun _ => not_le.1 hlimit⟩
  · exact .inl ⟨e, data.take o.moved, rfl, nofun⟩

theorem handle_sync : (∃ e, handle o (.sync p) s = (.error e, s) ∧ ¬ o.Clean) ∨
    handle o (.sync p) s = (.ok (), s) ∧ o.Clean := by
  simp only [handle, IoOutcome.Clean]
  rcases o.error with _ | e
  · exact .inr ⟨rfl, rfl⟩
  · exact .inl ⟨e, rfl, nofun⟩

theorem handle_replace (data : Bytes) : (∃ e, handle o (.replace p data) s = (.error e, s) ∧ ¬ o.Clean) ∨
    handle o (.replace p data) s = (.ok (), update s p (some data)) ∧ o.Clean := by
  simp only [handle, IoOutcome.Clean]
  rcases o.error with _ | e
  · exact .inr ⟨rfl, rfl⟩
  · exact .inl ⟨e, rfl, nofun⟩

theorem handle_rename {data : Bytes} (h : s p = some data) : (∃ e, handle o (.rename p q) s = (.error e, s) ∧ ¬ o.Clean) ∨
    handle o (.rename p q) s = (.ok (), update (update s p none) q (some data)) := by
  simp only [handle, IoOutcome.Clean]
  rw [h]
  rcases o.error with _ | e
  · exact .inr rfl
  · exact .inl ⟨e, rfl, nofun⟩

theorem handle_renameNew {data : Bytes} (h : s p = some data) :
    (∃ e, handle o (.renameNew p q) s = (.error e, s) ∧ (o.Clean → (s q).isSome)) ∨
    handle o (.renameNew p q) s = (.ok (), update (update s p none) q (some data)) ∧ s q = none ∧ o.Clean := by
  simp only [handle, IoOutcome.Clean]
  rw [h]
  rcases o.error with _ | e
  · rcases s q with _ | old
    · exact .inr ⟨rfl, rfl, rfl⟩
    · exact .inl ⟨"Failure", rfl, fun _ => rfl⟩
  · exact .inl ⟨e, rfl, nofun⟩

theorem handle_makeDirs : (∃ e, handle o (.makeDirs p) s = (.error e, s)) ∨ handle o (.makeDirs p) s = (.ok (), s) := by
  simp only [handle]
  rcases o.error with _ | e
  · exact .inr rfl
  · exact .inl ⟨e, rfl⟩

theorem handle_remove : (∃ e, handle o (.remove p) s = (.error e, s) ∧ (o.Clean → s p = none)) ∨
    handle o (.remove p) s = (.ok (), update s p none) ∧ (s p).isSome ∧ o.Clean := by
  simp only [handle, IoOutcome.Clean]
  rcases o.error with _ | e
  · rcases s p with _ | data
    · exact .inl ⟨noSuchFile, rfl, fun _ => rfl⟩
    · exact .inr ⟨rfl, rfl, rfl⟩
  · exact .inl ⟨e, rfl, nofun⟩

end FileOp

def OnlyAt (p : π) (s t : Files π) : Prop := ∀ q, q ≠ p → t q = s q

theorem OnlyAt.refl (p : π) (s : Files π) : OnlyAt p s s := fun _ _ => rfl

theorem OnlyAt.update [DecidableEq π] {p : π} {s t : Files π} (h : OnlyAt p s t) (content : Option Bytes) :
    OnlyAt p s (update t p content) := by
  intro q hq
  rw [update_of_ne hq, h q hq]

section Copy

variable {Op ι σ ε : Type} {Resp : Op → Type}

/-- A loop that reads at an offset and writes what it read, until there is nothing left to read. `endless` is its
result when `fuel` passes were not enough. -/
def copyChunks (read : Nat → Prog Op Resp (Except ε Bytes)) (write : Nat → Bytes → Prog Op Resp (Except ε Unit))
    (endless : ε) : Nat → Nat → Prog Op Resp (Except ε Unit)
  | 0, _ => .done (.error endless)
  | fuel + 1, offset =>
    (read offset).bind fun
      | .error e => .done (.error e)
      | .ok chunk =>
        if chunk.isEmpty then .done (.ok ())
        else
          (write offset chunk).bind fun
            | .error e => .done (.error e)
            | .ok () => copyChunks read write endless fuel (offset + chunk.length)

theorem copyChunks_always {handle : ι → (op : Op) → σ → Resp op × σ} {ok : ι → Prop}
    {read : Nat → Prog Op Resp (Except ε Bytes)} {write : Nat → Bytes → Prog Op Resp (Except ε Unit)} {endless : ε}
    {I : σ → Prop} (src : Bytes) (limit : Nat) (J : Nat → σ → Prop) (E : ε → σ → Prop)
    (hread : ∀ offset s, J offset s → offset ≤ src.length → Always handle ok (read offset) s I
      (OnResult E fun chunk t => J offset t ∧ offset ≤ limit ∧ ∃ n, 0 < n ∧ chunk = (src.drop offset).take n))
    (hwrite : ∀ offset chunk s, J offset s → chunk <+: src.drop offset →
      Always handle ok (write offset chunk) s I (OnResult E fun _ t => J (offset + chunk.length) t))
    {fuel offset : Nat} (hpos : 0 < fuel) (hfuel : limit + 1 < offset + fuel) (hoffset : offset ≤ src.length) {s : σ}
    (hs : J offset s) :
    Always handle ok (copyChunks read write endless fuel offset) s I (OnResult E fun _ t => J src.length t) := by
  induction fuel generalizing offset s with
  | zero => exact absurd hpos (lt_irrefl 0)
  | succ fuel ih =>
    refine (hread offset s hs hoffset).bind fun r t hr => ?_
    rcases r with e | chunk
    · exact .done hr
    obtain ⟨ht, hlimit, n, hn, hchunk⟩ := hr
    by_cases hempty : chunk.isEmpty = true
    · dsimp only
      rw [if_pos hempty]
      have hall : src.length = offset := by
        have hlen : chunk.length = 0 := by rw [isEmpty_iff.1 hempty]; rfl
        rw [hchunk, length_take, length_drop] at hlen
        omega
      refine .done ?_
      rw [hall]
      exact ht
    · dsimp only
      rw [if_neg hempty]
      have hpre : chunk <+: src.drop offset := by
        rw [hchunk]
        exact take_prefix n _
      have hmoved : 0 < chunk.length := by
        rw [length_pos_iff]
        simpa using hempty
      have hle := hpre.length_le
      rw [length_drop] at hle
      refine (hwrite offset chunk t ht hpre).bind fun r u hu => ?_
      rcases r with e | ⟨⟩
      · exact .done hu
      · exact ih (by omega) (by omega) (by omega) hu

end Copy

end Lib
