import LetsFlutSsh.Lib.Disk
import LetsFlutSsh.Recorder.Playback

/-!
# Recorder: rewrapping the headers of encrypted recordings

The header half of `recorder/migrate.rs`, over the files below the recordings root:

* `rewrapOneHeader`, `rewrapAllHeaders` : the sweep, as a program over file operations;
* `Progress` : every recording is as it was, or has had its header rewrapped;
* `rewrapAllHeaders_resumable` : interrupted sweeps keep every recording readable under one of the keys, and
  a sweep that is not interrupted brings all of them under the new one.
-/

namespace LetsFlutSsh.Recorder
open Lib List Function

/-! ## The sweep -/

/-- A file below the recordings root: its session directory and its name, in the system's bytes. -/
structure RecPath where
  session : Bytes
  name : Bytes
  deriving DecidableEq

/-- `Path::extension`: what follows the last dot, when something stands before that dot. -/
def extension (name : Bytes) : Option Bytes :=
  let last := name.rtakeWhile (· != 46)
  if name.length ≤ last.length + 1 then none else some last

/-- `u8::to_ascii_lowercase`. -/
def asciiLower (b : UInt8) : UInt8 := if 65 ≤ b ∧ b ≤ 90 then b + 32 else b

/-- The test of `for_each_file_with_ext`. -/
def hasExt (ext : Bytes) (p : RecPath) : Bool :=
  match extension p.name with
  | some e => e.map asciiLower == ext
  | none => false

def lfsrExt : Bytes := [108, 102, 115, 114]

/-- `{b:02x}` for every byte. -/
def hexBytes (bytes : Bytes) : String :=
  String.ofList (bytes.flatMap fun b => [hexDigit (b.toNat / 16), hexDigit b.toNat])

structure RewrapDraw where
  suffix : Block 8
  wrapNonce : Block 12

structure MigrateOutcome where
  headersRewrapped : Nat := 0
  castToLfsr : Nat := 0
  lfsrToCast : Nat := 0
  skipped : Nat := 0
  deriving DecidableEq

section Sweep

variable (C : Crypto) (display : RecPath → String) (oldDbKey newDbKey : Block 32)

def atomicTmpPath (target : RecPath) (suffix : Block 8) : Except Error RecPath :=
  match fromUtf8 target.name with
  | none => .error (.recorder ("tmp target bad name: " ++ display target))
  | some name => .ok { target with name := utf8 (name ++ ".tmp." ++ hexBytes suffix.1) }

def copyRead (src : RecPath) (offset : Nat) : FileProg RecPath (Except Error Bytes) := do
  match ← FileProg.read src offset (64 * 1024) with
  | .error e => return .error (.recorder ("copy_remaining read: " ++ e))
  | .ok chunk => return .ok chunk

def copyWrite (dst : RecPath) (chunk : Bytes) : FileProg RecPath (Except Error Unit) := do
  match ← FileProg.append dst chunk with
  | .error e => return .error (.recorder ("copy_remaining write: " ++ e))
  | .ok () => return .ok ()

/-- `copy_remaining`: the body of `src`, from behind its header. -/
def copyRemaining (src dst : RecPath) : FileProg RecPath (Except Error Unit) :=
  copyChunks (copyRead src) (fun _ => copyWrite dst) (.recorder "copy_remaining") (FileOp.fileLimit + 2) lfrHeaderLen

/-- The part of `rewrap_one_header` that writes: the new file beside the old one, then over it. -/
def replaceHeader (path tmp : RecPath) (newHeader : Bytes) : FileProg RecPath (Except Error Bool) := do
  match ← FileProg.create tmp with
  | .error e => return .error (.recorder ("rewrap tmp create " ++ display tmp ++ ": " ++ e))
  | .ok () =>
  match ← FileProg.append tmp newHeader with
  | .error e => return .error (.recorder ("rewrap tmp header: " ++ e))
  | .ok () =>
  match ← copyRemaining path tmp with
  | .error e => return .error e
  | .ok () =>
  match ← FileProg.sync tmp with
  | .error e => return .error (.recorder ("rewrap tmp fsync: " ++ e))
  | .ok () =>
  -- `harden_file_perms`
  match ← FileProg.sync tmp with
  | .error e => return .error (.recorder ("rewrap tmp harden: " ++ e))
  | .ok () =>
  match ← FileProg.rename tmp path with
  | .error e =>
    let _ ← FileProg.remove tmp
    return .error (.recorder ("rewrap rename " ++ display path ++ ": " ++ e))
  | .ok () => return .ok true

def rewrapOneHeader (d : RewrapDraw) (path : RecPath) : FileProg RecPath (Except Error Bool) := do
  match ← FileProg.openFile path with
  | .error e => return .error (.recorder ("rewrap open " ++ display path ++ ": " ++ e))
  | .ok () =>
  match ← FileProg.readExact path lfrHeaderLen with
  | .error _ => return .ok false
  | .ok header =>
    if header.take 4 ≠ lfrMagic ∨ header.getD 4 0 ≠ lfrVersion then return .ok false
    else if (unwrapLfsrHeader C header newDbKey).isOk then return .ok false
    else
      match unwrapLfsrHeader C header oldDbKey with
      | .error _ => return .ok false
      | .ok recordingKey =>
        match buildLfsrHeader C newDbKey recordingKey d.wrapNonce with
        | .error e => return .error e
        | .ok newHeader =>
          match atomicTmpPath display path d.suffix with
          | .error e => return .error e
          | .ok tmp => replaceHeader display path tmp newHeader

/-- The files of the walk, one after the other; the first error ends it. -/
def rewrapFiles (draws : Nat → RewrapDraw) :
    List RecPath → Nat → MigrateOutcome → FileProg RecPath (Except Error MigrateOutcome)
  | [], _, outcome => return .ok outcome
  | path :: rest, i, outcome => do
    match ← rewrapOneHeader C display oldDbKey newDbKey (draws i) path with
    | .error e => return .error e
    | .ok true => rewrapFiles draws rest (i + 1) { outcome with headersRewrapped := outcome.headersRewrapped + 1 }
    | .ok false => rewrapFiles draws rest (i + 1) { outcome with skipped := outcome.skipped + 1 }

/-- `rewrap_all_headers`; `walk` is what `read_dir` yields of the regular files in the session directories. -/
def rewrapAllHeaders (draws : Nat → RewrapDraw) (walk : List RecPath) : FileProg RecPath (Except Error MigrateOutcome) :=
  rewrapFiles C display oldDbKey newDbKey draws (walk.filter (hasExt lfsrExt)) 0 {}

end Sweep

/-! ## Scratch files are not recordings -/

theorem utf8EncodeChar_hexDigit (n : Nat) :
    (String.utf8EncodeChar (hexDigit n)).length = 1 ∧ 46 ∉ String.utf8EncodeChar (hexDigit n) := by
  unfold hexDigit
  have hn : n % 16 < 16 := Nat.mod_lt _ (by omega)
  generalize n % 16 = m at hn
  revert m
  decide

theorem utf8_hexBytes (bytes : Bytes) : (utf8 (hexBytes bytes)).length = 2 * bytes.length ∧ 46 ∉ utf8 (hexBytes bytes) := by
  unfold hexBytes
  rw [utf8_eq_flatMap, String.toList_ofList]
  induction bytes with
  | nil => exact ⟨rfl, not_mem_nil⟩
  | cons b bytes ih =>
    obtain ⟨hhigh, hhigh'⟩ := utf8EncodeChar_hexDigit (b.toNat / 16)
    obtain ⟨hlow, hlow'⟩ := utf8EncodeChar_hexDigit b.toNat
    obtain ⟨hlen, hdot⟩ := ih
    simp only [flatMap_cons, flatMap_append, flatMap_nil, append_nil, length_append, length_cons, mem_append, not_or]
    exact ⟨by omega, ⟨hhigh', hlow'⟩, hdot⟩

theorem extension_dot {front last : Bytes} (hfront : front ≠ []) (hlast : 46 ∉ last) :
    extension (front ++ 46 :: last) = some last := by
  have htake : (front ++ 46 :: last).rtakeWhile (· != 46) = last := by
    unfold List.rtakeWhile
    rw [reverse_append, reverse_cons, append_assoc, takeWhile_append_of_pos]
    · simp
    · intro b hb
      rw [mem_reverse] at hb
      simpa using fun h : b = 46 => hlast (h ▸ hb)
  have hlen : 0 < front.length := length_pos_iff.2 hfront
  unfold extension
  simp only [htake]
  rw [if_neg]
  rw [length_append, length_cons]
  omega

variable {display : RecPath → String}

theorem hasExt_tmp {target tmp : RecPath} {suffix : Block 8}
    (h : atomicTmpPath display target suffix = .ok tmp) : hasExt lfsrExt tmp = false := by
  unfold atomicTmpPath at h
  rcases hname : fromUtf8 target.name with _ | name
  · rw [hname] at h
    cases h
  rw [hname] at h
  cases h
  obtain ⟨hlen, hdot⟩ := utf8_hexBytes suffix.1
  have hbytes : utf8 (name ++ ".tmp." ++ hexBytes suffix.1) =
      (utf8 name ++ [46, 116, 109, 112]) ++ 46 :: utf8 (hexBytes suffix.1) := by
    rw [utf8_append, utf8_append]
    show utf8 name ++ [46, 116, 109, 112, 46] ++ _ = _
    simp
  unfold hasExt
  rw [hbytes, extension_dot (by simp) hdot]
  rw [beq_eq_false_iff_ne]
  intro heq
  have hfour := congrArg List.length heq
  rw [length_map, hlen, suffix.2] at hfour
  cases hfour

variable {C : Crypto}

/-! ## Opening under a key -/

section Opening

variable {key rk : Block 32} {file : Bytes}

def Readable (C : Crypto) (file : Bytes) (key : Block 32) : Prop := ∃ records, playback C file key none = .ok records

theorem unwrapLfsrHeader_take (h : lfrHeaderLen ≤ file.length) (key : Block 32) :
    unwrapLfsrHeader C (file.take lfrHeaderLen) key = unwrapLfsrHeader C file key := by
  have hshort : readExact lfrHeaderLen (file.take lfrHeaderLen) = some (file.take lfrHeaderLen, []) := by
    simpa using readExact_append (length_take_of_le h) []
  have hlong : readExact lfrHeaderLen file = some (file.take lfrHeaderLen, file.drop lfrHeaderLen) := if_pos h
  unfold unwrapLfsrHeader
  rw [hshort, hlong]

theorem length_of_unwrap (h : unwrapLfsrHeader C file key = .ok rk) : lfrHeaderLen ≤ file.length := by
  unfold unwrapLfsrHeader readExact at h
  by_contra hlen
  rw [if_neg hlen] at h
  cases h

theorem magic_of_unwrap (h : unwrapLfsrHeader C file key = .ok rk) :
    (file.take lfrHeaderLen).take 4 = lfrMagic ∧ (file.take lfrHeaderLen).getD 4 0 = lfrVersion := by
  have hlong : readExact lfrHeaderLen file = some (file.take lfrHeaderLen, file.drop lfrHeaderLen) :=
    if_pos (length_of_unwrap h)
  unfold unwrapLfsrHeader at h
  rw [hlong] at h
  dsimp only at h
  split_ifs at h with hmagic hversion
  exact ⟨not_not.1 hmagic, not_not.1 hversion⟩

theorem openLfsrIterAt_eq (h : lfrHeaderLen ≤ file.length) : openLfsrIterAt C file key none =
    if (file.take lfrHeaderLen).take 4 ≠ lfrMagic then .error .badMagic
    else if (file.take lfrHeaderLen).getD 4 0 ≠ lfrVersion then
      .error (.unsupportedVersion ((file.take lfrHeaderLen).getD 4 0))
    else
      match unwrapLfsrHeader C file key with
      | .error e => .error (.crypto e.text)
      | .ok key => .ok { rest := file.drop lfrHeaderLen, key, frameIndex := 0, finished := false } := by
  have hlong : readExact lfrHeaderLen file = some (file.take lfrHeaderLen, file.drop lfrHeaderLen) := if_pos h
  unfold openLfsrIterAt
  rw [hlong]
  rcases hunwrap : unwrapLfsrHeader C file key with e | rk <;>
    simp only [unwrapLfsrHeader_take h, hunwrap]

theorem playback_of_unwrap (h : unwrapLfsrHeader C file key = .ok rk) : playback C file key none = .ok
    (({ rest := file.drop lfrHeaderLen, key := rk, frameIndex := 0, finished := false } : LfsrFrameIter).records C) := by
  obtain ⟨hmagic, hversion⟩ := magic_of_unwrap h
  unfold playback
  rw [openLfsrIterAt_eq (length_of_unwrap h), if_neg (not_not.2 hmagic), if_neg (not_not.2 hversion), h]
  rfl

theorem readable_iff : Readable C file key ↔ ∃ rk, unwrapLfsrHeader C file key = .ok rk := by
  constructor
  · rintro ⟨records, h⟩
    unfold playback at h
    by_cases hlen : lfrHeaderLen ≤ file.length
    · rw [openLfsrIterAt_eq hlen] at h
      rcases hunwrap : unwrapLfsrHeader C file key with e | rk
      · rw [hunwrap] at h
        split_ifs at h <;> cases h
      · exact ⟨rk, rfl⟩
    · unfold openLfsrIterAt readExact at h
      rw [if_neg hlen] at h
      cases h
  · rintro ⟨rk, h⟩
    exact ⟨_, playback_of_unwrap h⟩

end Opening

variable {ok : IoOutcome → Prop}

/-! ## One file -/

section One

variable {oldDbKey newDbKey : Block 32}
  {s t : Files RecPath} {path tmp : RecPath} {file newHeader : Bytes}

def Unhindered (ok : IoOutcome → Prop) (file : Bytes) : Prop := (∀ o, ok o → o.Clean) ∧ file.length ≤ FileOp.fileLimit

def OnlyScratch (s t : Files RecPath) (tmp : RecPath) : Prop := ∀ q, q ≠ tmp → t q = s q

theorem OnlyScratch.update (h : OnlyScratch s t tmp) (content : Option Bytes) :
    OnlyScratch s (update t tmp content) tmp := by
  intro q hq
  rw [update_of_ne hq, h q hq]

/-- The scratch file holds the new header and the body up to an offset. -/
def CopiedTo (s : Files RecPath) (tmp : RecPath) (newHeader file : Bytes) (offset : Nat) (u : Files RecPath) : Prop :=
  OnlyScratch s u tmp ∧ lfrHeaderLen ≤ offset ∧ u tmp = some (newHeader ++ (file.take offset).drop lfrHeaderLen)

def GaveUp (ok : IoOutcome → Prop) (s : Files RecPath) (tmp : RecPath) (file : Bytes) (u : Files RecPath) : Prop :=
  OnlyScratch s u tmp ∧ ¬ Unhindered ok file

theorem copyRead_always (htmp : path ≠ tmp) (hfile : s path = some file) (offset : Nat) (u : Files RecPath)
    (hu : CopiedTo s tmp newHeader file offset u) (hoffset : offset ≤ file.length) :
    Always FileOp.handle ok (copyRead path offset) u (OnlyScratch s · tmp)
      (OnResult (fun _ => GaveUp ok s tmp file) fun chunk v => CopiedTo s tmp newHeader file offset v ∧
        offset ≤ FileOp.fileLimit ∧ ∃ n, 0 < n ∧ chunk = (file.drop offset).take n) := by
  refine Always.call hu.1 fun o ho => ?_
  have hpath : u path = some file := by rw [hu.1 path htmp, hfile]
  rcases FileOp.handle_read o u path offset (64 * 1024) (by omega) with ⟨e, hread, hclean⟩ |
    ⟨data, n, hdata, hlimit, hn, -, hread⟩
  · rw [hread]
    refine .done ⟨hu.1, fun hfine => ?_⟩
    rcases hclean (hfine.1 o ho) with hnone | hlimit
    · rw [hpath] at hnone
      cases hnone
    · exact absurd (hoffset.trans hfine.2) (not_le.2 hlimit)
  · rw [hread]
    rw [hpath] at hdata
    cases hdata
    exact .done ⟨hu, hlimit, n, hn, rfl⟩

theorem copyWrite_always (hlen : lfrHeaderLen ≤ file.length) (hheader : newHeader.length = lfrHeaderLen)
    (offset : Nat) (chunk : Bytes) (u : Files RecPath) (hu : CopiedTo s tmp newHeader file offset u)
    (hchunk : chunk <+: file.drop offset) :
    Always FileOp.handle ok (copyWrite tmp chunk) u (OnlyScratch s · tmp)
      (OnResult (fun _ => GaveUp ok s tmp file) fun _ => CopiedTo s tmp newHeader file (offset + chunk.length)) := by
  refine Always.call hu.1 fun o ho => ?_
  rcases FileOp.handle_append o u tmp hu.2.2 chunk with ⟨e, part, hwrite, hclean⟩ | hwrite
  · rw [hwrite]
    refine .done ⟨hu.1.update _, fun hfine => ?_⟩
    have hlong := hclean (hfine.1 o ho)
    have hshort := hchunk.length_le
    have hlimit := hfine.2
    have hfrom := hu.2.1
    rw [length_append, length_append, length_drop, length_take, hheader] at hlong
    rw [length_drop] at hshort
    omega
  · rw [hwrite]
    refine .done ⟨hu.1.update _, hu.2.1.trans (Nat.le_add_right _ _), ?_⟩
    obtain ⟨rest, hrest⟩ := hchunk
    have htake : file.take (offset + chunk.length) = file.take offset ++ chunk := by
      rw [take_add, ← hrest, take_left' rfl]
    have hfrom : lfrHeaderLen ≤ (file.take offset).length := by
      rw [length_take]
      exact le_min hu.2.1 hlen
    show update u tmp _ tmp = _
    rw [update_self, htake, drop_append_of_le_length hfrom, append_assoc]

section

variable (htmp : path ≠ tmp) (hfile : s path = some file) (hlen : lfrHeaderLen ≤ file.length)
  (hheader : newHeader.length = lfrHeaderLen)
include htmp hfile hlen hheader

theorem copyRemaining_always (hs : OnlyScratch s t tmp) (hstart : t tmp = some newHeader) :
    Always FileOp.handle ok (copyRemaining path tmp) t (OnlyScratch s · tmp)
      (OnResult (fun _ => GaveUp ok s tmp file) fun _ u =>
        OnlyScratch s u tmp ∧ u tmp = some (newHeader ++ file.drop lfrHeaderLen)) := by
  have hinit : CopiedTo s tmp newHeader file lfrHeaderLen t := by
    refine ⟨hs, Nat.le_refl _, ?_⟩
    rw [hstart, drop_take, Nat.sub_self, take_zero, append_nil]
  have hpos : 0 < FileOp.fileLimit + 2 := Nat.succ_pos _
  have hfuel : FileOp.fileLimit + 1 < lfrHeaderLen + (FileOp.fileLimit + 2) := by omega
  have hloop : Always FileOp.handle ok (copyRemaining path tmp) t (OnlyScratch s · tmp)
      (OnResult (fun _ => GaveUp ok s tmp file) fun _ => CopiedTo s tmp newHeader file file.length) :=
    copyChunks_always file FileOp.fileLimit _ _ (copyRead_always htmp hfile)
      (fun offset => copyWrite_always hlen hheader offset) hpos hfuel hlen hinit
  refine hloop.conseq (fun _ h => h) fun r u hu => ?_
  rcases r with e | ⟨⟩
  · exact hu
  · obtain ⟨honly, -, hcopied⟩ := hu
    rw [take_length] at hcopied
    exact ⟨honly, hcopied⟩

theorem replaceHeader_always : Always FileOp.handle ok (replaceHeader display path tmp newHeader) s (OnlyScratch s · tmp)
    (OnResult (fun _ => GaveUp ok s tmp file) fun _ u =>
      u path = some (newHeader ++ file.drop lfrHeaderLen) ∧ ∀ q, q ≠ tmp → q ≠ path → u q = s q) := by
  have hsame : OnlyScratch s s tmp := fun _ _ => rfl
  refine Always.call hsame fun o ho => ?_
  rcases FileOp.handle_create o s tmp with ⟨e, hop, hclean⟩ | hop
  · rw [hop]
    exact .done ⟨hsame, fun h => hclean (h.1 o ho)⟩
  rw [hop]
  have hempty := hsame.update (some [])
  refine Always.call hempty fun o ho => ?_
  rcases FileOp.handle_append o _ tmp (update_self tmp (some []) s) newHeader with ⟨e, part, hop, hclean⟩ | hop
  · rw [hop]
    refine .done ⟨hempty.update _, fun h => ?_⟩
    have hlong := hclean (h.1 o ho)
    have hlimit := h.2
    rw [nil_append, hheader] at hlong
    omega
  rw [hop]
  refine (copyRemaining_always htmp hfile hlen hheader (hempty.update _) (update_self ..)).bind fun r u hu => ?_
  rcases r with e | ⟨⟩
  · exact .done hu
  obtain ⟨hu, hcopied⟩ := hu
  refine Always.call hu fun o ho => ?_
  rcases FileOp.handle_sync o u tmp with ⟨e, hop, hclean⟩ | ⟨hop, -⟩
  · rw [hop]
    exact .done ⟨hu, fun h => hclean (h.1 o ho)⟩
  rw [hop]
  refine Always.call hu fun o ho => ?_
  rcases FileOp.handle_sync o u tmp with ⟨e, hop, hclean⟩ | ⟨hop, -⟩
  · rw [hop]
    exact .done ⟨hu, fun h => hclean (h.1 o ho)⟩
  rw [hop]
  refine Always.call hu fun o ho => ?_
  rcases FileOp.handle_rename o u tmp path hcopied with ⟨e, hop, hclean⟩ | hop
  · rw [hop]
    refine Always.call hu fun o' _ => ?_
    rcases FileOp.handle_remove o' u tmp with ⟨e', hop', -⟩ | ⟨hop', -⟩
    · rw [hop']
      exact .done ⟨hu, fun h => hclean (h.1 o ho)⟩
    · rw [hop']
      exact .done ⟨hu.update _, fun h => hclean (h.1 o ho)⟩
  · rw [hop]
    refine .done ⟨update_self .., fun q hq hpath => ?_⟩
    show update (update u tmp none) path _ q = s q
    rw [update_of_ne hpath, update_of_ne hq, hu q hq]

end

/-- A recording with its header rewrapped: what the sweep makes of a file it can read under the old key only. -/
def Rewrapped (C : Crypto) (oldDbKey newDbKey : Block 32) (file file' : Bytes) : Prop :=
  ∃ rk nonce header, unwrapLfsrHeader C file oldDbKey = .ok rk ∧ ¬ Readable C file newDbKey ∧
    buildLfsrHeader C newDbKey rk nonce = .ok header ∧ file' = header ++ file.drop lfrHeaderLen

def Stepped (C : Crypto) (oldDbKey newDbKey : Block 32) (s t : Files RecPath) (p : RecPath) : Prop :=
  t p = s p ∨ ∃ file file', s p = some file ∧ t p = some file' ∧ Rewrapped C oldDbKey newDbKey file file'

theorem buildLfsrHeader_isOk (C : Crypto) (dk rk : Block 32) (nonce : Block 12) :
    ∃ header, buildLfsrHeader C dk rk nonce = .ok header := by
  have hsome := C.encrypt_isSome dk nonce rk.1 keywrapAad (by rw [rk.2]; decide) (by decide)
  obtain ⟨wrapped, hwrapped⟩ := Option.isSome_iff_exists.1 hsome
  unfold buildLfsrHeader aesGcmEncryptRaw
  rw [hwrapped]
  exact ⟨_, rfl⟩

/-- What the rewrap of one file leaves, and what it achieves when nothing fails. -/
structure Handled (C : Crypto) (oldDbKey newDbKey : Block 32) (ok : IoOutcome → Prop) (s : Files RecPath) (path : RecPath)
    (r : Except Error Bool) (t : Files RecPath) : Prop where
  others : ∀ p, hasExt lfsrExt p = true → p ≠ path → t p = s p
  stepped : Stepped C oldDbKey newDbKey s t path
  landed : ∀ file, s path = some file → Unhindered ok file → (Readable C file oldDbKey → (fromUtf8 path.name).isSome) →
    r.isOk = true ∧ (Readable C file oldDbKey → ∃ file', t path = some file' ∧ Readable C file' newDbKey)

theorem Handled.skip {r : Except Error Bool}
    (h : ∀ file, s path = some file → Unhindered ok file → (Readable C file oldDbKey → (fromUtf8 path.name).isSome) →
      r.isOk = true ∧ (Readable C file oldDbKey → Readable C file newDbKey)) :
    Handled C oldDbKey newDbKey ok s path r s where
  others _ _ _ := rfl
  stepped := .inl rfl
  landed file hfile hfine hname := ⟨(h file hfile hfine hname).1, fun hold => ⟨file, hfile, (h file hfile hfine hname).2 hold⟩⟩

theorem rewrapOneHeader_always (d : RewrapDraw) (hpath : hasExt lfsrExt path = true) :
    Always FileOp.handle ok (rewrapOneHeader C display oldDbKey newDbKey d path) s
      (fun t => ∀ p, hasExt lfsrExt p = true → t p = s p) (Handled C oldDbKey newDbKey ok s path) := by
  refine Always.call (fun _ _ => rfl) fun o ho => ?_
  rcases FileOp.handle_open o s path with ⟨e, hop, hclean⟩ | ⟨hop, -⟩
  · rw [hop]
    refine .done (.skip fun file hfile hfine _ => ?_)
    rw [hclean (hfine.1 o ho)] at hfile
    cases hfile
  rw [hop]
  refine Always.call (fun _ _ => rfl) fun o ho => ?_
  rcases FileOp.handle_readExact o s path lfrHeaderLen with ⟨e, hop, hclean⟩ | ⟨file, hfile, hlen, hop⟩
  · rw [hop]
    refine .done (.skip fun file hfile hfine _ => ⟨rfl, fun hold => ?_⟩)
    obtain ⟨rk, hrk⟩ := readable_iff.1 hold
    exact absurd (hclean (hfine.1 o ho) file hfile) (not_lt.2 (length_of_unwrap hrk))
  rw [hop]
  dsimp only [Prog.bind_done]
  by_cases hmagic : (file.take lfrHeaderLen).take 4 ≠ lfrMagic ∨ (file.take lfrHeaderLen).getD 4 0 ≠ lfrVersion
  · rw [if_pos hmagic]
    refine .done (.skip fun file' hfile' _ _ => ⟨rfl, fun hold => ?_⟩)
    rw [hfile] at hfile'
    cases hfile'
    obtain ⟨rk, hrk⟩ := readable_iff.1 hold
    exact absurd (magic_of_unwrap hrk) (by rwa [not_and_or])
  rw [if_neg hmagic, unwrapLfsrHeader_take hlen, unwrapLfsrHeader_take hlen]
  rcases hnew : unwrapLfsrHeader C file newDbKey with e | rk
  swap
  · refine .done (.skip fun file' hfile' _ _ => ⟨rfl, fun _ => ?_⟩)
    rw [hfile] at hfile'
    cases hfile'
    exact readable_iff.2 ⟨rk, hnew⟩
  rw [if_neg (by simp [Except.isOk, Except.toBool])]
  rcases hold : unwrapLfsrHeader C file oldDbKey with e' | rk
  · refine .done (.skip fun file' hfile' _ _ => ⟨rfl, fun hread => ?_⟩)
    rw [hfile] at hfile'
    cases hfile'
    obtain ⟨rk, hrk⟩ := readable_iff.1 hread
    rw [hold] at hrk
    cases hrk
  have hreadable : Readable C file oldDbKey := readable_iff.2 ⟨rk, hold⟩
  obtain ⟨header, hheader⟩ := buildLfsrHeader_isOk C newDbKey rk d.wrapNonce
  dsimp only
  rw [hheader]
  rcases htmp : atomicTmpPath display path d.suffix with e' | tmp
  · refine .done (.skip fun file' hfile' _ hname => ?_)
    rw [hfile] at hfile'
    cases hfile'
    unfold atomicTmpPath at htmp
    obtain ⟨name, hname⟩ := Option.isSome_iff_exists.1 (hname hreadable)
    rw [hname] at htmp
    cases htmp
  have hne : path ≠ tmp := by
    rintro rfl
    rw [hasExt_tmp htmp] at hpath
    cases hpath
  have hkeep : ∀ p, hasExt lfsrExt p = true → p ≠ tmp := by
    rintro p hp rfl
    rw [hasExt_tmp htmp] at hp
    cases hp
  refine (replaceHeader_always hne hfile hlen (buildLfsrHeader_ok hheader).choose_spec.2.2).conseq
    (fun t ht p hp => ht p (hkeep p hp)) fun r t ht => ?_
  rcases r with e' | b
  · refine ⟨fun p hp _ => ht.1 p (hkeep p hp), .inl (ht.1 path hne), fun file' hfile' hfine _ => ?_⟩
    rw [hfile] at hfile'
    cases hfile'
    exact absurd hfine ht.2
  have hland : Readable C (header ++ file.drop lfrHeaderLen) newDbKey := by
    unfold Readable playback
    rw [openLfsrIterAt_header hheader]
    exact ⟨_, rfl⟩
  refine ⟨fun p hp hne' => ht.2 p (hkeep p hp) hne', .inr ⟨file, _, hfile, ht.1, ?_⟩, fun file' hfile' _ _ => ⟨rfl, fun _ => ⟨_, ht.1, hland⟩⟩⟩
  refine ⟨rk, d.wrapNonce, header, hold, fun hread => ?_, hheader, rfl⟩
  obtain ⟨rk', hrk'⟩ := readable_iff.1 hread
  rw [hnew] at hrk'
  cases hrk'

end One

/-! ## The whole sweep -/

section Whole

variable {oldDbKey newDbKey : Block 32}
  {s t u : Files RecPath} {p : RecPath} {file file' : Bytes}

section

variable (h : Rewrapped C oldDbKey newDbKey file file')
include h

theorem Rewrapped.playback_eq : playback C file' newDbKey none = playback C file oldDbKey none := by
  obtain ⟨rk, nonce, header, hold, -, hheader, rfl⟩ := h
  rw [playback_of_unwrap hold]
  unfold playback
  rw [openLfsrIterAt_header hheader]
  rfl

theorem Rewrapped.readable : Readable C file oldDbKey ∧ Readable C file' newDbKey := by
  obtain ⟨rk, nonce, header, hold, -, hheader, rfl⟩ := h
  refine ⟨readable_iff.2 ⟨rk, hold⟩, ?_⟩
  unfold Readable playback
  rw [openLfsrIterAt_header hheader]
  exact ⟨_, rfl⟩

theorem Rewrapped.drop_eq : file'.drop lfrHeaderLen = file.drop lfrHeaderLen ∧ file'.length = file.length := by
  obtain ⟨rk, nonce, header, hold, -, hheader, rfl⟩ := h
  have hlen := (buildLfsrHeader_ok hheader).choose_spec.2.2
  have hfile := length_of_unwrap hold
  refine ⟨drop_left' hlen, ?_⟩
  rw [length_append, length_drop, hlen]
  omega

end

theorem Stepped.keeps (h : Stepped C oldDbKey newDbKey s t p) (hfile : s p = some file)
    (hnew : Readable C file newDbKey) : t p = some file := by
  rcases h with h | ⟨file₁, file₂, hfile₁, -, rk, nonce, header, -, hnot, -⟩
  · rw [h, hfile]
  · rw [hfile] at hfile₁
    cases hfile₁
    exact absurd hnew hnot

theorem Stepped.trans (h : Stepped C oldDbKey newDbKey s t p) (h' : Stepped C oldDbKey newDbKey t u p) :
    Stepped C oldDbKey newDbKey s u p := by
  rcases h with h | ⟨file, file', hfile, hfile', hre⟩
  · unfold Stepped at h' ⊢
    rwa [h] at h'
  · exact .inr ⟨file, file', hfile, h'.keeps hfile' hre.readable.2, hre⟩

def Ready (C : Crypto) (oldDbKey : Block 32) (s : Files RecPath) (p : RecPath) : Prop :=
  ∃ file, s p = some file ∧ file.length ≤ FileOp.fileLimit ∧ (Readable C file oldDbKey → (fromUtf8 p.name).isSome)

theorem Stepped.ready (h : Stepped C oldDbKey newDbKey s t p) (hready : Ready C oldDbKey s p) : Ready C oldDbKey t p := by
  obtain ⟨file, hfile, hsize, hname⟩ := hready
  rcases h with h | ⟨file₁, file₂, hfile₁, hfile₂, hre⟩
  · exact ⟨file, by rw [h, hfile], hsize, hname⟩
  · rw [hfile] at hfile₁
    cases hfile₁
    exact ⟨file₂, hfile₂, by rwa [hre.drop_eq.2], fun _ => hname hre.readable.1⟩

def Progress (C : Crypto) (oldDbKey newDbKey : Block 32) (s t : Files RecPath) : Prop :=
  ∀ p, hasExt lfsrExt p = true → Stepped C oldDbKey newDbKey s t p

theorem Handled.progress {r : Except Error Bool} (h : Handled C oldDbKey newDbKey ok s p r t) :
    Progress C oldDbKey newDbKey s t := by
  intro q hq
  by_cases hqp : q = p
  · rw [hqp]
    exact h.stepped
  · exact .inl (h.others q hq hqp)

/-- What a walk leaves, and what it achieves when nothing fails. -/
structure Swept (C : Crypto) (oldDbKey newDbKey : Block 32) (ok : IoOutcome → Prop) (s : Files RecPath)
    (paths : List RecPath) (r : Except Error MigrateOutcome) (t : Files RecPath) : Prop where
  progress : Progress C oldDbKey newDbKey s t
  landed : (∀ o, ok o → o.Clean) → (∀ p ∈ paths, Ready C oldDbKey s p) →
    r.isOk = true ∧ ∀ p ∈ paths, ∀ file, s p = some file → Readable C file oldDbKey →
      ∃ file', t p = some file' ∧ Readable C file' newDbKey

theorem rewrapFiles_always (draws : Nat → RewrapDraw) {paths : List RecPath}
    (hpaths : ∀ p ∈ paths, hasExt lfsrExt p = true) (i : Nat) (outcome : MigrateOutcome) :
    Always FileOp.handle ok (rewrapFiles C display oldDbKey newDbKey draws paths i outcome) s
      (Progress C oldDbKey newDbKey s) (Swept C oldDbKey newDbKey ok s paths) := by
  induction paths generalizing s i outcome with
  | nil => exact .done ⟨fun _ _ => .inl rfl, fun _ _ => ⟨rfl, fun p hp => absurd hp not_mem_nil⟩⟩
  | cons path paths ih =>
    obtain ⟨hpath, hrest⟩ := forall_mem_cons.1 hpaths
    refine Always.bind ((rewrapOneHeader_always (draws i) hpath).conseq (fun t ht q hq => .inl (ht q hq))
      fun _ _ h => h) fun r t hr => ?_
    -- what the rest of the walk does from here
    have hnext : ∀ outcome' : MigrateOutcome, r.isOk = true → Always FileOp.handle ok
        (rewrapFiles C display oldDbKey newDbKey draws paths (i + 1) outcome') t
        (Progress C oldDbKey newDbKey s) (Swept C oldDbKey newDbKey ok s (path :: paths)) := by
      intro outcome' _
      refine (ih hrest (s := t) (i + 1) outcome').conseq (fun u hu q hq => (hr.progress q hq).trans (hu q hq))
        fun r' u hu => ⟨fun q hq => (hr.progress q hq).trans (hu.progress q hq), fun hclean hready => ?_⟩
      obtain ⟨hfirst, hready⟩ := forall_mem_cons.1 hready
      obtain ⟨hok, hlanded⟩ := hu.landed hclean fun q hq => (hr.progress q (hrest q hq)).ready (hready q hq)
      refine ⟨hok, forall_mem_cons.2 ⟨fun file hfile hold => ?_, fun q hq file hfile hold => ?_⟩⟩
      · obtain ⟨file₀, hfile₀, hsize, hname⟩ := hfirst
        rw [hfile] at hfile₀
        cases hfile₀
        obtain ⟨file', hfile', hnew⟩ := (hr.landed file hfile ⟨hclean, hsize⟩ hname).2 hold
        exact ⟨file', (hu.progress path hpath).keeps hfile' hnew, hnew⟩
      · rcases hr.progress q (hrest q hq) with hsame | ⟨file₁, file₂, hfile₁, hfile₂, hre⟩
        · exact hlanded q hq file (by rw [hsame, hfile]) hold
        · exact ⟨file₂, (hu.progress q (hrest q hq)).keeps hfile₂ hre.readable.2, hre.readable.2⟩
    rcases r with e | b
    · refine .done ⟨hr.progress, fun hclean hready => ?_⟩
      obtain ⟨file, hfile, hsize, hname⟩ := hready path mem_cons_self
      cases (hr.landed file hfile ⟨hclean, hsize⟩ hname).1
    · cases b
      · exact hnext _ rfl
      · exact hnext _ rfl

theorem rewrapAllHeaders_always (draws : Nat → RewrapDraw) (walk : List RecPath) :
    Always FileOp.handle ok (rewrapAllHeaders C display oldDbKey newDbKey draws walk) s
      (Progress C oldDbKey newDbKey s) (Swept C oldDbKey newDbKey ok s (walk.filter (hasExt lfsrExt))) :=
  rewrapFiles_always draws (fun _ hp => (mem_filter.1 hp).2) 0 {}

/-- A sweep that stops somewhere: the files it walks, what it draws, and how each operation goes until then. -/
structure PartialSweep where
  draws : Nat → RewrapDraw
  walk : List RecPath
  outcomes : List IoOutcome

def afterSweeps (C : Crypto) (display : RecPath → String) (oldDbKey newDbKey : Block 32) (sweeps : List PartialSweep)
    (s : Files RecPath) : Files RecPath :=
  sweeps.foldl (fun s w =>
    ((rewrapAllHeaders C display oldDbKey newDbKey w.draws w.walk).exec FileOp.handle w.outcomes s).2) s

theorem progress_afterSweeps (sweeps : List PartialSweep) :
    Progress C oldDbKey newDbKey s (afterSweeps C display oldDbKey newDbKey sweeps s) := by
  induction sweeps generalizing s with
  | nil => exact fun _ _ => .inl rfl
  | cons w sweeps ih =>
    have hstop : Always FileOp.handle (fun _ => True)
        (rewrapAllHeaders C display oldDbKey newDbKey w.draws w.walk) s (Progress C oldDbKey newDbKey s)
        fun _ => Progress C oldDbKey newDbKey s :=
      (rewrapAllHeaders_always w.draws w.walk).conseq (fun _ h => h) fun _ _ h => h.progress
    have hfirst := hstop.stops (fun o (_ : o ∈ w.outcomes) => trivial)
    exact fun q hq => (hfirst q hq).trans (ih q hq)

/-- The two keys do not open each other's headers: no recording opens under both, and none that is sealed
again under the new key opens under the old one. -/
structure KeysApart (C : Crypto) (oldDbKey newDbKey : Block 32) (s : Files RecPath) : Prop where
  wrapped : ∀ p file, hasExt lfsrExt p = true → s p = some file → Readable C file oldDbKey →
    oldDbKey ≠ newDbKey → ¬ Readable C file newDbKey
  resealed : ∀ p file rk nonce header, hasExt lfsrExt p = true → s p = some file →
    unwrapLfsrHeader C file oldDbKey = .ok rk → buildLfsrHeader C newDbKey rk nonce = .ok header →
    oldDbKey ≠ newDbKey → ¬ Readable C header oldDbKey

theorem unwrap_header_append {header : Bytes} (hlen : header.length = lfrHeaderLen) (body : Bytes) (key : Block 32) :
    Readable C (header ++ body) key ↔ Readable C header key := by
  rw [readable_iff, readable_iff]
  have hfits : lfrHeaderLen ≤ (header ++ body).length := by
    rw [length_append]
    omega
  have hlong := unwrapLfsrHeader_take (C := C) hfits key
  rw [take_left' hlen] at hlong
  rw [hlong]

theorem Stepped.oneKey (h : Stepped C oldDbKey newDbKey s t p) (hkeys : KeysApart C oldDbKey newDbKey s)
    (hp : hasExt lfsrExt p = true) (hfile : s p = some file) (hold : Readable C file oldDbKey) :
    ∃ file', t p = some file' ∧ (∃! key, (key = oldDbKey ∨ key = newDbKey) ∧ Readable C file' key) ∧
      file'.drop lfrHeaderLen = file.drop lfrHeaderLen ∧
      ∀ key, (key = oldDbKey ∨ key = newDbKey) → Readable C file' key →
        playback C file' key none = playback C file oldDbKey none := by
  have honly : ∀ key, (key = oldDbKey ∨ key = newDbKey) → Readable C file key → key = oldDbKey := by
    rintro key (rfl | rfl) hkey
    · rfl
    · by_contra hne
      exact hkeys.wrapped p file hp hfile hold (Ne.symm hne) hkey
  rcases h with h | ⟨file₁, file', hfile₁, hfile', hre⟩
  · refine ⟨file, by rw [h, hfile], ⟨oldDbKey, ⟨.inl rfl, hold⟩, fun key hkey => honly key hkey.1 hkey.2⟩, rfl,
      fun key hkey hread => ?_⟩
    rw [honly key hkey hread]
  rw [hfile] at hfile₁
  cases hfile₁
  have hnew : ∀ key, (key = oldDbKey ∨ key = newDbKey) → Readable C file' key → key = newDbKey := by
    rintro key (rfl | rfl) hkey
    · by_contra hne
      obtain ⟨rk, nonce, header, hunwrap, -, hheader, rfl⟩ := hre
      have hlen := (buildLfsrHeader_ok hheader).choose_spec.2.2
      exact hkeys.resealed p file rk nonce header hp hfile hunwrap hheader hne ((unwrap_header_append hlen _ _).1 hkey)
    · rfl
  refine ⟨file', hfile', ⟨newDbKey, ⟨.inr rfl, hre.readable.2⟩, fun key hkey => hnew key hkey.1 hkey.2⟩,
    hre.drop_eq.1, fun key hkey hread => ?_⟩
  rw [hnew key hkey hread, hre.playback_eq]

/-- **Rewrapping is resumable.** Sweeps that fail or are interrupted anywhere leave every recording of the old
key readable under one of the two keys, with its frames; a sweep over the recordings in which nothing fails then
brings all of them under the new key. Recordings of neither key stay as they are. -/
theorem rewrapAllHeaders_resumable (C : Crypto) (display : RecPath → String) (oldDbKey newDbKey : Block 32)
    (s : Files RecPath) (hkeys : KeysApart C oldDbKey newDbKey s) (sweeps : List PartialSweep)
    (draws : Nat → RewrapDraw) (walk : List RecPath)
    (hwalk : ∀ p, hasExt lfsrExt p = true → (p ∈ walk ↔ (s p).isSome))
    (hready : ∀ p ∈ walk, hasExt lfsrExt p = true → Ready C oldDbKey s p)
    (outcomes : Nat → IoOutcome) (hclean : ∀ n, (outcomes n).Clean) :
    let t := afterSweeps C display oldDbKey newDbKey sweeps s
    let rerun := (rewrapAllHeaders C display oldDbKey newDbKey draws walk).finish FileOp.handle outcomes t
    (∀ p file, hasExt lfsrExt p = true → s p = some file → Readable C file oldDbKey →
      (∃ file', t p = some file' ∧ (∃! key, (key = oldDbKey ∨ key = newDbKey) ∧ Readable C file' key) ∧
        file'.drop lfrHeaderLen = file.drop lfrHeaderLen ∧
        ∀ key, (key = oldDbKey ∨ key = newDbKey) → Readable C file' key →
          playback C file' key none = playback C file oldDbKey none) ∧
      ∃ file', rerun.2 p = some file' ∧ file'.drop lfrHeaderLen = file.drop lfrHeaderLen ∧
        playback C file' newDbKey none = playback C file oldDbKey none ∧ Readable C file' newDbKey) ∧
    rerun.1.isOk = true ∧
    ∀ p file, hasExt lfsrExt p = true → s p = some file → ¬ Readable C file oldDbKey →
      t p = some file ∧ rerun.2 p = some file := by
  intro t rerun
  have hprogress : Progress C oldDbKey newDbKey s t := progress_afterSweeps sweeps
  have hswept : Swept C oldDbKey newDbKey IoOutcome.Clean t (walk.filter (hasExt lfsrExt)) rerun.1 rerun.2 :=
    (rewrapAllHeaders_always draws walk).finish hclean
  have hall : Progress C oldDbKey newDbKey s rerun.2 := fun q hq => (hprogress q hq).trans (hswept.progress q hq)
  obtain ⟨hok, hlanded⟩ := hswept.landed (fun _ h => h) fun p hp => by
    obtain ⟨hmem, hext⟩ := mem_filter.1 hp
    exact (hprogress p hext).ready (hready p hmem hext)
  refine ⟨fun p file hp hfile hold => ⟨(hprogress p hp).oneKey hkeys hp hfile hold, ?_⟩, hok,
    fun p file hp hfile hnot => ?_⟩
  · obtain ⟨file', hfile', -, hdrop, hplay⟩ := (hall p hp).oneKey hkeys hp hfile hold
    have hnew : Readable C file' newDbKey := by
      have hmem : p ∈ walk.filter (hasExt lfsrExt) := mem_filter.2 ⟨(hwalk p hp).2 (by rw [hfile]; rfl), hp⟩
      rcases hprogress p hp with hsame | ⟨file₁, file₂, hfile₁, hfile₂, hre⟩
      · obtain ⟨file'', hfile'', hread⟩ := hlanded p hmem file (by rw [hsame, hfile]) hold
        rw [hfile'] at hfile''
        cases hfile''
        exact hread
      · have hkept := (hswept.progress p hp).keeps hfile₂ hre.readable.2
        rw [hfile'] at hkept
        cases hkept
        exact hre.readable.2
    exact ⟨file', hfile', hdrop, hplay newDbKey (.inr rfl) hnew, hnew⟩
  · have hsame : ∀ v, Progress C oldDbKey newDbKey s v → v p = some file := by
      intro v hv
      rcases hv p hp with h | ⟨file₁, file₂, hfile₁, -, hre⟩
      · rw [h, hfile]
      · rw [hfile] at hfile₁
        cases hfile₁
        exact absurd hre.readable.1 hnot
    exact ⟨hsame t hprogress, hsame rerun.2 hall⟩

end Whole

section Sample

def Crypto.keyed : Crypto where
  toAead := Aead.keyed
  hkdfSha256 ikm _ _ n := (ikm ++ List.replicate n 0).take n
  length_hkdfSha256 := length_stretched

/-- A recording without frames, wrapped under the key of these bytes. -/
def sampleLfsr (key : UInt8) : Bytes :=
  lfrMagic ++ [lfrVersion] ++ List.replicate 12 5 ++ (List.replicate 32 7 ++ Aead.keyTag (Block.fill 32 key) keywrapAad)

def newPath : RecPath := ⟨[115], utf8 "b.lfsr"⟩
def foreignPath : RecPath := ⟨[116], utf8 "c.lfsr"⟩

/-- One recording is under the old key, one under the new key, and one under another. -/
def sampleFiles (oldPath : RecPath) : Files RecPath := fun p =>
  if p = oldPath then some (sampleLfsr 1)
  else if p = newPath then some (sampleLfsr 2)
  else if p = foreignPath then some (sampleLfsr 3)
  else none

def sampleDraw : RewrapDraw := ⟨Block.fill 8 6, Block.fill 12 9⟩

theorem sampleFiles_cases {oldPath p : RecPath} {file : Bytes} (h : sampleFiles oldPath p = some file) :
    file = sampleLfsr 1 ∨ file = sampleLfsr 2 ∨ file = sampleLfsr 3 := by
  unfold sampleFiles at h
  split_ifs at h
  · exact .inl (Option.some.inj h).symm
  · exact .inr (.inl (Option.some.inj h).symm)
  · exact .inr (.inr (Option.some.inj h).symm)

theorem not_readable_sample {k key : UInt8}
    (h : (unwrapLfsrHeader Crypto.keyed (sampleLfsr k) (Block.fill 32 key)).isOk = false) :
    ¬ Readable Crypto.keyed (sampleLfsr k) (Block.fill 32 key) := by
  intro hread
  obtain ⟨rk, hrk⟩ := readable_iff.1 hread
  rw [hrk] at h
  cases h

theorem keysApart_sample (oldPath : RecPath) :
    KeysApart Crypto.keyed (Block.fill 32 1) (Block.fill 32 2) (sampleFiles oldPath) := by
  refine ⟨fun q file _ h hold _ => ?_, fun q file rk nonce header _ h _ hheader _ hread => ?_⟩
  · rcases sampleFiles_cases h with rfl | rfl | rfl
    · exact not_readable_sample (by decide +kernel)
    · exact absurd hold (not_readable_sample (by decide +kernel))
    · exact absurd hold (not_readable_sample (by decide +kernel))
  · obtain ⟨rk', hrk'⟩ := readable_iff.1 hread
    obtain ⟨wrapped, henc, hunwrap⟩ := unwrapLfsrHeader_iff hheader (Block.fill 32 1)
    have hdec := (hunwrap rk').1 hrk'
    cases henc
    have htag : ¬ Aead.keyTag (Block.fill 32 2) keywrapAad = Aead.keyTag (Block.fill 32 1) keywrapAad := by decide
    simp [Crypto.keyed, Aead.keyed, htag] at hdec

def oldPath : RecPath := ⟨[115], utf8 "a.lfsr"⟩
def sampleWalk : List RecPath := [oldPath, newPath, foreignPath]

/-- Sweeps of the sample from the old key to the new one, the first of which stops in the middle of the first recording. -/
def sampleSwept : Files RecPath :=
  afterSweeps Crypto.keyed (fun _ => "") (Block.fill 32 1) (Block.fill 32 2) [⟨fun _ => sampleDraw, sampleWalk, [{}, {}, {}]⟩]
    (sampleFiles oldPath)

theorem rewrapAllHeaders_resumable_sample :
    let rerun := (rewrapAllHeaders Crypto.keyed (fun _ => "") (Block.fill 32 1) (Block.fill 32 2) (fun _ => sampleDraw)
      sampleWalk).finish FileOp.handle (fun _ => {}) sampleSwept
    rerun.1.isOk = true ∧ (∃ file', rerun.2 oldPath = some file' ∧ Readable Crypto.keyed file' (Block.fill 32 2)) ∧
      rerun.2 newPath = some (sampleLfsr 2) ∧ rerun.2 foreignPath = some (sampleLfsr 3) := by
  have hwalk : ∀ p, hasExt lfsrExt p = true → (p ∈ sampleWalk ↔ (sampleFiles oldPath p).isSome) := by
    intro p _
    simp only [sampleWalk, sampleFiles, mem_cons, not_mem_nil, or_false]
    split_ifs <;> simp_all
  have hready : ∀ p ∈ sampleWalk, hasExt lfsrExt p = true → Ready Crypto.keyed (Block.fill 32 1) (sampleFiles oldPath) p := by
    intro p hp _
    simp only [sampleWalk, mem_cons, not_mem_nil, or_false] at hp
    rcases hp with rfl | rfl | rfl
    · exact ⟨sampleLfsr 1, by decide +kernel, by decide, fun _ => by decide +kernel⟩
    · exact ⟨sampleLfsr 2, by decide +kernel, by decide, fun _ => by decide +kernel⟩
    · exact ⟨sampleLfsr 3, by decide +kernel, by decide, fun _ => by decide +kernel⟩
  have hread : Readable Crypto.keyed (sampleLfsr 1) (Block.fill 32 1) :=
    readable_iff.2 ⟨Block.fill 32 7, by decide +kernel⟩
  obtain ⟨hsealed, hok, hothers⟩ := rewrapAllHeaders_resumable Crypto.keyed (fun _ => "") (Block.fill 32 1)
    (Block.fill 32 2) (sampleFiles oldPath) (keysApart_sample oldPath) [⟨fun _ => sampleDraw, sampleWalk, [{}, {}, {}]⟩]
    (fun _ => sampleDraw) sampleWalk hwalk hready (fun _ => {}) fun _ => rfl
  obtain ⟨file', hfile', -, -, hnew⟩ := (hsealed oldPath (sampleLfsr 1) (by decide +kernel) (by decide +kernel) hread).2
  have hkept := hothers newPath (sampleLfsr 2) (by decide +kernel) (by decide +kernel) (not_readable_sample (by decide +kernel))
  have hforeign := hothers foreignPath (sampleLfsr 3) (by decide +kernel) (by decide +kernel)
    (not_readable_sample (by decide +kernel))
  exact ⟨hok, ⟨file', hfile', hnew⟩, hkept.2, hforeign.2⟩

/-- A recording whose name is not UTF-8 ends every sweep with an error, and stays under the old key. -/
theorem rewrapAllHeaders_bad_name :
    let p : RecPath := ⟨[115], 255 :: utf8 ".lfsr"⟩
    let rerun := (rewrapAllHeaders Crypto.keyed (fun _ => "s/?.lfsr") (Block.fill 32 1) (Block.fill 32 2)
      (fun _ => sampleDraw) [p]).finish FileOp.handle (fun _ => {}) (sampleFiles p)
    rerun.1 = .error (.recorder "tmp target bad name: s/?.lfsr") ∧ rerun.2 p = some (sampleLfsr 1) ∧
      (playback Crypto.keyed (sampleLfsr 1) (Block.fill 32 1) none).isOk = true ∧
      (playback Crypto.keyed (sampleLfsr 1) (Block.fill 32 2) none).isOk = false := by
  decide +kernel

end Sample

end LetsFlutSsh.Recorder
