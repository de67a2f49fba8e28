import LetsFlutSsh.Lib.Disk
import LetsFlutSsh.Lib.Json

/-!
# Security: the keychain password gate

`security/keychain_password_gate.rs` and `security/keychain_password_gate_actor.rs`: a password checked against a
salted hash on disk and a pepper in the system keychain.

* `encodeDiskBlob`, `decodeDiskBlob` : the blob on disk (`decodeDiskBlob_encode`);
* `setPassword`, `verifyPassword` : programs over the blob, the keychain entry and the rate-limit file;
* `setPassword_onePasses_iff` : which interruptions and failures leave exactly one password passing.
-/

namespace LetsFlutSsh.Security
open Lib Function

/-! ## The blob -/

def diskBlobVersion : Nat := 1

structure DiskBlob where
  salt : Bytes
  hmac : Bytes

/-- The JSON text that `encode_disk_blob` puts together, from two texts. -/
def blobText (salt hmac : String) : String :=
  "\x7b\"v\":" ++ toString diskBlobVersion ++ ",\"salt\":\"" ++ salt ++ "\",\"hmac\":\"" ++ hmac ++ "\"\x7d"

/-- The base64 engine, the JSON parser and the keyed hash that the gate calls. A base64 text needs no escape in
JSON. -/
structure GateCodec where
  encode64 : Bytes → String
  decode64 : String → Except String Bytes
  fromStr : String → Except String Json
  hmacSha256 : Bytes → Bytes → Bytes
  decode_encode : ∀ b, decode64 (encode64 b) = .ok b
  fromStr_blob : ∀ a b, fromStr (blobText (encode64 a) (encode64 b)) =
    .ok (.obj [("v", .int diskBlobVersion), ("salt", .str (encode64 a)), ("hmac", .str (encode64 b))])
  hmacSha256_ne_nil : ∀ key msg, hmacSha256 key msg ≠ []

section Blob

variable (G : GateCodec)

def encodeDiskBlob (salt hmac : Bytes) : String := blobText (G.encode64 salt) (G.encode64 hmac)

def decodeDiskBlob (blob : String) : Except String DiskBlob := do
  let value ← (G.fromStr blob).mapError ("blob: parse JSON: " ++ ·)
  let obj ← match value.asObject with
    | some obj => pure obj
    | none => throw "blob: not a JSON object"
  match (obj.get "v").bind Json.asU64 with
  | some v => if v.toNat ≠ diskBlobVersion then throw s!"blob: unsupported version {v.toNat}"
  | none => pure ()
  let salt64 ← match (obj.get "salt").bind Json.asStr with
    | some s => pure s
    | none => throw "blob: missing salt field"
  let hmac64 ← match (obj.get "hmac").bind Json.asStr with
    | some s => pure s
    | none => throw "blob: missing hmac field"
  let salt ← (G.decode64 salt64).mapError ("blob: salt decode: " ++ ·)
  let hmac ← (G.decode64 hmac64).mapError ("blob: hmac decode: " ++ ·)
  if salt.isEmpty || hmac.isEmpty then throw "blob: empty salt or hmac"
  return { salt, hmac }

def computeGateHmac (pepper salt password : Bytes) : Bytes := G.hmacSha256 pepper (salt ++ password)

theorem decodeDiskBlob_encode {salt hmac : Bytes} (hsalt : salt ≠ []) (hhmac : hmac ≠ []) :
    decodeDiskBlob G (encodeDiskBlob G salt hmac) = .ok { salt, hmac } := by
  have hempty : (salt.isEmpty || hmac.isEmpty) = false := by
    rw [Bool.or_eq_false_iff, List.isEmpty_eq_false_iff, List.isEmpty_eq_false_iff]
    exact ⟨hsalt, hhmac⟩
  unfold decodeDiskBlob encodeDiskBlob
  rw [G.fromStr_blob]
  simp [Except.mapError, Json.Object.get, Json.asU64, Json.asStr, diskBlobVersion, List.lookup_cons, G.decode_encode, hempty,
    bind, Except.bind, pure, Except.pure]

end Blob

/-! ## The programs -/

/-- Where the gate keeps things: the blob and the rate-limit state under the support directory, and the pepper
in the keychain. -/
inductive GateSlot where
  | hash
  | pepper
  | rateLimit
  deriving DecidableEq

section Programs

variable (G : GateCodec)

/-- `verify_password`. A keychain that fails is a password that does not match. -/
def verifyPassword (password : Bytes) : FileProg GateSlot (Except String Bool) := do
  match ← FileProg.readAll .hash with
  | .error e =>
    if e = FileOp.noSuchFile then return .ok false
    else return .error ("T1+pw verify: read hash file: " ++ e)
  | .ok raw =>
  match fromUtf8 raw with
  | none => return .ok false
  | some text =>
  match decodeDiskBlob G text with
  | .error _ => return .ok false
  | .ok decoded =>
  match ← FileProg.readAll .pepper with
  | .error _ => return .ok false
  | .ok pepper =>
    if pepper.isEmpty then return .ok false
    else return .ok (computeGateHmac G pepper decoded.salt password == decoded.hmac)

/-- `set_password`; the salt and the pepper are what it draws. The blob is written before the pepper. -/
def setPassword (password : Bytes) (salt pepper : Block 32) : FileProg GateSlot (Except String Unit) := do
  let blob := encodeDiskBlob G salt.1 (computeGateHmac G pepper.1 salt.1 password)
  -- `create_dir_all_secure`
  match ← FileProg.sync .hash with
  | .error e => return .error ("T1+pw set_password: create support dir: " ++ e)
  | .ok () =>
  match ← FileProg.replace .hash (utf8 blob) with
  | .error e => return .error ("T1+pw set_password: atomic write: " ++ e)
  | .ok () =>
  match ← FileProg.replace .pepper pepper.1 with
  | .error writeErr =>
    match ← FileProg.remove .hash with
    | .error rollbackErr =>
      return .error ("T1+pw set_password: keychain write failed (" ++ writeErr ++ "); rollback delete failed (" ++
        rollbackErr ++ ") — gate is half-configured, next launch will see is_configured=true but verify can never succeed")
    | .ok () =>
      return .error ("T1+pw set_password: keychain write failed (" ++ writeErr ++ "); rolled back disk hash")
  | .ok () =>
    let _ ← FileProg.remove .rateLimit
    return .ok ()

/-- `verify_password` returns `Ok(true)` on what is stored. -/
def passes (s : Files GateSlot) (password : Bytes) : Bool :=
  match ((verifyPassword G password).finish FileOp.handle (fun _ => {}) s).1 with
  | .ok b => b
  | .error _ => false

end Programs

/-! ## What passes -/

section Passes

variable {G : GateCodec} {s : Files GateSlot} {password oldPassword newPassword oldPepper raw : Bytes} {text : String}
  {blob : DiskBlob} {salt pepper : Block 32}

theorem passes_iff : passes G s password = true ↔ ∃ raw text blob pepper, s .hash = some raw ∧ fromUtf8 raw = some text ∧
    decodeDiskBlob G text = .ok blob ∧ s .pepper = some pepper ∧ pepper ≠ [] ∧
    computeGateHmac G pepper blob.salt password = blob.hmac := by
  unfold passes verifyPassword
  rcases hraw : s .hash with _ | raw
  · simp [FileProg.readAll, Prog.finish, Prog.bind, FileOp.handle, hraw]
  rcases htext : fromUtf8 raw with _ | text
  · simp [FileProg.readAll, Prog.finish, Prog.bind, FileOp.handle, hraw, htext]
  rcases hblob : decodeDiskBlob G text with e | blob
  · simp [FileProg.readAll, Prog.finish, Prog.bind, FileOp.handle, hraw, htext, hblob]
  rcases hpepper : s .pepper with _ | pepper
  · simp [FileProg.readAll, Prog.finish, Prog.bind, FileOp.handle, hraw, htext, hblob, hpepper]
  rcases pepper with _ | ⟨b, pepper⟩
  · simp [FileProg.readAll, Prog.finish, Prog.bind, FileOp.handle, hraw, htext, hblob, hpepper]
  · simp [FileProg.readAll, Prog.finish, Prog.bind, FileOp.handle, hraw, htext, hblob, hpepper]

/-- A gate that is configured: a blob that decodes, a pepper, and the password whose hash the blob holds. -/
structure GateConfigured (G : GateCodec) (s : Files GateSlot) (password : Bytes) (blob : DiskBlob) (pepper : Bytes) :
    Prop where
  hash : ∃ raw text, s .hash = some raw ∧ fromUtf8 raw = some text ∧ decodeDiskBlob G text = .ok blob
  keychain : s .pepper = some pepper
  present : pepper ≠ []
  agrees : computeGateHmac G pepper blob.salt password = blob.hmac

theorem GateConfigured.passes_iff (h : GateConfigured G s oldPassword blob oldPepper) :
    passes G s password = true ↔ computeGateHmac G oldPepper blob.salt password = blob.hmac := by
  obtain ⟨raw, text, hraw, htext, hblob⟩ := h.hash
  rw [Security.passes_iff]
  constructor
  · rintro ⟨raw', text', blob', pepper', hraw', htext', hblob', hpepper', -, hmac⟩
    rw [hraw] at hraw'
    cases hraw'
    rw [htext] at htext'
    cases htext'
    rw [hblob] at hblob'
    cases hblob'
    rw [h.keychain] at hpepper'
    cases hpepper'
    exact hmac
  · exact fun hmac => ⟨raw, text, blob, oldPepper, hraw, htext, hblob, h.keychain, h.present, hmac⟩

/-- What HMAC-SHA-256 is relied on for: different peppers, salts or passwords give different hashes. -/
def HmacHolds (G : GateCodec) (passwords salts peppers : List Bytes) : Prop :=
  ∀ pw ∈ passwords, ∀ pw' ∈ passwords, ∀ salt ∈ salts, ∀ salt' ∈ salts, ∀ pepper ∈ peppers, ∀ pepper' ∈ peppers,
    computeGateHmac G pepper salt pw = computeGateHmac G pepper' salt' pw' → pw = pw' ∧ pepper = pepper'

def OnePasses (G : GateCodec) (s : Files GateSlot) (oldPassword newPassword : Bytes) : Prop :=
  ∃! pw, (pw = oldPassword ∨ pw = newPassword) ∧ passes G s pw = true

theorem GateConfigured.onePasses (h : GateConfigured G s password blob oldPepper)
    (hpassword : password = oldPassword ∨ password = newPassword)
    (honly : ∀ pw, (pw = oldPassword ∨ pw = newPassword) →
      computeGateHmac G oldPepper blob.salt pw = computeGateHmac G oldPepper blob.salt password → pw = password) :
    OnePasses G s oldPassword newPassword := by
  refine ⟨password, ⟨hpassword, h.passes_iff.2 h.agrees⟩, fun pw hpw => honly pw hpw.1 ?_⟩
  rw [h.passes_iff.1 hpw.2, h.agrees]

def freshBlob (G : GateCodec) (password : Bytes) (salt pepper : Block 32) : Bytes :=
  utf8 (encodeDiskBlob G salt.1 (computeGateHmac G pepper.1 salt.1 password))

theorem block_ne_nil {n : Nat} (b : Block (n + 1)) : b.1 ≠ [] := by
  intro h
  have hlen := b.2
  rw [h] at hlen
  cases hlen

theorem decode_freshBlob (G : GateCodec) (password : Bytes) (salt pepper : Block 32) :
    ∃ text, fromUtf8 (freshBlob G password salt pepper) = some text ∧
      decodeDiskBlob G text = .ok ⟨salt.1, computeGateHmac G pepper.1 salt.1 password⟩ :=
  ⟨_, fromUtf8_utf8 _, decodeDiskBlob_encode G (block_ne_nil salt) (G.hmacSha256_ne_nil _ _)⟩

theorem not_passes_between (hhmac : HmacHolds G [oldPassword, newPassword] [blob.salt, salt.1] [oldPepper, pepper.1])
    (hpepper : s .pepper = some oldPepper) (hfresh : pepper.1 ≠ oldPepper)
    (hpassword : password = oldPassword ∨ password = newPassword) :
    passes G (update s .hash (some (freshBlob G newPassword salt pepper))) password = false := by
  rw [Bool.eq_false_iff]
  intro hpasses
  obtain ⟨raw, text, blob', pepper', hraw, htext, hblob, hpepper', -, hmac⟩ := Security.passes_iff.1 hpasses
  obtain ⟨text', htext', hblob'⟩ := decode_freshBlob G newPassword salt pepper
  rw [update_self] at hraw
  cases hraw
  rw [htext'] at htext
  cases htext
  rw [hblob'] at hblob
  cases hblob
  rw [update_of_ne (by decide), hpepper] at hpepper'
  cases hpepper'
  have heq := (hhmac password (by simpa using hpassword) newPassword (by simp) salt.1 (by simp) salt.1 (by simp)
    oldPepper (by simp) pepper.1 (by simp) hmac).2
  exact hfresh heq.symm

theorem not_passes_deleted (password : Bytes) : passes G (update s .hash none) password = false := by
  rw [Bool.eq_false_iff]
  intro hpasses
  obtain ⟨raw, text, blob', pepper', hraw, -⟩ := Security.passes_iff.1 hpasses
  rw [update_self] at hraw
  cases hraw

theorem gateConfigured_after (content : Option Bytes) : GateConfigured G (update (update (update s .hash
    (some (freshBlob G newPassword salt pepper))) .pepper (some pepper.1)) .rateLimit content) newPassword
    ⟨salt.1, computeGateHmac G pepper.1 salt.1 newPassword⟩ pepper.1 := by
  obtain ⟨text, htext, hblob⟩ := decode_freshBlob G newPassword salt pepper
  refine ⟨⟨_, text, ?_, htext, hblob⟩, ?_, block_ne_nil pepper, rfl⟩
  · rw [update_of_ne (by decide), update_of_ne (by decide), update_self]
  · rw [update_of_ne (by decide), update_self]

/-! ### Where a run stops -/

def BlobDone : List IoOutcome → Prop
  | o₁ :: o₂ :: _ => o₁.Clean ∧ o₂.Clean
  | _ => False

def PepperDone : List IoOutcome → Prop
  | o₁ :: o₂ :: o₃ :: _ => o₁.Clean ∧ o₂.Clean ∧ o₃.Clean
  | _ => False

theorem not_blobDone {o : IoOutcome} {os : List IoOutcome} (h : ¬ o.Clean) : ¬ BlobDone (o :: os) := by
  rcases os with _ | ⟨o', os⟩
  · exact id
  · exact fun hdone => h hdone.1

theorem exec_remove_done {α : Type} (x : GateSlot) {next : Except String Unit → FileProg GateSlot α}
    (hnext : ∀ r, ∃ a, next r = .done a) (os : List IoOutcome) (u : Files GateSlot) :
    (Prog.exec FileOp.handle (.call (.remove x) next) os u).2 = u ∨
      (Prog.exec FileOp.handle (.call (.remove x) next) os u).2 = update u x none := by
  rcases os with _ | ⟨o, os⟩
  · exact .inl rfl
  rcases FileOp.handle_remove o u x with ⟨e, hop, -⟩ | ⟨hop, -⟩
  · obtain ⟨a, ha⟩ := hnext (.error e)
    refine .inl ?_
    simp only [Prog.exec, hop, ha]
  · obtain ⟨a, ha⟩ := hnext (.ok ())
    refine .inr ?_
    simp only [Prog.exec, hop, ha]

theorem exec_setPassword (os : List IoOutcome) :
    let t := ((setPassword G newPassword salt pepper).exec FileOp.handle os s).2
    let written := update s .hash (some (freshBlob G newPassword salt pepper))
    (¬ BlobDone os ∧ t = s) ∨ (BlobDone os ∧ ¬ PepperDone os ∧ (t = written ∨ t = update written .hash none)) ∨
      (PepperDone os ∧ ∃ content, t = update (update written .pepper (some pepper.1)) .rateLimit content) := by
  intro t written
  unfold t setPassword
  rcases os with _ | ⟨o₁, os⟩
  · exact .inl ⟨id, rfl⟩
  rcases FileOp.handle_sync o₁ s .hash with ⟨e, hop₁, h₁⟩ | ⟨hop₁, h₁⟩
  · refine .inl ⟨not_blobDone h₁, ?_⟩
    simp only [Prog.bind_eq, FileProg.sync, Prog.bind, Prog.exec, hop₁, Prog.pure_eq]
  rcases os with _ | ⟨o₂, os⟩
  · refine .inl ⟨id, ?_⟩
    simp only [Prog.bind_eq, FileProg.sync, FileProg.replace, Prog.bind, Prog.exec, hop₁]
  rcases FileOp.handle_replace o₂ s .hash (freshBlob G newPassword salt pepper) with ⟨e, hop₂, h₂⟩ | ⟨hop₂, h₂⟩
  · refine .inl ⟨fun hdone => h₂ hdone.2, ?_⟩
    unfold freshBlob at hop₂
    simp only [Prog.bind_eq, FileProg.sync, FileProg.replace, Prog.bind, Prog.exec, hop₁, hop₂, Prog.pure_eq]
  have hblob : BlobDone (o₁ :: o₂ :: os) := ⟨h₁, h₂⟩
  unfold freshBlob at hop₂
  rcases os with _ | ⟨o₃, os⟩
  · refine .inr (.inl ⟨hblob, id, .inl ?_⟩)
    simp only [Prog.bind_eq, FileProg.sync, FileProg.replace, Prog.bind, Prog.exec, hop₁, hop₂]
    rfl
  rcases FileOp.handle_replace o₃ written .pepper pepper.1 with ⟨e, hop₃, h₃⟩ | ⟨hop₃, h₃⟩
  · refine .inr (.inl ⟨hblob, fun hdone => h₃ hdone.2.2, ?_⟩)
    unfold written freshBlob at hop₃ ⊢
    simp only [Prog.bind_eq, FileProg.sync, FileProg.replace, Prog.bind, Prog.exec, hop₁, hop₂, hop₃]
    exact exec_remove_done .hash (fun r => by rcases r with _ | _ <;> exact ⟨_, rfl⟩) os _
  · refine .inr (.inr ⟨⟨h₁, h₂, h₃⟩, ?_⟩)
    unfold written freshBlob at hop₃ ⊢
    simp only [Prog.bind_eq, FileProg.sync, FileProg.replace, Prog.bind, Prog.exec, hop₁, hop₂, hop₃]
    rcases exec_remove_done GateSlot.rateLimit (fun _ => ⟨Except.ok (), rfl⟩) os _ with hsame | hremoved
    · exact ⟨_, hsame.trans (update_eq_self GateSlot.rateLimit _).symm⟩
    · exact ⟨none, hremoved⟩

end Passes

/-- **Setting a new password.** Wherever `set_password` stops on a configured gate, exactly one of the two
passwords passes if the pepper followed the blob into place or the blob was not replaced, and only then. -/
theorem setPassword_onePasses_iff (G : GateCodec) (s : Files GateSlot) (oldPassword newPassword oldPepper : Bytes)
    (blob : DiskBlob) (salt pepper : Block 32) (hgate : GateConfigured G s oldPassword blob oldPepper)
    (hfresh : pepper.1 ≠ oldPepper)
    (hhmac : HmacHolds G [oldPassword, newPassword] [blob.salt, salt.1] [oldPepper, pepper.1]) (os : List IoOutcome) :
    OnePasses G ((setPassword G newPassword salt pepper).exec FileOp.handle os s).2 oldPassword newPassword ↔
      (BlobDone os → PepperDone os) := by
  have hmem : ∀ {pw}, pw = oldPassword ∨ pw = newPassword → pw ∈ [oldPassword, newPassword] := fun h => by simpa using h
  rcases exec_setPassword (G := G) (s := s) os with ⟨hblob, hstop⟩ | ⟨hblob, hpepper, hstop⟩ | ⟨hpepper, content, hstop⟩
  · rw [hstop]
    refine iff_of_true (hgate.onePasses (.inl rfl) fun pw hpw heq => ?_) fun hdone => absurd hdone hblob
    exact (hhmac pw (hmem hpw) oldPassword (by simp) blob.salt (by simp) blob.salt (by simp) oldPepper (by simp)
      oldPepper (by simp) heq).1
  · refine iff_of_false ?_ fun hdone => hpepper (hdone hblob)
    rintro ⟨pw, ⟨hpw, hpasses⟩, -⟩
    rcases hstop with hstop | hstop
    · rw [hstop, not_passes_between hhmac hgate.keychain hfresh hpw] at hpasses
      cases hpasses
    · rw [hstop, not_passes_deleted] at hpasses
      cases hpasses
  · rw [hstop]
    refine iff_of_true ((gateConfigured_after content).onePasses (.inr rfl) fun pw hpw heq => ?_) fun _ => hpepper
    exact (hhmac pw (hmem hpw) newPassword (by simp) salt.1 (by simp) salt.1 (by simp) pepper.1 (by simp)
      pepper.1 (by simp) heq).1

section Sample

def byteChar (b : UInt8) : Char := Char.ofNat (b.toNat + 256)

theorem toNat_byteChar (b : UInt8) : (byteChar b).toNat = b.toNat + 256 := by
  have hlt := b.toNat_lt
  have hvalid : (b.toNat + 256).isValidChar := Or.inl (by omega)
  unfold byteChar Char.ofNat
  rw [dif_pos hvalid]
  rfl

theorem byteChars_plain (bytes : Bytes) : ∀ c ∈ bytes.map byteChar, (c != '"') = true := by
  intro c hc
  obtain ⟨b, -, rfl⟩ := List.mem_map.1 hc
  rw [bne_iff_ne]
  intro heq
  have hnat := congrArg Char.toNat heq
  rw [toNat_byteChar] at hnat
  have hquote : '"'.toNat = 34 := rfl
  omega

/-- Texts to evaluate on: one character for a byte, and a parser that looks for the quotes. -/
def GateCodec.plain : GateCodec where
  encode64 b := String.ofList (b.map byteChar)
  decode64 t := .ok (t.toList.map fun c => UInt8.ofNat (c.toNat - 256))
  fromStr t :=
    let rest := t.toList.drop 15
    let salt := rest.takeWhile (· != '"')
    let hmac := (rest.drop (salt.length + 10)).takeWhile (· != '"')
    .ok (.obj [("v", .int diskBlobVersion), ("salt", .str (String.ofList salt)), ("hmac", .str (String.ofList hmac))])
  hmacSha256 key msg := 1 :: key.take 4 ++ msg
  decode_encode b := by
    have hback : ∀ x : UInt8, UInt8.ofNat ((byteChar x).toNat - 256) = x := fun x => by
      rw [toNat_byteChar, Nat.add_sub_cancel, UInt8.ofNat_toNat]
    rw [String.toList_ofList, List.map_map]
    exact congrArg Except.ok ((List.map_congr_left fun x _ => hback x).trans (List.map_id b))
  fromStr_blob a b := by
    have htext : (blobText (String.ofList (a.map byteChar)) (String.ofList (b.map byteChar))).toList.drop 15 =
        a.map byteChar ++ ("\",\"hmac\":\"".toList ++ (b.map byteChar ++ "\"\x7d".toList)) := by
      unfold blobText
      simp only [String.toList_append, String.toList_ofList, List.append_assoc]
      rfl
    have hsalt : (a.map byteChar ++ ("\",\"hmac\":\"".toList ++ (b.map byteChar ++ "\"\x7d".toList))).takeWhile
        (· != '"') = a.map byteChar := by
      rw [List.takeWhile_append_of_pos (byteChars_plain a)]
      exact List.append_nil _
    have hhmac : (b.map byteChar ++ "\"\x7d".toList).takeWhile (· != '"') = b.map byteChar := by
      rw [List.takeWhile_append_of_pos (byteChars_plain b)]
      exact List.append_nil _
    have hdrop : (a.map byteChar ++ ("\",\"hmac\":\"".toList ++ (b.map byteChar ++ "\"\x7d".toList))).drop
        ((a.map byteChar).length + 10) = b.map byteChar ++ "\"\x7d".toList := by
      rw [← List.drop_drop, List.drop_left]
      rfl
    dsimp only
    rw [htext, hsalt, hdrop, hhmac]
  hmacSha256_ne_nil _ _ := List.cons_ne_nil _ _

/-- The gate of the password `[1]`. -/
def sampleGate : Files GateSlot
  | .hash => some (freshBlob .plain [1] (Block.fill 32 1) (Block.fill 32 3))
  | .pepper => some (Block.fill 32 3).1
  | .rateLimit => none

def sampleBlob : DiskBlob :=
  ⟨(Block.fill 32 1).1, computeGateHmac .plain (Block.fill 32 3).1 (Block.fill 32 1).1 [1]⟩

theorem sampleGate_configured : GateConfigured .plain sampleGate [1] sampleBlob (Block.fill 32 3).1 := by
  obtain ⟨text, htext, hblob⟩ := decode_freshBlob .plain [1] (Block.fill 32 1) (Block.fill 32 3)
  exact ⟨⟨_, text, rfl, htext, hblob⟩, rfl, by decide, rfl⟩

theorem sampleHmac_holds : HmacHolds .plain [[1], [2]] [sampleBlob.salt, (Block.fill 32 2).1]
    [(Block.fill 32 3).1, (Block.fill 32 4).1] := by
  unfold HmacHolds
  decide +kernel

theorem setPassword_onePasses_sample :
    OnePasses .plain ((setPassword .plain [2] (Block.fill 32 2) (Block.fill 32 4)).exec FileOp.handle [{}, {}, {}, {}]
      sampleGate).2 [1] [2] ↔ (BlobDone [{}, {}, {}, {}] → PepperDone [{}, {}, {}, {}]) :=
  setPassword_onePasses_iff .plain sampleGate [1] [2] _ _ (Block.fill 32 2) (Block.fill 32 4) sampleGate_configured
    (by decide) sampleHmac_holds [{}, {}, {}, {}]

/-- Stopped between the blob and the pepper, `set_password` leaves a gate that no password passes; so does a keychain
failure whose rollback succeeds. -/
theorem setPassword_locked_out :
    let t := fun os => ((setPassword .plain [2] (Block.fill 32 2) (Block.fill 32 4)).exec FileOp.handle os sampleGate).2
    passes .plain sampleGate [1] = true ∧
      (passes .plain (t [{}, {}]) [1] = false ∧ passes .plain (t [{}, {}]) [2] = false) ∧
      passes .plain (t [{}, {}, ⟨some "locked", 0⟩, {}]) [1] = false ∧
      passes .plain (t [{}, {}, ⟨some "locked", 0⟩, {}]) [2] = false := by
  intro t
  have hbetween : t [{}, {}] =
      update sampleGate .hash (some (freshBlob .plain [2] (Block.fill 32 2) (Block.fill 32 4))) := rfl
  have hdeleted : t [{}, {}, ⟨some "locked", 0⟩, {}] = update (update sampleGate .hash
      (some (freshBlob .plain [2] (Block.fill 32 2) (Block.fill 32 4)))) .hash none := rfl
  rw [hbetween, hdeleted]
  refine ⟨sampleGate_configured.passes_iff.2 sampleGate_configured.agrees, ⟨?_, ?_⟩, not_passes_deleted _,
    not_passes_deleted _⟩
  · exact not_passes_between sampleHmac_holds rfl (by decide) (.inl rfl)
  · exact not_passes_between sampleHmac_holds rfl (by decide) (.inr rfl)

end Sample

end LetsFlutSsh.Security
