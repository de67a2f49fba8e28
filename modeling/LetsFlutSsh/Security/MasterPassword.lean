import LetsFlutSsh.Lib.Aead
import LetsFlutSsh.Lib.Disk

/-!
# Security: the master password

`security/master_password.rs`: the two files of the master-password tier and their replacement.

* `KdfParams.encode`, `KdfParams.decode`, `encodeKdfRecord`, `decodeKdfRecord` : `credentials.kdf`
  (`decodeKdfRecord_encode`);
* `encryptVerifier`, `verifyAgainstVerifier` : `credentials.verify`;
* `enable`, `changePassword`, `verifyAndDerive` : programs over the two files;
* `changePassword_oneAccepted_iff` : which interruptions and failures leave exactly one of the passwords working.
-/

namespace LetsFlutSsh.Security
open Lib List Function Prog

/-! ## The record of the derivation -/

def kdfMagic : Bytes := [0x4C, 0x46, 0x4B, 0x44]
def kdfVersion : UInt8 := 1
def headerBaseLen : Nat := 6
def saltLength : Nat := 32
def verifierPlaintext : Bytes := utf8 "LetsFLUTssh-verify"
def argon2idAlgoId : UInt8 := 0x01

def argon2idMaxMemoryKib : Nat := 1024 * 1024
def argon2idMaxIterations : Nat := 16
def argon2idMaxParallelism : Nat := 8

structure KdfParams where
  memoryKib : UInt32
  iterations : UInt32
  parallelism : UInt8
  deriving DecidableEq

def KdfParams.defaults : KdfParams := ⟨64 * 1024, 3, 1⟩

/-- `u32::to_be_bytes`. -/
def beBytes (n : UInt32) : Bytes := (leBytes 4 n.toNat).reverse

/-- `u32::from_be_bytes`. -/
def ofBeBytes (bytes : Bytes) : UInt32 := UInt32.ofNat (ofLeBytes bytes.reverse)

/-- `{b:02x}`. -/
def hexByte (b : UInt8) : String :=
  let digit (n : Nat) : Char := "0123456789abcdef".toList.getD (n % 16) '0'
  String.ofList [digit (b.toNat / 16), digit b.toNat]

def KdfParams.encode (p : KdfParams) : Bytes :=
  [argon2idAlgoId] ++ beBytes p.memoryKib ++ beBytes p.iterations ++ [p.parallelism]

def KdfParams.encodedLength : Nat := 10

def KdfParams.decode (bytes : Bytes) : Except String KdfParams :=
  if bytes.isEmpty then .error "KdfParams: empty input"
  else if bytes.getD 0 0 ≠ argon2idAlgoId then
    .error ("KdfParams: unknown algorithm id 0x" ++ hexByte (bytes.getD 0 0))
  else if bytes.length < 10 then .error "KdfParams: truncated Argon2id params"
  else
    let memoryKib := ofBeBytes ((bytes.drop 1).take 4)
    let iterations := ofBeBytes ((bytes.drop 5).take 4)
    let parallelism := bytes.getD 9 0
    if memoryKib = 0 ∨ iterations = 0 ∨ parallelism = 0 then .error "KdfParams: Argon2id params must be > 0"
    else if memoryKib.toNat > argon2idMaxMemoryKib then
      .error s!"KdfParams: Argon2id memory {memoryKib.toNat} KiB exceeds sanity cap {argon2idMaxMemoryKib} KiB"
    else if iterations.toNat > argon2idMaxIterations then
      .error s!"KdfParams: Argon2id iterations {iterations.toNat} exceeds sanity cap {argon2idMaxIterations}"
    else if parallelism.toNat > argon2idMaxParallelism then
      .error s!"KdfParams: Argon2id parallelism {parallelism.toNat} exceeds sanity cap {argon2idMaxParallelism}"
    else .ok { memoryKib, iterations, parallelism }

structure KdfRecord where
  params : KdfParams
  salt : Block 32
  deriving DecidableEq

def encodeKdfRecord (r : KdfRecord) : Bytes :=
  kdfMagic ++ [kdfVersion] ++ [argon2idAlgoId] ++ r.params.encode ++ r.salt.1

def decodeKdfRecord (bytes : Bytes) : Except String KdfRecord := do
  if bytes.length < headerBaseLen + 1 + saltLength then throw "credentials.kdf: truncated header"
  if bytes.take 4 ≠ kdfMagic then throw "credentials.kdf: bad magic"
  if bytes.getD 4 0 ≠ kdfVersion then
    throw ("credentials.kdf: unsupported version 0x" ++ hexByte (bytes.getD 4 0))
  let params ← KdfParams.decode (bytes.drop headerBaseLen)
  match readBlock 32 (bytes.drop (headerBaseLen + KdfParams.encodedLength)) with
  | none => throw "credentials.kdf: truncated salt"
  | some (salt, _) => return { params, salt }

/-- Parameters that a reader accepts. -/
structure KdfParams.Sane (p : KdfParams) : Prop where
  memory : 0 < p.memoryKib.toNat ∧ p.memoryKib.toNat ≤ argon2idMaxMemoryKib
  iterations : 0 < p.iterations.toNat ∧ p.iterations.toNat ≤ argon2idMaxIterations
  parallelism : 0 < p.parallelism.toNat ∧ p.parallelism.toNat ≤ argon2idMaxParallelism

theorem ofBeBytes_beBytes (n : UInt32) : ofBeBytes (beBytes n) = n := by
  unfold ofBeBytes beBytes
  rw [reverse_reverse, ofLeBytes_leBytes n.toNat_lt]
  exact UInt32.ofNat_toNat

theorem KdfParams.decode_encode (p : KdfParams) (rest : Bytes) : (KdfParams.decode (p.encode ++ rest) = .ok p ∧ p.Sane) ∨
    (∃ e, KdfParams.decode (p.encode ++ rest) = .error e) ∧ ¬ p.Sane := by
  have hmemory : ofBeBytes (((p.encode ++ rest).drop 1).take 4) = p.memoryKib := ofBeBytes_beBytes p.memoryKib
  have hiterations : ofBeBytes (((p.encode ++ rest).drop 5).take 4) = p.iterations := ofBeBytes_beBytes p.iterations
  have hparallelism : (p.encode ++ rest).getD 9 0 = p.parallelism := rfl
  have halgo : (p.encode ++ rest).getD 0 0 = argon2idAlgoId := rfl
  have hlen : ¬ (p.encode ++ rest).length < 10 := by
    rw [length_append]
    show ¬ 10 + rest.length < 10
    omega
  have hempty : (p.encode ++ rest).isEmpty = false := rfl
  unfold KdfParams.decode
  rw [hempty, if_neg Bool.false_ne_true, if_neg (not_not.2 halgo), if_neg hlen]
  simp only [hmemory, hiterations, hparallelism]
  split_ifs with hzero hmem hit hpar
  · refine .inr ⟨⟨_, rfl⟩, fun h => ?_⟩
    rcases hzero with h₀ | h₀ | h₀
    · exact absurd h.memory.1 (by rw [h₀]; decide)
    · exact absurd h.iterations.1 (by rw [h₀]; decide)
    · exact absurd h.parallelism.1 (by rw [h₀]; decide)
  · exact .inr ⟨⟨_, rfl⟩, fun h => absurd h.memory.2 (not_le.2 hmem)⟩
  · exact .inr ⟨⟨_, rfl⟩, fun h => absurd h.iterations.2 (not_le.2 hit)⟩
  · exact .inr ⟨⟨_, rfl⟩, fun h => absurd h.parallelism.2 (not_le.2 hpar)⟩
  · simp only [not_or] at hzero
    refine .inl ⟨rfl, ?_, ?_, ?_⟩
    · exact ⟨Nat.pos_of_ne_zero fun h => hzero.1 (UInt32.toNat_inj.1 h), not_lt.1 hmem⟩
    · exact ⟨Nat.pos_of_ne_zero fun h => hzero.2.1 (UInt32.toNat_inj.1 h), not_lt.1 hit⟩
    · exact ⟨Nat.pos_of_ne_zero fun h => hzero.2.2 (UInt8.toNat_inj.1 h), not_lt.1 hpar⟩

theorem decodeKdfRecord_encode (r : KdfRecord) : (decodeKdfRecord (encodeKdfRecord r) = .ok r ∧ r.params.Sane) ∨
    (∃ e, decodeKdfRecord (encodeKdfRecord r) = .error e) ∧ ¬ r.params.Sane := by
  have hlen : ¬ (encodeKdfRecord r).length < headerBaseLen + 1 + saltLength := by
    unfold encodeKdfRecord headerBaseLen saltLength
    rw [length_append, r.salt.2]
    show ¬ 16 + 32 < 6 + 1 + 32
    omega
  have hmagic : (encodeKdfRecord r).take 4 = kdfMagic := rfl
  have hversion : (encodeKdfRecord r).getD 4 0 = kdfVersion := rfl
  have hparams : (encodeKdfRecord r).drop headerBaseLen = r.params.encode ++ r.salt.1 := rfl
  have hsalt : readBlock 32 ((encodeKdfRecord r).drop (headerBaseLen + KdfParams.encodedLength)) = some (r.salt, []) := by
    have hdrop : (encodeKdfRecord r).drop (headerBaseLen + KdfParams.encodedLength) = r.salt.1 ++ [] := by
      rw [append_nil]
      rfl
    rw [hdrop, readBlock_append]
  unfold decodeKdfRecord
  rw [if_neg hlen, if_neg (not_not.2 hmagic), if_neg (not_not.2 hversion), hparams, hsalt]
  rcases KdfParams.decode_encode r.params r.salt.1 with ⟨hdecode, hsane⟩ | ⟨⟨e, hdecode⟩, hsane⟩
  · rw [hdecode]
    exact .inl ⟨rfl, hsane⟩
  · rw [hdecode]
    exact .inr ⟨⟨e, rfl⟩, hsane⟩

/-! ## The programs -/

/-- The files of the tier in the support directory. -/
inductive SupportFile where
  | kdf
  | verifier
  deriving DecidableEq

def SupportFile.name : SupportFile → String
  | .kdf => "credentials.kdf"
  | .verifier => "credentials.verify"

section Programs

variable (A : Aead) (argon2id : Bytes → KdfRecord → Except String (Block 32))

/-- `derive_key`; `argon2id` is the third-party derivation. -/
def deriveKey (password : Bytes) (r : KdfRecord) : Except String (Block 32) :=
  (argon2id password r).mapError ("argon2id: " ++ ·)

def encryptVerifier (key : Block 32) (nonce : Block 12) (kdfHeader : Bytes) : Except String Bytes :=
  match A.encrypt key nonce verifierPlaintext kdfHeader with
  | some body => .ok (nonce.1 ++ body)
  | none => .error "aes-gcm encrypt-raw: crypto: aes-gcm encrypt-raw: aead::Error"

/-- The header-bound shape first, then the shape without associated data of older installs. -/
def verifyAgainstVerifier (key : Block 32) (verifier kdfHeader : Bytes) : Bool :=
  match readBlock 12 verifier with
  | none => false
  | some (nonce, body) =>
    if body.isEmpty then false
    else
      match (if body.length < 16 then none else A.decrypt key nonce body kdfHeader) with
      | some pt => pt == verifierPlaintext
      | none =>
        match (if body.length < 16 then none else A.decrypt key nonce body []) with
        | some pt => pt == verifierPlaintext
        | none => false

/-- `enable`; the salt and the nonce are what it draws. -/
def enable (password : Bytes) (params : KdfParams) (salt : Block 32) (nonce : Block 12) :
    FileProg SupportFile (Except String (Block 32)) := do
  match deriveKey argon2id password ⟨params, salt⟩ with
  | .error e => return .error e
  | .ok key =>
  let kdfBytes := encodeKdfRecord ⟨params, salt⟩
  match encryptVerifier A key nonce kdfBytes with
  | .error e => return .error e
  | .ok verifier =>
  match ← FileProg.replace .kdf kdfBytes with
  | .error e => return .error e
  | .ok () =>
  match ← FileProg.replace .verifier verifier with
  | .error e => return .error e
  | .ok () => return .ok key

def readKdfRecord : FileProg SupportFile (Except String KdfRecord) := do
  if ← FileProg.isThere .kdf then
    match ← FileProg.readAll .kdf with
    | .error e => return .error ("read " ++ SupportFile.kdf.name ++ ": " ++ e)
    | .ok bytes => return decodeKdfRecord bytes
  else return .error "Master password is not enabled"

def verifyAndDerive (password : Bytes) : FileProg SupportFile (Except String (Option (Block 32))) := do
  match ← readKdfRecord with
  | .error e => return .error e
  | .ok record =>
    if ← FileProg.isThere .verifier then
      match ← FileProg.readAll .verifier with
      | .error e => return .error ("read " ++ SupportFile.verifier.name ++ ": " ++ e)
      | .ok verifier =>
        match deriveKey argon2id password record with
        | .error e => return .error e
        | .ok key =>
          if verifyAgainstVerifier A key verifier (encodeKdfRecord record) then return .ok (some key)
          else return .ok none
    else return .error "Master password is not enabled"

def changePassword (oldPassword newPassword : Bytes) (params : KdfParams) (salt : Block 32) (nonce : Block 12) :
    FileProg SupportFile (Except String (Block 32)) := do
  match ← verifyAndDerive A argon2id oldPassword with
  | .error e => return .error e
  | .ok none => return .error "Current password is incorrect"
  | .ok (some _) => enable A argon2id newPassword params salt nonce

/-- `verify_and_derive` succeeds on these files. -/
def accepts (s : Files SupportFile) (password : Bytes) : Bool :=
  match ((verifyAndDerive A argon2id password).finish FileOp.handle (fun _ => {}) s).1 with
  | .ok (some _) => true
  | _ => false

end Programs

variable {argon2id : Bytes → KdfRecord → Except String (Block 32)} {nonce : Block 12} {key : Block 32}
variable {verifier : Bytes}

/-! ## What opens -/

section Opens

variable {A : Aead} {s t : Files SupportFile}
  {password oldPassword newPassword : Bytes}

def Opens (A : Aead) (argon2id : Bytes → KdfRecord → Except String (Block 32)) (record : KdfRecord) (verifier : Bytes)
    (password : Bytes) : Prop :=
  ∃ key, deriveKey argon2id password record = .ok key ∧ verifyAgainstVerifier A key verifier (encodeKdfRecord record) = true

theorem accepts_iff : accepts A argon2id s password = true ↔ ∃ kdf record verifier, s .kdf = some kdf ∧
    decodeKdfRecord kdf = .ok record ∧ s .verifier = some verifier ∧ Opens A argon2id record verifier password := by
  unfold accepts verifyAndDerive readKdfRecord Opens
  rcases hkdf : s .kdf with _ | kdf
  · simp [FileProg.isThere, Prog.finish, Prog.bind, FileOp.handle, hkdf]
  rcases hdecode : decodeKdfRecord kdf with e | record
  · simp [FileProg.isThere, FileProg.readAll, Prog.finish, Prog.bind, FileOp.handle, hkdf, hdecode]
  rcases hverifier : s .verifier with _ | verifier
  · simp [FileProg.isThere, FileProg.readAll, Prog.finish, Prog.bind, FileOp.handle, hkdf, hdecode, hverifier]
  rcases hkey : deriveKey argon2id password record with e | key
  · simp [FileProg.isThere, FileProg.readAll, Prog.finish, Prog.bind, FileOp.handle, hkdf, hdecode, hverifier, hkey]
  · rcases hverify : verifyAgainstVerifier A key verifier (encodeKdfRecord record) with _ | _
    · simp [FileProg.isThere, FileProg.readAll, Prog.finish, Prog.bind, FileOp.handle, hkdf, hdecode, hverifier, hkey,
        hverify]
    · simp [FileProg.isThere, FileProg.readAll, Prog.finish, Prog.bind, FileOp.handle, hkdf, hdecode, hverifier, hkey,
        hverify]

theorem deriveKey_ok {record : KdfRecord} (h : deriveKey argon2id password record = .ok key) :
    argon2id password record = .ok key := by
  unfold deriveKey at h
  rcases hderive : argon2id password record with e | key'
  · rw [hderive] at h
    cases h
  · rw [hderive] at h
    cases h
    rfl

theorem encryptVerifier_eq_ok {header : Bytes}
    (h : encryptVerifier A key nonce header = .ok verifier) :
    ∃ body, A.encrypt key nonce verifierPlaintext header = some body ∧ verifier = nonce.1 ++ body := by
  unfold encryptVerifier at h
  rcases henc : A.encrypt key nonce verifierPlaintext header with _ | body
  · rw [henc] at h
    cases h
  · rw [henc] at h
    cases h
    exact ⟨body, rfl, rfl⟩

theorem encryptVerifier_isOk (key : Block 32) (nonce : Block 12) (record : KdfRecord) :
    ∃ verifier, encryptVerifier A key nonce (encodeKdfRecord record) = .ok verifier := by
  have hlen : (encodeKdfRecord record).length < 2 ^ 32 := by
    unfold encodeKdfRecord
    rw [length_append, record.salt.2]
    show 16 + 32 < 2 ^ 32
    decide
  have hsome := A.encrypt_isSome key nonce verifierPlaintext (encodeKdfRecord record) (by decide) hlen
  obtain ⟨body, hbody⟩ := Option.isSome_iff_exists.1 hsome
  unfold encryptVerifier
  rw [hbody]
  exact ⟨_, rfl⟩

theorem verify_encryptVerifier {header : Bytes}
    (h : encryptVerifier A key nonce header = .ok verifier) : verifyAgainstVerifier A key verifier header = true := by
  obtain ⟨body, henc, rfl⟩ := encryptVerifier_eq_ok h
  have hlen := A.length_encrypt _ _ _ _ _ henc
  have hempty : ¬ body.isEmpty = true := by
    rw [List.isEmpty_iff]
    rintro rfl
    rw [length_nil] at hlen
    omega
  have hshort : ¬ body.length < 16 := by omega
  unfold verifyAgainstVerifier
  rw [readBlock_append]
  dsimp only
  rw [if_neg hempty, if_neg hshort, A.decrypt_encrypt _ _ _ _ _ henc]
  exact beq_self_eq_true _

end Opens

/-! ## Exactly one password -/

/-- What Argon2id and AES-GCM are relied on for: different inputs give different keys, and a verifier matches
under one key. -/
structure CryptoHolds (A : Aead) (argon2id : Bytes → KdfRecord → Except String (Block 32)) (passwords : List Bytes)
    (records : List KdfRecord) (verifiers : Bytes → Prop) : Prop where
  derives : ∀ pw ∈ passwords, ∀ pw' ∈ passwords, ∀ r ∈ records, ∀ r' ∈ records, ∀ key,
    argon2id pw r = .ok key → argon2id pw' r' = .ok key → pw = pw' ∧ r = r'
  seals : ∀ v, verifiers v → ∀ pw ∈ passwords, ∀ pw' ∈ passwords, ∀ r ∈ records, ∀ r' ∈ records, ∀ key key',
    argon2id pw r = .ok key → argon2id pw' r' = .ok key' → verifyAgainstVerifier A key v (encodeKdfRecord r) = true →
      verifyAgainstVerifier A key' v (encodeKdfRecord r') = true → key = key'

def OneAccepted (A : Aead) (argon2id : Bytes → KdfRecord → Except String (Block 32)) (s : Files SupportFile)
    (oldPassword newPassword : Bytes) : Prop :=
  ∃! pw, (pw = oldPassword ∨ pw = newPassword) ∧ accepts A argon2id s pw = true

/-- The files that a tier configured with a password has. -/
structure Configured (A : Aead) (argon2id : Bytes → KdfRecord → Except String (Block 32)) (s : Files SupportFile)
    (password : Bytes) (record : KdfRecord) (verifier : Bytes) : Prop where
  kdf : ∃ bytes, s .kdf = some bytes ∧ decodeKdfRecord bytes = .ok record
  check : s .verifier = some verifier
  opens : Opens A argon2id record verifier password

section Replacement

variable {A : Aead} {s : Files SupportFile}
  {password oldPassword newPassword : Bytes} {stored fresh : KdfRecord} {verifiers : Bytes → Prop}

theorem Configured.accepts_iff (h : Configured A argon2id s oldPassword stored verifier) :
    accepts A argon2id s password = true ↔ Opens A argon2id stored verifier password := by
  obtain ⟨bytes, hkdf, hdecode⟩ := h.kdf
  rw [Security.accepts_iff]
  constructor
  · rintro ⟨kdf, record, v, hkdf', hdecode', hv, hopens⟩
    rw [hkdf] at hkdf'
    cases hkdf'
    rw [hdecode] at hdecode'
    cases hdecode'
    rw [h.check] at hv
    cases hv
    exact hopens
  · exact fun hopens => ⟨bytes, stored, verifier, hkdf, hdecode, h.check, hopens⟩

theorem CryptoHolds.unique (h : CryptoHolds A argon2id [oldPassword, newPassword] [stored, fresh] verifiers) {v : Bytes}
    (hv : verifiers v) {pw pw' : Bytes} {r r' : KdfRecord} (hpw : pw = oldPassword ∨ pw = newPassword)
    (hpw' : pw' = oldPassword ∨ pw' = newPassword) (hr : r = stored ∨ r = fresh) (hr' : r' = stored ∨ r' = fresh)
    (hopens : Opens A argon2id r v pw) (hopens' : Opens A argon2id r' v pw') : pw = pw' ∧ r = r' := by
  obtain ⟨key, hkey, hverify⟩ := hopens
  obtain ⟨key', hkey', hverify'⟩ := hopens'
  replace hpw : pw ∈ [oldPassword, newPassword] := by simpa using hpw
  replace hpw' : pw' ∈ [oldPassword, newPassword] := by simpa using hpw'
  replace hr : r ∈ [stored, fresh] := by simpa using hr
  replace hr' : r' ∈ [stored, fresh] := by simpa using hr'
  have heq := h.seals v hv pw hpw pw' hpw' r hr r' hr' key key' (deriveKey_ok hkey) (deriveKey_ok hkey') hverify hverify'
  rw [← heq] at hkey'
  exact h.derives pw hpw pw' hpw' r hr r' hr' key (deriveKey_ok hkey) (deriveKey_ok hkey')

theorem oneAccepted_before (hcrypto : CryptoHolds A argon2id [oldPassword, newPassword] [stored, fresh] verifiers)
    (hstored : Configured A argon2id s oldPassword stored verifier) (hv : verifiers verifier) :
    OneAccepted A argon2id s oldPassword newPassword := by
  refine ⟨oldPassword, ⟨.inl rfl, hstored.accepts_iff.2 hstored.opens⟩, fun pw hpw => ?_⟩
  exact (hcrypto.unique hv hpw.1 (.inl rfl) (.inl rfl) (.inl rfl) (hstored.accepts_iff.1 hpw.2) hstored.opens).1

theorem decodeKdfRecord_fresh {bytes : Bytes} {record : KdfRecord} (hbytes : encodeKdfRecord fresh = bytes)
    (h : decodeKdfRecord bytes = .ok record) : record = fresh ∧ fresh.params.Sane := by
  rw [← hbytes] at h
  rcases decodeKdfRecord_encode fresh with ⟨hdecode, hsane⟩ | ⟨⟨e, hdecode⟩, -⟩
  · rw [hdecode] at h
    cases h
    exact ⟨rfl, hsane⟩
  · rw [hdecode] at h
    cases h

theorem not_accepted_between (hcrypto : CryptoHolds A argon2id [oldPassword, newPassword] [stored, fresh] verifiers)
    (hstored : Configured A argon2id s oldPassword stored verifier) (hv : verifiers verifier)
    (hsalt : fresh.salt ≠ stored.salt) (hpw : password = oldPassword ∨ password = newPassword) :
    accepts A argon2id (update s .kdf (some (encodeKdfRecord fresh))) password = false := by
  rw [Bool.eq_false_iff]
  intro haccepts
  obtain ⟨bytes, record, v, hkdf, hdecode, hverifier, hopens⟩ := Security.accepts_iff.1 haccepts
  rw [update_self] at hkdf
  obtain ⟨rfl, -⟩ := decodeKdfRecord_fresh (Option.some.inj hkdf) hdecode
  rw [update_of_ne (by decide), hstored.check] at hverifier
  cases hverifier
  have heq := (hcrypto.unique hv hpw (.inl rfl) (.inr rfl) (.inl rfl) hopens hstored.opens).2
  exact hsalt (by rw [heq])

variable {params : KdfParams} {salt : Block 32}

theorem oneAccepted_after (hcrypto : CryptoHolds A argon2id [oldPassword, newPassword] [stored, fresh] verifiers)
    {newVerifier : Bytes} (hkey : deriveKey argon2id newPassword fresh = .ok key)
    (henc : encryptVerifier A key nonce (encodeKdfRecord fresh) = .ok newVerifier) (hv : verifiers newVerifier) :
    OneAccepted A argon2id (update (update s .kdf (some (encodeKdfRecord fresh))) .verifier
      (some newVerifier)) oldPassword newPassword ↔ fresh.params.Sane := by
  have hopens : Opens A argon2id fresh newVerifier newPassword := ⟨key, hkey, verify_encryptVerifier henc⟩
  constructor
  · rintro ⟨pw, ⟨-, haccepts⟩, -⟩
    obtain ⟨bytes, record, v, hkdf, hdecode, -, -⟩ := Security.accepts_iff.1 haccepts
    rw [update_of_ne (by decide), update_self] at hkdf
    exact (decodeKdfRecord_fresh (Option.some.inj hkdf) hdecode).2
  · intro hsane
    have hdecode := ((decodeKdfRecord_encode fresh).resolve_right fun h => h.2 hsane).1
    have hconfigured : Configured A argon2id (update (update s .kdf (some (encodeKdfRecord fresh)))
        .verifier (some newVerifier)) newPassword fresh newVerifier :=
      ⟨⟨_, by rw [update_of_ne (by decide), update_self], hdecode⟩, update_self .., hopens⟩
    refine ⟨newPassword, ⟨.inr rfl, hconfigured.accepts_iff.2 hopens⟩, fun pw hpw => ?_⟩
    exact (hcrypto.unique hv hpw.1 (.inr rfl) (.inr rfl) (.inr rfl) (hconfigured.accepts_iff.1 hpw.2) hopens).1

/-! ### Where a run stops -/

/-- How many of the two files `enable` replaced, from how its writes went until it stopped. -/
def writesDone : List IoOutcome → Nat
  | [] => 0
  | [o] => if o.Clean then 1 else 0
  | o :: o' :: _ => if o.Clean then (if o'.Clean then 2 else 1) else 0

/-- How many of the two files `change_password` replaced: its writes come after four reads. -/
def changeWritesDone : List IoOutcome → Nat
  | o₁ :: o₂ :: o₃ :: o₄ :: os => if o₁.Clean ∧ o₂.Clean ∧ o₃.Clean ∧ o₄.Clean then writesDone os else 0
  | _ => 0

theorem exec_enable {newVerifier : Bytes} (hkey : deriveKey argon2id newPassword ⟨params, salt⟩ = .ok key)
    (henc : encryptVerifier A key nonce (encodeKdfRecord ⟨params, salt⟩) = .ok newVerifier) (os : List IoOutcome) :
    let kdfDone := update s .kdf (some (encodeKdfRecord ⟨params, salt⟩))
    ((enable A argon2id newPassword params salt nonce).exec FileOp.handle os s).2 =
      if writesDone os = 0 then s else if writesDone os = 1 then kdfDone
      else update kdfDone .verifier (some newVerifier) := by
  intro kdfDone
  unfold enable
  rw [hkey]
  dsimp only
  rw [henc]
  rcases os with _ | ⟨o, os⟩
  · rfl
  rcases FileOp.handle_replace o s .kdf (encodeKdfRecord ⟨params, salt⟩) with ⟨e, hop, hclean⟩ | ⟨hop, hfirst⟩
  · have hdone : writesDone (o :: os) = 0 := by
      rcases os with _ | ⟨o', os⟩
      · exact if_neg hclean
      · exact if_neg hclean
    simp only [bind_eq, FileProg.replace, Prog.bind, Prog.exec, hop, pure_eq, if_pos hdone]
  rcases os with _ | ⟨o', os⟩
  · have hdone : writesDone [o] = 1 := if_pos hfirst
    simp only [bind_eq, FileProg.replace, Prog.bind, Prog.exec, hop, hdone, if_neg one_ne_zero, if_true]
    rfl
  rcases FileOp.handle_replace o' kdfDone .verifier newVerifier with ⟨e, hop', hclean'⟩ | ⟨hop', hsecond⟩
  · have hdone : writesDone (o :: o' :: os) = 1 := by rw [writesDone, if_pos hfirst, if_neg hclean']
    simp only [bind_eq, FileProg.replace, Prog.bind, Prog.exec, hop, pure_eq, hdone, if_neg one_ne_zero, if_true]
    rw [hop']
    rfl
  · have hdone : writesDone (o :: o' :: os) = 2 := by
      rw [writesDone, if_pos hfirst, if_pos hsecond]
    simp only [bind_eq, FileProg.replace, Prog.bind, Prog.exec, hop, pure_eq, hdone]
    rw [hop']
    rfl

theorem exec_changePassword (hstored : Configured A argon2id s oldPassword stored verifier) (os : List IoOutcome) :
    ((changePassword A argon2id oldPassword newPassword params salt nonce).exec FileOp.handle os s).2 =
      match os with
      | o₁ :: o₂ :: o₃ :: o₄ :: os =>
        if o₁.Clean ∧ o₂.Clean ∧ o₃.Clean ∧ o₄.Clean then
          ((enable A argon2id newPassword params salt nonce).exec FileOp.handle os s).2
        else s
      | _ => s := by
  obtain ⟨bytes, hkdf, hdecode⟩ := hstored.kdf
  have hverifier := hstored.check
  obtain ⟨key, hkey, hverify⟩ := hstored.opens
  unfold changePassword verifyAndDerive readKdfRecord
  rcases os with _ | ⟨o₁, os⟩
  · rfl
  rcases h₁ : o₁.error with _ | e
  swap
  · have hout : ¬ o₁.Clean := by simp [IoOutcome.Clean, h₁]
    rcases os with _ | ⟨o₂, _ | ⟨o₃, _ | ⟨o₄, os⟩⟩⟩ <;>
      simp [FileProg.isThere, Prog.bind, Prog.exec, FileOp.handle, h₁, hout]
  rcases os with _ | ⟨o₂, os⟩
  · simp [FileProg.isThere, FileProg.readAll, Prog.bind, Prog.exec, FileOp.handle, h₁, hkdf]
  rcases h₂ : o₂.error with _ | e
  swap
  · have hout : ¬ o₂.Clean := by simp [IoOutcome.Clean, h₂]
    rcases os with _ | ⟨o₃, _ | ⟨o₄, os⟩⟩ <;>
      simp [FileProg.isThere, FileProg.readAll, Prog.bind, Prog.exec, FileOp.handle, h₁, h₂, hkdf, hout]
  rcases os with _ | ⟨o₃, os⟩
  · simp [FileProg.isThere, FileProg.readAll, Prog.bind, Prog.exec, FileOp.handle, h₁, h₂, hkdf, hdecode]
  rcases h₃ : o₃.error with _ | e
  swap
  · have hout : ¬ o₃.Clean := by simp [IoOutcome.Clean, h₃]
    rcases os with _ | ⟨o₄, os⟩ <;>
      simp [FileProg.isThere, FileProg.readAll, Prog.bind, Prog.exec, FileOp.handle, h₁, h₂, h₃, hkdf, hdecode, hout]
  rcases os with _ | ⟨o₄, os⟩
  · simp [FileProg.isThere, FileProg.readAll, Prog.bind, Prog.exec, FileOp.handle, h₁, h₂, h₃, hkdf, hdecode, hverifier]
  rcases h₄ : o₄.error with _ | e
  · simp [FileProg.isThere, FileProg.readAll, Prog.bind, Prog.exec, FileOp.handle, h₁, h₂, h₃, h₄, hkdf, hdecode,
      hverifier, hkey, hverify, IoOutcome.Clean]
  · simp [FileProg.isThere, FileProg.readAll, Prog.bind, Prog.exec, FileOp.handle, h₁, h₂, h₃, h₄, hkdf, hdecode,
      hverifier, IoOutcome.Clean]

theorem writesDone_le (os : List IoOutcome) : writesDone os ≤ 2 := by
  rcases os with _ | ⟨o, _ | ⟨o', os⟩⟩
  · exact Nat.zero_le 2
  · rw [writesDone]
    split_ifs <;> omega
  · rw [writesDone]
    split_ifs <;> omega

/-- Both files replaced, with parameters a reader accepts, or neither. -/
def Settled (params : KdfParams) (derived : Except String (Block 32)) (done : Nat) : Prop :=
  derived.isOk = false ∨ done = 0 ∨ done = 2 ∧ params.Sane

/-- What `CryptoHolds` is stated about: the verifier on disk and the one that is written. -/
def InPlay (A : Aead) (argon2id : Bytes → KdfRecord → Except String (Block 32)) (verifier newPassword : Bytes)
    (fresh : KdfRecord) (nonce : Block 12) (v : Bytes) : Prop :=
  v = verifier ∨ ∃ key, deriveKey argon2id newPassword fresh = .ok key ∧
    encryptVerifier A key nonce (encodeKdfRecord fresh) = .ok v

theorem enable_oneAccepted_iff (hcrypto : CryptoHolds A argon2id [oldPassword, newPassword] [stored, ⟨params, salt⟩]
      (InPlay A argon2id verifier newPassword ⟨params, salt⟩ nonce))
    (hstored : Configured A argon2id s oldPassword stored verifier) (hsalt : salt ≠ stored.salt) (os : List IoOutcome) :
    OneAccepted A argon2id ((enable A argon2id newPassword params salt nonce).exec FileOp.handle os s).2 oldPassword
        newPassword ↔
      Settled params (deriveKey argon2id newPassword ⟨params, salt⟩) (writesDone os) := by
  have hbefore := oneAccepted_before hcrypto hstored (.inl rfl)
  rcases hkey : deriveKey argon2id newPassword ⟨params, salt⟩ with e | key
  · have hexec : (enable A argon2id newPassword params salt nonce).exec FileOp.handle os s = (some (.error e, os), s) := by
      unfold enable
      rw [hkey]
      rfl
    rw [hexec]
    exact iff_of_true hbefore (.inl rfl)
  obtain ⟨newVerifier, henc⟩ := encryptVerifier_isOk (A := A) key nonce ⟨params, salt⟩
  rw [exec_enable hkey henc os]
  have hsettled : Settled params (.ok key) (writesDone os) ↔ writesDone os = 0 ∨ writesDone os = 2 ∧ params.Sane := by
    simp [Settled, Except.isOk, Except.toBool]
  rw [hsettled]
  have hle := writesDone_le os
  by_cases hzero : writesDone os = 0
  · rw [if_pos hzero]
    exact iff_of_true hbefore (.inl hzero)
  rw [if_neg hzero]
  by_cases hone : writesDone os = 1
  · rw [if_pos hone]
    refine iff_of_false ?_ (by omega)
    rintro ⟨pw, ⟨hpw, haccepts⟩, -⟩
    rw [not_accepted_between hcrypto hstored (.inl rfl) hsalt hpw] at haccepts
    cases haccepts
  rw [if_neg hone, oneAccepted_after hcrypto hkey henc (.inr ⟨key, hkey, henc⟩)]
  have htwo : writesDone os = 2 := by omega
  simp [htwo]

end Replacement

/-- **Replacing the password.** Wherever `enable` over the files of a configured tier or `change_password` stops,
exactly one of the two passwords works if both files were replaced or neither was, and only then. -/
theorem changePassword_oneAccepted_iff (A : Aead) (argon2id : Bytes → KdfRecord → Except String (Block 32))
    (s : Files SupportFile) (oldPassword newPassword : Bytes) (stored : KdfRecord) (verifier : Bytes)
    (params : KdfParams) (salt : Block 32) (nonce : Block 12)
    (hstored : Configured A argon2id s oldPassword stored verifier) (hsalt : salt ≠ stored.salt)
    (hcrypto : CryptoHolds A argon2id [oldPassword, newPassword] [stored, ⟨params, salt⟩]
      (InPlay A argon2id verifier newPassword ⟨params, salt⟩ nonce)) (os : List IoOutcome) :
    (OneAccepted A argon2id ((enable A argon2id newPassword params salt nonce).exec FileOp.handle os s).2 oldPassword
        newPassword ↔
      Settled params (deriveKey argon2id newPassword ⟨params, salt⟩) (writesDone os)) ∧
    (OneAccepted A argon2id
        ((changePassword A argon2id oldPassword newPassword params salt nonce).exec FileOp.handle os s).2 oldPassword
        newPassword ↔
      Settled params (deriveKey argon2id newPassword ⟨params, salt⟩) (changeWritesDone os)) := by
  refine ⟨enable_oneAccepted_iff hcrypto hstored hsalt os, ?_⟩
  have hbefore := oneAccepted_before hcrypto hstored (.inl rfl)
  rw [exec_changePassword hstored os]
  unfold changeWritesDone
  split
  · split_ifs
    · exact enable_oneAccepted_iff hcrypto hstored hsalt _
    · exact iff_of_true hbefore (.inr (.inl rfl))
  · exact iff_of_true hbefore (.inr (.inl rfl))

section Sample

/-- A derivation to evaluate on: the first bytes of the password and of the salt. -/
def sampleKey (password : Bytes) (r : KdfRecord) : Block 32 :=
  ⟨((password ++ List.replicate 4 0).take 4 ++ r.salt.1.take 4) ++ List.replicate 24 0, by simp [r.salt.2]⟩

def sampleArgon2id (password : Bytes) (r : KdfRecord) : Except String (Block 32) := .ok (sampleKey password r)
def sampleRecord (b : UInt8) : KdfRecord := ⟨.defaults, Block.fill 32 b⟩

def sampleVerifier (password : Bytes) (r : KdfRecord) : Bytes :=
  (Block.fill 12 0).1 ++ (verifierPlaintext ++ Aead.keyTag (sampleKey password r) (encodeKdfRecord r))

/-- The files of the password `[1]`. -/
def sampleSupport : Files SupportFile
  | .kdf => some (encodeKdfRecord (sampleRecord 1))
  | .verifier => some (sampleVerifier [1] (sampleRecord 1))

theorem cryptoHolds_sample : CryptoHolds Aead.keyed sampleArgon2id [[1], [2]] [sampleRecord 1, sampleRecord 2]
    (InPlay Aead.keyed sampleArgon2id (sampleVerifier [1] (sampleRecord 1)) [2] (sampleRecord 2) (Block.fill 12 0)) where
  derives pw hpw pw' hpw' r hr r' hr' key h h' := by
    have hinj : ∀ pw ∈ [[1], [2]], ∀ pw' ∈ [[1], [2]], ∀ r ∈ [sampleRecord 1, sampleRecord 2],
        ∀ r' ∈ [sampleRecord 1, sampleRecord 2], sampleKey pw r = sampleKey pw' r' → pw = pw' ∧ r = r' := by
      decide +kernel
    exact hinj pw hpw pw' hpw' r hr r' hr' (Except.ok.inj (h.trans h'.symm))
  seals v hv pw hpw pw' hpw' r hr r' hr' key key' h h' hverify hverify' := by
    have hseal : ∀ v ∈ [sampleVerifier [1] (sampleRecord 1), sampleVerifier [2] (sampleRecord 2)],
        ∀ pw ∈ [[1], [2]], ∀ pw' ∈ [[1], [2]], ∀ r ∈ [sampleRecord 1, sampleRecord 2],
        ∀ r' ∈ [sampleRecord 1, sampleRecord 2],
        verifyAgainstVerifier Aead.keyed (sampleKey pw r) v (encodeKdfRecord r) = true →
        verifyAgainstVerifier Aead.keyed (sampleKey pw' r') v (encodeKdfRecord r') = true →
        sampleKey pw r = sampleKey pw' r' := by
      decide +kernel
    have hmem : v ∈ [sampleVerifier [1] (sampleRecord 1), sampleVerifier [2] (sampleRecord 2)] := by
      rcases hv with rfl | ⟨key, hkey, henc⟩
      · exact mem_cons_self
      · cases hkey
        cases henc
        exact mem_cons_of_mem _ mem_cons_self
    cases h
    cases h'
    exact hseal v hmem pw hpw pw' hpw' r hr r' hr' hverify hverify'

theorem changePassword_oneAccepted_sample : OneAccepted Aead.keyed sampleArgon2id
        ((enable Aead.keyed sampleArgon2id [2] .defaults (Block.fill 32 2) (Block.fill 12 0)).exec FileOp.handle [{}, {}]
          sampleSupport).2 [1] [2] ↔
      Settled .defaults (deriveKey sampleArgon2id [2] (sampleRecord 2)) (writesDone [{}, {}]) := by
  have hopens : Opens Aead.keyed sampleArgon2id (sampleRecord 1) (sampleVerifier [1] (sampleRecord 1)) [1] :=
    ⟨_, rfl, by decide +kernel⟩
  exact (changePassword_oneAccepted_iff Aead.keyed sampleArgon2id sampleSupport [1] [2] (sampleRecord 1)
    (sampleVerifier [1] (sampleRecord 1)) .defaults (Block.fill 32 2) (Block.fill 12 0)
    ⟨⟨_, rfl, by decide +kernel⟩, rfl, hopens⟩ (by decide) cryptoHolds_sample [{}, {}]).1

/-- Stopped between its two writes, `change_password` leaves files that reject both passwords. -/
theorem changePassword_locked_out :
    let t := ((changePassword Aead.keyed sampleArgon2id [1] [2] .defaults (Block.fill 32 2) (Block.fill 12 0)).exec
      FileOp.handle [{}, {}, {}, {}, {}] sampleSupport).2
    accepts Aead.keyed sampleArgon2id sampleSupport [1] = true ∧ accepts Aead.keyed sampleArgon2id t [1] = false ∧
      accepts Aead.keyed sampleArgon2id t [2] = false := by
  decide +kernel

end Sample

end LetsFlutSsh.Security
