import LetsFlutSsh.Recorder.Reader

/-!
# The LFSE envelope

The password wrapper around an archive: a 47-byte header (magic, version, KDF parameters, salt), the
12-byte IV, and the AES-GCM ciphertext of the ZIP. Version 3 binds the header as associated data;
version 2 has the same layout and binds nothing.

* `encryptWithPassword`, `decryptArchiveWithPassword`: `archive/envelope.rs`; salt and IV are inputs;
* `exportArchive`, `exportArchiveSize`: what an export writes and the size it announces;
* `OpensOnlyAs`: a ciphertext opens only with the key, nonce and associated data it was made with;
* `envelope_sealed`: round trip, header binding and size.
-/

namespace LetsFlutSsh.Archive
open Lib LetsFlutSsh.Recorder List

/-- The cryptographic functions of the envelope: AES-GCM and Argon2id with 32 bytes of output. -/
structure EnvelopeCrypto extends Crypto where
  argon2idDerive : (password salt : Bytes) → (memoryKib iterations parallelism : UInt32) → Except Error (Block 32)

/-! ## Layout -/

def encHeaderMagic : Bytes := [0x4C, 0x46, 0x53, 0x45]
def encVersionArgon2idAad : UInt8 := 0x03
def encVersionArgon2idLegacy : UInt8 := 0x02

def kdfAlgoArgon2id : UInt8 := 0x01

def saltLen : Nat := 32

def ivLen : Nat := 12

def preIvHeaderLen : Nat := 4 + 1 + 1 + 4 + 4 + 1 + saltLen

/-- `MAX_IMPORT_MEMORY_KIB` of the platform. -/
def maxImportMemoryKib (mobile : Bool) : UInt32 := if mobile then 512 * 1024 else 1024 * 1024

def maxImportIterations : UInt32 := 20
def maxImportParallelism : UInt32 := 4

def overCaps (mobile : Bool) (memoryKib iterations parallelism : UInt32) : Bool :=
  memoryKib > maxImportMemoryKib mobile || iterations > maxImportIterations || parallelism > maxImportParallelism

def capsError (memoryKib iterations parallelism : UInt32) : Error :=
  .crypto s!"Argon2id params exceed import caps (m={memoryKib}, t={iterations}, p={parallelism})"

def toBeBytes (n : UInt32) : Bytes := (leBytes 4 n.toNat).reverse

def fromBeBytes (bs : Bytes) : UInt32 := UInt32.ofNat (ofLeBytes bs.reverse)

/-- `{:02x}`. -/
def hex2 (b : UInt8) : String := String.ofList [Nat.digitChar (b.toNat / 16), Nat.digitChar (b.toNat % 16)]

/-- `&bytes[start..start + len]`. -/
def slice (bs : Bytes) (start len : Nat) : Bytes := (bs.drop start).take len

/-! ## Encrypting -/

def envelopeHeader (memoryKib iterations parallelism : UInt32) (salt : Block 32) : Bytes :=
  encHeaderMagic ++ [encVersionArgon2idAad, kdfAlgoArgon2id] ++ toBeBytes memoryKib ++ toBeBytes iterations ++
    [(min parallelism 255).toUInt8] ++ salt.1

def encryptWithPassword (C : EnvelopeCrypto) (mobile : Bool) (zipBytes : Bytes) (password : String)
    (memoryKib iterations parallelism : UInt32) (salt : Block 32) (iv : Block 12) : Except Error Bytes :=
  if overCaps mobile memoryKib iterations parallelism then .error (capsError memoryKib iterations parallelism)
  else
    match C.argon2idDerive (utf8 password) salt.1 memoryKib iterations parallelism with
    | .error e => .error e
    | .ok derived =>
      match C.encrypt derived iv zipBytes (envelopeHeader memoryKib iterations parallelism salt) with
      | none => .error (.crypto "aes-gcm encrypt-raw: aead::Error")
      | some ct => .ok (envelopeHeader memoryKib iterations parallelism salt ++ iv.1 ++ ct)

/-! ## Decrypting -/

/-- What `decrypt_archive_with_password` does once the fixed fields were checked. -/
def openEnvelope (C : EnvelopeCrypto) (envelope : Bytes) (password : String) (version : UInt8)
    (memoryKib iterations parallelism : UInt32) : Except Error Bytes :=
  -- The length was checked, so the IV is there.
  match readBlock 12 (envelope.drop preIvHeaderLen) with
  | none => .error (.crypto "aes-gcm nonce length")
  | some (iv, ct) =>
    match C.argon2idDerive (utf8 password) (slice envelope 15 saltLen) memoryKib iterations parallelism with
    | .error e => .error e
    | .ok derived =>
      aesGcmDecryptRaw C.toCrypto derived iv ct
        (if version = encVersionArgon2idAad then envelope.take preIvHeaderLen else [])

def decryptArchiveWithPassword (C : EnvelopeCrypto) (mobile : Bool) (envelope : Bytes) (password : String) :
    Except Error Bytes :=
  if envelope.length < 4 + 1 + 10 + saltLen + ivLen then .error (.crypto "archive envelope too short")
  else if envelope.take 4 ≠ encHeaderMagic then .error (.crypto "not an LFSE archive")
  else if envelope.getD 4 0 ≠ encVersionArgon2idAad ∧ envelope.getD 4 0 ≠ encVersionArgon2idLegacy then
    .error (.crypto ("unsupported envelope version 0x" ++ hex2 (envelope.getD 4 0)))
  else if envelope.getD 5 0 ≠ kdfAlgoArgon2id then
    .error (.crypto ("unsupported kdf algorithm 0x" ++ hex2 (envelope.getD 5 0)))
  else
    let memoryKib := fromBeBytes (slice envelope 6 4)
    let iterations := fromBeBytes (slice envelope 10 4)
    let parallelism := (envelope.getD 14 0).toUInt32
    if overCaps mobile memoryKib iterations parallelism then .error (capsError memoryKib iterations parallelism)
    else openEnvelope C envelope password (envelope.getD 4 0) memoryKib iterations parallelism

/-! ## Exporting -/

/-- The fields of `ExportInput` that say how the ZIP is wrapped. -/
structure ExportSeal where
  masterPassword : Option String
  kdfMemoryKib : UInt32
  kdfIterations : UInt32
  kdfParallelism : UInt32

/-- `export_archive`; `zip` is what `build_zip` gave. -/
def exportArchive (C : EnvelopeCrypto) (mobile : Bool) (zip : Except Error Bytes) (input : ExportSeal)
    (salt : Block 32) (iv : Block 12) : Except Error Bytes :=
  match zip with
  | .error e => .error e
  | .ok zipBytes =>
    if input.masterPassword.getD "" = "" then .ok zipBytes
    else
      encryptWithPassword C mobile zipBytes (input.masterPassword.getD "") input.kdfMemoryKib input.kdfIterations
        input.kdfParallelism salt iv

def lfseEnvelopeOverhead : Nat := 4 + 1 + 10 + 32 + 12 + 16

def u32Max : Nat := 2 ^ 32 - 1

/-- `export_archive_size`: a saturating 32-bit size. -/
def exportArchiveSize (zip : Except Error Bytes) (input : ExportSeal) : Except Error Nat :=
  match zip with
  | .error e => .error e
  | .ok zipBytes =>
    let inner := min zipBytes.length u32Max
    .ok (if input.masterPassword.getD "" = "" then inner else min (inner + lfseEnvelopeOverhead) u32Max)

/-! ## Fields -/

theorem fromBeBytes_toBeBytes (n : UInt32) : fromBeBytes (toBeBytes n) = n := by
  have hlt : n.toNat < 256 ^ 4 := n.toNat_lt
  rw [fromBeBytes, toBeBytes, reverse_reverse, ofLeBytes_leBytes hlt, UInt32.ofNat_toNat]

theorem length_toBeBytes (n : UInt32) : (toBeBytes n).length = 4 := by
  rw [toBeBytes, length_reverse, length_leBytes]

theorem length_envelopeHeader (m t p : UInt32) (salt : Block 32) : (envelopeHeader m t p salt).length = preIvHeaderLen := by
  unfold envelopeHeader
  simp only [length_append, length_toBeBytes, salt.2]
  rfl

theorem fields_envelopeHeader (m t p : UInt32) (salt : Block 32) (rest : Bytes) :
    (envelopeHeader m t p salt ++ rest).take 4 = encHeaderMagic ∧
      (envelopeHeader m t p salt ++ rest).getD 4 0 = encVersionArgon2idAad ∧
      (envelopeHeader m t p salt ++ rest).getD 5 0 = kdfAlgoArgon2id ∧
      slice (envelopeHeader m t p salt ++ rest) 6 4 = toBeBytes m ∧
      slice (envelopeHeader m t p salt ++ rest) 10 4 = toBeBytes t ∧
      (envelopeHeader m t p salt ++ rest).getD 14 0 = (min p 255).toUInt8 ∧
      slice (envelopeHeader m t p salt ++ rest) 15 saltLen = salt.1 := by
  refine ⟨rfl, rfl, rfl, rfl, rfl, rfl, ?_⟩
  show (salt.1 ++ rest).take 32 = salt.1
  rw [take_append_of_le_length (by rw [salt.2]), take_of_length_le (by rw [salt.2])]

variable {mobile : Bool} {m t p : UInt32} {C : EnvelopeCrypto} {zip env : Bytes} {pw : String} {salt : Block 32}
  {iv : Block 12}

theorem parallelism_read (h : overCaps mobile m t p = false) : ((min p 255).toUInt8).toUInt32 = p := by
  unfold overCaps at h
  rw [Bool.or_eq_false_iff, decide_eq_false_iff_not, UInt32.not_lt] at h
  have hle : p.toNat ≤ 4 := UInt32.le_iff_toNat_le.mp h.2
  have hmin : min p 255 = p := if_pos (UInt32.le_iff_toNat_le.mpr (show p.toNat ≤ 255 by omega))
  apply UInt32.toNat.inj
  rw [hmin]
  simp only [UInt8.toNat_toUInt32, UInt32.toNat_toUInt8]
  omega

/-! ## What was produced, what was checked -/

theorem encrypt_eq_ok (h : encryptWithPassword C mobile zip pw m t p salt iv = .ok env) :
    ∃ key ct, overCaps mobile m t p = false ∧ C.argon2idDerive (utf8 pw) salt.1 m t p = .ok key ∧
      C.encrypt key iv zip (envelopeHeader m t p salt) = some ct ∧ env = envelopeHeader m t p salt ++ iv.1 ++ ct := by
  unfold encryptWithPassword at h
  split_ifs at h with hcaps
  rcases hkey : C.argon2idDerive (utf8 pw) salt.1 m t p with e | key
  · rw [hkey] at h
    cases h
  rw [hkey] at h
  dsimp only at h
  rcases hct : C.encrypt key iv zip (envelopeHeader m t p salt) with _ | ct
  · rw [hct] at h
    cases h
  · rw [hct] at h
    cases h
    exact ⟨key, ct, by simpa using hcaps, rfl, hct, rfl⟩

theorem aesGcmDecryptRaw_eq_ok {C : Crypto} {key : Block 32} {ct aad pt : Bytes}
    (h : aesGcmDecryptRaw C key iv ct aad = .ok pt) : C.decrypt key iv ct aad = some pt := by
  unfold aesGcmDecryptRaw at h
  split_ifs at h
  rcases hdec : C.decrypt key iv ct aad with _ | pt'
  · rw [hdec] at h
    cases h
  · rw [hdec] at h
    cases h
    rfl

theorem decrypt_eq_ok (h : decryptArchiveWithPassword C mobile env pw = .ok zip) :
    ∃ key iv, env = env.take preIvHeaderLen ++ iv.1 ++ env.drop (preIvHeaderLen + ivLen) ∧
      C.decrypt key iv (env.drop (preIvHeaderLen + ivLen))
        (if env.getD 4 0 = encVersionArgon2idAad then env.take preIvHeaderLen else []) = some zip := by
  unfold decryptArchiveWithPassword at h
  dsimp only at h
  split_ifs at h with hlen hmagic hversion halgo hcaps
  unfold openEnvelope readBlock at h
  have hle : 12 ≤ (env.drop preIvHeaderLen).length := by
    rw [length_drop]
    simp only [saltLen, ivLen] at hlen
    simp only [preIvHeaderLen, saltLen]
    omega
  rw [dif_pos hle] at h
  rcases hkey : C.argon2idDerive (utf8 pw) (slice env 15 saltLen) (fromBeBytes (slice env 6 4))
    (fromBeBytes (slice env 10 4)) (env.getD 14 0).toUInt32 with e | key
  · rw [hkey] at h
    cases h
  · rw [hkey] at h
    rw [drop_drop] at h
    refine ⟨key, ⟨(env.drop preIvHeaderLen).take 12, by rw [length_take, Nat.min_eq_left hle]⟩, ?_,
      aesGcmDecryptRaw_eq_ok h⟩
    show env = env.take preIvHeaderLen ++ (env.drop preIvHeaderLen).take 12 ++ env.drop (preIvHeaderLen + 12)
    rw [append_assoc, ← drop_drop, take_append_drop, take_append_drop]

theorem decrypt_encrypt (h : encryptWithPassword C mobile zip pw m t p salt iv = .ok env) :
    decryptArchiveWithPassword C mobile env pw = .ok zip := by
  obtain ⟨key, ct, hcaps, hkey, hct, rfl⟩ := encrypt_eq_ok h
  have hlen := C.length_encrypt _ _ _ _ _ hct
  rw [append_assoc]
  obtain ⟨hmagic, hversion, halgo, hm, ht, hp, hsalt⟩ := fields_envelopeHeader m t p salt (iv.1 ++ ct)
  have hlong : ¬ (envelopeHeader m t p salt ++ (iv.1 ++ ct)).length < 4 + 1 + 10 + saltLen + ivLen := by
    rw [length_append, length_append, length_envelopeHeader, iv.2]
    simp only [preIvHeaderLen, saltLen, ivLen]
    omega
  have htake : (envelopeHeader m t p salt ++ (iv.1 ++ ct)).take preIvHeaderLen = envelopeHeader m t p salt :=
    take_left' (length_envelopeHeader m t p salt)
  have hdrop : (envelopeHeader m t p salt ++ (iv.1 ++ ct)).drop preIvHeaderLen = iv.1 ++ ct :=
    drop_left' (length_envelopeHeader m t p salt)
  unfold decryptArchiveWithPassword
  rw [if_neg hlong, if_neg (not_not.mpr hmagic), if_neg (fun hv => hv.1 hversion), if_neg (not_not.mpr halgo)]
  simp only [hm, ht, hp, fromBeBytes_toBeBytes, parallelism_read hcaps, hcaps, Bool.false_eq_true, if_false]
  unfold openEnvelope
  rw [hdrop, readBlock_append, htake, hversion, hsalt, hkey]
  dsimp only
  rw [if_pos rfl, aesGcmDecryptRaw, if_neg (by omega), C.decrypt_encrypt _ _ _ _ _ hct]

/-- The ciphertext opens only with the key, the nonce and the associated data it was made with. -/
def OpensOnlyAs (A : Aead) (key : Block 32) (iv : Block 12) (aad ct : Bytes) : Prop :=
  ∀ key' iv' aad' pt, A.decrypt key' iv' ct aad' = some pt → key' = key ∧ iv' = iv ∧ aad' = aad

theorem decrypt_tampered {env' zip' : Bytes} {key : Block 32} {ct : Bytes}
    (hopens : OpensOnlyAs C.toAead key iv (envelopeHeader m t p salt) ct)
    (hct : env'.drop (preIvHeaderLen + ivLen) = ct) (h : decryptArchiveWithPassword C mobile env' pw = .ok zip') :
    env' = envelopeHeader m t p salt ++ iv.1 ++ ct := by
  obtain ⟨key', iv', henv, hdec⟩ := decrypt_eq_ok h
  rw [hct] at henv hdec
  obtain ⟨-, rfl, haad⟩ := hopens key' iv' _ _ hdec
  split_ifs at haad with hversion
  · rwa [haad] at henv
  · -- The older version binds nothing, and the header is not empty.
    have hlen := congrArg List.length haad
    rw [length_envelopeHeader] at hlen
    cases hlen

theorem exportArchiveSize_eq {zip : Except Error Bytes} {input : ExportSeal}
    {out : Bytes} (h : exportArchive C mobile zip input salt iv = .ok out) :
    exportArchiveSize zip input = .ok (min out.length u32Max) := by
  unfold exportArchive at h
  rcases zip with e | zip
  · cases h
  unfold exportArchiveSize
  split_ifs at h ⊢ with hpw
  · cases h
    rfl
  · obtain ⟨key, ct, -, -, hct, rfl⟩ := encrypt_eq_ok h
    have hlen := C.length_encrypt _ _ _ _ _ hct
    rw [length_append, length_append, length_envelopeHeader, iv.2, hlen]
    simp only [preIvHeaderLen, saltLen, lfseEnvelopeOverhead, u32Max]
    congr 1
    omega

/-- **The envelope.** It decrypts to what was encrypted; when its ciphertext opens only as it was made, no
other header in front of it decrypts, whatever version it names and whatever the password; and the announced
size is its length, as far as 32 bits go. -/
theorem envelope_sealed {C : EnvelopeCrypto} {mobile : Bool} {zip env : Bytes} {pw : String} {m t p : UInt32}
    {salt : Block 32} {iv : Block 12} (h : encryptWithPassword C mobile zip pw m t p salt iv = .ok env) :
    decryptArchiveWithPassword C mobile env pw = .ok zip ∧
    ((∀ key, C.argon2idDerive (utf8 pw) salt.1 m t p = .ok key →
        OpensOnlyAs C.toAead key iv (envelopeHeader m t p salt) (env.drop (preIvHeaderLen + ivLen))) →
      ∀ env' pw', env'.drop (preIvHeaderLen + ivLen) = env.drop (preIvHeaderLen + ivLen) → env' ≠ env →
        ∃ e, decryptArchiveWithPassword C mobile env' pw' = .error e) ∧
    (pw ≠ "" → exportArchiveSize (.ok zip) ⟨some pw, m, t, p⟩ = .ok (min env.length u32Max)) := by
  refine ⟨decrypt_encrypt h, fun hopens env' pw' hdrop hne => ?_, fun hpw => ?_⟩
  · obtain ⟨key, ct, -, hkey, -, rfl⟩ := encrypt_eq_ok h
    have hct : (envelopeHeader m t p salt ++ iv.1 ++ ct).drop (preIvHeaderLen + ivLen) = ct := by
      apply drop_left'
      rw [length_append, length_envelopeHeader, iv.2]
      rfl
    have hopens' := hopens key hkey
    rw [hct] at hopens' hdrop
    rcases hdec : decryptArchiveWithPassword C mobile env' pw' with e | zip'
    · exact ⟨e, rfl⟩
    · exact absurd (decrypt_tampered hopens' hdrop hdec) hne
  · have hout : exportArchive C mobile (.ok zip) ⟨some pw, m, t, p⟩ salt iv = .ok env := by
      rw [exportArchive, if_neg (by simpa using hpw)]
      exact h
    exact exportArchiveSize_eq hout

/-! ## An instance -/

/-- A tag of 16 bytes: one of its own for the marked key, nonce and associated data, and for all others the
first bytes of the associated data. -/
def markedTag (key₀ : Block 32) (iv₀ : Block 12) (aad₀ : Bytes) (key : Block 32) (iv : Block 12) (aad : Bytes) :
    Bytes :=
  if key = key₀ ∧ iv = iv₀ ∧ aad = aad₀ then List.replicate 16 255 else (aad ++ List.replicate 15 0).take 15 ++ [0]

section

variable (key₀ : Block 32) (iv₀ : Block 12) (aad₀ : Bytes) (key : Block 32) (iv : Block 12)

theorem length_markedTag (aad : Bytes) : (markedTag key₀ iv₀ aad₀ key iv aad).length = 16 := by
  unfold markedTag
  split_ifs
  · rfl
  · simp

theorem getLast?_markedTag (aad : Bytes) : (markedTag key₀ iv₀ aad₀ key iv aad).getLast? = some 255 ↔
    key = key₀ ∧ iv = iv₀ ∧ aad = aad₀ := by
  unfold markedTag
  split_ifs with h
  · exact iff_of_true rfl h
  · refine iff_of_false ?_ h
    rw [getLast?_concat]
    decide

theorem markedTag_counter {i j : Nat} (hi : i < 2 ^ 64) (hj : j < 2 ^ 64) (hij : i ≠ j) :
    markedTag key₀ iv₀ aad₀ key iv (leBytes 8 i) ≠ markedTag key₀ iv₀ aad₀ key iv (leBytes 8 j) := by
  have hne : leBytes 8 i ≠ leBytes 8 j := fun h => hij (leBytes_inj (by omega) (by omega) h)
  intro htags
  have hiff : (key = key₀ ∧ iv = iv₀ ∧ leBytes 8 i = aad₀) ↔ (key = key₀ ∧ iv = iv₀ ∧ leBytes 8 j = aad₀) := by
    rw [← getLast?_markedTag, ← getLast?_markedTag, htags]
  by_cases hmark : key = key₀ ∧ iv = iv₀ ∧ leBytes 8 i = aad₀
  · exact hne (hmark.2.2.trans (hiff.mp hmark).2.2.symm)
  · unfold markedTag at htags
    rw [if_neg hmark, if_neg (fun h => hmark (hiff.mpr h))] at htags
    have h8 : ∀ n, ((leBytes 8 n ++ List.replicate 15 0).take 15 ++ [0]).take 8 = leBytes 8 n := fun n => rfl
    exact hne (by rw [← h8 i, ← h8 j, htags])

end

/-- An instance that leaves the text readable and marks what it seals. -/
def markedCrypto (key₀ : Block 32) (iv₀ : Block 12) (aad₀ : Bytes) : EnvelopeCrypto where
  encrypt key iv pt aad := some (pt ++ markedTag key₀ iv₀ aad₀ key iv aad)
  decrypt key iv ct aad :=
    if ct.drop (ct.length - 16) = markedTag key₀ iv₀ aad₀ key iv aad then some (ct.take (ct.length - 16)) else none
  encrypt_isSome _ _ _ _ _ _ := rfl
  length_encrypt _ _ pt aad ct h := by
    cases h
    rw [List.length_append, length_markedTag]
  decrypt_encrypt _ _ pt aad ct h := by
    cases h
    simp [length_markedTag]
  decrypt_counter key iv pt ct i j hi hj hij h := by
    cases h
    have hne := markedTag_counter key₀ iv₀ aad₀ key iv hi hj hij
    simp [length_markedTag, hne]
  hkdfSha256 := Crypto.tagged.hkdfSha256
  length_hkdfSha256 := Crypto.tagged.length_hkdfSha256
  argon2idDerive password _ _ _ _ := .ok ⟨(password ++ List.replicate 32 0).take 32, by simp⟩

theorem opensOnlyAs_marked (key₀ : Block 32) (iv₀ : Block 12) (aad₀ pt : Bytes) :
    OpensOnlyAs (markedCrypto key₀ iv₀ aad₀).toAead key₀ iv₀ aad₀ (pt ++ List.replicate 16 255) := by
  intro key iv aad pt' h
  change (if _ then _ else _) = _ at h
  split_ifs at h with htag
  rw [← getLast?_markedTag, ← htag, length_append, length_replicate, Nat.add_sub_cancel, drop_left]
  rfl

def sampleKey : Block 32 := ⟨(utf8 "hunter2" ++ List.replicate 32 0).take 32, by decide +kernel⟩
def sampleHeader : Bytes := envelopeHeader 16 1 1 (Block.fill 32 7)
def sampleEnvelope : Bytes := sampleHeader ++ (Block.fill 12 9).1 ++ ([1, 2, 3] ++ List.replicate 16 255)

theorem sample_encrypted :
    encryptWithPassword (markedCrypto sampleKey (Block.fill 12 9) sampleHeader) false [1, 2, 3] "hunter2" 16 1 1
      (Block.fill 32 7) (Block.fill 12 9) = .ok sampleEnvelope := by
  decide +kernel

/-- The round trip, and the same envelope with the version byte set back. -/
theorem envelope_sealed_sample :
    decryptArchiveWithPassword (markedCrypto sampleKey (Block.fill 12 9) sampleHeader) false sampleEnvelope
        "hunter2" = .ok [1, 2, 3] ∧
      (∃ e, decryptArchiveWithPassword (markedCrypto sampleKey (Block.fill 12 9) sampleHeader) false
        (sampleEnvelope.set 4 encVersionArgon2idLegacy) "hunter2" = .error e) ∧
      exportArchiveSize (.ok [1, 2, 3]) ⟨some "hunter2", 16, 1, 1⟩ = .ok 78 := by
  obtain ⟨hround, hbound, hsize⟩ := envelope_sealed sample_encrypted
  refine ⟨hround, hbound ?_ _ _ ?_ ?_, hsize (by decide)⟩
  · intro key hkey
    have hk : key = sampleKey := (Except.ok.inj hkey).symm
    rw [hk]
    exact opensOnlyAs_marked sampleKey (Block.fill 12 9) sampleHeader [1, 2, 3]
  · decide +kernel
  · decide +kernel

/-- A ZIP of 4 GiB: the announced size stays at the largest 32-bit number. -/
theorem size_saturates : ∃ env, encryptWithPassword (markedCrypto sampleKey (Block.fill 12 9) sampleHeader) false
        (List.replicate (2 ^ 32) 0) "hunter2" 16 1 1 (Block.fill 32 7) (Block.fill 12 9) = .ok env ∧
      exportArchiveSize (.ok (List.replicate (2 ^ 32) 0)) ⟨some "hunter2", 16, 1, 1⟩ = .ok 4294967295 ∧
      env.length = 4294967371 := by
  refine ⟨_, rfl, ?_, ?_⟩
  · unfold exportArchiveSize
    dsimp only
    rw [length_replicate]
    rfl
  · simp only [length_append, length_replicate, length_envelopeHeader]
    rfl

end LetsFlutSsh.Archive
