import LetsFlutSsh.SshAgent.Agent
import LetsFlutSsh.SshAgent.SignerCalls

/-!
# SSH agent: the name in the answer and the hash of the signature

* `DeviceOp.Hashes` : the hash under which a device gets the data;
* `HashAgrees` : one device signed, under the hash that the answer names and that the request asks for;
* `HashKept` : the rows and requests for which that is so (`signature_hash_iff`).
-/

namespace LetsFlutSsh.SshAgent
open Lib Ssh

/-- The head of a `DigestInfo`. -/
def digestInfoHead : HashAlg → Option Bytes
  | .sha256 => some digestInfoSha256
  | .sha384 => none
  | .sha512 => some digestInfoSha512

def SignatureScheme.hash : SignatureScheme → HashAlg
  | .ecDsa alg | .rsaSsa alg => alg

/-- The device is given the data under this hash, and told so where it is told anything. -/
def DeviceOp.Hashes (host : Host) (h : Hashing) (data : Bytes) : DeviceOp → Prop
  | .ckSign _ _ .eddsaPure input => h = .plain ∧ input = data
  | .ckSign _ _ .ecdsa input => ∃ alg, h = .hashed alg ∧ input = host.digest alg data
  | .ckSign _ _ .rsaPkcs input =>
    ∃ alg head, h = .hashed alg ∧ digestInfoHead alg = some head ∧ input = head ++ host.digest alg data
  | .getAssertion _ _ challenge _ => h = .hashed .sha256 ∧ challenge = host.digest .sha256 data
  | .secKeySign _ messageHash message => h = .hashed messageHash ∧ message = data
  | .signHash _ none hash => ∃ alg, h = .hashed alg ∧ hash = host.digest alg data
  | .signHash _ (some padAlg) hash => h = .hashed padAlg ∧ hash = host.digest padAlg data
  | .tpm2Sign _ _ digest scheme => h = .hashed scheme.hash ∧ digest = host.digest scheme.hash data
  | _ => False

def DeviceOp.IsRsa : DeviceOp → Prop
  | .ckSign _ _ .rsaPkcs _ | .signHash _ (some _) _ | .tpm2Sign _ _ _ (.rsaSsa _) => True
  | _ => False

def onlySha256 (flags : UInt32) : Prop := wantsSha256 flags ∧ ¬ wantsSha512 flags
def onlySha512 (flags : UInt32) : Prop := wantsSha512 flags ∧ ¬ wantsSha256 flags

/-- One device signed, under the hash that the answer names, and for an RSA key under the one that the request asks for. -/
def HashAgrees (host : Host) (data : Bytes) (flags : UInt32) (calls : DeviceCalls) (out : SignOutput) : Prop :=
  ∃ op, callsOf isSignature calls = [op] ∧ (∃ h, namedHashing out.algorithm = some h ∧ op.Hashes host h data) ∧
    (op.IsRsa → (onlySha256 flags → op.Hashes host (.hashed .sha256) data) ∧
      (onlySha512 flags → op.Hashes host (.hashed .sha512) data))

/-- The rows and requests for which the name in the answer is right. -/
structure HashKept (row : HardwareRow) (flags : UInt32) (reported : Option KeyType) : Prop where
  /-- An Ed25519 key on a token is stored as one. -/
  edwards : row.backend = .pkcs11 → reported = some .ecEdwards → row.keyType = "ed25519" ∨ row.keyType = "ssh-ed25519"
  /-- An RSA key on a token is not stored under the name of the other hash. -/
  tokenRsa : row.backend = .pkcs11 → reported = some .rsa →
    ¬ (row.keyType = "rsa-sha2-256" ∧ onlySha512 flags) ∧ ¬ (row.keyType = "rsa-sha2-512" ∧ onlySha256 flags)
  /-- A P-384 key of the Windows TPM is stored under its wire name. -/
  silentP384 : row.backend = .tpm → row.keyType ≠ "ecdsa-p384"
  /-- An RSA key of the Linux TPM is not asked for SHA-512. -/
  tpmRsa : row.backend = .tpm → row.tpmProvider = some "tss-esapi" →
    row.keyType = "rsa" ∨ row.keyType = "ssh-rsa" ∨ row.keyType = "rsa-2048" → ¬ wantsSha512 flags

variable {keyType : String}

section Kept

variable {host : Host} {row : HardwareRow} {data : Bytes} {flags : UInt32} {calls : DeviceCalls} {out : SignOutput}
  {op : DeviceOp}

theorem hashAgrees_iff (hop : callsOf isSignature calls = [op]) : HashAgrees host data flags calls out ↔
    (∃ h, namedHashing out.algorithm = some h ∧ op.Hashes host h data) ∧
      (op.IsRsa → (onlySha256 flags → op.Hashes host (.hashed .sha256) data) ∧
        (onlySha512 flags → op.Hashes host (.hashed .sha512) data)) := by
  constructor
  · rintro ⟨op', hop', h⟩
    rw [hop] at hop'
    cases hop'
    exact h
  · exact fun h => ⟨op, hop, h⟩

theorem hashAgrees_of_named {h : Hashing} (hop : callsOf isSignature calls = [op]) (hrsa : ¬ op.IsRsa)
    (hnamed : namedHashing out.algorithm = some h) (hhash : op.Hashes host h data) : HashAgrees host data flags calls out :=
  (hashAgrees_iff hop).2 ⟨⟨h, hnamed, hhash⟩, fun h => absurd h hrsa⟩

theorem hashKept_of_backend {reported : Option KeyType} (hpkcs11 : row.backend ≠ .pkcs11) (htpm : row.backend ≠ .tpm) :
    HashKept row flags reported :=
  ⟨fun h => absurd h hpkcs11, fun h => absurd h hpkcs11, fun h => absurd h htpm, fun h => absurd h htpm⟩

/-! ## Tokens -/

theorem namedHashing_eq_plain (algorithm : String) : namedHashing algorithm = some .plain ↔ algorithm = "ssh-ed25519" := by
  constructor
  · intro h
    unfold namedHashing at h
    split_ifs at h with h256 h384 h512 hplain
    · cases h
    · cases h
    · cases h
    · exact hplain
  · rintro rfl
    decide

theorem sshAlgorithmForPkcs11_cases (hrsa : ¬ (keyType = "rsa" ∨ keyType = "ssh-rsa")) (flags : UInt32) :
    (keyType = "ed25519" ∨ keyType = "ssh-ed25519") ∧ sshAlgorithmForPkcs11 keyType flags = "ssh-ed25519" ∨
    sshAlgorithmForPkcs11 keyType flags ∈ ["ecdsa-sha2-nistp256", "ecdsa-sha2-nistp384", "ecdsa-sha2-nistp521"] ∨
    sshAlgorithmForPkcs11 keyType flags = keyType := by
  rw [sshAlgorithmForPkcs11, if_neg hrsa]
  split_ifs with h256 h384 h521 hed
  · exact .inr (.inl (by decide))
  · exact .inr (.inl (by decide))
  · exact .inr (.inl (by decide))
  · exact .inl ⟨hed, rfl⟩
  · exact .inr (.inr rfl)

theorem sshAlgorithmForPkcs11_rsa (h : keyType = "rsa" ∨ keyType = "ssh-rsa") :
    sshAlgorithmForPkcs11 keyType flags = if wantsSha256 flags then "rsa-sha2-256" else "rsa-sha2-512" := if_pos h

theorem sshAlgorithmForPkcs11_eq_ed25519 (keyType : String) (flags : UInt32) :
    sshAlgorithmForPkcs11 keyType flags = "ssh-ed25519" ↔ keyType = "ed25519" ∨ keyType = "ssh-ed25519" := by
  constructor
  · intro h
    by_cases hrsa : keyType = "rsa" ∨ keyType = "ssh-rsa"
    · rw [sshAlgorithmForPkcs11_rsa hrsa] at h
      split_ifs at h <;> exact absurd h (by decide)
    rcases sshAlgorithmForPkcs11_cases hrsa flags with ⟨hed, -⟩ | hname | hname
    · exact hed
    · rw [h] at hname
      exact absurd hname (by decide)
    · exact .inr (hname.symm.trans h)
  · rintro (rfl | rfl) <;> rfl

/-- The key type of a row whose signatures have the name of an RSA signature. -/
theorem keyType_of_rsaName {name : String} (hname : name = "rsa-sha2-256" ∨ name = "rsa-sha2-512")
    (h : sshAlgorithmForPkcs11 keyType flags = name) :
    ((keyType = "rsa" ∨ keyType = "ssh-rsa") ∧ name = if wantsSha256 flags then "rsa-sha2-256" else "rsa-sha2-512") ∨
      keyType = name := by
  by_cases hrsa : keyType = "rsa" ∨ keyType = "ssh-rsa"
  · exact .inl ⟨hrsa, h.symm.trans (sshAlgorithmForPkcs11_rsa hrsa)⟩
  rcases sshAlgorithmForPkcs11_cases hrsa flags with ⟨-, heq⟩ | hmem | heq
  · rw [h] at heq
    rcases hname with rfl | rfl <;> exact absurd heq (by decide)
  · rw [h] at hmem
    rcases hname with rfl | rfl <;> exact absurd hmem (by decide)
  · exact .inr (heq.symm.trans h)

theorem digestInfo_ne (a b : Bytes) : digestInfoSha256 ++ a ≠ digestInfoSha512 ++ b := by
  intro h
  have hsecond : some (0x31 : UInt8) = some 0x51 := congrArg (·[1]?) h
  exact absurd hsecond (by decide)

theorem tokenSigned_rsa256 {session key : Nat} : DeviceOp.Hashes host (.hashed .sha256) data
      (.ckSign session key .rsaPkcs (rsaDigestinfoSha256 host data)) ∧
    ¬ DeviceOp.Hashes host (.hashed .sha512) data (.ckSign session key .rsaPkcs (rsaDigestinfoSha256 host data)) := by
  refine ⟨⟨.sha256, _, rfl, rfl, rfl⟩, ?_⟩
  rintro ⟨alg, head, halg, hhead, heq⟩
  cases halg
  cases hhead
  exact digestInfo_ne _ _ heq

theorem tokenSigned_rsa512 {session key : Nat} : DeviceOp.Hashes host (.hashed .sha512) data
      (.ckSign session key .rsaPkcs (rsaDigestinfoSha512 host data)) ∧
    ¬ DeviceOp.Hashes host (.hashed .sha256) data (.ckSign session key .rsaPkcs (rsaDigestinfoSha512 host data)) := by
  refine ⟨⟨.sha512, _, rfl, rfl, rfl⟩, ?_⟩
  rintro ⟨alg, head, halg, hhead, heq⟩
  cases halg
  cases hhead
  exact digestInfo_ne _ _ heq.symm

theorem hashKept_pkcs11 {type : KeyType} (hbackend : row.backend = .pkcs11) : HashKept row flags (some type) ↔
    (type = .ecEdwards → row.keyType = "ed25519" ∨ row.keyType = "ssh-ed25519") ∧
      (type = .rsa → ¬ (row.keyType = "rsa-sha2-256" ∧ onlySha512 flags) ∧
        ¬ (row.keyType = "rsa-sha2-512" ∧ onlySha256 flags)) := by
  constructor
  · exact fun h => ⟨fun htype => h.edwards hbackend (congrArg some htype), fun htype => h.tokenRsa hbackend (congrArg some htype)⟩
  · rintro ⟨hedwards, hrsa⟩
    have hne : row.backend ≠ .tpm := by
      rw [hbackend]
      decide
    exact ⟨fun _ htype => hedwards (Option.some.inj htype), fun _ htype => hrsa (Option.some.inj htype),
      fun h => absurd h hne, fun h => absurd h hne⟩

theorem pkcs11_hash_iff (hbackend : row.backend = .pkcs11) (h : (pkcs11Sign host row data flags).Makes calls (.ok out)) :
    HashAgrees host data flags calls out ↔ HashKept row flags (reportedKeyType calls) := by
  obtain ⟨type, op, htype, hop, hsigned, hname⟩ := pkcs11Sign_makes h
  rw [htype, hashKept_pkcs11 hbackend, hashAgrees_iff hop]
  cases hsigned with
  | edwards session key =>
    rw [← sshAlgorithmForPkcs11_eq_ed25519 row.keyType flags, ← hname, ← namedHashing_eq_plain]
    constructor
    · rintro ⟨⟨_, hnamed, rfl, -⟩, -⟩
      exact ⟨fun _ => hnamed, nofun⟩
    · rintro ⟨hnamed, -⟩
      exact ⟨⟨.plain, hnamed rfl, rfl, rfl⟩, nofun⟩
  | ec session key hnamed => exact ⟨fun _ => ⟨nofun, nofun⟩, fun _ => ⟨⟨_, hnamed, _, rfl, rfl⟩, nofun⟩⟩
  | rsaSha256 session key halgorithm =>
    have hnamed : namedHashing out.algorithm = some (.hashed .sha256) := by
      rw [halgorithm]
      decide
    have hread := keyType_of_rsaName (.inl halgorithm) hname.symm
    rw [halgorithm] at hread
    constructor
    · rintro ⟨-, hrsa⟩
      refine ⟨nofun, fun _ => ⟨fun hboth => tokenSigned_rsa256.2 ((hrsa trivial).2 hboth.2), ?_⟩⟩
      rintro ⟨hkeyType, -⟩
      rw [hkeyType] at hread
      exact absurd hread (by simp)
    · rintro ⟨-, hkept⟩
      refine ⟨⟨_, hnamed, tokenSigned_rsa256.1⟩, fun _ => ⟨fun _ => tokenSigned_rsa256.1, fun hwants => ?_⟩⟩
      rcases hread with ⟨-, hflag⟩ | heq
      · rw [if_neg hwants.2] at hflag
        exact absurd hflag (by decide)
      · exact absurd ⟨heq, hwants⟩ (hkept rfl).1
  | rsaSha512 session key halgorithm =>
    have hnamed : namedHashing out.algorithm = some (.hashed .sha512) := by
      rw [halgorithm]
      decide
    have hread := keyType_of_rsaName (.inr halgorithm) hname.symm
    rw [halgorithm] at hread
    constructor
    · rintro ⟨-, hrsa⟩
      refine ⟨nofun, fun _ => ⟨?_, fun hboth => tokenSigned_rsa512.2 ((hrsa trivial).1 hboth.2)⟩⟩
      rintro ⟨hkeyType, -⟩
      rw [hkeyType] at hread
      exact absurd hread (by simp)
    · rintro ⟨-, hkept⟩
      refine ⟨⟨_, hnamed, tokenSigned_rsa512.1⟩, fun _ => ⟨fun hwants => ?_, fun _ => tokenSigned_rsa512.1⟩⟩
      rcases hread with ⟨-, hflag⟩ | heq
      · rw [if_pos hwants.1] at hflag
        exact absurd hflag (by decide)
      · exact absurd ⟨heq, hwants⟩ (hkept rfl).2

/-! ## The Windows key store -/

section

variable (hop : callsOf isSignature calls = [op])
include hop

theorem keyStore_agrees_p256 (hsigned : KeyStoreSigned host out.algorithm data .ecdsaP256 op)
    (hname : out.algorithm = "ecdsa-sha2-nistp256") :
    HashAgrees host data flags calls out := by
  cases hsigned with
  | p256 key =>
    refine hashAgrees_of_named (h := .hashed .sha256) hop id ?_ ⟨_, rfl, rfl⟩
    rw [hname]
    decide

theorem keyStore_agrees_p384 (hsigned : KeyStoreSigned host out.algorithm data .ecdsaP384 op)
    (hname : out.algorithm = "ecdsa-sha2-nistp384") :
    HashAgrees host data flags calls out := by
  cases hsigned with
  | p384 key =>
    refine hashAgrees_of_named (h := .hashed .sha384) hop id ?_ ⟨_, rfl, rfl⟩
    rw [hname]
    decide

theorem keyStore_agrees_rsa (hsigned : KeyStoreSigned host out.algorithm data .rsa2048 op)
    (h256 : out.algorithm = "rsa-sha2-256" → ¬ onlySha512 flags)
    (h512 : out.algorithm = "rsa-sha2-512" → ¬ onlySha256 flags) :
    HashAgrees host data flags calls out := by
  cases hsigned with
  | rsaSha256 key h =>
    refine (hashAgrees_iff hop).2 ⟨⟨.hashed .sha256, ?_, rfl, rfl⟩, fun _ => ⟨fun _ => ⟨rfl, rfl⟩, ?_⟩⟩
    · rw [h]
      decide
    · exact fun hwants => absurd hwants (h256 h)
  | rsaSha512 key h =>
    refine (hashAgrees_iff hop).2 ⟨⟨.hashed .sha512, ?_, rfl, rfl⟩, fun _ => ⟨?_, fun _ => ⟨rfl, rfl⟩⟩⟩
    · rw [h]
      decide
    · exact fun hwants => absurd hwants (h512 h)

end

theorem SshKeyAlgo.fromKeyType_cases {algo : SshKeyAlgo}
    (h : SshKeyAlgo.fromKeyType keyType = .ok algo) :
    (algo = .ecdsaP256 ∧ (keyType = "ecdsa-p256" ∨ keyType = "ecdsa-sha2-nistp256")) ∨
    (algo = .ecdsaP384 ∧ (keyType = "ecdsa-p384" ∨ keyType = "ecdsa-sha2-nistp384")) ∨
    (algo = .rsa2048 ∧ (keyType = "rsa" ∨ keyType = "ssh-rsa" ∨ keyType = "rsa-2048")) := by
  unfold SshKeyAlgo.fromKeyType at h
  split_ifs at h with h256 h384 hrsa
  · cases h
    exact Or.inl ⟨rfl, h256⟩
  · cases h
    exact Or.inr (Or.inl ⟨rfl, h384⟩)
  · cases h
    exact Or.inr (Or.inr ⟨rfl, hrsa⟩)

theorem TpmSshAlgorithm.fromKeyType_cases {alg : TpmSshAlgorithm}
    (h : TpmSshAlgorithm.fromKeyType keyType = .ok alg) :
    (alg = .ecdsaP256 ∧ (keyType = "ecdsa-p256" ∨ keyType = "ecdsa-sha2-nistp256")) ∨
    (alg = .rsa2048 ∧ (keyType = "rsa" ∨ keyType = "ssh-rsa" ∨ keyType = "rsa-2048")) := by
  unfold TpmSshAlgorithm.fromKeyType at h
  split_ifs at h with h256 hrsa
  · cases h
    exact Or.inl ⟨rfl, h256⟩
  · cases h
    exact Or.inr ⟨rfl, hrsa⟩

section

variable (h : keyType = "rsa" ∨ keyType = "ssh-rsa" ∨ keyType = "rsa-2048")
include h

theorem sshAlgorithmForHello_rsa :
    sshAlgorithmForHello keyType flags = if wantsSha256 flags then "rsa-sha2-256" else "rsa-sha2-512" := if_pos h

theorem sshAlgorithmForTpm_rsa :
    sshAlgorithmForTpm keyType flags = if wantsSha512 flags then "rsa-sha2-512" else "rsa-sha2-256" := if_pos h

end

theorem hello_agrees (h : (helloSign host row data flags).Makes calls (.ok out)) :
    HashAgrees host data flags calls out := by
  obtain ⟨algo, op, hread, hop, hsigned, hname⟩ := helloSign_makes h
  rcases SshKeyAlgo.fromKeyType_cases hread with ⟨rfl, hkey⟩ | ⟨rfl, hkey⟩ | ⟨rfl, hkey⟩
  · refine keyStore_agrees_p256 hop hsigned (hname.trans ?_)
    rcases hkey with hkey | hkey <;> rw [hkey] <;> rfl
  · refine keyStore_agrees_p384 hop hsigned (hname.trans ?_)
    rcases hkey with hkey | hkey <;> rw [hkey] <;> rfl
  · rw [sshAlgorithmForHello_rsa hkey] at hname
    refine keyStore_agrees_rsa hop hsigned ?_ ?_
    · rintro halgorithm ⟨-, hnot⟩
      rw [if_neg hnot] at hname
      exact absurd (hname.symm.trans halgorithm) (by decide)
    · rintro halgorithm ⟨hwants, -⟩
      rw [if_pos hwants] at hname
      exact absurd (hname.symm.trans halgorithm) (by decide)

/-! ## The TPM -/

theorem hashKept_tpm {reported : Option KeyType} (hbackend : row.backend = .tpm) : HashKept row flags reported ↔
    row.keyType ≠ "ecdsa-p384" ∧ (row.tpmProvider = some "tss-esapi" →
      row.keyType = "rsa" ∨ row.keyType = "ssh-rsa" ∨ row.keyType = "rsa-2048" → ¬ wantsSha512 flags) := by
  constructor
  · exact fun h => ⟨h.silentP384 hbackend, h.tpmRsa hbackend⟩
  · rintro ⟨hp384, hrsa⟩
    have hne : row.backend ≠ .pkcs11 := by
      rw [hbackend]
      decide
    exact ⟨fun h => absurd h hne, fun h => absurd h hne, fun _ => hp384, fun _ => hrsa⟩

theorem tssEsapi_hash_iff {alg : TpmSshAlgorithm} {storage : TpmSshStorage} {auth : Option Bytes}
    (hread : TpmSshAlgorithm.fromKeyType row.keyType = .ok alg) (hname : out.algorithm = sshAlgorithmForTpm row.keyType flags)
    (hop : callsOf isSignature calls = [.tpm2Sign storage auth (host.digest .sha256 data) (tpmScheme alg)]) :
    HashAgrees host data flags calls out ↔ row.keyType ≠ "ecdsa-p384" ∧
      (row.keyType = "rsa" ∨ row.keyType = "ssh-rsa" ∨ row.keyType = "rsa-2048" → ¬ wantsSha512 flags) := by
  rcases TpmSshAlgorithm.fromKeyType_cases hread with ⟨rfl, hkey⟩ | ⟨rfl, hkey⟩
  · have hnamed : namedHashing out.algorithm = some (.hashed .sha256) := by
      rw [hname]
      rcases hkey with hkey | hkey <;> rw [hkey] <;> rfl
    refine ⟨fun _ => ⟨?_, ?_⟩, fun _ => hashAgrees_of_named hop id hnamed ⟨rfl, rfl⟩⟩
    · rcases hkey with hkey | hkey <;> rw [hkey] <;> decide
    · rcases hkey with hkey | hkey <;> rw [hkey] <;> exact fun h => absurd h (by decide)
  · have hp384 : row.keyType ≠ "ecdsa-p384" := by
      rcases hkey with hkey | hkey | hkey <;> rw [hkey] <;> decide
    rw [sshAlgorithmForTpm_rsa hkey] at hname
    rw [hashAgrees_iff hop, hname]
    by_cases hwants : wantsSha512 flags
    · rw [if_pos hwants]
      constructor
      · rintro ⟨⟨h, hnamed, rfl, -⟩, -⟩
        exact absurd hnamed (by decide)
      · exact fun h => absurd hwants (h.2 hkey)
    · rw [if_neg hwants]
      refine ⟨fun _ => ⟨hp384, fun _ => hwants⟩, fun _ => ⟨⟨.hashed .sha256, by decide, rfl, rfl⟩, fun _ => ?_⟩⟩
      exact ⟨fun _ => ⟨rfl, rfl⟩, fun h => absurd h.1 hwants⟩

theorem cngPcp_hash_iff {algo : SshKeyAlgo} (hread : SshKeyAlgo.fromKeyType row.keyType = .ok algo)
    (hname : out.algorithm = sshAlgorithmForTpm row.keyType flags) (hop : callsOf isSignature calls = [op])
    (hsigned : KeyStoreSigned host out.algorithm data algo op) :
    HashAgrees host data flags calls out ↔ row.keyType ≠ "ecdsa-p384" := by
  rcases SshKeyAlgo.fromKeyType_cases hread with ⟨rfl, hkey⟩ | ⟨rfl, hkey | hkey⟩ | ⟨rfl, hkey⟩
  · refine iff_of_true (keyStore_agrees_p256 hop hsigned (hname.trans ?_)) ?_
    · rcases hkey with hkey | hkey <;> rw [hkey] <;> rfl
    · rcases hkey with hkey | hkey <;> rw [hkey] <;> decide
  · rw [hashAgrees_iff hop, hname, hkey]
    constructor
    · rintro ⟨⟨h, hnamed, -⟩, -⟩
      exact absurd hnamed nofun
    · exact fun h => absurd rfl h
  · refine iff_of_true (keyStore_agrees_p384 hop hsigned (hname.trans ?_)) ?_
    · rw [hkey]
      rfl
    · rw [hkey]
      decide
  · rw [sshAlgorithmForTpm_rsa hkey] at hname
    refine iff_of_true (keyStore_agrees_rsa hop hsigned ?_ ?_) ?_
    · rintro halgorithm ⟨hwants, -⟩
      rw [if_pos hwants] at hname
      exact absurd (hname.symm.trans halgorithm) (by decide)
    · rintro halgorithm ⟨-, hnot⟩
      rw [if_neg hnot] at hname
      exact absurd (hname.symm.trans halgorithm) (by decide)
    · rcases hkey with hkey | hkey | hkey <;> rw [hkey] <;> decide

theorem tpm_hash_iff (hbackend : row.backend = .tpm) (h : (tpmSign host row data flags).Makes calls (.ok out)) :
    HashAgrees host data flags calls out ↔ HashKept row flags (reportedKeyType calls) := by
  obtain ⟨hname, ⟨hprovider, alg, storage, auth, hread, hop⟩ | ⟨hprovider, algo, op, hread, hop, hsigned⟩⟩ := tpmSign_makes h
  · rw [hashKept_tpm hbackend, tssEsapi_hash_iff hread hname hop]
    exact ⟨fun h => ⟨h.1, fun _ => h.2⟩, fun h => ⟨h.1, h.2 hprovider⟩⟩
  · rw [hashKept_tpm hbackend, cngPcp_hash_iff hread hname hop hsigned, hprovider]
    exact ⟨fun h => ⟨h, fun heq => absurd heq (by decide)⟩, fun h => h.1⟩

/-! ## Every backend -/

/-- **The hash of a signature.** In every run that returns a signature the answer names the hash that the device was given,
and an RSA key follows the request, exactly for the rows and requests of `HashKept`. -/
theorem signature_hash_iff (host : Host) (formatFingerprint : String → Option String) (row : HardwareRow) (data : Bytes)
    (flags : UInt32) (calls : DeviceCalls) (out : SignOutput)
    (h : (hardwareSign host formatFingerprint row data flags).Makes calls (.ok out)) :
    HashAgrees host data flags calls out ↔ HashKept row flags (reportedKeyType calls) := by
  unfold hardwareSign at h
  cases hbackend : row.backend with
  | software =>
    simp only [BackendKind.fromRow, hbackend] at h
    cases h.2
  | fido2 =>
    simp only [BackendKind.fromRow, hbackend] at h
    split_ifs at h
    · cases h.2
    · obtain ⟨alg, credentialId, application, hname, hop⟩ := fido2SignDevice_makes h
      refine iff_of_true (hashAgrees_of_named (h := .hashed .sha256) hop id ?_ ⟨rfl, rfl⟩) (hashKept_of_backend ?_ ?_)
      · rw [hname]
        cases alg <;> decide
      · exact hbackend ▸ nofun
      · exact hbackend ▸ nofun
  | pkcs11 =>
    simp only [BackendKind.fromRow, hbackend] at h
    exact pkcs11_hash_iff hbackend h
  | enclave =>
    simp only [BackendKind.fromRow, hbackend] at h
    obtain ⟨key, hop, hname⟩ := enclaveSign_makes h
    refine iff_of_true (hashAgrees_of_named (h := .hashed .sha256) hop id ?_ ⟨rfl, rfl⟩) (hashKept_of_backend ?_ ?_)
    · rw [hname]
      decide
    · exact hbackend ▸ nofun
    · exact hbackend ▸ nofun
  | hello =>
    simp only [BackendKind.fromRow, hbackend] at h
    exact iff_of_true (hello_agrees h) (hashKept_of_backend (hbackend ▸ nofun) (hbackend ▸ nofun))
  | tpm =>
    simp only [BackendKind.fromRow, hbackend] at h
    exact tpm_hash_iff hbackend h
  | keystore =>
    simp only [BackendKind.fromRow, hbackend] at h
    cases h.2

end Kept

/-! ## The Linux TPM, asked for SHA-512 -/

def emptyDigest : HashAlg → Bytes
  | .sha256 =>
    [0xe3, 0xb0, 0xc4, 0x42, 0x98, 0xfc, 0x1c, 0x14, 0x9a, 0xfb, 0xf4, 0xc8, 0x99, 0x6f, 0xb9, 0x24,
      0x27, 0xae, 0x41, 0xe4, 0x64, 0x9b, 0x93, 0x4c, 0xa4, 0x95, 0x99, 0x1b, 0x78, 0x52, 0xb8, 0x55]
  | .sha384 =>
    [0x38, 0xb0, 0x60, 0xa7, 0x51, 0xac, 0x96, 0x38, 0x4c, 0xd9, 0x32, 0x7e, 0xb1, 0xb1, 0xe3, 0x6a,
      0x21, 0xfd, 0xb7, 0x11, 0x14, 0xbe, 0x07, 0x43, 0x4c, 0x0c, 0xc7, 0xbf, 0x63, 0xf6, 0xe1, 0xda,
      0x27, 0x4e, 0xde, 0xbf, 0xe7, 0x6f, 0x65, 0xfb, 0xd5, 0x1a, 0xd2, 0xf1, 0x48, 0x98, 0xb9, 0x5b]
  | .sha512 =>
    [0xcf, 0x83, 0xe1, 0x35, 0x7e, 0xef, 0xb8, 0xbd, 0xf1, 0x54, 0x28, 0x50, 0xd6, 0x6d, 0x80, 0x07,
      0xd6, 0x20, 0xe4, 0x05, 0x0b, 0x57, 0x15, 0xdc, 0x83, 0xf4, 0xa9, 0x21, 0xd3, 0x6c, 0xe9, 0xce,
      0x47, 0xd0, 0xd1, 0x3c, 0x5d, 0x85, 0xf2, 0xb0, 0xff, 0x83, 0x18, 0xd2, 0x87, 0x7e, 0xec, 0x2f,
      0x63, 0xb9, 0x31, 0xbd, 0x47, 0x41, 0x7a, 0x81, 0xa5, 0x38, 0x32, 0x7a, 0xf9, 0x27, 0xda, 0x3e]

/-- Every message has the digest of the empty one, which is the one signed below. -/
def linuxHost : Host where
  platform := .linux
  usize := .bits64
  digest alg _ := emptyDigest alg
  debug s := "\"" ++ s ++ "\""

def wrappedKey : Tpm.TpmKey := ⟨none, 0x40000001, [0, 1, 1], [0, 1, 2]⟩

theorem decode_wrappedKey : Tpm.decode (Tpm.encode wrappedKey) = .ok wrappedKey := by
  rw [Tpm.encode_eq]
  exact Tpm.decode_envelope (Tpm.readsAll_fieldsOf (by decide) (by decide)) (by decide)

def tpmRsaRow : HardwareRow where
  toSshKeyRow := { sampleRow .always with keyType := "rsa-2048", backend := .tpm }
  pkcs11ModulePath := none
  enclaveTag := none
  helloCredentialName := none
  tpmBlob := some (Tpm.encode wrappedKey)
  tpmProvider := some "tss-esapi"
  tpmPinRequired := false
  cngKeyName := none

/-- What the row makes the backend do: the key is read and loaded, and the TPM signs. -/
def tpmRsaCalls : DeviceCalls :=
  [⟨.unmarshallPublic wrappedKey.pubkey, .ok .rsa⟩, ⟨.openContext none, .ok ()⟩,
    ⟨.unmarshallPublic wrappedKey.pubkey, .ok .rsa⟩,
    ⟨.tpm2Sign (.blob [2] wrappedKey.pubkey) none (emptyDigest .sha256) (.rsaSsa .sha256), .ok (.rsaSsa [7], "")⟩]

theorem importBlob_wrappedKey : (importBlob (Tpm.encode wrappedKey)).Makes [⟨.unmarshallPublic wrappedKey.pubkey, .ok .rsa⟩]
    (.ok ⟨.rsa2048, .blob wrappedKey.privkey wrappedKey.pubkey⟩) := by
  unfold importBlob
  rw [decode_wrappedKey]
  exact ⟨.ok .rsa, [], rfl, rfl, rfl⟩

theorem tpmRsaRow_makes (flags : UInt32) : (hardwareSign linuxHost (fun _ => none) tpmRsaRow [] flags).Makes tpmRsaCalls
    (.ok ⟨sshAlgorithmForTpm "rsa-2048" flags, [7]⟩) := by
  have hsign : (tpmSshSign linuxHost ⟨.rsa2048, .blob wrappedKey.privkey wrappedKey.pubkey⟩ none []).Makes
      tpmRsaCalls.tail (.ok (.rsa2048 [7])) :=
    ⟨.ok (), _, rfl, .ok .rsa, _, rfl, .ok (.rsaSsa [7], ""), [], rfl, rfl, rfl⟩
  have hdriver : (tpmSignTssEsapi linuxHost tpmRsaRow.id "rsa-2048" false (some (Tpm.encode wrappedKey)) []).Makes
      tpmRsaCalls (.ok [7]) := by
    refine Prog.makes_andThen.2 ⟨_, [], _, rfl, ⟨rfl, rfl⟩, ?_⟩
    refine Prog.makes_andThen.2 ⟨_, _, _, rfl, Prog.makes_mapError.2 importBlob_wrappedKey, ?_⟩
    refine Prog.makes_andThen.2 ⟨_, [], _, rfl, ⟨rfl, rfl⟩, ?_⟩
    refine Prog.makes_andThen.2 ⟨none, [], _, rfl, ⟨rfl, rfl⟩, ?_⟩
    exact Prog.makes_andThen.2 ⟨_, _, [], rfl, Prog.makes_mapError.2 hsign, rfl, rfl⟩
  refine Prog.makes_andThen.2 ⟨"tss-esapi", [], _, rfl, ⟨rfl, rfl⟩, ?_⟩
  exact Prog.makes_andThen.2 ⟨[7], tpmRsaCalls, [], rfl, hdriver, rfl, rfl⟩

theorem signature_hash_iff_sample : HashAgrees linuxHost [] 0 tpmRsaCalls ⟨"rsa-sha2-256", [7]⟩ :=
  (signature_hash_iff linuxHost (fun _ => none) tpmRsaRow [] 0 tpmRsaCalls ⟨"rsa-sha2-256", [7]⟩ (tpmRsaRow_makes 0)).2
    ⟨nofun, nofun, fun _ => by decide, fun _ _ _ => by decide⟩

/-- SHA-512 is asked for and named in the answer, and the TPM is given SHA-256. -/
theorem sha512_named_sha256_signed : ¬ ∀ (host : Host) (formatFingerprint : String → Option String) (row : HardwareRow)
    (data : Bytes) (flags : UInt32) (calls : DeviceCalls) (out : SignOutput),
    (hardwareSign host formatFingerprint row data flags).Makes calls (.ok out) → HashAgrees host data flags calls out := by
  intro h
  obtain ⟨op, hop, ⟨hashing, hnamed, hhash⟩, -⟩ :=
    h linuxHost (fun _ => none) tpmRsaRow [] 4 tpmRsaCalls ⟨"rsa-sha2-512", [7]⟩ (tpmRsaRow_makes 4)
  cases hop
  cases hhash.1
  exact absurd hnamed (by decide)

end LetsFlutSsh.SshAgent
