import LetsFlutSsh.SshAgent.HardwareSign

/-!
# SSH agent: what the signers give the devices

* `namedHashing` : the hash that the name of an algorithm stands for;
* `isSignature`, `reportedKeyType` : what a run signs with, and the type of key that its token reports;
* `signWithPkcs11_makes`, `signWithKeyStore_makes`, `tpmSshSign_makes` : every signer signs once, with what `TokenSigned` and
  `KeyStoreSigned` say.
-/

namespace LetsFlutSsh.SshAgent
open Lib Ssh List Prog

/-- What is signed: the message itself, or its digest. -/
inductive Hashing where
  | plain
  | hashed (alg : HashAlg)
deriving DecidableEq

def namedHashing (algorithm : String) : Option Hashing :=
  if algorithm = "rsa-sha2-256" ∨ algorithm = "ecdsa-sha2-nistp256" ∨ algorithm = "sk-ssh-ed25519@openssh.com" ∨
      algorithm = "sk-ecdsa-sha2-nistp256@openssh.com" then some (.hashed .sha256)
  else if algorithm = "ecdsa-sha2-nistp384" then some (.hashed .sha384)
  else if algorithm = "rsa-sha2-512" ∨ algorithm = "ecdsa-sha2-nistp521" then some (.hashed .sha512)
  else if algorithm = "ssh-ed25519" then some .plain
  else none

def isSignature : DeviceOp → Bool
  | .ckSign _ _ _ _ | .getAssertion _ _ _ _ | .secKeySign _ _ _ | .signHash _ _ _ | .tpm2Sign _ _ _ _ => true
  | _ => false

abbrev DeviceCalls := List (Call DeviceOp DeviceOp.Resp)

def reportedKeyType (calls : DeviceCalls) : Option KeyType :=
  calls.findSome? fun call =>
    match call with
    | ⟨.keyTypes _ _, .ok types⟩ => types.getLast?
    | _ => none

section Runs

variable {host : Host} {calls : DeviceCalls}

theorem reportedKeyType_append (before after : DeviceCalls) :
    reportedKeyType (before ++ after) = (reportedKeyType before).or (reportedKeyType after) := findSome?_append

theorem reportedKeyType_keyTypes (session key : Nat) (types : List KeyType) :
    reportedKeyType [⟨.keyTypes session key, .ok types⟩] = types.getLast? := by
  unfold reportedKeyType
  rw [findSome?_singleton]

variable {α ε : Type} {session key : Nat} {toSign sig data : Bytes} {algorithm : String} {row : HardwareRow}
  {flags : UInt32} {out : SignOutput} {auth : Option Bytes}

theorem column_makes {value : Option α} {e : BackendError} {a : α} (h : (column value e).Makes calls (.ok a)) :
    calls = [] ∧ value = some a := by
  cases value with
  | none => cases h.2
  | some b =>
    obtain ⟨rfl, heq⟩ := h
    cases heq
    exact ⟨rfl, rfl⟩

theorem done_makes {r : Except ε α} {a : α} (h : (Prog.done r : Device (Except ε α)).Makes calls (.ok a)) :
    calls = [] ∧ r = .ok a := ⟨h.1, h.2.symm⟩

theorem mapError_eq_ok {ε' : Type} {r : Except ε α} {f : ε → ε'} {a : α} (h : r.mapError f = .ok a) : r = .ok a := by
  cases r with
  | error e => cases h
  | ok b =>
    cases h
    rfl

theorem matchSlot_makes (module : Nat) (tokenSerial : Option String) (slots : List Nat) {matched : Option Nat}
    (h : (matchSlot module tokenSerial slots).Makes calls matched) :
    callsOf isSignature calls = [] ∧ reportedKeyType calls = none := by
  induction slots generalizing calls with
  | nil =>
    obtain ⟨rfl, -⟩ := h
    exact ⟨rfl, rfl⟩
  | cons slot slots ih =>
    obtain ⟨serial, rest, rfl, hnext⟩ := h
    dsimp only [Prog.perform, Prog.bind] at hnext
    split at hnext
    · obtain ⟨rfl, -⟩ := hnext
      exact ⟨rfl, rfl⟩
    · have hrest := ih hnext
      exact hrest

/-- What a token is given, for the type of its key and the name of the algorithm. -/
inductive TokenSigned (host : Host) (algorithm : String) (data : Bytes) : KeyType → DeviceOp → Prop where
  | edwards (session key : Nat) : TokenSigned host algorithm data .ecEdwards (.ckSign session key .eddsaPure data)
  | ec (session key : Nat) {alg : HashAlg} (h : namedHashing algorithm = some (.hashed alg)) :
    TokenSigned host algorithm data .ec (.ckSign session key .ecdsa (host.digest alg data))
  | rsaSha256 (session key : Nat) (h : algorithm = "rsa-sha2-256") :
    TokenSigned host algorithm data .rsa (.ckSign session key .rsaPkcs (rsaDigestinfoSha256 host data))
  | rsaSha512 (session key : Nat) (h : algorithm = "rsa-sha2-512") :
    TokenSigned host algorithm data .rsa (.ckSign session key .rsaPkcs (rsaDigestinfoSha512 host data))

theorem perform_makes {β : Type} {op : DeviceOp} {p : Device (Except ε α)} {f : α → Except ε β} {b : β}
    (hp : ∀ {calls : DeviceCalls} {a : α}, p.Makes calls (.ok a) → ∃ answer, calls = [⟨op, answer⟩])
    (h : (p.andThen fun a => .done (f a)).Makes calls (.ok b)) : ∃ answer, calls = [⟨op, answer⟩] := by
  obtain ⟨a, before, after, rfl, hcall, hdone⟩ := makes_andThen.1 h
  obtain ⟨rfl, -⟩ := hdone
  rw [append_nil]
  exact hp hcall

theorem ckSign_makes {mechanism : Mechanism} {input a : Bytes}
    (h : ((Prog.perform (DeviceOp.ckSign session key mechanism input)).mapError mapSignErr).Makes calls (.ok a)) :
    ∃ answer, calls = [⟨DeviceOp.ckSign session key mechanism input, answer⟩] :=
  ⟨_, makes_perform.1 (makes_mapError.1 h)⟩

theorem signEd25519_makes (h : (signEd25519 session key toSign).Makes calls (.ok sig)) :
    ∃ answer, calls = [⟨DeviceOp.ckSign session key .eddsaPure toSign, answer⟩] :=
  perform_makes ckSign_makes h

theorem signEcdsa_makes (h : (signEcdsa host session key algorithm toSign).Makes calls (.ok sig)) :
    ∃ alg answer, namedHashing algorithm = some (.hashed alg) ∧
      calls = [⟨DeviceOp.ckSign session key .ecdsa (host.digest alg toSign), answer⟩] := by
  unfold signEcdsa at h
  split_ifs at h with h256 h384 h521
  · obtain ⟨answer, rfl⟩ := perform_makes ckSign_makes h
    exact ⟨.sha256, answer, by rw [h256]; decide, rfl⟩
  · obtain ⟨answer, rfl⟩ := perform_makes ckSign_makes h
    exact ⟨.sha384, answer, by rw [h384]; decide, rfl⟩
  · obtain ⟨answer, rfl⟩ := perform_makes ckSign_makes h
    exact ⟨.sha512, answer, by rw [h521]; decide, rfl⟩
  · cases h.2

theorem signRsa_makes (h : (signRsa host session key algorithm toSign).Makes calls (.ok sig)) :
    ∃ op answer, TokenSigned host algorithm toSign .rsa op ∧ calls = [⟨op, answer⟩] := by
  unfold signRsa at h
  split_ifs at h with h256 h512
  · obtain ⟨answer, rfl⟩ := perform_makes ckSign_makes h
    exact ⟨_, answer, .rsaSha256 session key h256, rfl⟩
  · obtain ⟨answer, rfl⟩ := perform_makes ckSign_makes h
    exact ⟨_, answer, .rsaSha512 session key h512, rfl⟩
  · cases h.2

theorem signWithPkcs11_makes {module slot : Nat} {pin : Option String} {ckaId : Bytes}
    (h : (signWithPkcs11 host module slot pin ckaId algorithm toSign).Makes calls (.ok sig)) :
    ∃ type op, reportedKeyType calls = some type ∧ callsOf isSignature calls = [op] ∧
      TokenSigned host algorithm toSign type op := by
  obtain ⟨session, _, afterSession, rfl, hsession, hfind⟩ := makes_andThen.1 h
  obtain rfl := makes_perform.1 hsession
  obtain ⟨handles, _, afterFind, rfl, hhandles, hkeys⟩ := makes_andThen.1 hfind
  obtain rfl := makes_perform.1 hhandles
  cases hkey : handles.head? with
  | none =>
    rw [hkey] at hkeys
    cases hkeys.2
  | some key =>
    rw [hkey] at hkeys
    obtain ⟨types, _, afterTypes, rfl, htypes, hsign⟩ := makes_andThen.1 hkeys
    obtain rfl := makes_perform.1 htypes
    cases htype : types.getLast? with
    | none =>
      rw [htype] at hsign
      cases hsign.2
    | some type =>
      rw [htype] at hsign
      have hreported : reportedKeyType ([⟨.withSession module slot pin, .ok session⟩] ++
          ([⟨.findPrivateKeys session ckaId, .ok handles⟩] ++ ([⟨.keyTypes session key, .ok types⟩] ++ afterTypes))) =
          some type := by
        rw [reportedKeyType_append, reportedKeyType_append, reportedKeyType_append, reportedKeyType_keyTypes, htype]
        rfl
      refine ⟨type, ?_⟩
      cases type with
      | ecEdwards =>
        obtain ⟨answer, rfl⟩ := signEd25519_makes hsign
        exact ⟨_, hreported, rfl, .edwards session key⟩
      | ec =>
        obtain ⟨alg, answer, hnamed, rfl⟩ := signEcdsa_makes hsign
        exact ⟨_, hreported, rfl, .ec session key hnamed⟩
      | rsa =>
        obtain ⟨op, answer, hsigned, rfl⟩ := signRsa_makes hsign
        refine ⟨op, hreported, ?_, hsigned⟩
        cases hsigned <;> rfl
      | other ckk => cases hsign.2

theorem pkcs11Sign_makes (h : (pkcs11Sign host row data flags).Makes calls (.ok out)) :
    ∃ type op, reportedKeyType calls = some type ∧ callsOf isSignature calls = [op] ∧
      TokenSigned host out.algorithm data type op ∧ out.algorithm = sshAlgorithmForPkcs11 row.keyType flags := by
  obtain ⟨modulePath, _, _, rfl, hpath, h1⟩ := makes_andThen.1 h
  obtain ⟨rfl, -⟩ := column_makes hpath
  obtain ⟨objectId, _, _, rfl, hid, h2⟩ := makes_andThen.1 h1
  obtain ⟨rfl, -⟩ := column_makes hid
  obtain ⟨module, _, _, rfl, hmodule, h3⟩ := makes_andThen.1 h2
  obtain rfl := makes_perform.1 (makes_mapError.1 hmodule)
  obtain ⟨slots, _, _, rfl, hslots, h4⟩ := makes_andThen.1 h3
  obtain rfl := makes_perform.1 (makes_mapError.1 hslots)
  obtain ⟨matched, loop, _, rfl, hmatch, h5⟩ := makes_bind.1 h4
  obtain ⟨hsilent, hnone⟩ := matchSlot_makes module row.pkcs11TokenSerial slots hmatch
  obtain ⟨slot, _, _, rfl, hslot, h6⟩ := makes_andThen.1 h5
  obtain ⟨rfl, -⟩ := column_makes hslot
  obtain ⟨pinBytes, _, _, rfl, hsecret, h7⟩ := makes_bind.1 h6
  obtain rfl := makes_perform.1 hsecret
  obtain ⟨pin, _, _, rfl, hpin, h8⟩ := makes_andThen.1 h7
  obtain ⟨rfl, -⟩ := done_makes hpin
  obtain ⟨signature, signing, _, rfl, hsign, hout⟩ := makes_andThen.1 h8
  obtain ⟨rfl, heq⟩ := done_makes hout
  cases heq
  obtain ⟨type, op, htype, hop, hsigned⟩ := signWithPkcs11_makes (makes_mapError.1 hsign)
  refine ⟨type, op, ?_, ?_, hsigned, rfl⟩
  · simp only [nil_append, append_nil, reportedKeyType_append, hnone, htype]
    rfl
  · simp only [nil_append, append_nil, callsOf_append, hsilent, hop]
    rfl

theorem enclaveSign_makes (h : (enclaveSign host row data).Makes calls (.ok out)) :
    ∃ key, callsOf isSignature calls = [.secKeySign key .sha256 data] ∧ out.algorithm = "ecdsa-sha2-nistp256" := by
  unfold enclaveSign at h
  split at h
  · obtain ⟨tag, _, _, rfl, htag, h1⟩ := makes_andThen.1 h
    obtain ⟨rfl, -⟩ := column_makes htag
    obtain ⟨der, _, _, rfl, hder, h2⟩ := makes_andThen.1 h1
    obtain ⟨sigBlob, _, _, rfl, hblob, hout⟩ := makes_andThen.1 h2
    obtain ⟨rfl, -⟩ := done_makes hblob
    obtain ⟨rfl, heq⟩ := done_makes hout
    cases heq
    obtain ⟨key, _, _, rfl, hkey, hsign⟩ := makes_andThen.1 (makes_mapError.1 hder)
    obtain rfl := makes_perform.1 hkey
    cases key with
    | none => cases hsign.2
    | some key =>
      obtain rfl := makes_perform.1 hsign
      exact ⟨key, rfl, rfl⟩
  · cases h.2

/-- What the key store is given, for the type of the key and the name of the algorithm. -/
inductive KeyStoreSigned (host : Host) (algorithm : String) (data : Bytes) : SshKeyAlgo → DeviceOp → Prop where
  | p256 (key : Nat) : KeyStoreSigned host algorithm data .ecdsaP256 (.signHash key none (host.digest .sha256 data))
  | p384 (key : Nat) : KeyStoreSigned host algorithm data .ecdsaP384 (.signHash key none (host.digest .sha384 data))
  | rsaSha256 (key : Nat) (h : algorithm = "rsa-sha2-256") :
    KeyStoreSigned host algorithm data .rsa2048 (.signHash key (some .sha256) (host.digest .sha256 data))
  | rsaSha512 (key : Nat) (h : algorithm = "rsa-sha2-512") :
    KeyStoreSigned host algorithm data .rsa2048 (.signHash key (some .sha512) (host.digest .sha512 data))

theorem signHash_makes {padding : Option HashAlg} {hash a : Bytes}
    (h : (Prog.perform (DeviceOp.signHash key padding hash) : Device (Except String Bytes)).Makes calls (.ok a)) :
    ∃ answer, calls = [⟨DeviceOp.signHash key padding hash, answer⟩] := ⟨_, makes_perform.1 h⟩

theorem signWithKeyStore_makes {expected credentialName : String} {algo : SshKeyAlgo}
    {sig : HelloSignature} (h : (signWithKeyStore host expected credentialName algo data algorithm).Makes calls (.ok sig)) :
    ∃ op, callsOf isSignature calls = [op] ∧ KeyStoreSigned host algorithm data algo op := by
  obtain ⟨key, _, _, rfl, hkey, hsign⟩ := makes_andThen.1 h
  obtain rfl := makes_perform.1 hkey
  cases algo with
  | ecdsaP256 =>
    obtain ⟨answer, rfl⟩ := perform_makes signHash_makes hsign
    exact ⟨_, rfl, .p256 key⟩
  | ecdsaP384 =>
    obtain ⟨answer, rfl⟩ := perform_makes signHash_makes hsign
    exact ⟨_, rfl, .p384 key⟩
  | rsa2048 =>
    split_ifs at hsign with h256 h512
    · obtain ⟨answer, rfl⟩ := perform_makes signHash_makes hsign
      exact ⟨_, rfl, .rsaSha256 key h256⟩
    · obtain ⟨answer, rfl⟩ := perform_makes signHash_makes hsign
      exact ⟨_, rfl, .rsaSha512 key h512⟩
    · cases hsign.2

theorem helloSign_makes (h : (helloSign host row data flags).Makes calls (.ok out)) :
    ∃ algo op, SshKeyAlgo.fromKeyType row.keyType = .ok algo ∧ callsOf isSignature calls = [op] ∧
      KeyStoreSigned host out.algorithm data algo op ∧ out.algorithm = sshAlgorithmForHello row.keyType flags := by
  unfold helloSign at h
  split at h
  · obtain ⟨name, _, _, rfl, hname, h1⟩ := makes_andThen.1 h
    obtain ⟨rfl, -⟩ := column_makes hname
    obtain ⟨algo, _, _, rfl, halgo, h2⟩ := makes_andThen.1 h1
    obtain ⟨rfl, hread⟩ := done_makes halgo
    obtain ⟨raw, _, _, rfl, hraw, h3⟩ := makes_andThen.1 h2
    obtain ⟨op, hop, hsigned⟩ := signWithKeyStore_makes (makes_mapError.1 hraw)
    obtain ⟨signature, _, _, rfl, hwire, hout⟩ := makes_andThen.1 h3
    obtain ⟨rfl, -⟩ := done_makes hwire
    obtain ⟨rfl, heq⟩ := done_makes hout
    cases heq
    refine ⟨algo, op, mapError_eq_ok hread, ?_, hsigned, rfl⟩
    simp only [nil_append, append_nil, hop]
  · cases h.2

theorem signBlobMode_makes {alg : TpmSshAlgorithm} {privkey pubkey : Bytes}
    {sig : TpmSshSignature} (h : (signBlobMode host alg privkey pubkey auth data).Makes calls (.ok sig)) :
    ∃ storage, callsOf isSignature calls = [.tpm2Sign storage auth (host.digest .sha256 data) (tpmScheme alg)] := by
  obtain ⟨area, _, _, rfl, harea, hsign⟩ := makes_andThen.1 h
  obtain rfl := makes_perform.1 harea
  cases hinner : unmarshallTpm2b privkey with
  | none =>
    rw [hinner] at hsign
    cases hsign.2
  | some inner =>
    rw [hinner] at hsign
    obtain ⟨answer, _, _, rfl, hcall, hdone⟩ := makes_andThen.1 hsign
    obtain rfl := makes_perform.1 hcall
    obtain ⟨rfl, -⟩ := hdone
    refine ⟨.blob inner pubkey, ?_⟩
    cases alg <;> rfl

theorem signPersistentMode_makes {alg : TpmSshAlgorithm} {handle : UInt32}
    {sig : TpmSshSignature} (h : (signPersistentMode host alg handle auth data).Makes calls (.ok sig)) :
    ∃ storage, callsOf isSignature calls = [.tpm2Sign storage auth (host.digest .sha256 data) (tpmScheme alg)] := by
  obtain ⟨answer, _, _, rfl, hcall, hdone⟩ := makes_andThen.1 h
  obtain rfl := makes_perform.1 hcall
  obtain ⟨rfl, -⟩ := hdone
  refine ⟨.persistentHandle handle, ?_⟩
  cases alg <;> rfl

theorem tpmSshSign_makes {key : TpmSshKey} {sig : TpmSshSignature}
    (h : (tpmSshSign host key auth data).Makes calls (.ok sig)) :
    ∃ storage, callsOf isSignature calls =
      [.tpm2Sign storage auth (host.digest .sha256 data) (tpmScheme key.algorithm)] := by
  obtain ⟨_, _, _, rfl, hopen, hsign⟩ := makes_andThen.1 h
  obtain rfl := makes_perform.1 hopen
  cases hstorage : key.storage with
  | blob privkey pubkey =>
    rw [hstorage] at hsign
    obtain ⟨storage, hop⟩ := signBlobMode_makes hsign
    refine ⟨storage, ?_⟩
    rw [callsOf_append, hop]
    rfl
  | persistentHandle handle =>
    rw [hstorage] at hsign
    obtain ⟨storage, hop⟩ := signPersistentMode_makes hsign
    refine ⟨storage, ?_⟩
    rw [callsOf_append, hop]
    rfl

theorem importBlob_makes {blob : Bytes} {key : TpmSshKey} (h : (importBlob blob).Makes calls (.ok key)) :
    callsOf isSignature calls = [] := by
  unfold importBlob at h
  split at h
  · cases h.2
  obtain ⟨area, _, _, rfl, harea, hdone⟩ := makes_andThen.1 h
  obtain rfl := makes_perform.1 harea
  cases area with
  | ecc =>
    obtain ⟨rfl, -⟩ := hdone
    rfl
  | rsa =>
    obtain ⟨rfl, -⟩ := hdone
    rfl
  | other => cases hdone.2

theorem tpmAuth_makes {keyId : String} {pinRequired : Bool}
    (h : (tpmAuth keyId pinRequired).Makes calls (.ok auth)) : callsOf isSignature calls = [] := by
  unfold tpmAuth at h
  split at h
  · obtain ⟨pin, _, _, rfl, hsecret, hdone⟩ := makes_bind.1 h
    obtain rfl := makes_perform.1 hsecret
    cases pin with
    | none => cases hdone.2
    | some z =>
      obtain ⟨rfl, -⟩ := hdone
      rfl
  · obtain ⟨rfl, -⟩ := h
    rfl

theorem tpmSignTssEsapi_makes {keyId keyType : String} {pinRequired : Bool} {blob : Option Bytes}
    (h : (tpmSignTssEsapi host keyId keyType pinRequired blob data).Makes calls (.ok sig)) :
    ∃ alg storage auth, TpmSshAlgorithm.fromKeyType keyType = .ok alg ∧
      callsOf isSignature calls = [.tpm2Sign storage auth (host.digest .sha256 data) (tpmScheme alg)] := by
  obtain ⟨bytes, _, _, rfl, hblob, h1⟩ := makes_andThen.1 h
  obtain ⟨rfl, -⟩ := column_makes hblob
  obtain ⟨key, _, _, rfl, hkey, h2⟩ := makes_andThen.1 h1
  have himport := importBlob_makes (makes_mapError.1 hkey)
  obtain ⟨rowAlgo, _, _, rfl, halgo, h3⟩ := makes_andThen.1 h2
  obtain ⟨rfl, hread⟩ := done_makes halgo
  split_ifs at h3 with hsame
  · cases h3.2
  rw [not_not] at hsame
  obtain ⟨auth, _, _, rfl, hauth, h4⟩ := makes_andThen.1 h3
  obtain ⟨raw, _, _, rfl, hraw, hdone⟩ := makes_andThen.1 h4
  obtain ⟨rfl, -⟩ := hdone
  obtain ⟨storage, hop⟩ := tpmSshSign_makes (makes_mapError.1 hraw)
  refine ⟨rowAlgo, storage, auth, mapError_eq_ok hread, ?_⟩
  simp only [nil_append, append_nil, callsOf_append, himport, tpmAuth_makes hauth, hop, hsame]

theorem tpmSignCngSilent_makes {keyType : String} {cngName : Option String}
    (h : (tpmSignCngSilent host keyType cngName data algorithm).Makes calls (.ok sig)) :
    ∃ algo op, SshKeyAlgo.fromKeyType keyType = .ok algo ∧ callsOf isSignature calls = [op] ∧
      KeyStoreSigned host algorithm data algo op := by
  obtain ⟨name, _, _, rfl, hname, h1⟩ := makes_andThen.1 h
  obtain ⟨rfl, -⟩ := column_makes hname
  obtain ⟨algo, _, _, rfl, halgo, h2⟩ := makes_andThen.1 h1
  obtain ⟨rfl, hread⟩ := done_makes halgo
  obtain ⟨raw, _, _, rfl, hraw, hdone⟩ := makes_andThen.1 h2
  obtain ⟨rfl, -⟩ := hdone
  obtain ⟨op, hop, hsigned⟩ := signWithKeyStore_makes (makes_mapError.1 hraw)
  refine ⟨algo, op, mapError_eq_ok hread, ?_, hsigned⟩
  simp only [nil_append, append_nil, hop]

theorem tpmSign_makes (h : (tpmSign host row data flags).Makes calls (.ok out)) :
    out.algorithm = sshAlgorithmForTpm row.keyType flags ∧
    ((row.tpmProvider = some "tss-esapi" ∧ ∃ alg storage auth, TpmSshAlgorithm.fromKeyType row.keyType = .ok alg ∧
        callsOf isSignature calls = [.tpm2Sign storage auth (host.digest .sha256 data) (tpmScheme alg)]) ∨
      row.tpmProvider = some "cng-pcp" ∧ ∃ algo op, SshKeyAlgo.fromKeyType row.keyType = .ok algo ∧
        callsOf isSignature calls = [op] ∧ KeyStoreSigned host out.algorithm data algo op) := by
  unfold tpmSign at h
  split at h
  · obtain ⟨provider, _, _, rfl, hprovider, h1⟩ := makes_andThen.1 h
    obtain ⟨rfl, hstored⟩ := column_makes hprovider
    split_ifs at h1 with hname
    · obtain ⟨raw, _, _, rfl, hraw, hout⟩ := makes_andThen.1 h1
      obtain ⟨rfl, heq⟩ := done_makes hout
      cases heq
      obtain ⟨alg, storage, auth, hread, hop⟩ := tpmSignTssEsapi_makes hraw
      refine ⟨rfl, Or.inl ⟨hname ▸ hstored, alg, storage, auth, hread, ?_⟩⟩
      simp only [nil_append, append_nil, hop]
    · cases h1.2
  · obtain ⟨provider, _, _, rfl, hprovider, h1⟩ := makes_andThen.1 h
    obtain ⟨rfl, hstored⟩ := column_makes hprovider
    split_ifs at h1 with hname
    · obtain ⟨raw, _, _, rfl, hraw, hout⟩ := makes_andThen.1 h1
      obtain ⟨rfl, heq⟩ := done_makes hout
      cases heq
      obtain ⟨algo, op, hread, hop, hsigned⟩ := tpmSignCngSilent_makes hraw
      refine ⟨rfl, Or.inr ⟨hname ▸ hstored, algo, op, hread, ?_, hsigned⟩⟩
      simp only [nil_append, append_nil, hop]
    · cases h1.2
  · cases h.2

theorem fido2SignDevice_makes (h : (fido2SignDevice host row data).Makes calls (.ok out)) :
    ∃ alg credentialId application, out.algorithm = wireAlgorithmLabel alg ∧
      callsOf isSignature calls = [.getAssertion credentialId application (host.digest .sha256 data) none] := by
  obtain ⟨credentialId, _, _, rfl, hid, h1⟩ := makes_andThen.1 h
  obtain ⟨rfl, -⟩ := column_makes hid
  obtain ⟨application, _, _, rfl, happlication, h2⟩ := makes_andThen.1 h1
  obtain ⟨rfl, -⟩ := column_makes happlication
  obtain ⟨alg, _, _, rfl, halg, h3⟩ := makes_andThen.1 h2
  obtain ⟨rfl, -⟩ := done_makes halg
  obtain ⟨signature, _, _, rfl, hsign, hout⟩ := makes_andThen.1 h3
  obtain ⟨rfl, heq⟩ := done_makes hout
  cases heq
  obtain ⟨assertion, _, _, rfl, hcall, hdone⟩ := makes_andThen.1 (makes_mapError.1 hsign)
  obtain rfl := makes_perform.1 hcall
  obtain ⟨rfl, -⟩ := hdone
  exact ⟨alg, credentialId, application, rfl, rfl⟩

end Runs

end LetsFlutSsh.SshAgent
