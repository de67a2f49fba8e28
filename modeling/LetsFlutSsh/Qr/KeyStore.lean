import LetsFlutSsh.Archive.Stages
import LetsFlutSsh.Qr.Decode

/-!
# A QR import and the keys that are there

The short ids of a payload become ids of key rows. What a merge of the payload does to the keys and
the sessions that are there:

* `keyText`, `sessionKeyText`: the private key a saved session authenticates with;
* `Brings`: a key of the payload that is written;
* `qr_import_keeps_keys_iff`: keys and sessions are left alone exactly when no written key has the id of
  a row with another key.
-/

namespace LetsFlutSsh.Qr
open Lib Archive List Option

variable {Text : Type}

/-! ## Authenticating -/

/-- `software_pubkey_auth`, after the hardware branches of `try_manager_key`: the private key that is
staged for a stored key. -/
def keyText (s : Stored SshKeyRow) : Option String :=
  if s.deletedAt.isSome then none
  else if s.row.backend.isDeviceBound || s.row.backend = .pkcs11 then none
  else if s.row.credentialId.isSome && s.row.applicationString.isSome then none
  else if s.row.privateKey = "" then none
  else some s.row.privateKey

/-- `prepare_auth` of a saved session: its own key, else its password, else the key it refers to. -/
def sessionKeyText (db : Db Text) (id : String) : Option String :=
  (db.sessions.get id).bind fun p =>
    if p.deletedAt.isSome then none
    else
      let j := (db.sshDetails.get id).getD Sessions.noDetails
      if j.keyData ≠ "" then some j.keyData
      else if j.password ≠ "" then none
      else (j.keyId.bind db.sshKeys.get).bind keyText

/-- A live session that authenticates with the stored key `k`, if with any. -/
structure UsedBy (db : Db Text) (k id : String) : Prop where
  live : ∃ p, db.sessions.get id = some p ∧ p.deletedAt = none
  details : ∃ j, db.sshDetails.get id = some j ∧ j.keyData = "" ∧ j.password = "" ∧ j.keyId = some k

variable {id k : String}

theorem sessionKeyText_of_usedBy {db : Db Text} (h : UsedBy db k id) :
    sessionKeyText db id = (db.sshKeys.get k).bind keyText := by
  obtain ⟨p, hp, hlive⟩ := h.live
  obtain ⟨j, hj, hdata, hpassword, hkey⟩ := h.details
  unfold sessionKeyText
  rw [hp, hj]
  simp [hlive, hdata, hpassword, hkey]

theorem UsedBy.congr {db db' : Db Text} (h : UsedBy db k id)
    (hstate : db'.sessionState id = db.sessionState id) : UsedBy db' k id := by
  obtain ⟨p, hp, hlive⟩ := h.live
  obtain ⟨j, hj, hj'⟩ := h.details
  exact ⟨⟨p, (congrArg Db.SessionState.parent hstate).trans hp, hlive⟩,
    ⟨j, (congrArg Db.SessionState.details hstate).trans hj, hj'⟩⟩

theorem sessionKeyText_congr {db db' : Db Text} (hstate : db'.sessionState id = db.sessionState id)
    (hkeys : ∀ k, UsedBy db k id → (db'.sshKeys.get k).bind keyText = (db.sshKeys.get k).bind keyText) :
    sessionKeyText db' id = sessionKeyText db id := by
  have hparent : db'.sessions.get id = db.sessions.get id := congrArg Db.SessionState.parent hstate
  have hdetails : db'.sshDetails.get id = db.sshDetails.get id := congrArg Db.SessionState.details hstate
  unfold sessionKeyText
  rw [hparent, hdetails]
  rcases hp : db.sessions.get id with _ | p
  · rfl
  dsimp only [bind_some]
  split_ifs with hdead hdata hpassword
  · rfl
  · rfl
  · rfl
  rcases hj : db.sshDetails.get id with _ | j
  · rfl
  rw [hj] at hdata hpassword
  rcases hkey : j.keyId with _ | k
  · simp [hkey]
  · have hused : UsedBy db k id :=
      ⟨⟨p, hp, by simpa using hdead⟩, ⟨j, hj, by simpa using hdata, by simpa using hpassword, hkey⟩⟩
    simpa [hkey] using hkeys k hused

/-! ## The key stage -/

section Keys

variable (E : Env Text) (known : List String) (now : Int64)

def lands (v : Json) : Bool :=
  !(keyPubFingerprint E (jsonString v "public_key") ≠ "" && keyPubFingerprint E (jsonString v "public_key") ∈ known) &&
    jsonString v "id" ≠ ""

theorem applyOneKeyArchive_db (v : Json) (s : Applying Text) : (applyOneKeyArchive E known now v s).1 =
    if lands E known v then SshKeys.upsert s.1 (buildKeyRow v now) else s.1 := by
  have hid : (buildKeyRow v now).id = jsonString v "id" := rfl
  unfold applyOneKeyArchive lands
  dsimp only
  rw [hid]
  by_cases hfp : keyPubFingerprint E (jsonString v "public_key") ≠ "" ∧
      keyPubFingerprint E (jsonString v "public_key") ∈ known
  · simp [hfp]
  rw [if_neg hfp]
  by_cases hname : jsonString v "id" = ""
  · simp [hname]
  · have hfp' : (decide (keyPubFingerprint E (jsonString v "public_key") ≠ "") &&
        decide (keyPubFingerprint E (jsonString v "public_key") ∈ known)) = false := by
      simpa using hfp
    rw [hfp']
    simp [hname]

/-- The loop of `apply_keys` over a user's import. -/
def keyLoop (items : List Json) (s : Applying Text) : Applying Text :=
  items.foldl (fun s v => applyOneKeyArchive E known now v s) s

theorem keyLoop_other {items : List Json} (h : ∀ v ∈ items, lands E known v = true → jsonString v "id" ≠ k)
    (s : Applying Text) : (keyLoop E known now items s).1.sshKeys.get k = s.1.sshKeys.get k := by
  refine foldl_fixes (fun s : Applying Text => s.1.sshKeys.get k) (fun s v hv => ?_) s
  rw [applyOneKeyArchive_db]
  split_ifs with hlands
  · show (s.1.sshKeys.set (jsonString v "id") _).get k = _
    rw [Table.get_set, if_neg (h v hv hlands).symm]
  · rfl

theorem keyLoop_landed {items : List Json} (hids : (items.map fun v => jsonString v "id").Nodup) {v : Json} (hv : v ∈ items)
    (hlands : lands E known v = true) (s : Applying Text) :
    (keyLoop E known now items s).1.sshKeys.get (jsonString v "id") = some ⟨buildKeyRow v now, none⟩ := by
  obtain ⟨pre, post, rfl⟩ := append_of_mem hv
  have hpost : ∀ u ∈ post, lands E known u = true → jsonString u "id" ≠ jsonString v "id" := by
    intro u hu _ heq
    rw [map_append, map_cons, nodup_append] at hids
    exact (nodup_cons.1 hids.2.1).1 (mem_map.2 ⟨u, hu, heq⟩)
  have hsplit : keyLoop E known now (pre ++ v :: post) s =
      keyLoop E known now post (applyOneKeyArchive E known now v (keyLoop E known now pre s)) := foldl_append
  rw [hsplit, keyLoop_other E known now hpost, applyOneKeyArchive_db, if_pos hlands]
  show (Table.set _ (jsonString v "id") _).get (jsonString v "id") = _
  rw [Table.get_set, if_pos rfl]

end Keys

/-! ## The entries of a payload -/

section Entries

variable (short pem : String) (info : Json.Object) (now : Int64)

theorem buildKeyRow_keyEntry : (buildKeyRow (keyEntry short pem info) now).privateKey = pem ∧
    (buildKeyRow (keyEntry short pem info) now).publicKey = textOf info "p" ∧
    (buildKeyRow (keyEntry short pem info) now).label = textOf info "l" ∧
    keyText ⟨buildKeyRow (keyEntry short pem info) now, none⟩ = if pem = "" then none else some pem := by
  have hbackend : (keyEntry short pem info).member "backend" = none := by
    simp [keyEntry]
  have hcredential : (keyEntry short pem info).member "credential_id" = none := by
    simp [keyEntry]
  have hprivate : jsonString (keyEntry short pem info) "private_key" = pem := by
    simp [jsonString_keyEntry]
  have hrow : (buildKeyRow (keyEntry short pem info) now).privateKey = pem := by
    simp [buildKeyRow, hbackend, hprivate, KeyBackend.isDeviceBound]
  refine ⟨hrow, ?_, ?_, ?_⟩
  · simp [buildKeyRow, jsonString_keyEntry]
  · simp [buildKeyRow, jsonString_keyEntry]
  · unfold keyText
    rw [hrow]
    simp [buildKeyRow, hbackend, hcredential, jsonBytes, KeyBackend.isDeviceBound]

end Entries

theorem id_of_mem_parseSessions {obj : Json.Object} {keyMap : String → Option String} {uuid : Nat → String} {v : Json}
    (hv : v ∈ (parseSessions obj keyMap uuid).1) : ∃ n, jsonString v "id" = uuid n := by
  have hdecoded : ∀ id m, jsonString (decodeSession keyMap id m) "id" = id := by
    intro id m
    unfold decodeSession jsonString
    dsimp only
    split_ifs <;> simp
  have hloop : ∀ arr remap out, (∀ w ∈ out, ∃ n, jsonString w "id" = uuid n) →
      ∀ w ∈ (parseSessionsLoop keyMap uuid arr remap out).1, ∃ n, jsonString w "id" = uuid n := by
    intro arr
    induction arr with
    | nil => exact fun _ _ hout => hout
    | cons entry arr ih =>
      intro remap out hout
      unfold parseSessionsLoop
      split
      · exact ih remap out hout
      · refine ih _ _ ?_
        intro w hw
        rcases mem_append.1 hw with hw | hw
        · exact hout w hw
        · rw [mem_singleton.1 hw, hdecoded]
          exact ⟨_, rfl⟩
  exact hloop _ _ _ (fun _ hw => absurd hw not_mem_nil) v hv

/-! ## The import -/

theorem overEntry_vecToJson (J : JsonText Text) (want : Bool) (what : String) (items : List Json)
    {f : List Json → Applying Text → Applying Text} (hnil : ∀ s, f [] s = s) (s : Applying Text) :
    overEntry J want what (vecToJson J items) f s = if want then f items s else s := by
  unfold overEntry vecToJson arrayEntry
  rcases items with _ | ⟨v, items⟩
  · simp [hnil]
  · simp [overArray, parseArray]

section Import

variable (E : Env Text) (options : ApplyOptions) (now : Int64) (uuid : Nat → String) (obj : Json.Object) (db : Db Text)

/-- The database after the entries of a payload were merged into it. -/
def imported : Db Text :=
  (applyPendingImportMerge E options now (pendingOf E.json uuid obj).toPendingImport db).1

theorem imported_sshKeys : (imported E options now uuid obj db).sshKeys =
    if options.applyKeys then
      (keyLoop E (knownFingerprints E db) now (parseManagerKeys obj (parseKeyMap obj)) (db, {})).1.sshKeys
    else db.sshKeys := by
  unfold imported applyPendingImportMerge
  rw [runApply_fixes_afterTags (g := Db.sshKeys) (fun _ => rfl) fun _ => rfl,
    afterTags_fixes (g := Db.sshKeys) fun _ => rfl,
    afterSessions_fixes (g := Db.sshKeys) (fun _ => rfl) fun _ => rfl]
  have hstage := overEntry_vecToJson E.json options.applyKeys "keys" (parseManagerKeys obj (parseKeyMap obj))
    (f := applyKeyItems E (.archiveImport false) now) (fun _ => rfl) (db, {})
  show (overEntry E.json options.applyKeys "keys" (vecToJson E.json (parseManagerKeys obj (parseKeyMap obj))) _ _).1.sshKeys = _
  rw [hstage]
  split_ifs
  · rfl
  · rfl

theorem imported_sessionState (hid : ∀ n, uuid n ≠ id) :
    (imported E options now uuid obj db).sessionState id = db.sessionState id := by
  have hkeys : ∀ s : Applying Text, (afterKeys E (.archiveImport false) (some options) now
      (pendingOf E.json uuid obj).toPendingImport s).1.sessionState id = s.1.sessionState id :=
    overEntry_fixes (fun db => db.sessionState id) _ _ _ _ fun items s =>
      ignores (g := fun db => db.sessionState id) (x := Db.withoutKeys) (fun _ => rfl) _ _
        (applyKeyItems_withoutKeys E _ now items s)
  unfold imported applyPendingImportMerge
  rw [runApply_fixes_afterTags (g := fun db => db.sessionState id) (fun _ => rfl)
      fun _ => rfl,
    afterTags_fixes (g := fun db => db.sessionState id) fun _ => rfl,
    ignores (g := fun db => db.sessionState id) (x := Db.withoutFolders) (fun _ => rfl) _ _
      (afterSessions_grows E _ _ now _ _).rest]
  split_ifs
  · rcases htext : (pendingOf E.json uuid obj).sessionsJson with _ | text
    · exact hkeys (db, {})
    have hitems : parseArray E.json text = .ok (parseSessions obj (parseKeyMap obj) uuid).1 := by
      have harray : (arrayEntry (parseSessions obj (parseKeyMap obj) uuid).1).map E.json.toStr = some text := htext
      obtain ⟨v, hv, rfl⟩ := map_eq_some_iff.1 harray
      unfold arrayEntry at hv
      split_ifs at hv
      cases hv
      simp [parseArray]
    show ((applySessionsJson E _ now text _).2.1).sessionState id = _
    unfold applySessionsJson
    rw [hitems]
    dsimp only
    rw [applySessionItems_eq, sessionState_sessionLoop_ne]
    · rw [ignores (g := fun db => db.sessionState id) (x := Db.withoutFolders) (fun _ => rfl) _ _
        (applyFolderTree_grows E _ now _ _).1.rest]
      exact hkeys (db, {})
    · intro v hv heq
      obtain ⟨n, hn⟩ := id_of_mem_parseSessions hv
      exact hid n (hn.symm.trans heq)
  · exact hkeys (db, {})

/-- A key of the payload that is written to the row `short`: it has a text and an id, and its public key
is not one of the keys that are there. -/
structure Brings (short pem : String) (info : Json.Object) : Prop where
  listed : ∃ mk, (obj.get "mk").bind Json.asObject = some mk ∧ mk.get short = some (.obj info)
  text : parseKeyMap obj short = some pem
  named : short ≠ ""
  unknown : keyPubFingerprint E (textOf info "p") = "" ∨ keyPubFingerprint E (textOf info "p") ∉ knownFingerprints E db

theorem lands_keyEntry (short pem : String) (info : Json.Object) :
    lands E (knownFingerprints E db) (keyEntry short pem info) = true ↔
      short ≠ "" ∧ (keyPubFingerprint E (textOf info "p") = "" ∨
        keyPubFingerprint E (textOf info "p") ∉ knownFingerprints E db) := by
  unfold lands
  rw [jsonString_keyEntry, jsonString_keyEntry]
  simp [and_comm, Classical.or_iff_not_imp_left]

theorem imported_of_brings (hwant : options.applyKeys = true) {short pem : String} {info : Json.Object}
    (h : Brings E obj db short pem info) :
    (imported E options now uuid obj db).sshKeys.get short = some ⟨buildKeyRow (keyEntry short pem info) now, none⟩ := by
  have hmem := mem_parseManagerKeys.2 ⟨short, pem, info, h.listed, h.text, rfl⟩
  have hlanded := keyLoop_landed E (knownFingerprints E db) now (nodup_parseManagerKeys obj (parseKeyMap obj)) hmem
    ((lands_keyEntry E db short pem info).2 ⟨h.named, h.unknown⟩) (db, {})
  rw [jsonString_keyEntry, if_pos rfl] at hlanded
  rw [imported_sshKeys, if_pos hwant]
  exact hlanded

theorem imported_of_not_brings (h : options.applyKeys = true → ∀ pem info, ¬ Brings E obj db k pem info) :
    (imported E options now uuid obj db).sshKeys.get k = db.sshKeys.get k := by
  rw [imported_sshKeys]
  split_ifs with hwant
  · refine keyLoop_other E (knownFingerprints E db) now (fun v hv hlands heq => ?_) (db, {})
    obtain ⟨short, pem, info, hlisted, htext, rfl⟩ := mem_parseManagerKeys.1 hv
    rw [jsonString_keyEntry, if_pos rfl] at heq
    subst heq
    obtain ⟨hnamed, hunknown⟩ := (lands_keyEntry E db short pem info).1 hlands
    exact h hwant pem info ⟨hlisted, htext, hnamed, hunknown⟩
  · rfl

/-- The keys that were there have their private key, public key and label. -/
def KeysKept (db' : Db Text) : Prop :=
  ∀ k old, db.sshKeys.get k = some old → ∃ new, db'.sshKeys.get k = some new ∧
    new.row.privateKey = old.row.privateKey ∧ new.row.publicKey = old.row.publicKey ∧ new.row.label = old.row.label

/-- No session that was there authenticates with a private key that it did not authenticate with. -/
def AuthKept (db' : Db Text) : Prop :=
  ∀ id, (db.sessions.get id).isSome → ∀ pem, sessionKeyText db' id = some pem → sessionKeyText db id = some pem

/-- No written key has the id of a row with another private key, public key or label, nor of a row that
a session refers to without authenticating with it. -/
def Harmless : Prop :=
  ∀ short pem info, Brings E obj db short pem info → ∀ old, db.sshKeys.get short = some old →
    old.row.privateKey = pem ∧ old.row.publicKey = textOf info "p" ∧ old.row.label = textOf info "l" ∧
      (pem ≠ "" → (∃ id, UsedBy db short id) → keyText old = some pem)

variable {uuid db}

theorem keysKept_authKept_iff (hfresh : ∀ n, db.sessions.get (uuid n) = none) (hrefs : db.RefsOk) :
    KeysKept db (imported E options now uuid obj db) ∧ AuthKept db (imported E options now uuid obj db) ↔
      (options.applyKeys = true → Harmless E obj db) := by
  have hother : ∀ {id}, (db.sessions.get id).isSome → ∀ n, uuid n ≠ id := by
    rintro id hid n rfl
    rw [hfresh n] at hid
    cases hid
  constructor
  · rintro ⟨hkeys, hauth⟩ hwant short pem info hbrings old hold
    obtain ⟨hprivate, hpublic, hlabel, htext⟩ := buildKeyRow_keyEntry short pem info now
    have hnew := imported_of_brings E options now uuid obj db hwant hbrings
    obtain ⟨new, hget, h₁, h₂, h₃⟩ := hkeys short old hold
    rw [hnew, Option.some.injEq] at hget
    subst hget
    refine ⟨h₁.symm.trans hprivate, h₂.symm.trans hpublic, h₃.symm.trans hlabel, ?_⟩
    rintro hpem ⟨id, hused⟩
    have hid : (db.sessions.get id).isSome := by
      obtain ⟨p, hp, -⟩ := hused.live
      rw [hp]
      rfl
    have hstate := imported_sessionState E options now uuid obj db (hother hid)
    have hafter : sessionKeyText (imported E options now uuid obj db) id = some pem := by
      rw [sessionKeyText_of_usedBy (hused.congr hstate), hnew, bind_some, htext, if_neg hpem]
    have hbefore := hauth id hid pem hafter
    rw [sessionKeyText_of_usedBy hused, hold, bind_some] at hbefore
    exact hbefore
  · intro hharmless
    constructor
    · intro k old hold
      by_cases hwritten : options.applyKeys = true ∧ ∃ pem info, Brings E obj db k pem info
      · obtain ⟨hwant, pem, info, hbrings⟩ := hwritten
        obtain ⟨hprivate, hpublic, hlabel, -⟩ := buildKeyRow_keyEntry k pem info now
        obtain ⟨h₁, h₂, h₃, -⟩ := hharmless hwant k pem info hbrings old hold
        exact ⟨_, imported_of_brings E options now uuid obj db hwant hbrings, hprivate.trans h₁.symm,
          hpublic.trans h₂.symm, hlabel.trans h₃.symm⟩
      · refine ⟨old, ?_, rfl, rfl, rfl⟩
        rw [imported_of_not_brings E options now uuid obj db fun hwant pem info hbrings =>
          hwritten ⟨hwant, pem, info, hbrings⟩]
        exact hold
    · intro id hid pem hafter
      have hstate := imported_sessionState E options now uuid obj db (hother hid)
      -- Only a session that uses a written key could see a difference.
      by_cases hwritten : ∃ k, UsedBy db k id ∧ options.applyKeys = true ∧ ∃ pem info, Brings E obj db k pem info
      · obtain ⟨k, hused, hwant, pem', info, hbrings⟩ := hwritten
        obtain ⟨j, hj, -, -, hkey⟩ := hused.details
        have hrow : (db.sshKeys.get k).isSome := by
          have hresolve := hrefs.details id j hj
          unfold Db.refsResolve at hresolve
          rw [hkey, Bool.and_eq_true] at hresolve
          exact hresolve.1
        obtain ⟨old, hold⟩ := isSome_iff_exists.1 hrow
        obtain ⟨-, -, -, hin⟩ := hharmless hwant k pem' info hbrings old hold
        obtain ⟨-, -, -, htext⟩ := buildKeyRow_keyEntry k pem' info now
        rw [sessionKeyText_of_usedBy (hused.congr hstate), imported_of_brings E options now uuid obj db hwant hbrings,
          bind_some, htext] at hafter
        split_ifs at hafter with hpem
        rw [sessionKeyText_of_usedBy hused, hold, bind_some, hin hpem ⟨id, hused⟩, hafter]
      · rw [← hafter]
        refine (sessionKeyText_congr hstate fun k hused => ?_).symm
        rw [imported_of_not_brings E options now uuid obj db fun hwant pem info hbrings =>
          hwritten ⟨k, hused, hwant, pem, info, hbrings⟩]

/-- **QR imports and the key store.** Of a payload that is decoded and merged, the keys that were there keep
their private key, public key and label and no session gets another private key, exactly when keys
are not imported or the keys of the payload are harmless. -/
theorem qr_import_keeps_keys_iff (W : Wire Text) {payload : String} {text : Text} {d : DecodedQrPayload Text}
    (htext : decodeToJsonText W payload = .ok text) (hjson : E.json.fromStr text = .ok (.obj obj))
    (hd : decodePayload W E.json uuid payload = .ok d) (hfresh : ∀ n, db.sessions.get (uuid n) = none)
    (hrefs : db.RefsOk) :
    KeysKept db (applyPendingImportMerge E options now d.pending.toPendingImport db).1 ∧
        AuthKept db (applyPendingImportMerge E options now d.pending.toPendingImport db).1 ↔
      (options.applyKeys = true → Harmless E obj db) := by
  obtain ⟨text', obj', htext', hjson', hpending⟩ := pending_of_decodePayload hd
  have heq : text' = text := Except.ok.inj (htext'.symm.trans htext)
  subst heq
  have hobj : obj' = obj := Json.obj.inj (Except.ok.inj (hjson'.symm.trans hjson))
  subst hobj
  rw [hpending]
  exact keysKept_authKept_iff E options now obj' hfresh hrefs

end Import

/-! ### Two devices with a first key -/

/-- The payload of a device whose first key is `laptop`. -/
def laptopPayload : String := "q1bKzlWyqlbKNlCyUgpw9dV1UqrVUcrNholVK-UAJXISC0ryC5R0lApAqkKdgKp0lEqA7NQUI1NTQ0ulWqCmMiUrw1oA"

def laptopObject : Json.Object :=
  [("km", .obj [("k0", .str "PEM-B")]),
    ("mk", .obj [("k0", .obj [("l", .str "laptop"), ("p", .str "PUB-B"), ("t", .str "ed25519")])]),
    ("v", .int 1)]

def laptopWire : Wire ParsedText :=
  fixedWire laptopPayload [171, 86, 202, 206, 85, 178, 170, 86, 202, 54, 80, 178, 82, 10, 112, 245, 213, 117, 82, 170,
     213, 81, 202, 205, 134, 137, 85, 43, 229, 0, 37, 114, 18, 11, 74, 242, 11, 148, 116, 148, 10,
     64, 170, 66, 157, 128, 170, 116, 148, 74, 128, 236, 212, 20, 35, 83, 83, 67, 75, 165, 90,
     160, 166, 50, 37, 43, 195, 90, 0]
    "\x7b\"km\":\x7b\"k0\":\"PEM-B\"\x7d,\"mk\":\x7b\"k0\":\x7b\"l\":\"laptop\",\"p\":\"PUB-B\",\"t\":\"ed25519\"\x7d\x7d,\"v\":1\x7d"
    (.obj laptopObject)

def softwareKey (id label privateKey publicKey : String) : SshKeyRow where
  id := id
  label := label
  privateKey := privateKey
  publicKey := publicKey
  keyType := "ed25519"
  isGenerated := false
  createdAtMs := 5
  credentialId := none
  applicationString := none
  hasUserVerification := false
  agentPolicy := .ask
  backend := .software
  pkcs11Uri := none
  pkcs11TokenSerial := none
  pkcs11ObjectId := none
  pkcs11ObjectLabel := none
  importedAsStub := false

def keyedDevice : Db ParsedText :=
  { (Db.empty : Db ParsedText) with
    sshKeys := Table.empty.set "k0" ⟨softwareKey "k0" "server" "PEM-A" "PUB-A", none⟩ }

def keyedSession : Db ParsedText :=
  { keyedDevice with
    sessions := Table.empty.set "s" ⟨"box", none, "ssh", 0, "", none, .json (.obj []), 5, 10, none⟩
    sshDetails := Table.empty.set "s" { Sessions.noDetails with host := "h", authType := "key", keyId := some "k0" } }

def mintedId (_ : Nat) : String := "c0ffee00-0000-4000-8000-000000000001"

def laptopDecoded : DecodedQrPayload ParsedText where
  pending := pendingOf ParsedText.codec mintedId laptopObject
  configJson := none
  schemaVersion := 1

theorem keyedDevice_refsOk : keyedDevice.RefsOk where
  folderParent _ _ h := by cases h
  folder _ _ h := by cases h
  parent _ _ h := by cases h
  details _ _ h := by cases h

theorem qr_import_keeps_keys_iff_laptop :
    keyedDevice.RefsOk ∧ decodePayload laptopWire ParsedText.codec mintedId laptopPayload = .ok laptopDecoded ∧
      (KeysKept keyedDevice (applyPendingImportMerge plainEnv ⟨true, true, true, true⟩ 40
            laptopDecoded.pending.toPendingImport keyedDevice).1 ∧
          AuthKept keyedDevice (applyPendingImportMerge plainEnv ⟨true, true, true, true⟩ 40
            laptopDecoded.pending.toPendingImport keyedDevice).1 ↔
        (true = true → Harmless plainEnv laptopObject keyedDevice)) :=
  ⟨keyedDevice_refsOk, rfl, qr_import_keeps_keys_iff plainEnv ⟨true, true, true, true⟩ 40 laptopObject laptopWire
      (show decodeToJsonText laptopWire laptopPayload = .ok (.json (.obj laptopObject)) from rfl) rfl rfl
      (fun _ => rfl) keyedDevice_refsOk⟩

/-- A second device's first key replaces the first one's, and the session signs with it. -/
theorem second_first_key_replaces : decodePayload laptopWire ParsedText.codec mintedId laptopPayload = .ok laptopDecoded ∧
      sessionKeyText keyedSession "s" = some "PEM-A" ∧
      ((applyPendingImportMerge plainEnv ⟨true, true, true, true⟩ 40 laptopDecoded.pending.toPendingImport
        keyedSession).1.sshKeys.get "k0").map (fun s => (s.row.label, s.row.privateKey)) = some ("laptop", "PEM-B") ∧
      sessionKeyText (applyPendingImportMerge plainEnv ⟨true, true, true, true⟩ 40 laptopDecoded.pending.toPendingImport
        keyedSession).1 "s" = some "PEM-B" :=
  ⟨rfl, by decide +kernel, by decide +kernel, by decide +kernel⟩

end LetsFlutSsh.Qr
