import Mathlib.Data.List.Infix
import LetsFlutSsh.Archive.SyncTables
import LetsFlutSsh.Config.Store
import LetsFlutSsh.Sync.WebDav

/-!
# Push and pull

The two verbs of the sync service, cut where they wait for the network or the database:

* `prepare`: the copy of the sync settings a verb works on;
* `composeArchive`, `pushSkips`, `pushIfMatch`, `pushOutcome`: a push around its `PUT`;
* `buildIfNoneMatch`, `pullResponse`, `pullMerged`: a pull around its `GET` and its merge;
  `pullResponse` holds the three ways to find nothing new;
* `pullWithClient`: a pull after its `GET`, as a whole; `pullWithClient_updated` is what it writes.

A verb returns the settings to write back; nothing is written when there is nothing to keep.
-/

namespace LetsFlutSsh.Sync
open Lib Config Archive List Option

variable {Text : Type}

inductive SyncError where
  | disabled
  | configInvalid (text : String)
  | network (text : String)
  | etagMismatch
  | unauthorized
  | archiveFutureVersion (found : Int) (supported : Int)
deriving DecidableEq

def contains (s pat : String) : Bool := decide (pat.toList <:+: s.toList)

/-- `From<Error>`: transport errors are told apart by their text. -/
def SyncError.ofError : Error → SyncError
  | .webDav s =>
    if contains s "etag mismatch" then .etagMismatch
    else if contains s "authentication failed" then .unauthorized
    else .network s
  | .archiveFutureVersion found supported => .archiveFutureVersion found supported
  | .other text => .network text

inductive SyncResult where
  | pushed (bytes : Nat) (sha256 : String)
  | pullApplied (sessions keys tags snippets : Nat)
  | upToDate
  | skipped (reason : String)

/-- How a pull ended, and the settings to write back. -/
structure PullOutcome where
  result : SyncResult
  updatedCfg : Option SyncConfig

/-- Encryption and packing of archives. -/
structure Sealing (Text : Type) where
  /-- `encrypt_archive`, with the random salt and nonce it draws. -/
  encrypt : (passphrase : String) → (salt : Bytes) → Bytes → Bytes
  /-- `decrypt_archive_with_password`. -/
  decrypt : (passphrase : String) → Bytes → Except Error Bytes
  /-- `build_zip` on the composed entries. -/
  zip : FullImport Text → Bytes
  /-- `parse_pending_import`: the entries and the schema version. -/
  unzip : Bytes → Except Error (FullImport Text × Int)

/-- What is the same for every device. -/
structure Actors (Text : Type) where
  env : DriverEnv Text
  sealing : Sealing Text
  canonicalReason : Nat → Option String
  appVersion : String

/-! ## Common steps -/

/-- `prepare`: the settings a verb works on, as they are now. -/
def prepare (store : Store) : Except SyncError SyncConfig :=
  match store.getAppConfig with
  | none => .error (.configInvalid "config_store not initialised")
  | some app =>
    if app.sync.enabled = false then .error .disabled
    else if app.sync.webdavUrl = "" then .error (.configInvalid "WebDAV URL is empty")
    else .ok app.sync

def readSecret (secrets : String → Option String) (id : String) : Except SyncError String :=
  match secrets id with
  | none => .error (.configInvalid ("secret not staged: " ++ id))
  | some s => .ok s

/-- `build_client`, as far as it looks at the settings. -/
def buildClient (cfg : SyncConfig) : Except SyncError Unit :=
  if cfg.webdavAuthMethod = "basic" ∨ cfg.webdavAuthMethod = "digest" ∨ cfg.webdavAuthMethod = "bearer" then .ok ()
  else .error (.configInvalid ("unknown auth method: " ++ cfg.webdavAuthMethod))

def persistSync (updated : SyncConfig) (store : Store) : Except SyncError Store :=
  (store.updateSync updated).mapError .configInvalid

def hexDigit (n : Nat) : Char := if n < 10 then Char.ofNat (48 + n) else Char.ofNat (87 + n)

/-- `read_install_id`, on the random bytes it draws. -/
def installIdOf (bytes : Bytes) : String :=
  String.ofList (bytes.flatMap fun b => [hexDigit (b.toNat / 16), hexDigit (b.toNat % 16)])

/-! ## Push -/

def originStamp (installId : String) (nowMs : Int64) : String := installId ++ ":" ++ toString nowMs

/-- `compose_archive`: the bytes that go to the server. -/
def composeArchive (A : Actors Text) (db : Whole Text) (createdAtMs : Int64) (origin passphrase : String)
    (salt : Bytes) : Bytes :=
  A.sealing.encrypt passphrase salt (A.sealing.zip (composeWhole A.env.json db createdAtMs A.appVersion origin))

def pushSkips (cfg : SyncConfig) (sha256 : String) : Bool :=
  sha256 = cfg.lastPushedSha256 && cfg.lastPushedSha256 ≠ ""

/-- The `If-Match` of a push: none as long as no push has left a tag. -/
def pushIfMatch (cfg : SyncConfig) : Option String :=
  if cfg.lastPushedEtag = "" then none else some (quoteEtag cfg.lastPushedEtag)

def stampPushed (cfg : SyncConfig) (nowMs : Int64) (sha256 etag : String) : SyncConfig :=
  { cfg with lastPushedAtMs := nowMs, lastPushedSha256 := sha256, lastPushedEtag := etag }

/-- `push` after its `PUT`: the result and the settings to write back. -/
def pushOutcome (A : Actors Text) (cfg : SyncConfig) (nowMs : Int64) (bytes : Bytes) (r : Response) :
    Except SyncError (SyncResult × SyncConfig) :=
  match WebDav.put A.canonicalReason r with
  | .error e => .error (.ofError e)
  | .ok etag =>
    .ok (.pushed bytes.length (A.env.sha256Hex bytes), stampPushed cfg nowMs (A.env.sha256Hex bytes) (etag.getD ""))

/-! ## Pull -/

/-- `parts.join(", ")`. -/
def joinTags : List String → String
  | [] => ""
  | [part] => part
  | part :: parts => part ++ ", " ++ joinTags parts

/-- `build_if_none_match`: the tags of the last push and the last pull. -/
def buildIfNoneMatch (cfg : SyncConfig) : Option String :=
  let parts := if cfg.lastPushedEtag = "" then [] else [quoteEtag cfg.lastPushedEtag]
  let parts :=
    if cfg.lastPulledEtag = "" then parts
    else if quoteEtag cfg.lastPulledEtag ∈ parts then parts
    else parts ++ [quoteEtag cfg.lastPulledEtag]
  if parts = [] then none else some (joinTags parts)

def maxArchiveBytes : Nat := 256 * 1024 * 1024

/-- `sha_match_outcome`: the body is the one of the last push or pull. -/
def shaMatchOutcome (cfg : SyncConfig) (remoteEtag bodySha256 : String) : Option PullOutcome :=
  let matchesPushed := cfg.lastPushedSha256 ≠ "" ∧ bodySha256 = cfg.lastPushedSha256
  let matchesPulled := cfg.lastPulledSha256 ≠ "" ∧ bodySha256 = cfg.lastPulledSha256
  if matchesPushed ∨ matchesPulled then
    some
      { result := .upToDate
        updatedCfg :=
          if remoteEtag ≠ "" ∧ remoteEtag ≠ cfg.lastPulledEtag then
            some { cfg with lastPulledEtag := remoteEtag, lastPulledSha256 := bodySha256 }
          else none }
  else none

def parseSyncOrigin (J : JsonText Text) (pending : FullImport Text) : Option String :=
  pending.manifestJson.bind fun manifest =>
    match J.fromStr manifest with
    | .error _ => none
    | .ok value => ((value.member "sync_origin").bind Json.asStr).filter (· ≠ "")

def isOwnOrigin (installId origin : String) : Bool := (installId ++ ":").toList.isPrefixOf origin.toList

/-- `own_origin_outcome`: the snapshot is one this process pushed. -/
def ownOriginOutcome (J : JsonText Text) (cfg : SyncConfig) (pending : FullImport Text)
    (installId remoteEtag bodySha256 : String) : Option PullOutcome :=
  if (parseSyncOrigin J pending).any (isOwnOrigin installId) then
    some
      { result := .upToDate
        updatedCfg :=
          if remoteEtag ≠ "" ∧ (remoteEtag ≠ cfg.lastPulledEtag ∨ bodySha256 ≠ cfg.lastPulledSha256) then
            some { cfg with lastPulledEtag := remoteEtag, lastPulledSha256 := bodySha256 }
          else none }
  else none

def encHeaderMagic : Bytes := [0x4C, 0x46, 0x53, 0x45]

def zipMagic : Bytes := [0x50, 0x4B, 0x03, 0x04]

/-- The packed bytes of a fetched archive, decrypted when they are in an envelope. -/
def openEnvelope (S : Sealing Text) (body : Bytes) (passphrase : String) : Except SyncError Bytes :=
  if encHeaderMagic.isPrefixOf body then (S.decrypt passphrase body).mapError SyncError.ofError
  else if zipMagic.isPrefixOf body then .ok body
  else .error (.network "remote archive: not an LFSE envelope or ZIP file")

def parseArchiveBytes (S : Sealing Text) (body : Bytes) (passphrase : String) : Except SyncError (FullImport Text) :=
  match openEnvelope S body passphrase with
  | .error e => .error e
  | .ok zipBytes =>
    match S.unzip zipBytes with
    | .error e => .error (.ofError e)
    | .ok (pending, version) =>
      if 1 ≤ version ∧ version ≤ schemaVersion then .ok pending
      else .error (.archiveFutureVersion version schemaVersion)

/-- What is left to do once the response to the `GET` is read. -/
inductive PullNext (Text : Type) where
  | done (outcome : PullOutcome)
  | merge (pending : FullImport Text) (remoteEtag bodySha256 : String)

def responseEtag (r : Response) : String := (r.etag.map normaliseEtagHeader).getD ""

/-- The body of a fetched archive: known by its hash, or by its origin, or to be merged. -/
def pullBody (A : Actors Text) (cfg : SyncConfig) (passphrase installId : String) (r : Response) :
    Except SyncError (PullNext Text) :=
  if r.body.length > maxArchiveBytes then
    .error (.network ("remote archive " ++ toString r.body.length ++ " bytes exceeds " ++
      toString maxArchiveBytes ++ "-byte cap"))
  else
    match shaMatchOutcome cfg (responseEtag r) (A.env.sha256Hex r.body) with
    | some outcome => .ok (.done outcome)
    | none =>
      match parseArchiveBytes A.sealing r.body passphrase with
      | .error e => .error e
      | .ok pending =>
        match ownOriginOutcome A.env.json cfg pending installId (responseEtag r) (A.env.sha256Hex r.body) with
        | some outcome => .ok (.done outcome)
        | none => .ok (.merge pending (responseEtag r) (A.env.sha256Hex r.body))

/-- `pull_with_client` from the response to its `GET` up to the merge. -/
def pullResponse (A : Actors Text) (cfg : SyncConfig) (passphrase installId : String) (r : Response) :
    Except SyncError (PullNext Text) :=
  match WebDav.get A.canonicalReason r with
  | .error (.webDav s) =>
    if contains s "not found" then .ok (.done ⟨.skipped "no remote archive", none⟩)
    else .error (.ofError (.webDav s))
  | .error e => .error (.ofError e)
  | .ok r => if r.status = 304 then .ok (.done ⟨.upToDate, none⟩) else pullBody A cfg passphrase installId r

/-- `pull_with_client` after the merge; the errors of its rows are not looked at. -/
def pullMerged (cfg : SyncConfig) (nowMs : Int64) (remoteEtag bodySha256 : String) (o : DriverOutcome) : PullOutcome where
  result := .pullApplied o.sessionsApplied o.keysApplied o.tagsApplied o.snippetsApplied
  updatedCfg := some { cfg with
    lastPulledAtMs := nowMs, lastPulledEtag := remoteEtag, lastPulledSha256 := bodySha256 }

/-- `pull_with_client` from the response to its `GET`, with the database it merges into; the two
clock readings are the merge's and the stamp's. -/
def pullWithClient (A : Actors Text) (cfg : SyncConfig) (passphrase installId : String) (r : Response)
    (mergeMs nowMs : Int64) (db : Whole Text) : Except SyncError (PullOutcome × Whole Text) :=
  match pullResponse A cfg passphrase installId r with
  | .error e => .error e
  | .ok (.done outcome) => .ok (outcome, db)
  | .ok (.merge pending remoteEtag bodySha256) =>
    let merged := mergeWhole A.env mergeMs pending db
    .ok (pullMerged cfg nowMs remoteEtag bodySha256 merged.2, merged.1)

/-! ## Plain archives -/

/-- An envelope that shows its salt and its passphrase, around a packing that shows the origin; only
the archives of `known` are read back. -/
def plainSealing (known : List (FullImport ParsedText)) : Sealing ParsedText :=
  let zip (p : FullImport ParsedText) : Bytes := zipMagic ++ utf8 ((parseSyncOrigin ParsedText.codec p).getD "")
  { encrypt := fun passphrase salt z => encHeaderMagic ++ utf8 passphrase ++ 0 :: salt ++ 0 :: z
    decrypt := fun passphrase body =>
      match (utf8 passphrase ++ [0]).isPrefixOf? (body.drop 4) with
      | none => .error (.other "archive: wrong passphrase")
      | some rest => .ok ((rest.dropWhile (· ≠ 0)).drop 1)
    zip := zip
    unzip := fun z =>
      match known.find? fun p => zip p == z with
      | none => .error (.other "archive: no central directory")
      | some p => .ok (p, schemaVersion) }

variable {passphrase : String}

theorem parseArchiveBytes_eq_ok {S : Sealing Text} {body : Bytes} {q : FullImport Text}
    (h : parseArchiveBytes S body passphrase = .ok q) :
    ∃ z n, openEnvelope S body passphrase = .ok z ∧ S.unzip z = .ok (q, n) := by
  unfold parseArchiveBytes at h
  split at h
  · cases h
  next z hz =>
  split at h
  · cases h
  · next p n hu =>
    split_ifs at h
    cases h
    exact ⟨z, n, hz, hu⟩

theorem suffix_of_openEnvelope {known : List (FullImport ParsedText)} {body z : Bytes}
    (h : openEnvelope (plainSealing known) body passphrase = .ok z) : z <:+ body := by
  unfold openEnvelope at h
  split_ifs at h
  · dsimp only [plainSealing] at h
    split at h
    · cases h
    · next rest hrest =>
      cases h
      have hdrop : rest <:+ body.drop 4 := ⟨_, isPrefixOf?_eq_some_iff_append_eq.mp hrest⟩
      exact (drop_suffix _ _).trans ((dropWhile_suffix _).trans (hdrop.trans (drop_suffix _ _)))
  · cases h
    exact suffix_refl _

theorem mem_of_parse_plain {known : List (FullImport ParsedText)} {body : Bytes}
    {q : FullImport ParsedText} (h : parseArchiveBytes (plainSealing known) body passphrase = .ok q) :
    q ∈ known ∧ (plainSealing known).zip q <:+ body := by
  obtain ⟨z, n, hopen, hz⟩ := parseArchiveBytes_eq_ok h
  dsimp only [plainSealing] at hz
  split at hz
  · cases hz
  · next p hp =>
    cases hz
    have hzip := find?_some hp
    have hsuffix := suffix_of_openEnvelope hopen
    rw [← eq_of_beq hzip] at hsuffix
    exact ⟨mem_of_find?_eq_some hp, hsuffix⟩

def plainActors (known : List (FullImport ParsedText)) : Actors ParsedText where
  env := plainDriverEnv
  sealing := plainSealing known
  canonicalReason _ := none
  appVersion := "1.0.0"

/-! ## The copy of a verb -/

variable {cfg : SyncConfig}

theorem prepare_eq_ok {store : Store} (h : prepare store = .ok cfg) :
    ∃ app, store.current = some app ∧ cfg = app.sync := by
  unfold prepare at h
  split at h
  · cases h
  · next app happ =>
    split_ifs at h
    exact ⟨app, happ, (Except.ok.inj h).symm⟩

/-! ## Origins -/

theorem hexDigit_ne_colon {n : Nat} (h : n < 16) : hexDigit n ≠ ':' := by
  have hall : ∀ m : Fin 16, hexDigit m ≠ ':' := by decide
  exact hall ⟨n, h⟩

theorem colon_notMem_installIdOf (bytes : Bytes) : ':' ∉ (installIdOf bytes).toList := by
  unfold installIdOf
  rw [String.toList_ofList, mem_flatMap]
  rintro ⟨b, -, hb⟩
  have hlt : b.toNat < 256 := UInt8.toNat_lt b
  rw [mem_cons, mem_singleton] at hb
  rcases hb with hb | hb
  · exact hexDigit_ne_colon (by omega) hb.symm
  · exact hexDigit_ne_colon (by omega) hb.symm

theorem installId_eq_of_isOwnOrigin {a b : Bytes} {nowMs : Int64}
    (h : isOwnOrigin (installIdOf a) (originStamp (installIdOf b) nowMs) = true) : installIdOf a = installIdOf b := by
  unfold isOwnOrigin originStamp at h
  obtain ⟨rest, hrest⟩ := isPrefixOf_iff_prefix.mp h
  rw [String.toList_append, String.toList_append, String.toList_append, append_assoc, append_assoc] at hrest
  have htext : (installIdOf a).toList = (installIdOf b).toList :=
    append_mark_inj (colon_notMem_installIdOf a) (colon_notMem_installIdOf b) hrest
  exact String.toList_injective htext

theorem originStamp_ne_empty (installId : String) (nowMs : Int64) : originStamp installId nowMs ≠ "" := by
  intro h
  have hmem : ':' ∈ (originStamp installId nowMs).toList := by
    simp [originStamp, String.toList_append]
  rw [h] at hmem
  cases hmem

theorem parseSyncOrigin_composeWhole (J : JsonText Text) (db : Whole Text) (createdAtMs : Int64)
    (appVersion : String) {origin : String} (h : origin ≠ "") :
    parseSyncOrigin J (composeWhole J db createdAtMs appVersion origin) = some origin := by
  unfold parseSyncOrigin composeWhole composeSync
  rw [bind_some, J.fromStr_toStr]
  simp [manifestValue, insertNonEmpty, h]

/-! ## Conditional requests -/

/-- A remembered tag that came from a server: nothing, or the text of an entity tag. -/
def IsTag (etag : String) : Prop := etag ≠ "" → ∃ t : EntityTag, etag = etagText t

theorem headerTags_quoteEtag (t : EntityTag) : headerTags (quoteEtag (etagText t)).toList = [(false, t.text)] := by
  rw [quoteEtag_etagText, headerTags, entityTags_quoted _ t.quote_notMem]
  rfl

theorem headerTags_joinTags (t u : EntityTag) :
    headerTags (joinTags [quoteEtag (etagText t), quoteEtag (etagText u)]).toList = [(false, t.text), (false, u.text)] := by
  have htext : (joinTags [quoteEtag (etagText t), quoteEtag (etagText u)]).toList =
      '"' :: (t.text ++ '"' :: ([',', ' '] ++ '"' :: (u.text ++ ['"']))) := by
    simp [joinTags, String.toList_append, quoteEtag_etagText]
  rw [htext, headerTags, entityTags_quoted _ t.quote_notMem, entityTags_append _ _ (by decide),
    entityTags_quoted _ u.quote_notMem]
  rfl

theorem accepts_pushIfMatch (htag : IsTag cfg.lastPushedEtag) (hne : cfg.lastPushedEtag ≠ "")
    (v : Stored) :
    Server.accepts (some v) (pushIfMatch cfg) = true ↔ v.etag.weak = false ∧ etagText v.etag = cfg.lastPushedEtag := by
  obtain ⟨t, ht⟩ := htag hne
  rw [pushIfMatch, if_neg hne, ht, Server.accepts, all_some, map_some, ifMatch_iff,
    headerTags_quoteEtag, mem_singleton, Prod.mk.injEq, etagText_inj]
  simp

theorem remembered_of_not_ifNoneMatch (hpushed : IsTag cfg.lastPushedEtag)
    (hpulled : IsTag cfg.lastPulledEtag) {v : EntityTag}
    (h : ((buildIfNoneMatch cfg).all fun h => ifNoneMatch h.toList (some v)) = false) :
    (cfg.lastPushedEtag ≠ "" ∧ etagText v = cfg.lastPushedEtag) ∨
      (cfg.lastPulledEtag ≠ "" ∧ etagText v = cfg.lastPulledEtag) := by
  unfold buildIfNoneMatch at h
  by_cases hpush : cfg.lastPushedEtag = ""
  · by_cases hpull : cfg.lastPulledEtag = ""
    · simp [hpush, hpull] at h
    obtain ⟨u, hu⟩ := hpulled hpull
    right
    rw [hu] at hpull ⊢
    simp only [hpush, hu, hpull, if_true, if_false, not_mem_nil, nil_append, cons_ne_nil,
      all_some, joinTags, ifNoneMatch_eq_false_iff, headerTags_quoteEtag, map_cons, map_nil,
      mem_singleton] at h
    exact ⟨hpull, etagText_inj.mpr h⟩
  · obtain ⟨t, ht⟩ := hpushed hpush
    by_cases hpull : cfg.lastPulledEtag = ""
    · left
      rw [ht] at hpush ⊢
      simp only [hpull, ht, hpush, if_true, if_false, cons_ne_nil, all_some, joinTags,
        ifNoneMatch_eq_false_iff, headerTags_quoteEtag, map_cons, map_nil, mem_singleton] at h
      exact ⟨hpush, etagText_inj.mpr h⟩
    · obtain ⟨u, hu⟩ := hpulled hpull
      rw [ht] at hpush ⊢
      rw [hu] at hpull ⊢
      simp only [ht, hu, hpush, hpull, if_false, mem_singleton] at h
      split at h
      · left
        simp only [cons_ne_nil, if_false, all_some, joinTags, ifNoneMatch_eq_false_iff,
          headerTags_quoteEtag, map_cons, map_nil, mem_singleton] at h
        exact ⟨hpush, etagText_inj.mpr h⟩
      · simp only [cons_append, nil_append, cons_ne_nil, if_false, all_some,
          ifNoneMatch_eq_false_iff, headerTags_joinTags, map_cons, map_nil, mem_cons,
          not_mem_nil, or_false] at h
        exact h.imp (fun h => ⟨hpush, etagText_inj.mpr h⟩) fun h => ⟨hpull, etagText_inj.mpr h⟩

variable {o : PullOutcome}

/-! ## What a pull writes back -/

section Updated

variable {A : Actors Text} {cfg u : SyncConfig} {installId : String} {r : Response}

theorem shaMatchOutcome_updated {etag sha : String} (h : shaMatchOutcome cfg etag sha = some o)
    (hu : o.updatedCfg = some u) :
    o.result = .upToDate ∧ u = { cfg with lastPulledEtag := etag, lastPulledSha256 := sha } := by
  unfold shaMatchOutcome at h
  dsimp only at h
  split at h
  · cases h
    refine ⟨rfl, ?_⟩
    split at hu
    · exact (Option.some.inj hu).symm
    · cases hu
  · cases h

theorem ownOriginOutcome_updated {J : JsonText Text} {pending : FullImport Text} {etag sha : String}
    (h : ownOriginOutcome J cfg pending installId etag sha = some o)
    (hu : o.updatedCfg = some u) :
    o.result = .upToDate ∧ u = { cfg with lastPulledEtag := etag, lastPulledSha256 := sha } := by
  unfold ownOriginOutcome at h
  split at h
  · cases h
    refine ⟨rfl, ?_⟩
    split at hu
    · exact (Option.some.inj hu).symm
    · cases hu
  · cases h

theorem pullBody_cases {next : PullNext Text} (h : pullBody A cfg passphrase installId r = .ok next) :
    (∃ o, shaMatchOutcome cfg (responseEtag r) (A.env.sha256Hex r.body) = some o ∧ next = .done o) ∨
    (∃ pending, parseArchiveBytes A.sealing r.body passphrase = .ok pending ∧
      ∃ o, ownOriginOutcome A.env.json cfg pending installId (responseEtag r) (A.env.sha256Hex r.body) = some o ∧
        next = .done o) ∨
    (∃ pending, parseArchiveBytes A.sealing r.body passphrase = .ok pending ∧
      next = .merge pending (responseEtag r) (A.env.sha256Hex r.body)) := by
  unfold pullBody at h
  split at h
  · cases h
  split at h
  · next o ho => exact .inl ⟨o, ho, (Except.ok.inj h).symm⟩
  · split at h
    · cases h
    · next pending hp =>
      split at h
      · next o ho => exact .inr (.inl ⟨pending, hp, o, ho, (Except.ok.inj h).symm⟩)
      · exact .inr (.inr ⟨pending, hp, (Except.ok.inj h).symm⟩)

theorem pullResponse_cases {next : PullNext Text} (h : pullResponse A cfg passphrase installId r = .ok next) :
    next = .done ⟨.skipped "no remote archive", none⟩ ∨
    (r.status = 304 ∧ next = .done ⟨.upToDate, none⟩) ∨
    (isSuccess r.status = true ∧ pullBody A cfg passphrase installId r = .ok next) := by
  unfold pullResponse WebDav.get at h
  by_cases h304 : r.status = 304
  · rw [if_pos h304] at h
    refine .inr (.inl ⟨h304, ?_⟩)
    simp only [h304, if_true] at h
    exact (Except.ok.inj h).symm
  rw [if_neg h304] at h
  split at h
  · next s hs =>
    split at h
    · exact .inl (Except.ok.inj h).symm
    · cases h
  · cases h
  · next r' hr' =>
    split at hr'
    · next hsuccess =>
      cases hr'
      rw [if_neg h304] at h
      exact .inr (.inr ⟨hsuccess, h⟩)
    · cases hr'

theorem pullWithClient_updated {mergeMs nowMs : Int64} {db db' : Whole Text}
    (h : pullWithClient A cfg passphrase installId r mergeMs nowMs db = .ok (o, db'))
    (hu : o.updatedCfg = some u) :
    ∃ etag sha, ((∃ s k t n, o.result = .pullApplied s k t n) ∧
        u = { cfg with lastPulledAtMs := nowMs, lastPulledEtag := etag, lastPulledSha256 := sha }) ∨
      (o.result = .upToDate ∧ u = { cfg with lastPulledEtag := etag, lastPulledSha256 := sha }) := by
  unfold pullWithClient at h
  split at h
  · cases h
  · next o' ho =>
    cases h
    refine ⟨responseEtag r, A.env.sha256Hex r.body, .inr ?_⟩
    rcases pullResponse_cases ho with hd | ⟨-, hd⟩ | ⟨-, hb⟩
    · cases hd
      cases hu
    · cases hd
      cases hu
    · rcases pullBody_cases hb with ⟨o, hs, hd⟩ | ⟨pending, -, o, hs, hd⟩ | ⟨pending, -, hd⟩
      · cases hd
        exact shaMatchOutcome_updated hs hu
      · cases hd
        exact ownOriginOutcome_updated hs hu
      · cases hd
  · next pending etag sha ho =>
    cases h
    exact ⟨etag, sha, .inl ⟨⟨_, _, _, _, rfl⟩, (Option.some.inj hu).symm⟩⟩

end Updated

end LetsFlutSsh.Sync
