import LetsFlutSsh.Lib.Json
import LetsFlutSsh.Update.Http

/-!
# Checking for an update and downloading it

* `checkForUpdateFromBody` : what a list of releases says about the newest one;
* `downloadWithVerification` : the asset, the signed manifest of its version, and the hash of the one in the other;
* `NoRollback` : what is accepted is of the version that was reported;
* `noRollback_iff` : the lists of releases, and the signed manifests, for which that holds.

Files are kept by their place on the disk; the servers may answer every request as they like.
-/

namespace LetsFlutSsh.Update
open Lib Option Prog Function

structure Env extends HttpEnv where
  /-- `serde_json::from_str`. -/
  fromStr : Text → Except Text Json
  /-- Public key, message and signature. -/
  ed25519Verify : Bytes → Bytes → Bytes → Bool
  utf8Error : Bytes → Text
  hostPlatform : String
  hostArch : String

/-! ## The list of releases -/

structure UpdateInfo where
  latestVersion : Text
  currentVersion : Text
  releaseUrl : Text
  assetUrl : Option Text
  assetDigest : Option Text
  changelog : Option Text

def UpdateInfo.hasUpdate (info : UpdateInfo) : Bool := compareVersions info.latestVersion info.currentVersion = .gt

def defaultReleaseUrl (repo : Text) : Text := "https://github.com/".toList ++ repo ++ "/releases/latest".toList

def strMember (v : Json) (key : String) : Option Text := ((v.member key).bind Json.asStr).map String.toList

theorem strMember_of_str {v : Json} {key s : String} (h : (v.member key).bind Json.asStr = some s) :
    strMember v key = some s.toList := by
  rw [strMember, h, map_some]

def findAsset (assets : List Json) (suffix : Text) : Option Json :=
  assets.find? fun a => decide (suffix <:+ (strMember a "name").getD [])

def pickAssetUrl (assets : List Json) (suffix : Text) : Option Text :=
  (findAsset assets suffix).bind fun a => strMember a "browser_download_url"

def pickAssetDigest (assets : List Json) (suffix : Text) : Option Text :=
  (findAsset assets suffix).bind fun a => (strMember a "digest").bind fun d => d.dropPrefix? "sha256:".toList

def releaseList : Json → List Json
  | .arr items => items
  | .obj members => [.obj members]
  | _ => []

def changelogRelease (r : Json) : ChangelogRelease := ⟨(strMember r "tag_name").getD [], (strMember r "body").getD []⟩

def Env.checkForUpdateFromBody (env : Env) (body currentVersion repo : Text) : Except Error UpdateInfo :=
  match env.fromStr body with
  | .error e => .error ("update releases JSON parse: ".toList ++ e)
  | .ok parsed =>
    match releaseList parsed with
    | [] => .ok ⟨currentVersion, currentVersion, defaultReleaseUrl repo, none, none, none⟩
    | latest :: older =>
      let assets := ((latest.member "assets").bind Json.asArray).getD []
      let suffix := assetSuffix env.hostPlatform env.hostArch
      .ok {
        latestVersion := stripV ((strMember latest "tag_name").getD [])
        currentVersion := currentVersion
        releaseUrl := (strMember latest "html_url").getD (defaultReleaseUrl repo)
        assetUrl := suffix.bind (pickAssetUrl assets)
        assetDigest := suffix.bind (pickAssetDigest assets)
        changelog := buildCumulativeChangelog ((latest :: older).map changelogRelease) currentVersion }

/-! ## Signatures -/

def primaryPublicKey : Bytes :=
  [0x15, 0x6a, 0x7d, 0x78, 0xe6, 0x28, 0x52, 0xbd, 0x3e, 0xf8, 0x60, 0x71, 0x7f, 0xcb, 0x8d, 0xde,
    0xad, 0x1b, 0x2d, 0x75, 0xe3, 0x86, 0x95, 0x8f, 0xec, 0x3c, 0xa8, 0x12, 0x30, 0x57, 0x32, 0x03]

def Env.verifyReleaseSignature (env : Env) (message signature : Bytes) : Bool :=
  signature.length = 64 && env.ed25519Verify primaryPublicKey message signature

/-! ## The download -/

inductive DownloadError where
  | untrusted (msg : Text)
  | network (e : Error)
  | manifestUnavailable (msg : Text)
  | invalidSignature (msg : Text)

abbrev Download (α : Type) := Prog Op Resp (Except DownloadError α)

structure DownloadedAsset where
  assetPath : Text
  manifestPath : Text
  manifestSigPath : Text

/-- `url.rsplit('/').next()`. -/
def urlTail (url : Text) : Text :=
  match rsplitOnce '/' url with
  | some (_, tail) => tail
  | none => url

def replacePathTail (url newTail : Text) : Text :=
  match rsplitOnce '/' url with
  | some (dir, _) => dir ++ '/' :: newTail
  | none => newTail

def drivePrefix : Sftp.Platform → Text → Text
  | .windows, c :: ':' :: _ => if c.isAlpha then [c, ':'] else []
  | _, _ => []

def isUnc : Sftp.Platform → Text → Bool
  | .windows, c :: d :: _ => Sftp.Platform.windows.isSep c && Sftp.Platform.windows.isSep d
  | _, _ => false

def mainSep : Sftp.Platform → Char
  | .posix => '/'
  | .windows => '\\'

/-- `Path::join`. -/
def joinPath (p : Sftp.Platform) (dir name : Text) : Text :=
  if drivePrefix p name ≠ [] ∨ isUnc p name then name
  else if isRooted p.isSep name then drivePrefix p dir ++ name
  else if dir = drivePrefix p dir ∨ dir.getLast?.any p.isSep then dir ++ name
  else dir ++ mainSep p :: name

def publish (event : Event) : Download Unit := (Prog.perform (Op.publish event)).bind fun _ => .done (.ok ())

def track (path : Text) : Download Unit := (Prog.perform (Op.track path)).bind fun _ => .done (.ok ())

def disarm : Download Unit := (Prog.perform Op.disarm).bind fun _ => .done (.ok ())

def eqIgnoreAsciiCase (a b : Text) : Bool := a.map Char.toLower = b.map Char.toLower

def Env.sha256File (env : Env) (path : Text) : Call Text :=
  (Prog.mapError (Prog.perform (Op.openFile path) : Call Unit) fun e =>
      "open ".toList ++ path ++ ": ".toList ++ e).andThen fun _ =>
    (Prog.mapError (Prog.perform (Op.read path) : Call Bytes) fun e =>
        "read ".toList ++ path ++ ": ".toList ++ e).andThen fun bytes =>
      .done (.ok (hexEncode (env.sha256 bytes)))

def Env.checkDigest (env : Env) (assetPath : Text) : Option Text → Download Unit
  | none => .done (.ok ())
  | some expected =>
    ((env.sha256File assetPath).mapError .network).andThen fun actual =>
      if eqIgnoreAsciiCase actual expected then .done (.ok ())
      else .done (.error (.invalidSignature
        ("SHA-256 mismatch: expected ".toList ++ expected ++ ", got ".toList ++ actual)))

/-- A file of the manifest pair; it is tracked whether it arrives or not. -/
def Env.fetchManifest (env : Env) (what url path : Text) : Download Unit :=
  (env.downloadToFile url path fun _ _ => []).bind fun r =>
    (track path).andThen fun _ =>
      .done ((r.mapError fun e => DownloadError.manifestUnavailable
        ("fetch ".toList ++ what ++ ": update: ".toList ++ e)).map fun _ => ())

def readManifest (what path : Text) : Download Bytes :=
  (Prog.perform (Op.read path) : Call Bytes).mapError fun e =>
    .manifestUnavailable ("read ".toList ++ what ++ ": ".toList ++ e)

def Env.expectedHash (env : Env) (assetName : Text) (manifestBytes sigBytes : Bytes) : Except DownloadError Text :=
  if env.verifyReleaseSignature manifestBytes sigBytes = false then
    .error (.invalidSignature "manifest signature did not verify against the pinned Ed25519 key".toList)
  else
    match fromUtf8 manifestBytes with
    | none => .error (.invalidSignature ("manifest text not utf-8: ".toList ++ env.utf8Error manifestBytes))
    | some manifestText =>
      match (parseSha256Manifest manifestText.toList).lookup assetName with
      | none => .error (.invalidSignature ("manifest has no entry for ".toList ++ assetName))
      | some hash => .ok hash

def manifestName (version : Text) : Text := releaseAssetPrefix ++ version ++ ".sha256sums".toList

def sigSuffix : Text := ['.', 's', 'i', 'g']

def Env.verifyAgainstManifest (env : Env) (url targetDir assetName assetPath version : Text) : Download DownloadedAsset :=
  let manifestUrl := replacePathTail url (manifestName version)
  let manifestSigUrl := manifestUrl ++ sigSuffix
  if isTrustedReleaseAssetUri manifestUrl = false ∨ isTrustedReleaseAssetUri manifestSigUrl = false then
    .done (.error (.untrusted ("manifest pair: ".toList ++ manifestUrl ++ " / ".toList ++ manifestSigUrl)))
  else
    let manifestPath := joinPath env.platform targetDir (manifestName version)
    let manifestSigPath := joinPath env.platform targetDir (manifestName version ++ sigSuffix)
    (env.fetchManifest "manifest".toList manifestUrl manifestPath).andThen fun _ =>
      (env.fetchManifest "manifest sig".toList manifestSigUrl manifestSigPath).andThen fun _ =>
        (readManifest "manifest".toList manifestPath).andThen fun manifestBytes =>
          (readManifest "manifest sig".toList manifestSigPath).andThen fun sigBytes =>
            Prog.andThen (.done (env.expectedHash assetName manifestBytes sigBytes)) fun hash =>
              ((env.sha256File assetPath).mapError .network).andThen fun actualHash =>
                if eqIgnoreAsciiCase actualHash hash = false then
                  .done (.error (.invalidSignature ("SHA-256 mismatch for ".toList ++ assetName ++ ": manifest=".toList ++
                    hash ++ " actual=".toList ++ actualHash)))
                else
                  (publish (.downloadCompleted url assetPath)).andThen fun _ =>
                    disarm.andThen fun _ => .done (.ok ⟨assetPath, manifestPath, manifestSigPath⟩)

def Env.downloadWithVerification (env : Env) (url targetDir : Text) (expectedDigest : Option Text) :
    Download DownloadedAsset :=
  if isTrustedReleaseAssetUri url = false then .done (.error (.untrusted url))
  else
    let assetName := urlTail url
    let assetPath := joinPath env.platform targetDir assetName
    (track assetPath).andThen fun _ =>
      ((env.downloadToFile url assetPath fun written total => [.downloadProgress url written total]).mapError
          .network).andThen fun _ =>
        (publish (.verifyingStarted url)).andThen fun _ =>
          (env.checkDigest assetPath expectedDigest).andThen fun _ =>
            match parseAssetVersion assetName with
            | none => .done (.error (.invalidSignature ("cannot derive version from asset name ".toList ++ assetName)))
            | some version => env.verifyAgainstManifest url targetDir assetName assetPath version

/-! ## The disk -/

abbrev Place := List Text

structure World where
  files : Place → Option Bytes
  tracked : List Text
  armed : Bool

def locate (p : Sftp.Platform) (path : Text) : Place := resolve p.isSep [] path

def World.put (w : World) (place : Place) (bytes : Bytes) : World :=
  { w with files := update w.files place (some bytes) }

/-- What the world answers: the server, and whether a file operation fails, after some bytes. -/
structure Outcome where
  reply : Reply
  fault : Option Text
  written : Nat

def notFound : Text := "No such file or directory".toList

def Outcome.plain (o : Outcome) : Except Text Unit :=
  match o.fault with
  | some e => .error e
  | none => .ok ()

def Env.handle (env : Env) (o : Outcome) : (op : Op) → World → Resp op × World
  | .buildClient, w => (o.plain, w)
  | .send _, w => (o.reply, w)
  | .createDirAll _, w => (o.plain, w)
  | .create path, w =>
    match o.fault with
    | some e => (.error e, w)
    | none => (.ok (), w.put (locate env.platform path) [])
  | .next _, w => ((), w)
  | .write path bytes, w =>
    let old := (w.files (locate env.platform path)).getD []
    match o.fault with
    | some e => (.error e, w.put (locate env.platform path) (old ++ bytes.take o.written))
    | none => (.ok (), w.put (locate env.platform path) (old ++ bytes))
  | .flush _, w => (o.plain, w)
  | .openFile path, w =>
    match w.files (locate env.platform path) with
    | some _ => (o.plain, w)
    | none => (.error notFound, w)
  | .read path, w =>
    match o.fault, w.files (locate env.platform path) with
    | some e, _ => (.error e, w)
    | none, some bytes => (.ok bytes, w)
    | none, none => (.error notFound, w)
  | .track path, w => ((), { w with tracked := w.tracked ++ [path] })
  | .disarm, w => ((), { w with armed := false })
  | .publish _, w => ((), w)

variable {bytes : Bytes}
variable (place : Place)
variable {env : Env} {digest : Option Text}

/-! ## What a call leaves -/

section Calls
variable {w w' : World} {url path : Text}

@[simp] theorem put_put (a b : Bytes) : (w.put place a).put place b = w.put place b := by
  simp [World.put]

@[simp] theorem files_put (a : Bytes) : (w.put place a).files = update w.files place (some a) := rfl

theorem files_put_self (a : Bytes) : (w.put place a).files place = some a := by
  rw [files_put, update_self]

def Outcome.fine : Outcome := ⟨.failed [], none, 0⟩

def HttpEnv.Fetchable (env : HttpEnv) (url : Text) : Prop :=
  isTrustedReleaseAssetUri url = true ∧ (clientHost env.hosts url).isSome = true

instance (env : HttpEnv) (url : Text) : Decidable (env.Fetchable url) := inferInstanceAs (Decidable (_ ∧ _))

theorem ends_followRedirects {remaining : Nat} {u : Url} {r : Except Error (Url × Response)}
    (h : Prog.Ends env.handle (followRedirects remaining u) w r w') : w' = w := by
  have hrequest : ∀ {onRedirect : Url → Call (Url × Response)} {u : Url},
      (∀ target, Ends env.handle (onRedirect target) w r w' → w' = w) →
      Ends env.handle (request onRedirect u) w r w' → w' = w := by
    intro onRedirect u hnext h
    unfold request at h
    split at h
    · exact (ends_done.1 h).2
    · rw [perform_bind, ends_call] at h
      obtain ⟨⟨reply, fault, written⟩, h⟩ := h
      rcases reply with e | target | response
      · exact (ends_done.1 h).2
      · exact hnext target h
      · exact (ends_done.1 h).2
  induction remaining generalizing u with
  | zero => exact hrequest (fun _ h => (ends_done.1 h).2) h
  | succ remaining ih => exact hrequest (fun _ h => ih h) h

theorem ends_plainCall (op : Op) (r : Except Text Unit → Resp op) (h : ∀ o, env.handle o op w = (r o.plain, w)) :
    Prog.Ends env.handle (Prog.perform op) w (r (.ok ())) w' ↔ w' = w := by
  rw [ends_perform]
  simp only [h, Prod.mk.injEq]
  constructor
  · rintro ⟨o, -, rfl⟩
    rfl
  · rintro rfl
    exact ⟨.fine, rfl, rfl⟩

theorem ends_buildClient : Prog.Ends env.handle buildClient w (.ok ()) w' ↔ w' = w := by
  unfold buildClient
  rw [ends_mapError]
  exact ends_plainCall Op.buildClient id fun _ => rfl

theorem ends_get {verb : Text} {response : Response} : Prog.Ends env.handle (env.get verb url) w (.ok response) w' ↔
    env.Fetchable url ∧ (200 ≤ response.status ∧ response.status < 300) ∧ w' = w := by
  unfold HttpEnv.get
  constructor
  · intro h
    split at h
    · cases (ends_done.1 h).1
    next hguard =>
    obtain ⟨⟨⟩, w₁, hbuild, hnext⟩ := ends_andThen.1 h
    obtain rfl := ends_buildClient.1 hbuild
    obtain ⟨last, w₂, hsend, hlast⟩ := ends_andThen.1 hnext
    rw [ends_mapError] at hsend
    unfold HttpEnv.send HttpEnv.parse at hsend
    rcases hhost : clientHost env.hosts url with _ | host
    · rw [hhost] at hsend
      cases (ends_done.1 hsend).1
    rw [hhost] at hsend
    obtain rfl := ends_followRedirects hsend
    split_ifs at hlast with hstatus huntrusted
    · cases (ends_done.1 hlast).1
    · obtain ⟨heq, rfl⟩ := ends_done.1 hlast
      cases heq
      exact ⟨⟨by simpa using hguard, by rw [hhost]; rfl⟩, hstatus, rfl⟩
    · cases (ends_done.1 hlast).1
  · rintro ⟨⟨hguard, hhost⟩, hstatus, rfl⟩
    obtain ⟨host, hhost⟩ := isSome_iff_exists.1 hhost
    rw [if_neg (by simp [hguard])]
    refine ends_andThen.2 ⟨(), w', ends_buildClient.2 rfl, ?_⟩
    -- One redirect, to an address whose spelling is trusted.
    have hsend : Ends env.handle (env.send url) w' (.ok (⟨.https, githubCom, httpsScheme ++ githubCom⟩, response)) w' := by
      unfold HttpEnv.send HttpEnv.parse
      rw [hhost]
      exact ⟨[⟨.redirect ⟨.https, githubCom, httpsScheme ++ githubCom⟩, none, 0⟩, ⟨.response response, none, 0⟩], rfl⟩
    refine ends_andThen.2 ⟨_, w', ends_mapError.2 hsend, ?_⟩
    have hlast : ¬ isTrustedReleaseAssetUri (httpsScheme ++ githubCom) = false := by decide
    rw [if_neg (not_not.2 hstatus), if_neg hlast]
    exact ends_done.2 ⟨rfl, rfl⟩

theorem ends_create : Prog.Ends env.handle (Prog.perform (Op.create path)) w (.ok ()) w' ↔
    w' = w.put (locate env.platform path) [] := by
  rw [ends_perform]
  constructor
  · rintro ⟨⟨reply, _ | e, written⟩, h⟩ <;> cases h
    rfl
  · rintro rfl
    exact ⟨.fine, rfl⟩

theorem ends_write {old : Bytes} :
    Prog.Ends env.handle (Prog.perform (Op.write path bytes)) (w.put (locate env.platform path) old) (.ok ()) w' ↔
      w' = w.put (locate env.platform path) (old ++ bytes) := by
  have hhandle : ∀ o : Outcome, o.fault = none → env.handle o (.write path bytes) (w.put (locate env.platform path) old) =
      (.ok (), w.put (locate env.platform path) (old ++ bytes)) := by
    rintro ⟨reply, _ | e, written⟩ h
    · simp [Env.handle]
    · cases h
  rw [ends_perform]
  constructor
  · rintro ⟨⟨reply, _ | e, written⟩, h⟩
    · rw [hhandle _ rfl] at h
      exact (Prod.mk.inj h).2.symm
    · cases (Prod.mk.inj h).1
  · rintro rfl
    exact ⟨.fine, hhandle .fine rfl⟩

theorem ends_publishAll {es : List Event} : Prog.Ends env.handle (publishAll es) w () w' ↔ w' = w := by
  induction es generalizing w with
  | nil => simp [publishAll, ends_done]
  | cons e es ih =>
    rw [publishAll, perform_bind, ends_call]
    constructor
    · rintro ⟨o, h⟩
      exact ih.1 h
    · exact fun h => ⟨.fine, ih.2 h⟩

theorem ends_next {α : Type} {f : Unit → Call α} {r : Except Error α} :
    Prog.Ends env.handle ((Prog.perform (Op.next path)).bind f) w r w' ↔ Prog.Ends env.handle (f ()) w r w' := by
  rw [perform_bind, ends_call]
  exact ⟨fun ⟨_, h⟩ => h, fun h => ⟨.fine, h⟩⟩

theorem ends_writeChunks {progress : ProgressHook} {response : Response} {chunks : List Bytes} {written : Nat} {old : Bytes} :
    Prog.Ends env.handle (env.writeChunks url path progress response chunks written) (w.put (locate env.platform path) old)
        (.ok ()) w' ↔
      response.failure = none ∧ w' = w.put (locate env.platform path) (old ++ chunks.flatten) := by
  induction chunks generalizing written old with
  | nil =>
    rw [HttpEnv.writeChunks, ends_next]
    rcases response.failure with _ | e <;> simp [ends_done]
  | cons bytes chunks ih =>
    rw [HttpEnv.writeChunks, ends_next, HttpEnv.io, ends_andThen]
    simp only [ends_mapError, ends_bind]
    have hflatten : old ++ (bytes :: chunks).flatten = old ++ bytes ++ chunks.flatten := by
      rw [List.flatten_cons, List.append_assoc]
    rw [hflatten]
    constructor
    · rintro ⟨⟨⟩, w₁, hwrite, ⟨⟩, w₂, hpublish, hrest⟩
      obtain rfl := ends_write.1 hwrite
      obtain rfl := ends_publishAll.1 hpublish
      exact ih.1 hrest
    · intro h
      exact ⟨(), _, ends_write.2 rfl, (), _, ends_publishAll.2 rfl, ih.2 h⟩

theorem ends_downloadToFile {progress : ProgressHook} {hash : Text} :
    Prog.Ends env.handle (env.downloadToFile url path progress) w (.ok hash) w' ↔
      env.Fetchable url ∧ ∃ bytes, hash = hexEncode (env.sha256 bytes) ∧ w' = w.put (locate env.platform path) bytes := by
  have hmkdir : ∀ w w', Ends env.handle (match parent env.platform path with
      | some dir => env.io "mkdir".toList dir (Prog.perform (Op.createDirAll dir))
      | none => .done (.ok ())) w (.ok ()) w' ↔ w' = w := by
    intro w w'
    split
    · rw [HttpEnv.io, ends_mapError]
      exact ends_plainCall (Op.createDirAll _) id fun _ => rfl
    · simp [ends_done]
  have hflush : ∀ w w', Ends env.handle (Prog.perform (Op.flush path)) w (.ok ()) w' ↔ w' = w := fun w w' =>
    ends_plainCall (Op.flush path) id fun _ => rfl
  unfold HttpEnv.downloadToFile HttpEnv.io
  simp only [ends_andThen, ends_get, ends_mapError, ends_done]
  constructor
  · rintro ⟨response, w₁, ⟨hfetch, hstatus, rfl⟩, ⟨⟩, w₂, hdir, ⟨⟩, w₃, hcreate, ⟨⟩, w₄, hwrite, ⟨⟩, w₅, hflush', heq, rfl⟩
    obtain rfl := (hmkdir _ _).1 hdir
    obtain rfl := ends_create.1 hcreate
    obtain ⟨-, rfl⟩ := ends_writeChunks.1 hwrite
    obtain rfl := (hflush _ _).1 hflush'
    exact ⟨hfetch, _, Except.ok.inj heq, by simp⟩
  · rintro ⟨hfetch, bytes, rfl, rfl⟩
    have hok : 200 ≤ 200 ∧ 200 < 300 := by decide
    refine ⟨⟨200, none, [bytes], none⟩, w, ⟨hfetch, hok, rfl⟩, (), w, (hmkdir _ _).2 rfl, (), _,
      ends_create.2 rfl, (), _, ends_writeChunks.2 ⟨rfl, rfl⟩, (), _, (hflush _ _).2 rfl, ?_, ?_⟩
    · simp
    · simp

theorem ends_read : Prog.Ends env.handle (Prog.perform (Op.read path)) w (.ok bytes) w' ↔
    w.files (locate env.platform path) = some bytes ∧ w' = w := by
  rw [ends_perform]
  constructor
  · rintro ⟨⟨reply, fault, written⟩, h⟩
    simp only [Env.handle] at h
    split at h
    · cases (Prod.mk.inj h).1
    · next hfile =>
      obtain ⟨heq, rfl⟩ := Prod.mk.inj h
      cases heq
      exact ⟨hfile, rfl⟩
    · cases (Prod.mk.inj h).1
  · rintro ⟨hfile, rfl⟩
    exact ⟨.fine, by simp [Env.handle, Outcome.fine, hfile]⟩

theorem ends_sha256File {hash : Text} : Prog.Ends env.handle (env.sha256File path) w (.ok hash) w' ↔
    (∃ bytes, w.files (locate env.platform path) = some bytes ∧ hash = hexEncode (env.sha256 bytes)) ∧ w' = w := by
  unfold Env.sha256File
  simp only [ends_andThen, ends_mapError, ends_done]
  constructor
  · rintro ⟨⟨⟩, w₁, hopen, bytes, w₂, hread, heq, rfl⟩
    obtain ⟨o, ho⟩ := ends_perform.1 hopen
    obtain rfl : w = w₁ := by
      simp only [Env.handle] at ho
      split at ho <;> exact (Prod.mk.inj ho).2
    obtain ⟨hfile, rfl⟩ := ends_read.1 hread
    exact ⟨⟨bytes, hfile, Except.ok.inj heq⟩, rfl⟩
  · rintro ⟨⟨bytes, hfile, rfl⟩, rfl⟩
    refine ⟨(), w', ends_perform.2 ⟨.fine, ?_⟩, bytes, w', ends_read.2 ⟨hfile, rfl⟩, rfl, rfl⟩
    simp [Env.handle, hfile, Outcome.plain, Outcome.fine]

def HttpEnv.DigestIs (env : HttpEnv) (bytes : Bytes) (digest : Option Text) : Prop :=
  ∀ expected, digest = some expected → eqIgnoreAsciiCase (hexEncode (env.sha256 bytes)) expected = true

theorem ends_checkDigest (hfile : w.files (locate env.platform path) = some bytes) :
    Prog.Ends env.handle (env.checkDigest path digest) w (.ok ()) w' ↔ env.DigestIs bytes digest ∧ w' = w := by
  rcases digest with _ | expected
  · simp [Env.checkDigest, ends_done, HttpEnv.DigestIs]
  rw [Env.checkDigest, ends_andThen]
  simp only [ends_mapError, ends_sha256File, hfile]
  constructor
  · rintro ⟨actual, w₁, ⟨⟨bytes', hbytes, rfl⟩, rfl⟩, hend⟩
    cases hbytes
    split at hend
    · next heq => exact ⟨by rintro _ ⟨⟩; exact heq, (ends_done.1 hend).2⟩
    · cases (ends_done.1 hend).1
  · rintro ⟨hdigest, rfl⟩
    refine ⟨_, w', ⟨⟨bytes, rfl, rfl⟩, rfl⟩, ?_⟩
    rw [if_pos (hdigest expected rfl)]
    exact ends_done.2 ⟨rfl, rfl⟩

theorem ends_effect (op : Op) {r : Resp op} {w₁ : World} (h : ∀ o, env.handle o op w = (r, w₁)) :
    Prog.Ends env.handle ((Prog.perform op).bind fun _ => .done (.ok ()) : Download Unit) w (.ok ()) w' ↔ w' = w₁ := by
  rw [perform_bind, ends_call]
  simp only [h, ends_done, true_and]
  exact ⟨fun ⟨_, h⟩ => h, fun h => ⟨.fine, h⟩⟩

theorem ends_track : Prog.Ends env.handle (track path) w (.ok ()) w' ↔ w' = { w with tracked := w.tracked ++ [path] } :=
  ends_effect (Op.track path) fun _ => rfl

theorem ends_disarm : Prog.Ends env.handle disarm w (.ok ()) w' ↔ w' = { w with armed := false } :=
  ends_effect Op.disarm fun _ => rfl

theorem ends_publish {event : Event} : Prog.Ends env.handle (publish event) w (.ok ()) w' ↔ w' = w :=
  ends_effect (Op.publish event) fun _ => rfl

theorem ends_fetchManifest {what : Text} : Prog.Ends env.handle (env.fetchManifest what url path) w (.ok ()) w' ↔
    env.Fetchable url ∧ ∃ bytes, w' = { w.put (locate env.platform path) bytes with tracked := w.tracked ++ [path] } := by
  unfold Env.fetchManifest
  rw [ends_bind]
  simp only [ends_andThen, ends_done]
  constructor
  · rintro ⟨r, w₁, hdownload, ⟨⟩, w₂, htrack, heq, rfl⟩
    obtain rfl := ends_track.1 htrack
    rcases r with e | hash
    · cases heq
    · obtain ⟨hfetch, bytes, -, rfl⟩ := ends_downloadToFile.1 hdownload
      exact ⟨hfetch, bytes, rfl⟩
  · rintro ⟨hfetch, bytes, rfl⟩
    exact ⟨.ok _, _, ends_downloadToFile.2 ⟨hfetch, bytes, rfl, rfl⟩, (), _, ends_track.2 rfl, rfl, rfl⟩

theorem ends_readManifest {what : Text} : Prog.Ends env.handle (readManifest what path) w (.ok bytes) w' ↔
    w.files (locate env.platform path) = some bytes ∧ w' = w := by
  rw [readManifest, ends_mapError, ends_read]

end Calls

/-! ## What is accepted -/

section Accepted
variable {w w' : World} {url targetDir : Text} {asset : DownloadedAsset}

def Env.assetPath (env : Env) (targetDir url : Text) : Text := joinPath env.platform targetDir (urlTail url)

def Env.manifestPath (env : Env) (targetDir version : Text) : Text := joinPath env.platform targetDir (manifestName version)

def Env.manifestSigPath (env : Env) (targetDir version : Text) : Text :=
  joinPath env.platform targetDir (manifestName version ++ sigSuffix)

/-- What a path holds after the three downloads, one of which may overwrite another. -/
def Env.downloaded (env : Env) (targetDir version : Text) (asset manifest sig : Bytes) (path : Text) : Bytes :=
  update (update (fun _ => asset) (locate env.platform (env.manifestPath targetDir version)) manifest)
    (locate env.platform (env.manifestSigPath targetDir version)) sig (locate env.platform path)

/-- The manifest is signed and lists the name with the hash of these bytes. -/
def Env.Vouches (env : Env) (manifest sig : Bytes) (name : Text) (bytes : Bytes) : Prop :=
  ∃ hash, env.expectedHash name manifest sig = .ok hash ∧ eqIgnoreAsciiCase (hexEncode (env.sha256 bytes)) hash = true

/-- Files that pass every check of the download. -/
structure Env.Passes (env : Env) (targetDir url : Text) (digest : Option Text) (version : Text)
    (asset manifest sig : Bytes) : Prop where
  version_eq : parseAssetVersion (urlTail url) = some version
  asset_fetchable : env.Fetchable url
  manifest_fetchable : env.Fetchable (replacePathTail url (manifestName version))
  sig_fetchable : env.Fetchable (replacePathTail url (manifestName version) ++ sigSuffix)
  digestIs : env.DigestIs asset digest
  vouches : env.Vouches (env.downloaded targetDir version asset manifest sig (env.manifestPath targetDir version))
    (env.downloaded targetDir version asset manifest sig (env.manifestSigPath targetDir version)) (urlTail url)
    (env.downloaded targetDir version asset manifest sig (env.assetPath targetDir url))

def Env.worldAfter (env : Env) (w : World) (targetDir url version : Text) (asset manifest sig : Bytes) : World where
  files := (((w.put (locate env.platform (env.assetPath targetDir url)) asset).put
    (locate env.platform (env.manifestPath targetDir version)) manifest).put
    (locate env.platform (env.manifestSigPath targetDir version)) sig).files
  tracked := w.tracked ++ [env.assetPath targetDir url] ++ [env.manifestPath targetDir version] ++
    [env.manifestSigPath targetDir version]
  armed := false

theorem files_worldAfter {version path : Text} {a m s : Bytes} (h : path = env.assetPath targetDir url ∨
    path = env.manifestPath targetDir version ∨ path = env.manifestSigPath targetDir version) :
    (env.worldAfter w targetDir url version a m s).files (locate env.platform path) =
      some (env.downloaded targetDir version a m s path) := by
  simp only [Env.worldAfter, files_put, Env.downloaded, update_apply]
  split_ifs with hsig hmanifest hasset
  · rfl
  · rfl
  · rfl
  · rcases h with rfl | rfl | rfl
    · exact absurd rfl hasset
    · exact absurd rfl hmanifest
    · exact absurd rfl hsig

theorem ends_verifyAgainstManifest {name path version : Text} :
    Prog.Ends env.handle (env.verifyAgainstManifest url targetDir name path version) w (.ok asset) w' ↔
      env.Fetchable (replacePathTail url (manifestName version)) ∧
        env.Fetchable (replacePathTail url (manifestName version) ++ sigSuffix) ∧
        asset = ⟨path, env.manifestPath targetDir version, env.manifestSigPath targetDir version⟩ ∧
        ∃ m s, w' = ⟨((w.put (locate env.platform (env.manifestPath targetDir version)) m).put
            (locate env.platform (env.manifestSigPath targetDir version)) s).files,
            w.tracked ++ [env.manifestPath targetDir version] ++ [env.manifestSigPath targetDir version], false⟩ ∧
          ∃ manifest sig bytes, w'.files (locate env.platform (env.manifestPath targetDir version)) = some manifest ∧
            w'.files (locate env.platform (env.manifestSigPath targetDir version)) = some sig ∧
            w'.files (locate env.platform path) = some bytes ∧ env.Vouches manifest sig name bytes := by
  unfold Env.verifyAgainstManifest
  dsimp only
  constructor
  · intro h
    split at h
    · cases (ends_done.1 h).1
    simp only [ends_andThen, ends_mapError] at h
    obtain ⟨⟨⟩, w₁, hmanifest, ⟨⟩, w₂, hsig, manifest, w₃, hread, sig, w₄, hreadSig, hash, w₅, hexpected, actual, w₆, hsha, h⟩ := h
    obtain ⟨hfetch, m, rfl⟩ := ends_fetchManifest.1 hmanifest
    obtain ⟨hfetchSig, s, rfl⟩ := ends_fetchManifest.1 hsig
    obtain ⟨hm, rfl⟩ := ends_readManifest.1 hread
    obtain ⟨hs, rfl⟩ := ends_readManifest.1 hreadSig
    obtain ⟨hhash, rfl⟩ := ends_done.1 hexpected
    obtain ⟨⟨bytes, hbytes, rfl⟩, rfl⟩ := ends_sha256File.1 hsha
    split at h
    · cases (ends_done.1 h).1
    next heq =>
    simp only [ends_andThen] at h
    obtain ⟨⟨⟩, w₇, hpublish, ⟨⟩, w₈, hdisarm, h⟩ := h
    obtain rfl := ends_publish.1 hpublish
    obtain rfl := ends_disarm.1 hdisarm
    obtain ⟨hasset, rfl⟩ := ends_done.1 h
    cases hasset
    exact ⟨hfetch, hfetchSig, rfl, m, s, rfl, manifest, sig, bytes, hm, hs, hbytes, hash, hhash.symm, by simpa using heq⟩
  · rintro ⟨hfetch, hfetchSig, rfl, m, s, rfl, manifest, sig, bytes, hm, hs, hbytes, hash, hhash, heq⟩
    rw [if_neg (by simp [hfetch.1, hfetchSig.1])]
    simp only [ends_andThen, ends_mapError]
    refine ⟨(), _, ends_fetchManifest.2 ⟨hfetch, m, rfl⟩, (), _, ends_fetchManifest.2 ⟨hfetchSig, s, rfl⟩, manifest, _,
      ends_readManifest.2 ⟨hm, rfl⟩, sig, _, ends_readManifest.2 ⟨hs, rfl⟩, hash, _, ends_done.2 ⟨hhash.symm, rfl⟩, _, _,
      ends_sha256File.2 ⟨⟨bytes, hbytes, rfl⟩, rfl⟩, ?_⟩
    rw [if_neg (by simp [heq])]
    simp only [ends_andThen]
    exact ⟨(), _, ends_publish.2 rfl, (), _, ends_disarm.2 rfl, ends_done.2 ⟨rfl, rfl⟩⟩

theorem ends_downloadWithVerification :
    Prog.Ends env.handle (env.downloadWithVerification url targetDir digest) w (.ok asset) w' ↔
      ∃ version a m s, env.Passes targetDir url digest version a m s ∧
        asset = ⟨env.assetPath targetDir url, env.manifestPath targetDir version, env.manifestSigPath targetDir version⟩ ∧
        w' = env.worldAfter w targetDir url version a m s := by
  unfold Env.downloadWithVerification
  constructor
  · intro h
    split at h
    · cases (ends_done.1 h).1
    simp only [ends_andThen, ends_mapError] at h
    obtain ⟨⟨⟩, w₁, htrack, hash, w₂, hdownload, ⟨⟩, w₃, hpublish, ⟨⟩, w₄, hdigest, h⟩ := h
    obtain rfl := ends_track.1 htrack
    obtain ⟨hfetch, a, -, rfl⟩ := ends_downloadToFile.1 hdownload
    obtain rfl := ends_publish.1 hpublish
    obtain ⟨hdigestIs, rfl⟩ := (ends_checkDigest (files_put_self _ a)).1 hdigest
    split at h
    · cases (ends_done.1 h).1
    next version hversion =>
    obtain ⟨hmanifest, hsig, rfl, m, s, rfl, manifest, sig, bytes, hm, hs, hb, hvouches⟩ := ends_verifyAgainstManifest.1 h
    refine ⟨version, a, m, s, ⟨hversion, hfetch, hmanifest, hsig, hdigestIs, ?_⟩, rfl, rfl⟩
    have hfile : ∀ (path : Text) {held : Bytes}, (env.worldAfter w targetDir url version a m s).files
        (locate env.platform path) = some held → (path = env.assetPath targetDir url ∨
          path = env.manifestPath targetDir version ∨ path = env.manifestSigPath targetDir version) →
        env.downloaded targetDir version a m s path = held :=
      fun path held hheld hpath => Option.some.inj ((files_worldAfter hpath).symm.trans hheld)
    rw [hfile (env.manifestPath targetDir version) hm (.inr (.inl rfl)),
      hfile (env.manifestSigPath targetDir version) hs (.inr (.inr rfl)),
      hfile (env.assetPath targetDir url) hb (.inl rfl)]
    exact hvouches
  · rintro ⟨version, a, m, s, hpasses, rfl, rfl⟩
    rw [if_neg (by simp [hpasses.asset_fetchable.1])]
    simp only [ends_andThen, ends_mapError]
    refine ⟨(), _, ends_track.2 rfl, _, _, ends_downloadToFile.2 ⟨hpasses.asset_fetchable, a, rfl, rfl⟩, (), _,
      ends_publish.2 rfl, (), _, (ends_checkDigest (files_put_self _ a)).2 ⟨hpasses.digestIs, rfl⟩, ?_⟩
    rw [hpasses.version_eq]
    have hfile : ∀ path, path = env.assetPath targetDir url ∨ path = env.manifestPath targetDir version ∨
        path = env.manifestSigPath targetDir version → (env.worldAfter w targetDir url version a m s).files
          (locate env.platform path) = some (env.downloaded targetDir version a m s path) := fun _ => files_worldAfter
    exact ends_verifyAgainstManifest.2 ⟨hpasses.manifest_fetchable, hpasses.sig_fetchable, rfl, m, s, rfl, _, _, _,
      hfile _ (.inr (.inl rfl)), hfile _ (.inr (.inr rfl)), hfile _ (.inl rfl), hpasses.vouches⟩

end Accepted

/-! ## Rollbacks -/

/-- Whatever is accepted at the address that the list of releases gives is listed by a signed manifest under the name of a
version, the one that was reported, which is newer. -/
def Env.NoRollback (env : Env) (targetDir : Text) (digest : Option Text) (body currentVersion repo : Text) : Prop :=
  ∀ info, env.checkForUpdateFromBody body currentVersion repo = .ok info → info.hasUpdate = true →
    ∀ url, info.assetUrl = some url → ∀ w asset w',
      Prog.Ends env.handle (env.downloadWithVerification url targetDir digest) w (.ok asset) w' →
        (∃ manifest sig bytes, w'.files (locate env.platform asset.assetPath) = some bytes ∧
          env.Vouches manifest sig (urlTail url) bytes) ∧
        parseAssetVersion (urlTail url) = some info.latestVersion ∧ compareVersions info.latestVersion currentVersion = .gt

def Env.Obtainable (env : Env) (targetDir : Text) (digest : Option Text) (url : Text) : Prop :=
  ∃ version asset manifest sig, env.Passes targetDir url digest version asset manifest sig

theorem currentVersion_of_check {body currentVersion repo : Text} {info : UpdateInfo}
    (h : env.checkForUpdateFromBody body currentVersion repo = .ok info) : info.currentVersion = currentVersion := by
  unfold Env.checkForUpdateFromBody at h
  split at h
  · cases h
  · split at h
    · cases h
      rfl
    · cases h
      rfl

/-- **No rollback** exactly if, where an update with an address is reported, the version in that address is the one that
is reported, or no files pass the checks there. -/
theorem noRollback_iff (env : Env) (targetDir : Text) (digest : Option Text) (body currentVersion repo : Text) :
    env.NoRollback targetDir digest body currentVersion repo ↔
      ∀ info, env.checkForUpdateFromBody body currentVersion repo = .ok info → info.hasUpdate = true →
        ∀ url, info.assetUrl = some url →
          parseAssetVersion (urlTail url) = some info.latestVersion ∨ ¬ env.Obtainable targetDir digest url := by
  constructor
  · intro h info hinfo hupdate url hurl
    by_cases hobtain : env.Obtainable targetDir digest url
    · obtain ⟨version, a, m, s, hpasses⟩ := hobtain
      exact .inl (h info hinfo hupdate url hurl ⟨fun _ => none, [], true⟩ _ _
        (ends_downloadWithVerification.2 ⟨version, a, m, s, hpasses, rfl, rfl⟩)).2.1
    · exact .inr hobtain
  · intro h info hinfo hupdate url hurl w asset w' hend
    obtain ⟨version, a, m, s, hpasses, rfl, rfl⟩ := ends_downloadWithVerification.1 hend
    have hversion := (h info hinfo hupdate url hurl).resolve_right (not_not.2 ⟨version, a, m, s, hpasses⟩)
    refine ⟨⟨_, _, _, files_worldAfter (.inl rfl), hpasses.vouches⟩, hversion, ?_⟩
    rw [← currentVersion_of_check hinfo]
    exact of_decide_eq_true hupdate

/-! ## An older release under a newer tag -/

/-- Manifests are signed for releases only: one lists the files of one version. -/
def Env.Genuine (env : Env) : Prop :=
  ∀ manifest sig text, env.verifyReleaseSignature manifest sig = true → fromUtf8 manifest = some text →
    ∃ version, ∀ entry ∈ parseSha256Manifest text.toList, releaseAssetPrefix ++ version ++ ['-'] <+: entry.1

def firstVersion : Text := ['1', '.', '0', '.', '0']
def firstAsset : Bytes := [0x31, 0x2e, 0x30, 0x2e, 0x30]
def firstSig : Bytes := List.replicate 64 0

def firstManifest : String :=
  "92521fc3cbd964bdc9f584a991b89fddaa5754ed1cc96d6d42445338669c1305  letsflutssh-1.0.0-linux-x64.AppImage\n"

def firstUrl : Text :=
  "https://github.com/Llloooggg/LetsFLUTssh/releases/download/v1.0.0/letsflutssh-1.0.0-linux-x64.AppImage".toList

/-- One asset, named after version 9.9.9 and kept at the address of version 1.0.0. -/
def ninthBody : String :=
  "[\x7b\"tag_name\":\"v9.9.9\",\"assets\":[\x7b\"name\":\"letsflutssh-9.9.9-linux-x64.AppImage\"," ++
    "\"browser_download_url\":\"https://github.com/Llloooggg/LetsFLUTssh/releases/download/v1.0.0/" ++
    "letsflutssh-1.0.0-linux-x64.AppImage\"\x7d]\x7d]"

def ninthJson : Json :=
  .arr [.obj [("tag_name", .str "v9.9.9"), ("assets", .arr [.obj [
    ("name", .str "letsflutssh-9.9.9-linux-x64.AppImage"), ("browser_download_url", .str (String.ofList firstUrl))]])]]

/-- One file with its hash, one signed manifest, one list of releases. -/
def Env.first : Env where
  toHttpEnv := { HttpEnv.verbatim with sha256 := fun bytes => if bytes = firstAsset then
    [0x92, 0x52, 0x1f, 0xc3, 0xcb, 0xd9, 0x64, 0xbd, 0xc9, 0xf5, 0x84, 0xa9, 0x91, 0xb8, 0x9f, 0xdd,
      0xaa, 0x57, 0x54, 0xed, 0x1c, 0xc9, 0x6d, 0x6d, 0x42, 0x44, 0x53, 0x38, 0x66, 0x9c, 0x13, 0x05] else [] }
  fromStr := fun text => if text = ninthBody.toList then .ok ninthJson else .error []
  ed25519Verify := fun _ message _ => message = utf8 firstManifest
  utf8Error := fun _ => []
  hostPlatform := "linux"
  hostArch := "x64"

theorem genuine_first : Env.first.Genuine := by
  intro manifest sig text hverify htext
  have hmanifest : manifest = utf8 firstManifest := by
    rw [Env.verifyReleaseSignature, Bool.and_eq_true] at hverify
    exact of_decide_eq_true hverify.2
  rw [hmanifest, fromUtf8_utf8] at htext
  cases htext
  have hchars : firstManifest.toList = _ := String.toList_ofList
  rw [hchars]
  exact ⟨firstVersion, by decide +kernel⟩

theorem exists_firstUrl : ∃ chars, firstUrl = chars ∧ parseAssetVersion (urlTail chars) = some firstVersion ∧
    Env.first.Fetchable chars ∧ Env.first.Fetchable (replacePathTail chars (manifestName firstVersion)) ∧
      Env.first.Fetchable (replacePathTail chars (manifestName firstVersion) ++ sigSuffix) :=
  ⟨_, String.toList_ofList, by decide +kernel, by decide +kernel, by decide +kernel, by decide +kernel⟩

theorem passes_first : Env.first.Passes [] firstUrl none firstVersion firstAsset (utf8 firstManifest) firstSig where
  version_eq := by
    obtain ⟨chars, hchars, h, -⟩ := exists_firstUrl
    rwa [hchars]
  asset_fetchable := by
    obtain ⟨chars, hchars, -, h, -⟩ := exists_firstUrl
    rwa [hchars]
  manifest_fetchable := by
    obtain ⟨chars, hchars, -, -, h, -⟩ := exists_firstUrl
    rwa [hchars]
  sig_fetchable := by
    obtain ⟨chars, hchars, -, -, -, h⟩ := exists_firstUrl
    rwa [hchars]
  digestIs := nofun
  vouches := by
    have hverify : Env.first.verifyReleaseSignature (utf8 firstManifest) firstSig = true := by
      simp [Env.verifyReleaseSignature, Env.first, firstSig]
    have hlookup : (parseSha256Manifest firstManifest.toList).lookup (urlTail firstUrl) =
        some (hexEncode (Env.first.sha256 firstAsset)) := by
      have hurl : firstUrl = _ := String.toList_ofList
      have hchars : firstManifest.toList = _ := String.toList_ofList
      rw [hurl, hchars]
      decide +kernel
    have hdownloaded : ∀ path, Env.first.downloaded [] firstVersion firstAsset (utf8 firstManifest) firstSig path =
        if locate .posix path = locate .posix (Env.first.manifestSigPath [] firstVersion) then firstSig
        else if locate .posix path = locate .posix (Env.first.manifestPath [] firstVersion) then utf8 firstManifest
        else firstAsset := fun path => by
      simp only [Env.downloaded, update_apply]
      rfl
    refine ⟨hexEncode (Env.first.sha256 firstAsset), ?_, ?_⟩
    · rw [hdownloaded, hdownloaded, if_neg (by decide +kernel), if_pos rfl, if_pos rfl, Env.expectedHash,
        if_neg (by rw [hverify]; decide), fromUtf8_utf8]
      dsimp only
      rw [hlookup]
    · rw [hdownloaded, if_neg (by decide +kernel), if_neg (by decide +kernel)]
      decide +kernel

def ninthAsset (url : String) : Json :=
  .obj [("name", .str "letsflutssh-9.9.9-linux-x64.AppImage"), ("browser_download_url", .str url)]

theorem findAsset_ninth (url : String) : findAsset [ninthAsset url] "-linux-x64.AppImage".toList = some (ninthAsset url) := by
  have hname : strMember (ninthAsset url) "name" = some "letsflutssh-9.9.9-linux-x64.AppImage".toList := strMember_of_str rfl
  have hsuffix : "-linux-x64.AppImage".toList <:+ "letsflutssh-9.9.9-linux-x64.AppImage".toList := by decide +kernel
  refine List.find?_cons_of_pos ?_
  rw [hname, getD_some]
  exact decide_eq_true hsuffix

theorem update_ninth {body current url latest : Text}
    (hsuffix : assetSuffix env.hostPlatform env.hostArch = some "-linux-x64.AppImage".toList)
    (hread : env.fromStr body =
      .ok (.arr [.obj [("tag_name", .str "v9.9.9"), ("assets", .arr [ninthAsset (String.ofList url)])]]))
    (hlatest : stripV "v9.9.9".toList = latest) (hlog : buildCumulativeChangelog [⟨"v9.9.9".toList, []⟩] current = none) :
    env.checkForUpdateFromBody body current [] = .ok ⟨latest, current, defaultReleaseUrl [], some url, none, none⟩ := by
  generalize hasset : ninthAsset (String.ofList url) = asset at hread
  have hassets : (((Json.obj [("tag_name", .str "v9.9.9"), ("assets", .arr [asset])]).member "assets").bind
      Json.asArray).getD [] = [asset] := rfl
  have htag : strMember (.obj [("tag_name", .str "v9.9.9"), ("assets", .arr [asset])]) "tag_name" = some "v9.9.9".toList :=
    strMember_of_str rfl
  have hhtml : strMember (.obj [("tag_name", .str "v9.9.9"), ("assets", .arr [asset])]) "html_url" = none := rfl
  have hbody : strMember (.obj [("tag_name", .str "v9.9.9"), ("assets", .arr [asset])]) "body" = none := rfl
  have hurl : strMember asset "browser_download_url" = some url := by
    rw [← hasset, ninthAsset, strMember_of_str (s := String.ofList url) rfl, String.toList_ofList]
  have hdigest : strMember asset "digest" = none := by
    rw [← hasset]
    rfl
  have hfind : findAsset [asset] "-linux-x64.AppImage".toList = some asset := by
    rw [← hasset]
    exact findAsset_ninth _
  unfold Env.checkForUpdateFromBody
  rw [hread]
  dsimp only [releaseList]
  rw [hassets, hsuffix, bind_some, bind_some, pickAssetUrl, pickAssetDigest, hfind, bind_some,
    bind_some, hurl, hdigest, bind_none, List.map_singleton, changelogRelease, htag, hhtml, hbody,
    getD_some, getD_none, getD_none, hlog, hlatest]

/-- The list of releases says 9.9.9, and version 1.0.0 is accepted. -/
theorem noRollback_first : ¬ ∀ (env : Env) (targetDir : Text) (digest : Option Text) (body currentVersion repo : Text),
    env.Genuine → env.NoRollback targetDir digest body currentVersion repo := by
  intro h
  have hinfo : Env.first.checkForUpdateFromBody ninthBody.toList "2.0.0".toList [] =
      .ok ⟨"9.9.9".toList, "2.0.0".toList, defaultReleaseUrl [], some firstUrl, none, none⟩ := by
    have hread : ∀ text, Env.first.fromStr text = if text = ninthBody.toList then .ok ninthJson else .error [] := fun _ => rfl
    refine update_ninth rfl ?_ (by decide +kernel) (by decide +kernel)
    rw [hread, if_pos rfl]
    rfl
  have hversion := (h Env.first [] none ninthBody.toList "2.0.0".toList [] genuine_first _ hinfo (by decide +kernel)
    firstUrl rfl ⟨fun _ => none, [], true⟩ _ _ (ends_downloadWithVerification.2 ⟨_, _, _, _, passes_first, rfl, rfl⟩)).2.1
  revert hversion
  decide +kernel

end LetsFlutSsh.Update
