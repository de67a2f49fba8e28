import LetsFlutSsh.Sync.Safety

/-!
# A push after a pull

The two verbs run to their end against a server nobody else writes to:

* `Device.pull`, `Device.push`: one verb as a whole;
* `SameRemembered`: what a pull leaves alone in the settings of its device;
* `push_after_pull_iff`: when the push that follows a pull is refused for its tag.
-/

namespace LetsFlutSsh.Sync
open Lib Config Archive

variable {Text : Type}

namespace Device

variable (A : Actors Text) (installId : String)

/-- `pull`, answered by a server that holds `remote`. -/
def pull (remote : Option Stored) (tell : Bool) (mergeMs nowMs : Int64) (dev : Device Text) :
    Except SyncError (SyncResult × Device Text) :=
  match dev.prepare with
  | .error e => .error e
  | .ok (cfg, passphrase) =>
    match buildClient cfg with
    | .error e => .error e
    | .ok () =>
      match pullWithClient A cfg passphrase installId (Server.get remote (buildIfNoneMatch cfg) tell)
          mergeMs nowMs dev.db with
      | .error e => .error e
      | .ok (o, db) =>
        match o.updatedCfg with
        | none => .ok (o.result, { dev with db := db })
        | some u =>
          match persistSync u dev.store with
          | .error e => .error e
          | .ok store => .ok (o.result, { dev with store := store, db := db })

/-- `push`, answered by a server that holds `remote` and would give `etag` to the new version. -/
def push (remote : Option Stored) (etag : EntityTag) (tell : Bool) (nowMs createdAtMs : Int64) (salt : Bytes)
    (dev : Device Text) : Except SyncError (SyncResult × Device Text × Option Stored) :=
  match dev.prepare with
  | .error e => .error e
  | .ok (cfg, passphrase) =>
    let body := composeArchive A dev.db createdAtMs (originStamp installId nowMs) passphrase salt
    if pushSkips cfg (A.env.sha256Hex body) then .ok (.upToDate, dev, remote)
    else
      match buildClient cfg with
      | .error e => .error e
      | .ok () =>
        let answer := Server.put remote (pushIfMatch cfg) ⟨etag, body⟩ tell
        match pushOutcome A cfg nowMs body answer.2 with
        | .error e => .error e
        | .ok (result, u) =>
          match persistSync u dev.store with
          | .error e => .error e
          | .ok store => .ok (result, { dev with store := store }, answer.1)

end Device

/-- The settings a push reads are the same, apart from the stamps of pulls. -/
structure SameRemembered (cfg cfg' : SyncConfig) : Prop where
  enabled : cfg'.enabled = cfg.enabled
  url : cfg'.webdavUrl = cfg.webdavUrl
  passwordRef : cfg'.webdavPasswordRef = cfg.webdavPasswordRef
  authMethod : cfg'.webdavAuthMethod = cfg.webdavAuthMethod
  passphraseRef : cfg'.passphraseRef = cfg.passphraseRef
  pushedEtag : cfg'.lastPushedEtag = cfg.lastPushedEtag
  pushedSha : cfg'.lastPushedSha256 = cfg.lastPushedSha256

theorem SameRemembered.refl (cfg : SyncConfig) : SameRemembered cfg cfg := ⟨rfl, rfl, rfl, rfl, rfl, rfl, rfl⟩

variable {cfg : SyncConfig} {passphrase installId : String} {A : Actors Text}

theorem sameRemembered_updated {u : SyncConfig} {r : Response}
    {mergeMs nowMs : Int64} {db db' : Whole Text} {o : PullOutcome} (hclean : cfg.sanitized = cfg)
    (h : pullWithClient A cfg passphrase installId r mergeMs nowMs db = .ok (o, db'))
    (hu : o.updatedCfg = some u) : SameRemembered cfg u.sanitized := by
  have hsame : SameRemembered cfg.sanitized u.sanitized := by
    obtain ⟨etag, sha, ⟨-, rfl⟩ | ⟨-, rfl⟩⟩ := pullWithClient_updated h hu
    · exact ⟨rfl, rfl, rfl, rfl, rfl, rfl, rfl⟩
    · exact ⟨rfl, rfl, rfl, rfl, rfl, rfl, rfl⟩
  rwa [hclean] at hsame

section AfterPull

variable {remote : Option Stored} {tell : Bool} {mergeMs nowMs : Int64}
  {dev dev' : Device Text} {c : AppConfig} {result : SyncResult}

section

variable (h : dev.prepare = .ok (cfg, passphrase))
include h

theorem Device.prepare_cases : Sync.prepare dev.store = .ok cfg ∧ (∃ pw, dev.secrets cfg.webdavPasswordRef = some pw) ∧
    dev.secrets cfg.passphraseRef = some passphrase := by
  have hcfg := Device.prepare_eq_ok h
  unfold Device.prepare at h
  rw [hcfg] at h
  unfold readSecret at h
  rcases hw : dev.secrets cfg.webdavPasswordRef with _ | pw
  · simp [bind, Except.bind, hw] at h
  · rcases hk : dev.secrets cfg.passphraseRef with _ | k
    · simp [bind, Except.bind, hw, hk] at h
    · simp [bind, Except.bind, hw, hk, pure, Except.pure] at h
      exact ⟨hcfg, ⟨pw, rfl⟩, by rw [h]⟩

theorem Device.prepare_of_same (hsecrets : dev'.secrets = dev.secrets) (hc : dev'.store.current = some c)
    (hsame : SameRemembered cfg c.sync) :
    dev'.prepare = .ok (c.sync, passphrase) := by
  obtain ⟨hcfg, ⟨pw, hpw⟩, hk⟩ := Device.prepare_cases h
  have hprepare : Sync.prepare dev'.store = .ok c.sync := by
    unfold Sync.prepare Store.getAppConfig at hcfg ⊢
    rw [hc]
    split at hcfg
    · cases hcfg
    · split_ifs at hcfg with hoff hempty
      cases hcfg
      rw [hsame.enabled, hsame.url, if_neg hoff, if_neg hempty]
  unfold Device.prepare readSecret
  simp [bind, Except.bind, pure, Except.pure, hprepare, hsecrets, hsame.passwordRef, hsame.passphraseRef, hpw, hk]

end

theorem buildClient_of_same {cfg' : SyncConfig} (h : SameRemembered cfg cfg') : buildClient cfg' = .ok () ↔
    buildClient cfg = .ok () := by
  unfold buildClient
  rw [h.authMethod]

theorem pull_ok (hready : dev.store.Ready c) (h : dev.pull A installId remote tell mergeMs nowMs = .ok (result, dev')) :
    ∃ passphrase c', dev.prepare = .ok (c.sync, passphrase) ∧ buildClient c.sync = .ok () ∧
      dev'.secrets = dev.secrets ∧ dev'.store.current = some c' ∧ SameRemembered c.sync c'.sync := by
  unfold Device.pull at h
  split at h
  · cases h
  next cfg passphrase hp =>
  obtain ⟨app, happ, rfl⟩ := prepare_eq_ok (Device.prepare_eq_ok hp)
  rw [hready.current] at happ
  cases happ
  split at h
  · cases h
  next hclient =>
  split at h
  · cases h
  next o db ho =>
  split at h
  · cases h
    exact ⟨passphrase, c, hp, hclient, rfl, hready.current, .refl _⟩
  next u hu =>
  split at h
  · cases h
  · next store hstore =>
    cases h
    unfold persistSync at hstore
    rw [hready.updateSync u] at hstore
    cases hstore
    exact ⟨passphrase, _, hp, hclient, rfl, rfl, sameRemembered_updated hready.clean.sync ho hu⟩

theorem ofError_412 (canonicalReason : Nat → Option String) :
    SyncError.ofError (mapStatusError canonicalReason 412 "put") = .etagMismatch := by
  have htext : contains ("put" ++ ": HTTP " ++ toString 412 ++ ": " ++ "etag mismatch") "etag mismatch" = true := by
    decide +kernel
  show (if contains _ _ then _ else _) = _
  rw [show statusLabel canonicalReason 412 = "etag mismatch" from rfl, htext]
  rfl

theorem pushOutcome_refused (h : Server.accepts remote (pushIfMatch cfg) = false) (body : Bytes)
    (v : Stored) : pushOutcome A cfg nowMs body (Server.put remote (pushIfMatch cfg) v tell).2 = .error .etagMismatch := by
  have hput : (Server.put remote (pushIfMatch cfg) v tell).2 = ⟨412, none, []⟩ := by
    unfold Server.put
    rw [h]
    rfl
  rw [hput, ← ofError_412 A.canonicalReason]
  rfl

theorem pushOutcome_accepted (h : Server.accepts remote (pushIfMatch cfg) = true) (body : Bytes)
    (v : Stored) : ∃ r, pushOutcome A cfg nowMs body (Server.put remote (pushIfMatch cfg) v tell).2 = .ok r := by
  have hput : isSuccess (Server.put remote (pushIfMatch cfg) v tell).2.status = true := by
    unfold Server.put
    rw [if_pos h]
    split_ifs
    · rfl
    · rfl
  unfold pushOutcome WebDav.put
  rw [if_pos hput]
  exact ⟨_, rfl⟩

theorem persistSync_ne_etagMismatch (u : SyncConfig) (store : Store) : persistSync u store ≠ .error .etagMismatch := by
  unfold persistSync
  rcases store.updateSync u with e | s
  · exact fun h => nomatch h
  · exact fun h => nomatch h

theorem push_ne_etagMismatch_iff (hp : dev.prepare = .ok (cfg, passphrase))
    (hclient : buildClient cfg = .ok ()) (etag : EntityTag) (createdAtMs : Int64) (salt : Bytes) :
    dev.push A installId remote etag tell nowMs createdAtMs salt ≠ .error .etagMismatch ↔ pushSkips cfg (A.env.sha256Hex
        (composeArchive A dev.db createdAtMs (originStamp installId nowMs) passphrase salt)) = true ∨
      Server.accepts remote (pushIfMatch cfg) = true := by
  unfold Device.push
  rw [hp]
  dsimp only
  generalize composeArchive A dev.db createdAtMs (originStamp installId nowMs) passphrase salt = body
  split
  · next hskip => simp [hskip]
  next hskip =>
  rw [hclient, or_iff_right hskip]
  rcases haccepts : Server.accepts remote (pushIfMatch cfg) with _ | _
  · rw [pushOutcome_refused haccepts]
    simp
  have hput : ∃ r, pushOutcome A cfg nowMs body (Server.put remote (pushIfMatch cfg) ⟨etag, body⟩ tell).2 = .ok r :=
    pushOutcome_accepted haccepts body ⟨etag, body⟩
  obtain ⟨⟨r, u⟩, hr⟩ := hput
  rw [hr]
  dsimp only
  refine ⟨fun _ => rfl, fun _ => ?_⟩
  split
  · next e he =>
    intro h
    cases h
    exact persistSync_ne_etagMismatch u dev.store he
  · intro h
    cases h

/-- **Pull, then push.** After a pull against the version the server holds, the next push is not refused
for its tag exactly when the device has no tag of an own push, or that tag is the server's, or there is
nothing to send. -/
theorem push_after_pull_iff {v : Stored} {pulledMs : Int64} (hready : dev.store.Ready c)
    (hpull : dev.pull A installId (some v) tell mergeMs pulledMs = .ok (result, dev')) (etag : EntityTag)
    (tell' : Bool) (nowMs createdAtMs : Int64) (salt : Bytes) :
    dev'.push A installId (some v) etag tell' nowMs createdAtMs salt ≠ .error .etagMismatch ↔ c.sync.lastPushedEtag = "" ∨
      ifMatch (quoteEtag c.sync.lastPushedEtag).toList (some v.etag) = true ∨
      pushSkips c.sync (A.env.sha256Hex (composeArchive A dev'.db createdAtMs (originStamp installId nowMs)
        ((dev.secrets c.sync.passphraseRef).getD "") salt)) = true := by
  obtain ⟨passphrase, c', hp, hclient, hsecrets, hc', hsame⟩ := pull_ok hready hpull
  have hk : (dev.secrets c.sync.passphraseRef).getD "" = passphrase := by
    rw [(Device.prepare_cases hp).2.2]
    rfl
  have hskips : ∀ sha, pushSkips c'.sync sha = pushSkips c.sync sha := by
    intro sha
    unfold pushSkips
    rw [hsame.pushedSha]
  have haccepts : Server.accepts (some v) (pushIfMatch c'.sync) = true ↔ c.sync.lastPushedEtag = "" ∨
      ifMatch (quoteEtag c.sync.lastPushedEtag).toList (some v.etag) = true := by
    unfold pushIfMatch
    rw [hsame.pushedEtag]
    split_ifs with hempty
    · simp [Server.accepts, hempty]
    · simp [Server.accepts, hempty]
  rw [push_ne_etagMismatch_iff (Device.prepare_of_same hp hsecrets hc' hsame) ((buildClient_of_same hsame).mpr hclient),
    hk, hskips, haccepts]
  tauto

end AfterPull

/-- The settings of a device whose last push got the tag `1`. -/
def pushedConfig : AppConfig :=
  { AppConfig.default with
    sync := { SyncConfig.default with
      enabled := true, webdavUrl := "https://dav.example.com/", lastPushedSha256 := "a", lastPushedEtag := "1" } }

def pushedDevice : Device ParsedText where
  store := ⟨some "config.json", some pushedConfig, none⟩
  secrets _ := some "pw"
  db := noRows
  verbs _ := none
  merges := []

/-- What a peer has stored since, with the tag `2`. -/
def peerVersion : Stored where
  etag := tagTwo
  body := composeArchive (plainActors [peerSnapshot]) (sampleDb "t1") 10 (originStamp (installIdOf (sampleIds 1)) 10)
    "pw" [7]

def pullPeer : Except SyncError (SyncResult × Device ParsedText) :=
  pushedDevice.pull (plainActors [peerSnapshot]) (installIdOf (sampleIds 0)) (some peerVersion) true 20 20

def pushAgain (dev : Device ParsedText) : Except SyncError (SyncResult × Device ParsedText × Option Stored) :=
  dev.push (plainActors [peerSnapshot]) (installIdOf (sampleIds 0)) (some peerVersion) ⟨false, ['3'], rfl⟩ true 30 30 [9]

theorem pushedDevice_ready : pushedDevice.store.Ready pushedConfig := ⟨rfl, rfl, by decide, by decide⟩

def mergedOne : Except SyncError (SyncResult × Device ParsedText) → Bool
  | .ok (.pullApplied 0 0 1 0, _) => true
  | _ => false

theorem pullPeer_ok : ∃ dev', pullPeer = .ok (.pullApplied 0 0 1 0, dev') := by
  have hmerged : mergedOne pullPeer = true := by decide +kernel
  unfold mergedOne at hmerged
  split at hmerged
  · next dev' h => exact ⟨dev', h⟩
  · cases hmerged

theorem push_after_pull_iff_sample : ∃ dev', pullPeer = .ok (.pullApplied 0 0 1 0, dev') ∧
      (pushAgain dev' ≠ .error .etagMismatch ↔ pushedConfig.sync.lastPushedEtag = "" ∨
        ifMatch (quoteEtag pushedConfig.sync.lastPushedEtag).toList (some peerVersion.etag) = true ∨
        pushSkips pushedConfig.sync ((plainActors [peerSnapshot]).env.sha256Hex
          (composeArchive (plainActors [peerSnapshot]) dev'.db 30 (originStamp (installIdOf (sampleIds 0)) 30)
            ((pushedDevice.secrets pushedConfig.sync.passphraseRef).getD "") [9])) = true) := by
  obtain ⟨dev', h⟩ := pullPeer_ok
  exact ⟨dev', h, push_after_pull_iff pushedDevice_ready h _ _ _ _ _⟩

/-- The device pushed `1`, a peer stored `2`; the pull merges it and the push is still refused. -/
theorem push_refused_after_pull :
    ∃ dev', pullPeer = .ok (.pullApplied 0 0 1 0, dev') ∧ pushAgain dev' = .error .etagMismatch := by
  obtain ⟨dev', h⟩ := pullPeer_ok
  have hrefused : (match pullPeer with
      | .ok (_, dev') =>
        match pushAgain dev' with
        | .error e => decide (e = .etagMismatch)
        | .ok _ => false
      | .error _ => false) = true := by decide +kernel
  rw [h] at hrefused
  dsimp only at hrefused
  refine ⟨dev', h, ?_⟩
  split at hrefused
  · next e he => rw [he, of_decide_eq_true hrefused]
  · cases hrefused

end LetsFlutSsh.Sync
