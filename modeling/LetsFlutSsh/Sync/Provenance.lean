import LetsFlutSsh.Sync.Protocol

/-!
# Where the remembered tags and hashes come from

A device recognises versions by the tags and hashes in its settings, and by the origin stamped into an
archive. In every state of every run, and in every copy of the settings a verb still holds:

* a tag left by a push is the tag of a version the device wrote;
* a tag or a hash left by a pull is one of a version that was written here, merged here, or opened
  here to entries with the device's own origin.

`KnownSha` is the last of these, `Remembers` collects them for one copy of the settings, `Inv` for a
world. `step_inv` keeps `Inv` at every step; no assumption on hashes or encryption is used.
-/

namespace LetsFlutSsh.Sync
open Lib Config Archive List Function

variable {Text : Type}

/-! ## Provenance of one copy of the settings -/

section Known

variable (A : Actors Text) (ids : Nat → Bytes) (history : List (Version Text)) (merges : List Merge) (d : Nat)

/-- The body opens to entries that carry the origin of `d`. -/
def OwnOrigin (v : Version Text) : Prop :=
  ∃ passphrase q, parseArchiveBytes A.sealing v.body passphrase = .ok q ∧
    (parseSyncOrigin A.env.json q).any (isOwnOrigin (installIdOf (ids d))) = true

/-- Written by `d`, merged by `d`, or opened by it as its own. -/
def Source (v : Version Text) : Prop :=
  v.writer = d ∨ (∃ settled, ⟨v.body, settled⟩ ∈ merges) ∨ OwnOrigin A ids d v

def KnownSha (sha : String) : Prop := ∃ v ∈ history, A.env.sha256Hex v.body = sha ∧ Source A ids merges d v

def KnownTag (etag : String) : Prop :=
  ∃ v ∈ history, etagText v.etag = etag ∧ KnownSha A ids history merges d (A.env.sha256Hex v.body)

/-- What the settings of `d` remember is known. -/
structure Remembers (cfg : SyncConfig) : Prop where
  pushedEtag : cfg.lastPushedEtag ≠ "" → ∃ v ∈ history, etagText v.etag = cfg.lastPushedEtag ∧ v.writer = d
  pulledEtag : cfg.lastPulledEtag ≠ "" → KnownTag A ids history merges d cfg.lastPulledEtag
  pushedSha : cfg.lastPushedSha256 ≠ "" → KnownSha A ids history merges d cfg.lastPushedSha256
  pulledSha : cfg.lastPulledSha256 ≠ "" → KnownSha A ids history merges d cfg.lastPulledSha256

/-- The entries carry the origin of `d`. -/
def Stamped (entries : FullImport Text) : Prop :=
  ∃ nowMs, parseSyncOrigin A.env.json entries = some (originStamp (installIdOf (ids d)) nowMs)

/-- A response that tells the tag of `v` or none. -/
def Tells (r : Response) (v : Version Text) : Prop := r.etag = none ∨ r.etag = some (headerText v.etag)

/-- What a verb under way has from the server is from a stored version. -/
def VerbOk : Verb Text → Prop
  | .pushing cfg _ _ => Remembers A ids history merges d cfg
  | .putting cfg _ _ entries => Remembers A ids history merges d cfg ∧ Stamped A ids d entries
  | .pushed cfg _ body r => Remembers A ids history merges d cfg ∧
      (isSuccess r.status = true → ∃ v ∈ history, v.writer = d ∧ v.body = body ∧ Tells r v)
  | .getting cfg _ => Remembers A ids history merges d cfg
  | .got cfg _ r seen => Remembers A ids history merges d cfg ∧
      (r.status = 304 → ∃ v ∈ history, seen = some v ∧ KnownSha A ids history merges d (A.env.sha256Hex v.body)) ∧
      (isSuccess r.status = true → ∃ v ∈ history, seen = some v ∧ r.body = v.body ∧ Tells r v)
  | .stamping cfg etag sha256 _ => Remembers A ids history merges d cfg ∧
      (etag ≠ "" → KnownTag A ids history merges d etag) ∧ KnownSha A ids history merges d sha256
  | .ending updated => ∀ u, updated = some u → Remembers A ids history merges d u

/-- The settings and the verbs of one device. -/
structure DeviceOk (dev : Device Text) : Prop where
  store : ∀ c, dev.store.current = some c → Remembers A ids history dev.merges d c.sync
  verbs : ∀ i verb, dev.verbs i = some verb → VerbOk A ids history dev.merges d verb

end Known

structure Inv (A : Actors Text) (ids : Nat → Bytes) (s : World Text) : Prop where
  remote : ∀ v, s.remote = some v → v ∈ s.history
  tags : ∀ v ∈ s.history, ∀ w ∈ s.history, etagText v.etag = etagText w.etag → v = w
  stamped : ∀ v ∈ s.history, Stamped A ids v.writer v.entries
  devices : ∀ d, DeviceOk A ids s.history d (s.devices d)
  skipped : ∀ d v merges, .upToDate d v merges ∈ s.log →
    v ∈ s.history ∧ KnownSha A ids s.history merges d (A.env.sha256Hex v.body)

variable {cfg : SyncConfig} {ids : Nat → Bytes} {dev : Device Text} {A : Actors Text} {d : Nat}

/-! ## Growing histories -/

section Mono

variable {history history' : List (Version Text)}
  {merges merges' : List Merge}

theorem KnownSha.mono {sha : String} (h : KnownSha A ids history merges d sha) (hh : history ⊆ history')
    (hm : merges ⊆ merges') : KnownSha A ids history' merges' d sha := by
  obtain ⟨v, hv, hsha, hsource⟩ := h
  refine ⟨v, hh hv, hsha, ?_⟩
  rcases hsource with hw | ⟨settled, he⟩ | ho
  · exact .inl hw
  · exact .inr (.inl ⟨settled, hm he⟩)
  · exact .inr (.inr ho)

theorem KnownTag.mono {etag : String} (h : KnownTag A ids history merges d etag) (hh : history ⊆ history')
    (hm : merges ⊆ merges') : KnownTag A ids history' merges' d etag := by
  obtain ⟨v, hv, htag, hsha⟩ := h
  exact ⟨v, hh hv, htag, hsha.mono hh hm⟩

theorem Remembers.mono (h : Remembers A ids history merges d cfg) (hh : history ⊆ history')
    (hm : merges ⊆ merges') : Remembers A ids history' merges' d cfg where
  pushedEtag hne := by
    obtain ⟨v, hv, hrest⟩ := h.pushedEtag hne
    exact ⟨v, hh hv, hrest⟩
  pulledEtag hne := (h.pulledEtag hne).mono hh hm
  pushedSha hne := (h.pushedSha hne).mono hh hm
  pulledSha hne := (h.pulledSha hne).mono hh hm

theorem VerbOk.mono {verb : Verb Text} (h : VerbOk A ids history merges d verb) (hh : history ⊆ history')
    (hm : merges ⊆ merges') : VerbOk A ids history' merges' d verb := by
  rcases verb with ⟨cfg, p, t⟩ | ⟨cfg, t, b, e⟩ | ⟨cfg, t, b, r⟩ | ⟨cfg, p⟩ | ⟨cfg, p, r, seen⟩ | ⟨cfg, etag, sha, o⟩ | u
  · exact Remembers.mono h hh hm
  · exact ⟨h.1.mono hh hm, h.2⟩
  · refine ⟨h.1.mono hh hm, fun hr => ?_⟩
    obtain ⟨v, hv, hrest⟩ := h.2 hr
    exact ⟨v, hh hv, hrest⟩
  · exact Remembers.mono h hh hm
  · refine ⟨h.1.mono hh hm, fun hr => ?_, fun hr => ?_⟩
    · obtain ⟨v, hv, hseen, hsha⟩ := h.2.1 hr
      exact ⟨v, hh hv, hseen, hsha.mono hh hm⟩
    · obtain ⟨v, hv, hrest⟩ := h.2.2 hr
      exact ⟨v, hh hv, hrest⟩
  · exact ⟨h.1.mono hh hm, fun hne => (h.2.1 hne).mono hh hm, h.2.2.mono hh hm⟩
  · exact fun u' hu => (h u' hu).mono hh hm

theorem DeviceOk.mono (h : DeviceOk A ids history d dev) (hh : history ⊆ history') :
    DeviceOk A ids history' d dev where
  store c hc := (h.store c hc).mono hh (List.Subset.refl _)
  verbs i verb hv := (h.verbs i verb hv).mono hh (List.Subset.refl _)

end Mono

variable (i : Nat)
variable {seen : Option (Version Text)} {v : Version Text} {r : Response}

/-! ## Settings and verbs of a device -/

section DeviceSteps

variable {history : List (Version Text)} {merges : List Merge} {passphrase etag sha : String} {o : PullOutcome}

theorem Remembers.sanitized (h : Remembers A ids history merges d cfg) : Remembers A ids history merges d cfg.sanitized :=
  ⟨h.pushedEtag, h.pulledEtag, h.pushedSha, h.pulledSha⟩

theorem persistSync_eq_ok {u : SyncConfig} {store store' : Store} (h : persistSync u store = .ok store') :
    ∃ c : AppConfig, store'.current = some { c with sync := u.sanitized } := by
  unfold persistSync Store.updateSync Store.update at h
  split_ifs at h with hpath
  · cases h
  · split at h
    · cases h
    · next c hc =>
      cases h
      exact ⟨c, rfl⟩

theorem DeviceOk.setVerb (h : DeviceOk A ids history d dev) {verb : Option (Verb Text)}
    (hv : ∀ w, verb = some w → VerbOk A ids history dev.merges d w) :
    DeviceOk A ids history d (dev.setVerb i verb) where
  store := h.store
  verbs := by
    intro j w hw
    have hw' : update dev.verbs i verb j = some w := hw
    by_cases hj : j = i
    · subst hj
      rw [update_self] at hw'
      exact hv w hw'
    · rw [update_of_ne hj] at hw'
      exact h.verbs j w hw'

theorem DeviceOk.endVerb (h : DeviceOk A ids history d dev) {updated : Option SyncConfig}
    (hu : ∀ u, updated = some u → Remembers A ids history dev.merges d u) :
    DeviceOk A ids history d (dev.endVerb i updated) := by
  have hnone : DeviceOk A ids history d (dev.setVerb i none) := h.setVerb i fun _ hw => nomatch hw
  unfold Device.endVerb
  split
  · exact hnone
  next u =>
  split
  · exact hnone
  next store hstore =>
  refine ⟨fun c hc => ?_, hnone.verbs⟩
  obtain ⟨c', hc'⟩ := persistSync_eq_ok hstore
  have hc'' : store.current = some c := hc
  rw [hc'] at hc''
  cases hc''
  exact (hu u rfl).sanitized

theorem Device.prepare_eq_ok (h : dev.prepare = .ok (cfg, passphrase)) : Sync.prepare dev.store = .ok cfg := by
  unfold Device.prepare at h
  rcases hp : Sync.prepare dev.store with e | cfg'
  · rw [hp] at h
    cases h
  rw [hp] at h
  rcases hw : readSecret dev.secrets cfg'.webdavPasswordRef with e | pw
  · simp [bind, Except.bind, hw] at h
  · rcases hk : readSecret dev.secrets cfg'.passphraseRef with e | k
    · simp [bind, Except.bind, hw, hk] at h
    · simp [bind, Except.bind, hw, hk, pure, Except.pure] at h
      rw [h.1]

theorem DeviceOk.prepared (h : DeviceOk A ids history d dev)
    (hp : dev.prepare = .ok (cfg, passphrase)) : Remembers A ids history dev.merges d cfg := by
  obtain ⟨app, happ, rfl⟩ := prepare_eq_ok (Device.prepare_eq_ok hp)
  exact h.store app happ

theorem composed_ok {db : Whole Text} {nowMs createdAtMs : Int64}
    {salt : Bytes} {verb : Verb Text} (hcfg : Remembers A ids history merges d cfg)
    (h : World.composed A (installIdOf (ids d)) db cfg passphrase nowMs createdAtMs salt = some verb) :
    VerbOk A ids history merges d verb := by
  unfold World.composed at h
  dsimp only at h
  split_ifs at h
  split at h
  · cases h
  · cases h
    exact ⟨hcfg, nowMs, parseSyncOrigin_composeWhole _ _ _ _ (originStamp_ne_empty _ _)⟩

theorem Tells.responseEtag (h : Tells r v) (hne : responseEtag r ≠ "") : responseEtag r = etagText v.etag := by
  unfold Sync.responseEtag at hne ⊢
  rcases h with h | h
  · rw [h] at hne
    exact absurd rfl hne
  · rw [h, Option.map_some, Option.getD_some, normaliseEtagHeader_headerText]

theorem pushUpdated_ok {nowMs : Int64} {body : Bytes}
    (h : VerbOk A ids history merges d (.pushed cfg nowMs body r)) {u : SyncConfig}
    (hu : World.pushUpdated A cfg nowMs body r = some u) : Remembers A ids history merges d u := by
  obtain ⟨hcfg, hstored⟩ := h
  unfold World.pushUpdated pushOutcome WebDav.put at hu
  by_cases hr : isSuccess r.status = true
  · obtain ⟨v, hv, hwriter, rfl, htells⟩ := hstored hr
    rw [if_pos hr] at hu
    cases hu
    have hsha : KnownSha A ids history merges d (A.env.sha256Hex v.body) := ⟨v, hv, rfl, .inl hwriter⟩
    refine ⟨fun hne => ⟨v, hv, ?_, hwriter⟩, hcfg.pulledEtag, fun _ => hsha, hcfg.pulledSha⟩
    exact (htells.responseEtag hne).symm
  · rw [if_neg hr] at hu
    cases hu

theorem Remembers.pulled (h : Remembers A ids history merges d cfg)
    (htag : etag ≠ "" → KnownTag A ids history merges d etag) (hsha : KnownSha A ids history merges d sha) :
    Remembers A ids history merges d { cfg with lastPulledEtag := etag, lastPulledSha256 := sha } :=
  ⟨h.pushedEtag, htag, h.pushedSha, fun _ => hsha⟩

theorem Tells.knownTag (h : Tells r v) (hv : v ∈ history)
    (hsha : KnownSha A ids history merges d (A.env.sha256Hex v.body)) (hne : Sync.responseEtag r ≠ "") :
    KnownTag A ids history merges d (Sync.responseEtag r) :=
  ⟨v, hv, (h.responseEtag hne).symm, hsha⟩

theorem knownSha_of_shaMatch (h : Remembers A ids history merges d cfg)
    (ho : shaMatchOutcome cfg etag sha = some o) : KnownSha A ids history merges d sha := by
  unfold shaMatchOutcome at ho
  dsimp only at ho
  split at ho
  · next hmatch =>
    rcases hmatch with ⟨hne, heq⟩ | ⟨hne, heq⟩
    · exact heq ▸ h.pushedSha hne
    · exact heq ▸ h.pulledSha hne
  · cases ho

theorem knownSha_of_ownOrigin {pending : FullImport Text} (hv : v ∈ history)
    (hparse : parseArchiveBytes A.sealing v.body passphrase = .ok pending)
    (ho : ownOriginOutcome A.env.json cfg pending (installIdOf (ids d)) etag sha = some o) :
    KnownSha A ids history merges d (A.env.sha256Hex v.body) := by
  unfold ownOriginOutcome at ho
  split at ho
  · next hown => exact ⟨v, hv, rfl, .inr (.inr ⟨passphrase, pending, hparse, hown⟩)⟩
  · cases ho

section

variable (h : VerbOk A ids history merges d (.got cfg passphrase r seen))
include h

theorem pullResponse_done_ok (ho : pullResponse A cfg passphrase (installIdOf (ids d)) r = .ok (.done o)) :
    VerbOk A ids history merges d (.ending o.updatedCfg) ∧ (o.result = .upToDate → ∀ v, seen = some v →
      v ∈ history ∧ KnownSha A ids history merges d (A.env.sha256Hex v.body)) := by
  obtain ⟨hcfg, hnot, hbody⟩ := h
  rcases pullResponse_cases ho with hd | ⟨h304, hd⟩ | ⟨hsuccess, hb⟩
  · cases hd
    refine ⟨fun u hu => ?_, fun hr => ?_⟩
    · cases hu
    · cases hr
  · cases hd
    refine ⟨fun u hu => ?_, fun _ v hv => ?_⟩
    · cases hu
    · obtain ⟨w, hw, hseen, hsha⟩ := hnot h304
      rw [hv] at hseen
      cases hseen
      exact ⟨hw, hsha⟩
  · obtain ⟨v, hv, rfl, hbody, htells⟩ := hbody hsuccess
    -- both ways to recognise a body write back its tag and its hash
    have hdone : KnownSha A ids history merges d (A.env.sha256Hex v.body) → (∀ u, o.updatedCfg = some u → u = { cfg with
          lastPulledEtag := responseEtag r, lastPulledSha256 := A.env.sha256Hex v.body }) →
        VerbOk A ids history merges d (.ending o.updatedCfg) ∧ (o.result = .upToDate → ∀ w, some v = some w →
          w ∈ history ∧ KnownSha A ids history merges d (A.env.sha256Hex w.body)) := by
      intro hsha hu
      refine ⟨fun u hu' => ?_, fun _ w hw => ?_⟩
      · rw [hu u hu']
        exact hcfg.pulled (htells.knownTag hv hsha) hsha
      · cases hw
        exact ⟨hv, hsha⟩
    rcases pullBody_cases hb with ⟨o', hs, hd⟩ | ⟨pending, hparse, o', hs, hd⟩ | ⟨pending, -, hd⟩
    · cases hd
      rw [hbody] at hs
      exact hdone (knownSha_of_shaMatch hcfg hs) fun u hu => (shaMatchOutcome_updated hs hu).2
    · cases hd
      rw [hbody] at hs hparse
      exact hdone (knownSha_of_ownOrigin hv hparse hs) fun u hu => (ownOriginOutcome_updated hs hu).2
    · cases hd

theorem pullResponse_merge_ok {pending : FullImport Text} {sha256 : String}
    (ho : pullResponse A cfg passphrase (installIdOf (ids d)) r = .ok (.merge pending etag sha256)) (settled : Bool)
    (o : DriverOutcome) :
    VerbOk A ids history (⟨r.body, settled⟩ :: merges) d (.stamping cfg etag sha256 o) := by
  obtain ⟨hcfg, -, hbody⟩ := h
  rcases pullResponse_cases ho with hd | ⟨-, hd⟩ | ⟨hsuccess, hb⟩
  · cases hd
  · cases hd
  · obtain ⟨v, hv, rfl, hbody, htells⟩ := hbody hsuccess
    rcases pullBody_cases hb with ⟨o', -, hd⟩ | ⟨pending', -, o', -, hd⟩ | ⟨pending', -, hd⟩
    · cases hd
    · cases hd
    · cases hd
      rw [hbody]
      have hsha : KnownSha A ids history (⟨v.body, settled⟩ :: merges) d (A.env.sha256Hex v.body) :=
        ⟨v, hv, rfl, .inr (.inl ⟨settled, mem_cons_self⟩)⟩
      exact ⟨hcfg.mono (List.Subset.refl _) (subset_cons_self _ _), htells.knownTag hv hsha, hsha⟩

end

theorem getServe_ok {remote : Option (Version Text)} (hremote : ∀ v, remote = some v → v ∈ history)
    (htags : ∀ v ∈ history, ∀ w ∈ history, etagText v.etag = etagText w.etag → v = w)
    (hcfg : Remembers A ids history merges d cfg) (passphrase : String) (tell : Bool) :
    VerbOk A ids history merges d
      (.got cfg passphrase (Server.get (remote.map Version.toStored) (buildIfNoneMatch cfg) tell) remote) := by
  rcases remote with _ | v
  · refine ⟨hcfg, fun h => ?_, fun h => ?_⟩
    · cases h
    · cases h
  have hv := hremote v rfl
  have htells : ∀ (status : Nat) (body : Bytes), Tells ⟨status, Server.tellEtag tell v.toStored, body⟩ v := by
    intro status body
    rcases tell with _ | _
    · exact .inl rfl
    · exact .inr rfl
  have hpushed : IsTag cfg.lastPushedEtag := by
    intro hne
    obtain ⟨w, -, hw, -⟩ := hcfg.pushedEtag hne
    exact ⟨w.etag, hw.symm⟩
  have hpulled : IsTag cfg.lastPulledEtag := by
    intro hne
    obtain ⟨w, -, hw, -⟩ := hcfg.pulledEtag hne
    exact ⟨w.etag, hw.symm⟩
  unfold Server.get
  rw [Option.map_some]
  dsimp only
  split
  · refine ⟨hcfg, fun h => ?_, fun _ => ⟨v, hv, rfl, rfl, htells 200 v.body⟩⟩
    cases h
  next hcond =>
  refine ⟨hcfg, fun _ => ⟨v, hv, rfl, ?_⟩, fun h => ?_⟩
  · rw [Bool.not_eq_true] at hcond
    rcases remembered_of_not_ifNoneMatch hpushed hpulled hcond with ⟨hne, htag⟩ | ⟨hne, htag⟩
    · obtain ⟨w, hw, hwtag, hwriter⟩ := hcfg.pushedEtag hne
      have hvw : v = w := htags v hv w hw (htag.trans hwtag.symm)
      exact ⟨v, hv, rfl, .inl (hvw ▸ hwriter)⟩
    · obtain ⟨w, hw, hwtag, hsha⟩ := hcfg.pulledEtag hne
      have hvw : v = w := htags v hv w hw (htag.trans hwtag.symm)
      exact hvw ▸ hsha
  · cases h

end DeviceSteps

/-! ## Steps of the world -/

section WorldSteps

variable {s s' : World Text}
theorem Inv.setDevice (hs : Inv A ids s) (h : DeviceOk A ids s.history d dev) :
    Inv A ids (s.setDevice d dev) where
  remote := hs.remote
  tags := hs.tags
  stamped := hs.stamped
  skipped := hs.skipped
  devices := by
    intro e
    show DeviceOk A ids s.history e (update s.devices d dev e)
    by_cases he : e = d
    · subst he
      rw [update_self]
      exact h
    · rw [update_of_ne he]
      exact hs.devices e

theorem Inv.setVerb (hs : Inv A ids s) {verb : Option (Verb Text)}
    (h : ∀ w, verb = some w → VerbOk A ids s.history (s.devices d).merges d w) : Inv A ids (s.setVerb d i verb) :=
  hs.setDevice ((hs.devices d).setVerb i h)

theorem Inv.putServe (hs : Inv A ids s) (nowMs : Int64)
    (tell : Bool) (hcfg : Remembers A ids s.history (s.devices v.writer).merges v.writer cfg)
    (hstamped : Stamped A ids v.writer v.entries) (hfresh : ∀ w ∈ s.history, w.etag.text ≠ v.etag.text) :
    Inv A ids (s.putServe i cfg nowMs v tell) := by
  unfold World.putServe
  split
  · next haccepts =>
    have hsub : s.history ⊆ v :: s.history := subset_cons_self _ _
    have hdevices : ∀ d, DeviceOk A ids (v :: s.history) d (s.devices d) := fun d => (hs.devices d).mono hsub
    have hverb : VerbOk A ids (v :: s.history) (s.devices v.writer).merges v.writer (.pushed cfg nowMs v.body
          (Server.put (s.remote.map Version.toStored) (pushIfMatch cfg) v.toStored tell).2) := by
      refine ⟨hcfg.mono hsub (List.Subset.refl _), fun _ => ⟨v, mem_cons_self, rfl, rfl, ?_⟩⟩
      unfold Server.put Tells Server.tellEtag
      rw [if_pos haccepts]
      rcases tell with _ | _
      · exact .inl rfl
      · exact .inr rfl
    refine ⟨fun w hw => ?_, fun w hw w' hw' htag => ?_, fun w hw => ?_, fun e => ?_, fun e w merges hw => ?_⟩
    · cases hw
      exact mem_cons_self
    · rcases mem_cons.mp hw with rfl | hold
      · rcases mem_cons.mp hw' with rfl | hold'
        · rfl
        · exact absurd (etagText_inj.mp htag).symm (hfresh w' hold')
      · rcases mem_cons.mp hw' with rfl | hold'
        · exact absurd (etagText_inj.mp htag) (hfresh w hold)
        · exact hs.tags w hold w' hold' htag
    · rcases mem_cons.mp hw with rfl | hw
      · exact hstamped
      · exact hs.stamped w hw
    · show DeviceOk A ids (v :: s.history) e (update s.devices v.writer _ e)
      by_cases he : e = v.writer
      · subst he
        rw [update_self]
        exact (hdevices v.writer).setVerb i fun w hw => Option.some.inj hw ▸ hverb
      · rw [update_of_ne he]
        exact hdevices e
    · have hold : .upToDate e w merges ∈ s.log := by
        have hw' : .upToDate e w merges ∈ s.replacing v.writer := hw
        unfold World.replacing at hw'
        rcases hr : s.remote with _ | old
        · rw [hr] at hw'
          exact hw'
        · rw [hr] at hw'
          rcases mem_cons.mp hw' with h | h
          · cases h
          · exact h
      obtain ⟨hmem, hsha⟩ := hs.skipped e w merges hold
      exact ⟨hsub hmem, hsha.mono hsub (List.Subset.refl _)⟩
  · next hrefused =>
    refine hs.setVerb i fun w hw => ?_
    cases hw
    refine ⟨hcfg, fun h => ?_⟩
    unfold Server.put at h
    rw [if_neg hrefused] at h
    cases h

theorem Inv.pullRead (hs : Inv A ids s) {passphrase : String}
    (mergeMs : Int64)
    (h : VerbOk A ids s.history (s.devices d).merges d (.got cfg passphrase r seen)) :
    Inv A ids (s.pullRead A ids d i cfg passphrase r seen mergeMs) := by
  unfold World.pullRead
  split
  · exact hs.setVerb i fun _ hw => nomatch hw
  · next o ho =>
    obtain ⟨hend, hskip⟩ := pullResponse_done_ok h ho
    have hended : Inv A ids (s.setVerb d i (some (.ending o.updatedCfg))) :=
      hs.setVerb i fun w hw => Option.some.inj hw ▸ hend
    split
    · next v hr =>
      refine ⟨hended.remote, hended.tags, hended.stamped, hended.devices, fun e w merges hw => ?_⟩
      rcases mem_cons.mp hw with hw | hw
      · cases hw
        exact hskip hr v rfl
      · exact hs.skipped e w merges hw
    · exact hended
  · next pending etag sha256 ho =>
    have hmerged := fun o => pullResponse_merge_ok h ho o
    have hgrow : (s.devices d).merges ⊆ ⟨r.body,
        settled A.env.json pending (mergeWhole A.env mergeMs pending (s.devices d).db).2⟩ :: (s.devices d).merges :=
      subset_cons_self _ _
    refine hs.setDevice ⟨fun c hc => ((hs.devices d).store c hc).mono (List.Subset.refl _) hgrow, fun j w hw => ?_⟩
    have hw' : update (s.devices d).verbs i (some (.stamping cfg etag sha256
        (mergeWhole A.env mergeMs pending (s.devices d).db).2)) j = some w := hw
    by_cases hj : j = i
    · subst hj
      rw [update_self] at hw'
      cases hw'
      exact hmerged _ _
    · rw [update_of_ne hj] at hw'
      exact ((hs.devices d).verbs j w hw').mono (List.Subset.refl _) hgrow

theorem step_inv (hs : Inv A ids s) {l : Action Text} (h : s.step A ids l = some s') : Inv A ids s' := by
  rcases l with ⟨d, db⟩ | ⟨d, i, nowMs⟩ | ⟨d, i, createdAtMs, salt⟩ | ⟨d, i, etag, tell⟩ | ⟨d, i⟩ | ⟨d, i⟩ |
    ⟨d, i, tell⟩ | ⟨d, i, mergeMs⟩ | ⟨d, i, nowMs⟩ | ⟨d, i⟩
  · cases h
    exact hs.setDevice ⟨(hs.devices d).store, (hs.devices d).verbs⟩
  · dsimp only [World.step] at h
    split_ifs at h
    split at h
    · cases h
    · next cfg passphrase hp =>
      cases h
      refine hs.setVerb i fun w hw => ?_
      cases hw
      exact (hs.devices d).prepared hp
  · dsimp only [World.step] at h
    split at h
    · next cfg passphrase nowMs hi =>
      cases h
      have hcfg : Remembers A ids s.history (s.devices d).merges d cfg := (hs.devices d).verbs i _ hi
      exact hs.setVerb i fun w hw => composed_ok hcfg hw
    · cases h
  · dsimp only [World.step] at h
    split at h
    · next cfg nowMs body entries hi =>
      split_ifs at h with hfresh
      cases h
      obtain ⟨hcfg, hstamped⟩ := (hs.devices d).verbs i _ hi
      refine hs.putServe i nowMs tell hcfg hstamped fun w hw => ?_
      exact of_decide_eq_true (all_eq_true.mp hfresh w hw)
    · cases h
  · dsimp only [World.step] at h
    split at h
    · next cfg nowMs body r hi =>
      cases h
      have hverb := (hs.devices d).verbs i _ hi
      exact hs.setDevice ((hs.devices d).endVerb i fun u hu => pushUpdated_ok hverb hu)
    · cases h
  · dsimp only [World.step] at h
    split_ifs at h
    split at h
    · cases h
    next cfg passphrase hp =>
    split at h
    · cases h
    · cases h
      refine hs.setVerb i fun w hw => ?_
      cases hw
      exact (hs.devices d).prepared hp
  · dsimp only [World.step] at h
    split at h
    · next cfg passphrase hi =>
      cases h
      have hcfg : Remembers A ids s.history (s.devices d).merges d cfg := (hs.devices d).verbs i _ hi
      refine hs.setVerb i fun w hw => ?_
      cases hw
      exact getServe_ok hs.remote hs.tags hcfg passphrase tell
    · cases h
  · dsimp only [World.step] at h
    split at h
    · next cfg passphrase r seen hi =>
      cases h
      exact hs.pullRead i mergeMs ((hs.devices d).verbs i _ hi)
    · cases h
  · dsimp only [World.step] at h
    split at h
    · next cfg etag sha256 o hi =>
      cases h
      obtain ⟨hcfg, htag, hsha⟩ := (hs.devices d).verbs i _ hi
      refine hs.setDevice ((hs.devices d).endVerb i fun u hu => ?_)
      cases hu
      exact ⟨hcfg.pushedEtag, htag, hcfg.pushedSha, fun _ => hsha⟩
    · next updated hi =>
      cases h
      have hverb : ∀ u, updated = some u → Remembers A ids s.history (s.devices d).merges d u :=
        (hs.devices d).verbs i _ hi
      exact hs.setDevice ((hs.devices d).endVerb i hverb)
    · cases h
  · cases h
    exact hs.setVerb i fun _ hw => nomatch hw

end WorldSteps

end LetsFlutSsh.Sync
