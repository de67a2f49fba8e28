import LetsFlutSsh.Lib.Run
import LetsFlutSsh.Sync.Provenance

/-!
# Lost updates and skipped snapshots

What a run of pushes and pulls may have done wrong: a push may have replaced a version nobody here has
seen, and a pull may have skipped a snapshot that never got in.

* `World.Fresh`: the state before the first sync;
* `Trusted`: what is taken from outside the code about the stored archives;
* `replaced_known`: when every push that has no tag to send finds the path empty, its own version or
  the one pulled last, no push replaces an unseen version;
* `skipped_merged`: when every merge settles all rows, no pull skips a snapshot that is not in the
  database.
-/

namespace LetsFlutSsh.Sync
open Lib Config Archive List Option Bool

variable {Text : Type}

/-! ## Before the first sync -/

def NeverSynced (cfg : SyncConfig) : Prop :=
  cfg.lastPushedEtag = "" ∧ cfg.lastPulledEtag = "" ∧ cfg.lastPushedSha256 = "" ∧ cfg.lastPulledSha256 = ""

structure World.Fresh (s : World Text) : Prop where
  remote : s.remote = none
  history : s.history = []
  log : s.log = []
  verbs : ∀ d i, (s.devices d).verbs i = none
  merges : ∀ d, (s.devices d).merges = []
  settings : ∀ d c, (s.devices d).store.current = some c → NeverSynced c.sync

theorem World.Fresh.inv {s : World Text} (h : s.Fresh) (A : Actors Text) (ids : Nat → Bytes) : Inv A ids s where
  remote := by simp [h.remote]
  tags := by simp [h.history]
  stamped := by simp [h.history]
  skipped := by simp [h.log]
  devices := by
    intro d
    refine ⟨fun c hc => ?_, fun i verb hv => ?_⟩
    · obtain ⟨h₁, h₂, h₃, h₄⟩ := h.settings d c hc
      exact ⟨fun hne => absurd h₁ hne, fun hne => absurd h₂ hne, fun hne => absurd h₃ hne,
        fun hne => absurd h₄ hne⟩
    · rw [h.verbs d i] at hv
      cases hv

/-- What the code relies on: every envelope is freshly salted and hashes do not collide, so no two
stored versions have the same hash; an archive that opens gives the entries sealed in it; and no
device draws the install id of a writer. -/
structure Trusted (A : Actors Text) (ids : Nat → Bytes) (history : List (Version Text)) : Prop where
  distinct : ∀ v ∈ history, ∀ w ∈ history, A.env.sha256Hex v.body = A.env.sha256Hex w.body → v = w
  opens : ∀ v ∈ history, ∀ passphrase q, parseArchiveBytes A.sealing v.body passphrase = .ok q → q = v.entries
  ids : ∀ v ∈ history, ∀ d, installIdOf (ids d) = installIdOf (ids v.writer) → d = v.writer

variable {d : Nat} {ids : Nat → Bytes} {A : Actors Text}

theorem KnownSha.written_or_merged {history : List (Version Text)}
    {merges : List Merge} {v : Version Text}
    (h : KnownSha A ids history merges d (A.env.sha256Hex v.body)) (hv : v ∈ history)
    (hstamped : ∀ v ∈ history, Stamped A ids v.writer v.entries) (ht : Trusted A ids history) :
    v.writer = d ∨ ∃ settled, ⟨v.body, settled⟩ ∈ merges := by
  obtain ⟨w, hw, hsha, hsource⟩ := h
  have hwv : w = v := ht.distinct w hw v hv hsha
  subst hwv
  rcases hsource with hwriter | hmerged | ⟨passphrase, q, hparse, hown⟩
  · exact .inl hwriter
  · exact .inr hmerged
  · have hq := ht.opens w hw passphrase q hparse
    obtain ⟨nowMs, horigin⟩ := hstamped w hw
    rw [hq, horigin, any_some] at hown
    exact .inl (ht.ids w hw d (installId_eq_of_isOwnOrigin hown)).symm

variable {l : Action Text} {cfg : SyncConfig}

/-! ## What a step adds -/

section Effects

variable {s s' : World Text}

/-- A `PUT` of the verb `i` that the server accepts. -/
structure Stores (s : World Text) (l : Action Text) (v : Version Text) (cfg : SyncConfig) : Prop where
  verb : ∃ i tell nowMs, l = .putServe v.writer i v.etag tell ∧
    (s.devices v.writer).verbs i = some (.putting cfg nowMs v.body v.entries)
  accepted : Server.accepts (s.remote.map Version.toStored) (pushIfMatch cfg) = true

/-- A pull of `d` that merges. -/
structure Merges (A : Actors Text) (ids : Nat → Bytes) (s : World Text) (l : Action Text) (d : Nat) (m : Merge) : Prop where
  verb : ∃ i mergeMs cfg passphrase r seen pending etag sha256, l = .pullRead d i mergeMs ∧
    (s.devices d).verbs i = some (.got cfg passphrase r seen) ∧
    pullResponse A cfg passphrase (installIdOf (ids d)) r = .ok (.merge pending etag sha256) ∧
    m = ⟨r.body, settled A.env.json pending (mergeWhole A.env mergeMs pending (s.devices d).db).2⟩

/-- What a step adds to the history, the log and the merges. -/
inductive Effect (A : Actors Text) (ids : Nat → Bytes) (s : World Text) (l : Action Text) (s' : World Text) : Prop
  | quiet (history : s'.history = s.history) (log : s'.log = s.log)
      (merges : ∀ d, (s'.devices d).merges = (s.devices d).merges)
  | stored (v : Version Text) (cfg : SyncConfig) (stores : Stores s l v cfg) (history : s'.history = v :: s.history)
      (log : s'.log = s.replacing v.writer) (merges : ∀ d, (s'.devices d).merges = (s.devices d).merges)
  | skipped (d : Nat) (v : Version Text) (history : s'.history = s.history)
      (log : s'.log = .upToDate d v (s.devices d).merges :: s.log)
      (merges : ∀ d, (s'.devices d).merges = (s.devices d).merges)
  | merged (d : Nat) (m : Merge) (merging : Merges A ids s l d m) (history : s'.history = s.history) (log : s'.log = s.log)
      (merges : ∀ e, (s'.devices e).merges = if e = d then m :: (s.devices d).merges else (s.devices e).merges)

theorem merges_endVerb (dev : Device Text) (i : Nat) (updated : Option SyncConfig) :
    (dev.endVerb i updated).merges = dev.merges := by
  unfold Device.endVerb
  split
  · rfl
  · split <;> rfl

theorem devices_setDevice (d e : Nat) (dev : Device Text) :
    (s.setDevice d dev).devices e = if e = d then dev else s.devices e :=
  Function.update_apply s.devices d dev e

theorem merges_setDevice {dev : Device Text} (h : dev.merges = (s.devices d).merges) (e : Nat) :
    ((s.setDevice d dev).devices e).merges = (s.devices e).merges := by
  rw [devices_setDevice]
  split_ifs with he
  · rw [h, he]
  · rfl

theorem quiet_setDevice {dev : Device Text} (h : dev.merges = (s.devices d).merges) :
    Effect A ids s l (s.setDevice d dev) :=
  .quiet rfl rfl (merges_setDevice h)

theorem effect_putServe {i : Nat} {etag : EntityTag} {tell : Bool} {nowMs : Int64} {body : Bytes}
    {entries : FullImport Text} (hi : (s.devices d).verbs i = some (.putting cfg nowMs body entries)) :
    Effect A ids s (.putServe d i etag tell) (s.putServe i cfg nowMs ⟨⟨etag, body⟩, d, entries⟩ tell) := by
  unfold World.putServe
  split
  · next haccepts =>
    exact .stored ⟨⟨etag, body⟩, d, entries⟩ cfg ⟨⟨i, tell, nowMs, rfl, hi⟩, haccepts⟩ rfl rfl (merges_setDevice rfl)
  · exact quiet_setDevice rfl

theorem effect_pullRead {i : Nat} {mergeMs : Int64} {passphrase : String} {r : Response}
    {seen : Option (Version Text)} (hi : (s.devices d).verbs i = some (.got cfg passphrase r seen)) :
    Effect A ids s (.pullRead d i mergeMs) (s.pullRead A ids d i cfg passphrase r seen mergeMs) := by
  unfold World.pullRead
  split
  · exact quiet_setDevice rfl
  · next o ho =>
    split
    · next v hr => exact .skipped d v rfl rfl (merges_setDevice rfl)
    · exact quiet_setDevice rfl
  · next pending etag sha256 ho =>
    refine .merged d _ ⟨i, mergeMs, cfg, passphrase, r, seen, pending, etag, sha256, rfl, hi, ho, rfl⟩ rfl rfl
      fun e => ?_
    rw [devices_setDevice]
    split_ifs with he
    · rfl
    · rfl

theorem step_effect (h : s.step A ids l = some s') : Effect A ids s l s' := by
  rcases l with ⟨d, db⟩ | ⟨d, i, nowMs⟩ | ⟨d, i, createdAtMs, salt⟩ | ⟨d, i, etag, tell⟩ | ⟨d, i⟩ | ⟨d, i⟩ |
    ⟨d, i, tell⟩ | ⟨d, i, mergeMs⟩ | ⟨d, i, nowMs⟩ | ⟨d, i⟩
  · cases h
    exact quiet_setDevice rfl
  · dsimp only [World.step] at h
    split_ifs at h
    split at h
    · cases h
    · cases h
      exact quiet_setDevice rfl
  · dsimp only [World.step] at h
    split at h
    · cases h
      exact quiet_setDevice rfl
    · cases h
  · dsimp only [World.step] at h
    split at h
    · next cfg nowMs body entries hi =>
      split_ifs at h
      cases h
      exact effect_putServe hi
    · cases h
  · dsimp only [World.step] at h
    split at h
    · cases h
      exact quiet_setDevice (merges_endVerb _ _ _)
    · cases h
  · dsimp only [World.step] at h
    split_ifs at h
    split at h
    · cases h
    · split at h
      · cases h
      · cases h
        exact quiet_setDevice rfl
  · dsimp only [World.step] at h
    split at h
    · cases h
      exact quiet_setDevice rfl
    · cases h
  · dsimp only [World.step] at h
    split at h
    · next hi =>
      cases h
      exact effect_pullRead hi
    · cases h
  · dsimp only [World.step] at h
    split at h
    · cases h
      exact quiet_setDevice (merges_endVerb _ _ _)
    · cases h
      exact quiet_setDevice (merges_endVerb _ _ _)
    · cases h
  · cases h
    exact quiet_setDevice rfl

theorem Effect.history_subset (h : Effect A ids s l s') : s.history ⊆ s'.history := by
  rcases h with ⟨hh, -, -⟩ | ⟨v, cfg, -, hh, -, -⟩ | ⟨d, v, hh, -, -⟩ | ⟨d, m, -, hh, -, -⟩
  · rw [hh]
    exact List.Subset.refl _
  · rw [hh]
    exact subset_cons_self _ _
  · rw [hh]
    exact List.Subset.refl _
  · rw [hh]
    exact List.Subset.refl _

end Effects

/-! ## Replaced versions -/

section Replaced

variable (A : Actors Text) (ids : Nat → Bytes)

/-- A push without a tag of its own to send reaches the server while the path is empty, or holds a
version the device wrote, or the one whose tag the device pulled last. -/
def UntaggedPutIsSafe (s : World Text) (l : Action Text) : Prop :=
  ∀ d i etag tell cfg nowMs body entries, l = .putServe d i etag tell →
    (s.devices d).verbs i = some (.putting cfg nowMs body entries) → cfg.lastPushedEtag = "" →
    ∀ v, s.remote = some v → v.writer = d ∨ (cfg.lastPulledEtag ≠ "" ∧ etagText v.etag = cfg.lastPulledEtag)

def ReplacedKnown (s : World Text) : Prop :=
  ∀ d v merges, .replaced d v merges ∈ s.log → v ∈ s.history ∧ KnownSha A ids s.history merges d (A.env.sha256Hex v.body)

variable {A ids} {s s' : World Text}

theorem Stores.known (hs : Inv A ids s) {v old : Version Text}
    (h : Stores s l v cfg) (hsafe : UntaggedPutIsSafe s l) (hold : s.remote = some old) :
    KnownSha A ids s.history (s.devices v.writer).merges v.writer (A.env.sha256Hex old.body) := by
  obtain ⟨⟨i, tell, nowMs, hl, hi⟩, haccepted⟩ := h
  obtain ⟨hcfg, -⟩ := (hs.devices v.writer).verbs i _ hi
  have hmem := hs.remote old hold
  by_cases hne : cfg.lastPushedEtag = ""
  · rcases hsafe _ _ _ _ _ _ _ _ hl hi hne old hold with hown | ⟨hpulled, htag⟩
    · exact ⟨old, hmem, rfl, .inl hown⟩
    · obtain ⟨w, hw, hwtag, hsha⟩ := hcfg.pulledEtag hpulled
      have hwold : old = w := hs.tags old hmem w hw (htag.trans hwtag.symm)
      exact hwold ▸ hsha
  · obtain ⟨w, hw, hwtag, hwriter⟩ := hcfg.pushedEtag hne
    rw [hold, map_some, accepts_pushIfMatch (fun _ => ⟨w.etag, hwtag.symm⟩) hne] at haccepted
    have hwold : old = w := hs.tags old hmem w hw (haccepted.2.trans hwtag.symm)
    exact ⟨old, hmem, rfl, .inl (hwold ▸ hwriter)⟩

theorem step_replacedKnown (hs : Inv A ids s) (hI : ReplacedKnown A ids s)
    (hsafe : UntaggedPutIsSafe s l) (h : s.step A ids l = some s') : ReplacedKnown A ids s' := by
  have heff := step_effect h
  have hsub := heff.history_subset
  -- what was in the log before stays known
  have hkept : ∀ d v merges, .replaced d v merges ∈ s.log →
      v ∈ s'.history ∧ KnownSha A ids s'.history merges d (A.env.sha256Hex v.body) := by
    intro d v merges hmem
    obtain ⟨hv, hsha⟩ := hI d v merges hmem
    exact ⟨hsub hv, hsha.mono hsub (List.Subset.refl _)⟩
  intro d v merges hmem
  rcases heff with ⟨-, hlog, -⟩ | ⟨w, cfg, hstores, -, hlog, -⟩ | ⟨e, w, -, hlog, -⟩ | ⟨e, m, -, -, hlog, -⟩
  · rw [hlog] at hmem
    exact hkept d v merges hmem
  · rw [hlog, World.replacing] at hmem
    rcases hr : s.remote with _ | old
    · rw [hr] at hmem
      exact hkept d v merges hmem
    · rw [hr] at hmem
      rcases mem_cons.mp hmem with hnew | hold
      · cases hnew
        exact ⟨hsub (hs.remote _ hr), (hstores.known hs hsafe hr).mono hsub (List.Subset.refl _)⟩
      · exact hkept d v merges hold
  · rw [hlog] at hmem
    rcases mem_cons.mp hmem with hnew | hold
    · cases hnew
    · exact hkept d v merges hold
  · rw [hlog] at hmem
    exact hkept d v merges hmem

/-- **No lost update.** In every run from the first sync on in which untagged pushes are safe, the
version a push replaces was written by its device or had been merged into its database. -/
theorem replaced_known {t : World Text} {ls : List (Action Text)} (hs : s.Fresh)
    (hrun : run (World.step A ids) s ls = some t) (hsafe : Along (World.step A ids) UntaggedPutIsSafe s ls) (ht : Trusted A ids t.history) :
    ∀ d v merges, .replaced d v merges ∈ t.log → v.writer = d ∨ ∃ settled, ⟨v.body, settled⟩ ∈ merges := by
  have hinv : Inv A ids t ∧ ReplacedKnown A ids t := by
    refine run_invariant (I := fun s => Inv A ids s ∧ ReplacedKnown A ids s) (fun s l s' hI hok h => ?_)
      ⟨hs.inv A ids, fun d v merges hmem => ?_⟩ hsafe hrun
    · exact ⟨step_inv hI.1 h, step_replacedKnown hI.1 hI.2 hok h⟩
    · rw [hs.log] at hmem
      cases hmem
  intro d v merges hmem
  obtain ⟨hv, hsha⟩ := hinv.2 d v merges hmem
  exact hsha.written_or_merged hv hinv.1.stamped ht

end Replaced

/-! ### The first push of a second device -/

/-- A device that is set up to sync and has one tag, `prod`. -/
def sampleStore : Store where
  filePath := some "config.json"
  current := some { AppConfig.default with
    sync := { SyncConfig.default with enabled := true, webdavUrl := "https://dav.example.com/" } }

def sampleDb (tagId : String) : Whole ParsedText :=
  .of { (Db.empty : Db ParsedText) with tags := Table.empty.set tagId ⟨⟨tagId, "prod", none, 5⟩, none⟩ } noRows.child

/-- Devices that have not synced yet; `db` are their databases. -/
def sampleWorld (db : Nat → Whole ParsedText) : World ParsedText where
  remote := none
  history := []
  devices d := ⟨sampleStore, fun _ => some "pw", db d, fun _ => none, []⟩
  log := []

/-- Install ids of the first two devices; the others do not take part. -/
def sampleIds (d : Nat) : Bytes := List.replicate 12 (if d = 0 then 0 else if d = 1 then 1 else 2)

theorem fresh_sampleWorld (db : Nat → Whole ParsedText) : (sampleWorld db).Fresh where
  remote := rfl
  history := rfl
  log := rfl
  verbs _ _ := rfl
  merges _ := rfl
  settings _ c hc := by
    cases hc
    exact ⟨rfl, rfl, rfl, rfl⟩

theorem sampleIds_inj {e : Nat} (he : e ≤ 1) (h : installIdOf (sampleIds d) = installIdOf (sampleIds e)) : d = e := by
  have h01 : installIdOf (sampleIds 0) ≠ installIdOf (sampleIds 1) := by decide
  have h20 : installIdOf (sampleIds 2) ≠ installIdOf (sampleIds 0) := by decide
  have h21 : installIdOf (sampleIds 2) ≠ installIdOf (sampleIds 1) := by decide
  rcases d with _ | _ | d
  · rcases e with _ | _ | e
    · rfl
    · exact absurd h h01
    · omega
  · rcases e with _ | _ | e
    · exact absurd h.symm h01
    · rfl
    · omega
  · have hd : sampleIds (d + 2) = sampleIds 2 := rfl
    rw [hd] at h
    rcases e with _ | _ | e
    · exact absurd h h20
    · exact absurd h h21
    · omega

/-- A push of the device `d`, from its start to the settings written back. -/
def pushBy (d i : Nat) (nowMs : Int64) (salt : Bytes) (etag : EntityTag) : List (Action ParsedText) :=
  [.pushStart d i nowMs, .pushCompose d i nowMs salt, .putServe d i etag true, .pushEnd d i]

/-- A pull of the device `d`, from its start to the settings written back. -/
def pullBy (d i : Nat) (nowMs : Int64) : List (Action ParsedText) :=
  [.pullStart d i, .getServe d i true, .pullRead d i nowMs, .pullEnd d i nowMs]

def tagOne : EntityTag := ⟨false, ['1'], rfl⟩
def tagTwo : EntityTag := ⟨false, ['2'], rfl⟩

/-- What the second device pushes first in the schedules below. -/
def peerSnapshot : FullImport ParsedText :=
  composeWhole ParsedText.codec (sampleDb "t1") 10 "1.0.0" (originStamp (installIdOf (sampleIds 1)) 10)

/-- The end of a schedule where the first device starts with `db`. -/
def pullsEnd (db : Whole ParsedText) (ls : List (Action ParsedText)) : Option (World ParsedText) :=
  run (World.step (plainActors [peerSnapshot]) sampleIds) (sampleWorld fun d => if d = 1 then sampleDb "t1" else db) ls

/-- Bodies that hash apart, of the first two devices; only those of the second one open. -/
def plainHistory (t : World ParsedText) : Bool :=
  decide ((t.history.map fun v => plainEnv.sha256Hex v.body).Nodup) &&
    t.history.all fun v => v.writer = 1 || (v.writer = 0 && !((plainSealing [peerSnapshot]).zip peerSnapshot).isSuffixOf v.body)

theorem trusted_pullsEnd {db : Whole ParsedText} {ls : List (Action ParsedText)} {t : World ParsedText}
    (h : pullsEnd db ls = some t) (hpeer : (pullsEnd db ls).map (fun t => (t.history.filter fun v => v.writer = 1).map
      Version.entries) = some [peerSnapshot]) (hplain : plainHistory t = true) :
    Trusted (plainActors [peerSnapshot]) sampleIds t.history := by
  rw [plainHistory, and_eq_true, decide_eq_true_eq, List.all_eq_true] at hplain
  rw [h, map_some, Option.some.injEq] at hpeer
  refine ⟨fun _ hv _ hw heq => inj_on_of_nodup_map hplain.1 hv hw heq, fun v hv passphrase q hq => ?_, fun v hv d hd => ?_⟩
  · obtain ⟨hknown, hsuffix⟩ := mem_of_parse_plain hq
    obtain rfl := mem_singleton.mp hknown
    rcases or_eq_true _ _ |>.mp (hplain.2 v hv) with hwriter | hown
    · have hmem : v.entries ∈ [peerSnapshot] := hpeer ▸ mem_map_of_mem (mem_filter.mpr ⟨hv, hwriter⟩)
      exact (mem_singleton.mp hmem).symm
    · rw [and_eq_true, isSuffixOf_iff_suffix.mpr hsuffix] at hown
      exact Bool.noConfusion hown.2
  · refine sampleIds_inj ?_ hd
    rcases or_eq_true _ _ |>.mp (hplain.2 v hv) with hwriter | hown
    · exact (of_decide_eq_true hwriter).le
    · rw [and_eq_true, decide_eq_true_eq] at hown
      omega

def untaggedPutIsSafe (s : World ParsedText) : Action ParsedText → Bool
  | .putServe d i _ _ =>
    match (s.devices d).verbs i with
    | some (.putting cfg _ _ _) => cfg.lastPushedEtag ≠ "" ||
      s.remote.all fun v => cfg.lastPulledEtag ≠ "" && etagText v.etag = cfg.lastPulledEtag
    | _ => true
  | _ => true

theorem untaggedPutIsSafe_of_test (s : World ParsedText) (l : Action ParsedText) (h : untaggedPutIsSafe s l = true) :
    UntaggedPutIsSafe s l := by
  rintro d i etag tell cfg nowMs body entries rfl hi hne v hv
  dsimp only [untaggedPutIsSafe] at h
  rw [hi, hv] at h
  exact .inr (by simpa [hne] using h)

/-- The first device pulls what the second one wrote, and then replaces it. -/
def pullAndReplace : List (Action ParsedText) := pushBy 1 0 10 [7] tagOne ++ pullBy 0 0 20 ++ pushBy 0 1 30 [8] tagTwo

theorem replaced_known_sample : ∃ t, pullsEnd noRows pullAndReplace = some t ∧
      (∃ v merges, v.writer = 1 ∧ .replaced 0 v merges ∈ t.log) ∧
      ∀ d v merges, .replaced d v merges ∈ t.log → v.writer = d ∨ ∃ settled, ⟨v.body, settled⟩ ∈ merges := by
  have hend : ((pullsEnd noRows pullAndReplace).any fun t => plainHistory t && t.log.any fun e =>
      match e with
      | .replaced d v _ => d == 0 && v.writer == 1
      | .upToDate _ _ _ => false) = true := by
    decide +kernel
  obtain ⟨t, ht, hend⟩ := any_eq_true _ _ |>.mp hend
  rw [and_eq_true] at hend
  obtain ⟨e, he, hevent⟩ := any_eq_true.mp hend.2
  refine ⟨t, ht, ?_, replaced_known (fresh_sampleWorld _) ht ?_ (trusted_pullsEnd ht rfl hend.1)⟩
  · rcases e with ⟨d, v, merges⟩ | ⟨d, v, merges⟩
    · rw [and_eq_true, beq_iff_eq, beq_iff_eq] at hevent
      obtain ⟨rfl, hwriter⟩ := hevent
      exact ⟨v, merges, hwriter, he⟩
    · cases hevent
  · exact along_of_checks untaggedPutIsSafe_of_test (by decide +kernel)

def pushFromBoth : List (Action ParsedText) := pushBy 1 0 10 [7] tagOne ++ pushBy 0 0 20 [8] tagTwo

/-- The first device has no tag to send and replaces what the second one wrote. -/
theorem first_push_replaces_peer : ¬ ∀ (ls : List (Action ParsedText)) (t : World ParsedText), pullsEnd noRows ls = some t →
      Trusted (plainActors [peerSnapshot]) sampleIds t.history →
      ∀ d v merges, .replaced d v merges ∈ t.log → v.writer = d ∨ ∃ settled, ⟨v.body, settled⟩ ∈ merges := by
  intro h
  have hend : ((pullsEnd noRows pushFromBoth).any fun t => plainHistory t && t.log.any fun e =>
      match e with
      | .replaced d v merges => d == 0 && v.writer == 1 && merges.isEmpty
      | .upToDate _ _ _ => false) = true := by
    decide +kernel
  obtain ⟨t, ht, hend⟩ := any_eq_true _ _ |>.mp hend
  rw [and_eq_true] at hend
  obtain ⟨e, he, hevent⟩ := any_eq_true.mp hend.2
  rcases e with ⟨d, v, merges⟩ | ⟨d, v, merges⟩
  · rw [and_eq_true, and_eq_true, beq_iff_eq, beq_iff_eq, List.isEmpty_iff] at hevent
    obtain ⟨⟨rfl, hwriter⟩, rfl⟩ := hevent
    rcases h pushFromBoth t ht (trusted_pullsEnd ht rfl hend.1) 0 v [] he with hown | ⟨settled, hmem⟩
    · rw [hwriter] at hown
      cases hown
    · cases hmem
  · cases hevent

/-! ## Skipped snapshots -/

section Skipped

variable (A : Actors Text) (ids : Nat → Bytes)

/-- A merge that the step runs applies every row, links and rows of the other tables too, or loses it to a newer one. -/
def MergesAllRows (s : World Text) (l : Action Text) : Prop :=
  ∀ d m, Merges A ids s l d m → m.settled = true

/-- Every merge so far settled all rows, also by the time a pull was found up to date. -/
structure AllRowsMerged (s : World Text) : Prop where
  merges : ∀ d, ∀ m ∈ (s.devices d).merges, m.settled = true
  log : ∀ d v merges, .upToDate d v merges ∈ s.log → ∀ m ∈ merges, m.settled = true

variable {A ids} {s s' : World Text}

theorem step_allRowsMerged (hI : AllRowsMerged s) (hok : MergesAllRows A ids s l)
    (h : s.step A ids l = some s') : AllRowsMerged s' := by
  rcases step_effect h with ⟨-, hlog, hm⟩ | ⟨w, cfg, -, -, hlog, hm⟩ | ⟨e, w, -, hlog, hm⟩ | ⟨e, m, hmerges, -, hlog, hm⟩
  · refine ⟨fun d m hmem => ?_, fun d v merges hmem => ?_⟩
    · exact hI.merges d m (hm d ▸ hmem)
    · exact hI.log d v merges (hlog ▸ hmem)
  · refine ⟨fun d m hmem => hI.merges d m (hm d ▸ hmem), fun d v merges hmem => ?_⟩
    rw [hlog, World.replacing] at hmem
    rcases hr : s.remote with _ | old
    · rw [hr] at hmem
      exact hI.log d v merges hmem
    · rw [hr] at hmem
      rcases mem_cons.mp hmem with hnew | hold
      · cases hnew
      · exact hI.log d v merges hold
  · refine ⟨fun d m hmem => hI.merges d m (hm d ▸ hmem), fun d v merges hmem => ?_⟩
    rw [hlog] at hmem
    rcases mem_cons.mp hmem with hnew | hold
    · cases hnew
      exact hI.merges _
    · exact hI.log d v merges hold
  · refine ⟨fun d m' hmem => ?_, fun d v merges hmem => hI.log d v merges (hlog ▸ hmem)⟩
    rw [hm d] at hmem
    split_ifs at hmem with hd
    · rcases mem_cons.mp hmem with rfl | hold
      · exact hok e m' hmerges
      · exact hI.merges e m' hold
    · exact hI.merges d m' hmem

end Skipped

/-! ### A tag whose name is taken -/

def mergesAllRows (A : Actors Text) (ids : Nat → Bytes) (s : World Text) : Action Text → Bool
  | .pullRead d i mergeMs =>
    match (s.devices d).verbs i with
    | some (.got cfg passphrase r _) =>
      match pullResponse A cfg passphrase (installIdOf (ids d)) r with
      | .ok (.merge pending _ _) => settled A.env.json pending (mergeWhole A.env mergeMs pending (s.devices d).db).2
      | _ => true
    | _ => true
  | _ => true

theorem mergesAllRows_of_test (s : World Text) (l : Action Text)
    (h : mergesAllRows A ids s l = true) : MergesAllRows A ids s l := by
  rintro d m ⟨i, mergeMs, cfg, passphrase, r, seen, pending, etag, sha256, rfl, hi, hresponse, rfl⟩
  dsimp only [mergesAllRows] at h
  rw [hi] at h
  dsimp only at h
  rw [hresponse] at h
  exact h

def pullTwice : List (Action ParsedText) := pushBy 1 0 10 [7] tagOne ++ pullBy 0 0 20 ++ pullBy 0 1 30

end LetsFlutSsh.Sync
