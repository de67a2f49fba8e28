import LetsFlutSsh.Lib.Run
import LetsFlutSsh.Sync.Service

/-!
# Overlapping writers of the configuration

Pushes, pulls and changes of the recordings cap copy a part of the configuration, work on it, and
write the whole part back later; changes of the tier and of the probe cache are one step.

* `Field`: the fields one of them writes, `AppConfig.read` their values;
* `Op`, `Label`, `step`: the operations under way and their steps, with the value that was written
  last to every field beside the store;
* `Writers.Holds`: every field has the value of the last operation that wrote it;
* `UpToDate`: a copy that is written back still agrees with the store outside its own fields;
* `holds_iff_upToDate`: the runs that hold throughout are the ones that only write such copies.
-/

namespace LetsFlutSsh.Sync
open Lib Config Archive Function

variable {Text : Type}

/-! ## Fields -/

/-- The fields written by the operations. -/
inductive Field where
  | pushedAt
  | pushedSha
  | pushedEtag
  | pulledAt
  | pulledEtag
  | pulledSha
  | tier
  | probeCache
  | storageCap
deriving DecidableEq

abbrev Field.Value : Field → Type
  | pushedAt => Int64
  | pushedSha => String
  | pushedEtag => String
  | pulledAt => Int64
  | pulledEtag => String
  | pulledSha => String
  | tier => Option SecurityTier
  | probeCache => Option SecurityCapabilities
  | storageCap => UInt64

abbrev Slices := (f : Field) → f.Value

def readField (c : AppConfig) : Slices
  | .pushedAt => c.sync.lastPushedAtMs
  | .pushedSha => c.sync.lastPushedSha256
  | .pushedEtag => c.sync.lastPushedEtag
  | .pulledAt => c.sync.lastPulledAtMs
  | .pulledEtag => c.sync.lastPulledEtag
  | .pulledSha => c.sync.lastPulledSha256
  | .tier => c.security.map SecurityConfig.tier
  | .probeCache => c.securityProbeCache
  | .storageCap => c.recordingsStorageCapBytes

abbrev Write := (f : Field) × f.Value

def record (ws : List Write) (v : Slices) : Slices := ws.foldl (fun v w => update v w.1 w.2) v

variable {ws : List Write}

theorem record_of_notMem {f : Field} (h : f ∉ ws.map Sigma.fst) (v : Slices) : record ws v f = v f := by
  induction ws generalizing v with
  | nil => rfl
  | cons w ws ih =>
    rw [List.map_cons, List.mem_cons, not_or] at h
    show record ws (update v w.1 w.2) f = v f
    rw [ih h.2, update_of_ne h.1]

theorem record_of_mem {f : Field} (h : f ∈ ws.map Sigma.fst) (v v' : Slices) :
    record ws v f = record ws v' f := by
  induction ws generalizing v v' with
  | nil => cases h
  | cons w ws ih =>
    show record ws (update v w.1 w.2) f = record ws (update v' w.1 w.2) f
    by_cases hf : f ∈ ws.map Sigma.fst
    · exact ih hf _ _
    · have hw : f = w.1 := (List.mem_cons.mp h).resolve_right hf
      subst hw
      rw [record_of_notMem hf, record_of_notMem hf, update_self, update_self]

theorem record_eq_iff (ws : List Write) (v v' : Slices) :
    record ws v = record ws v' ↔ ∀ f, f ∉ ws.map Sigma.fst → v f = v' f := by
  refine ⟨fun h f hf => ?_, fun h => ?_⟩
  · rw [← record_of_notMem hf v, h, record_of_notMem hf v']
  · funext f
    by_cases hf : f ∈ ws.map Sigma.fst
    · exact record_of_mem hf v v'
    · rw [record_of_notMem hf, record_of_notMem hf, h f hf]

/-! ## Operations -/

/-- An operation under way, with the copy it will write back. -/
inductive Op where
  | push (cfg : SyncConfig) (nowMs : Int64)
  | pull (cfg : SyncConfig)
  | setStorageCap (bytes : UInt64) (json : Json)

/-- One step of one operation. The ends of pushes and pulls carry what came from outside. -/
inductive Label (Text : Type) where
  | pushStart (i : Nat) (nowMs : Int64)
  | pushEnd (i : Nat) (bytes : Bytes) (r : Response)
  | pullStart (i : Nat)
  | pullEnd (i : Nat) (passphrase installId : String) (r : Response) (mergeMs nowMs : Int64) (db : Whole Text)
  | storageCapRead (i : Nat) (bytes : UInt64)
  | storageCapWrite (i : Nat)
  | fail (i : Nat)
  | updateSecurityTier (tier : SecurityTier)
  | updateSecurityProbeCache (caps : Option SecurityCapabilities)

/-- The store, the operations under way, and what was last written to every field. -/
structure Writers where
  store : Store
  ops : Nat → Option Op
  last : Slices

section Steps

variable (A : Actors Text)

/-- The settings a push writes back, and the fields of its own among them. -/
def pushWrite (cfg : SyncConfig) (nowMs : Int64) (bytes : Bytes) (r : Response) : Option (SyncConfig × List Write) :=
  if pushSkips cfg (A.env.sha256Hex bytes) then none
  else
    match pushOutcome A cfg nowMs bytes r with
    | .error _ => none
    | .ok (_, u) =>
      some (u, [⟨.pushedAt, u.lastPushedAtMs⟩, ⟨.pushedSha, u.lastPushedSha256⟩, ⟨.pushedEtag, u.lastPushedEtag⟩])

def pullFields (result : SyncResult) (u : SyncConfig) : List Write :=
  match result with
  | .pullApplied .. =>
    [⟨.pulledAt, u.lastPulledAtMs⟩, ⟨.pulledEtag, u.lastPulledEtag⟩, ⟨.pulledSha, u.lastPulledSha256⟩]
  | _ => [⟨.pulledEtag, u.lastPulledEtag⟩, ⟨.pulledSha, u.lastPulledSha256⟩]

/-- The settings a pull writes back, if any, and the fields of its own among them. -/
def pullWrite (cfg : SyncConfig) (passphrase installId : String) (r : Response) (mergeMs nowMs : Int64)
    (db : Whole Text) : Option (SyncConfig × List Write) :=
  match pullWithClient A cfg passphrase installId r mergeMs nowMs db with
  | .error _ => none
  | .ok (o, _) => o.updatedCfg.map fun u => (u, pullFields o.result u)

namespace Writers

/-- Start the operation `i`. -/
def begin (s : Writers) (i : Nat) (op : Op) : Writers := { s with ops := update s.ops i (some op) }

/-- End the operation `i`, with the store and the fields it wrote. -/
def finish (s : Writers) (i : Nat) (store : Store) (ws : List Write) : Writers where
  store := store
  ops := update s.ops i none
  last := record ws s.last

/-- End a push or a pull: write its settings back, if it has any. -/
def persist (s : Writers) (i : Nat) (w : Option (SyncConfig × List Write)) : Writers :=
  match w with
  | none => s.finish i s.store []
  | some (u, ws) =>
    match persistSync u s.store with
    | .error _ => s.finish i s.store []
    | .ok store => s.finish i store ws

end Writers

/-- One step. The clock is never read before the epoch: `now_unix_ms` returns zero there. -/
def step (s : Writers) : Label Text → Option Writers
  | .pushStart i nowMs =>
    if s.ops i = none ∧ 0 ≤ nowMs then
      match prepare s.store with
      | .error _ => none
      | .ok cfg => some (s.begin i (.push cfg nowMs))
    else none
  | .pushEnd i bytes r =>
    match s.ops i with
    | some (.push cfg nowMs) => some (s.persist i (pushWrite A cfg nowMs bytes r))
    | _ => none
  | .pullStart i =>
    if s.ops i = none then
      match prepare s.store with
      | .error _ => none
      | .ok cfg => some (s.begin i (.pull cfg))
    else none
  | .pullEnd i passphrase installId r mergeMs nowMs db =>
    match s.ops i with
    | some (.pull cfg) =>
      if 0 ≤ nowMs then some (s.persist i (pullWrite A cfg passphrase installId r mergeMs nowMs db)) else none
    | _ => none
  | .storageCapRead i bytes =>
    if s.ops i = none then
      match storageCapRead bytes s.store with
      | .error _ => none
      | .ok json => some (s.begin i (.setStorageCap bytes json))
    else none
  | .storageCapWrite i =>
    match s.ops i with
    | some (.setStorageCap bytes json) =>
      match s.store.setJson json with
      | .error _ => none
      | .ok store => some (s.finish i store [⟨.storageCap, AppConfig.sanitizedStorageCap bytes⟩])
    | _ => none
  | .fail i => some (s.finish i s.store [])
  | .updateSecurityTier tier =>
    match s.store.updateSecurityTier tier with
    | .error _ => none
    | .ok store => some { s with store := store, last := record [⟨.tier, some tier⟩] s.last }
  | .updateSecurityProbeCache caps =>
    match s.store.updateSecurityProbeCache caps with
    | .error _ => none
    | .ok store => some { s with store := store, last := record [⟨.probeCache, caps⟩] s.last }

/-- The copy a step writes back, put beside what the store holds, and the fields of its own. The
updates of the tier and the probe cache take their copy in the step itself. -/
def overwritten (s : Writers) : Label Text → Option ((AppConfig → AppConfig) × List Write)
  | .pushEnd i bytes r =>
    match s.ops i with
    | some (.push cfg nowMs) => (pushWrite A cfg nowMs bytes r).map fun w => (fun c => { c with sync := cfg }, w.2)
    | _ => none
  | .pullEnd i passphrase installId r mergeMs nowMs db =>
    match s.ops i with
    | some (.pull cfg) =>
      (pullWrite A cfg passphrase installId r mergeMs nowMs db).map fun w => (fun c => { c with sync := cfg }, w.2)
    | _ => none
  | .storageCapWrite i =>
    match s.ops i with
    | some (.setStorageCap bytes json) =>
      some (fun _ => AppConfig.fromJsonValue json, [⟨.storageCap, AppConfig.sanitizedStorageCap bytes⟩])
    | _ => none
  | .updateSecurityTier tier => some (id, [⟨.tier, some tier⟩])
  | .updateSecurityProbeCache caps => some (id, [⟨.probeCache, caps⟩])
  | _ => none

/-- The copy a step writes back agrees with the store on the fields that are not its own. -/
def UpToDate (s : Writers) (l : Label Text) : Prop :=
  ∀ copy ws, overwritten A s l = some (copy, ws) → ∀ c, s.store.current = some c →
    ∀ f, f ∉ ws.map Sigma.fst → readField (copy c) f = readField c f

end Steps

namespace Writers

def Finished (s : Writers) : Prop := ∀ i, s.ops i = none

/-- Every field has the value of the last operation that wrote it. -/
def Holds (s : Writers) : Prop := ∀ c, s.store.current = some c → readField c = s.last

def start (store : Store) (c : AppConfig) : Writers := ⟨store, fun _ => none, readField c⟩

end Writers

variable {A : Actors Text}

/-! ## What an operation writes -/

section Writes

variable {cfg u : SyncConfig}

/-- Settings that are not clamped when they are stored, and read as the copy `cfg` with `ws`. -/
structure WritesOver (cfg u : SyncConfig) (ws : List Write) : Prop where
  clean : u.sanitized = u
  reads : ∀ c : AppConfig, readField { c with sync := u } = record ws (readField { c with sync := cfg })

theorem pushWrite_spec {nowMs : Int64} {bytes : Bytes} {r : Response}
    (h : pushWrite A cfg nowMs bytes r = some (u, ws)) (hcfg : cfg.sanitized = cfg) (hnow : 0 ≤ nowMs) :
    WritesOver cfg u ws := by
  unfold pushWrite pushOutcome at h
  split at h
  · cases h
  split at h
  · cases h
  next result v hv =>
  split at hv
  · cases hv
  next etag _ =>
  cases hv
  cases h
  refine ⟨?_, fun c => ?_⟩
  · exact SyncConfig.sanitized_stamped hcfg hnow (SyncConfig.lastPulledAtMs_nonneg hcfg) _ _ _ _
  · funext f
    rcases f with _ | _ | _ | _ | _ | _ | _ | _ | _ <;> rfl

theorem pullWrite_spec {passphrase installId : String} {r : Response} {mergeMs nowMs : Int64} {db : Whole Text}
    (h : pullWrite A cfg passphrase installId r mergeMs nowMs db = some (u, ws)) (hcfg : cfg.sanitized = cfg)
    (hnow : 0 ≤ nowMs) : WritesOver cfg u ws := by
  unfold pullWrite at h
  split at h
  · cases h
  next o db' ho =>
  obtain ⟨v, hv, hw⟩ := Option.map_eq_some_iff.mp h
  cases hw
  obtain ⟨etag, sha, ⟨⟨s, k, t, n, hr⟩, rfl⟩ | ⟨hr, rfl⟩⟩ := pullWithClient_updated ho hv
  · rw [hr]
    refine ⟨?_, fun c => ?_⟩
    · exact SyncConfig.sanitized_stamped hcfg (SyncConfig.lastPushedAtMs_nonneg hcfg) hnow _ _ _ _
    · funext f
      rcases f with _ | _ | _ | _ | _ | _ | _ | _ | _ <;> rfl
  · rw [hr]
    refine ⟨?_, fun c => ?_⟩
    · exact SyncConfig.sanitized_stamped hcfg (SyncConfig.lastPushedAtMs_nonneg hcfg)
        (SyncConfig.lastPulledAtMs_nonneg hcfg) _ _ _ _
    · funext f
      rcases f with _ | _ | _ | _ | _ | _ | _ | _ | _ <;> rfl

end Writes

/-! ## Steps -/

/-- A copy whose values are the ones of some earlier configuration. -/
def Op.Clean : Op → Prop
  | .push cfg nowMs => cfg.sanitized = cfg ∧ 0 ≤ nowMs
  | .pull cfg => cfg.sanitized = cfg
  | .setStorageCap bytes json => ∃ c : AppConfig, json = .obj (c.withStorageCap bytes)

/-- What holds in every state: the store is initialised and the copies are clean. -/
structure Writers.Sound (s : Writers) : Prop where
  ready : ∃ c, s.store.Ready c
  ops : ∀ i op, s.ops i = some op → op.Clean

variable {store : Store} {c : AppConfig}

section Steps

variable {s s' : Writers} {l : Label Text}

theorem prepare_clean (hc : store.Ready c) {cfg : SyncConfig} (h : prepare store = .ok cfg) :
    cfg.sanitized = cfg := by
  obtain ⟨app, happ, rfl⟩ := prepare_eq_ok h
  rw [hc.current] at happ
  cases happ
  exact hc.clean.sync

namespace Writers

theorem clean_update {ops : Nat → Option Op} (hops : ∀ i op, ops i = some op → op.Clean) (i : Nat)
    {o : Option Op} (ho : ∀ op, o = some op → op.Clean) :
    ∀ j op, update ops i o j = some op → op.Clean := by
  intro j op h
  by_cases hj : j = i
  · subst hj
    rw [update_self] at h
    exact ho op h
  · rw [update_of_ne hj] at h
    exact hops j op h

theorem Sound.begin (hs : s.Sound) (i : Nat) {op : Op} (hop : op.Clean) : (s.begin i op).Sound where
  ready := hs.ready
  ops := clean_update hs.ops i fun _ h => Option.some.inj h ▸ hop

theorem Sound.finish (hs : s.Sound) (i : Nat) (hstore : store.Ready c) (ws : List Write) :
    (s.finish i store ws).Sound where
  ready := ⟨c, hstore⟩
  ops := clean_update hs.ops i fun _ h => nomatch h

end Writers

/-- What one step does to the store that holds `c`: nothing, or the copy it writes back, with the
step's own fields, becomes the configuration. -/
structure Wrote (s : Writers) (c : AppConfig) (w : Option ((AppConfig → AppConfig) × List Write)) (s' : Writers) :
    Prop where
  sound : s'.Sound
  kept : w = none → s'.store = s.store ∧ s'.last = s.last
  written : ∀ copy ws, w = some (copy, ws) → s'.last = record ws s.last ∧
    ∃ c', s'.store.Ready c' ∧ readField c' = record ws (readField (copy c))

theorem Wrote.of_kept (h : s'.Sound) (hstore : s'.store = s.store) (hlast : s'.last = s.last) : Wrote s c none s' :=
  ⟨h, fun _ => ⟨hstore, hlast⟩, fun _ _ hw => nomatch hw⟩

theorem wrote_finish (hs : s.Sound) (hc : s.store.Ready c) (i : Nat) {c' : AppConfig} (hc' : Clean c')
    {copy : AppConfig → AppConfig} (hread : readField c' = record ws (readField (copy c))) :
    Wrote s c (some (copy, ws)) (s.finish i (s.store.put c') ws) where
  sound := hs.finish i (hc.put hc') ws
  kept h := nomatch h
  written := by
    intro copy' ws' h
    cases h
    exact ⟨rfl, c', hc.put hc', hread⟩

theorem wrote_persist (hs : s.Sound) (hc : s.store.Ready c) (i : Nat) (cfg : SyncConfig)
    {w : Option (SyncConfig × List Write)} (hw : ∀ u ws, w = some (u, ws) → WritesOver cfg u ws) :
    Wrote s c (w.map fun w => (fun c => { c with sync := cfg }, w.2)) (s.persist i w) := by
  rcases w with _ | ⟨u, ws⟩
  · exact .of_kept (hs.finish i hc []) rfl rfl
  have hu := hw u ws rfl
  have hpersist : persistSync u s.store = .ok (s.store.put { c with sync := u }) := by
    unfold persistSync
    rw [hc.updateSync u, hu.clean]
    rfl
  have hend : s.persist i (some (u, ws)) = s.finish i (s.store.put { c with sync := u }) ws := by
    simp only [Writers.persist, hpersist]
  have hclean : Clean { c with sync := u } := ⟨hu.clean, hc.clean.cap⟩
  rw [hend]
  exact wrote_finish hs hc i hclean (hu.reads c)

theorem storageCap_fromJsonValue {bytes : UInt64} {json : Json} (h : (Op.setStorageCap bytes json).Clean) :
    (AppConfig.fromJsonValue json).recordingsStorageCapBytes = AppConfig.sanitizedStorageCap bytes := by
  obtain ⟨c, rfl⟩ := h
  exact c.fromJsonObject_withStorageCap_cap bytes

theorem wrote_slice (hs : s.Sound) {c' : AppConfig} (hstore : store.Ready c')
    (hread : readField c' = record ws (readField c)) :
    Wrote s c (some (id, ws)) { s with store := store, last := record ws s.last } where
  sound := ⟨⟨c', hstore⟩, hs.ops⟩
  kept h := nomatch h
  written := by
    intro copy' ws' h
    cases h
    exact ⟨rfl, c', hstore, hread⟩

theorem step_wrote (hs : s.Sound) (hc : s.store.Ready c) (h : step A s l = some s') : Wrote s c (overwritten A s l) s' := by
  rcases l with ⟨i, nowMs⟩ | ⟨i, bytes, r⟩ | i | ⟨i, passphrase, installId, r, mergeMs, nowMs, db⟩ |
    ⟨i, bytes⟩ | i | i | tier | caps
  · dsimp only [step] at h
    split_ifs at h with hi
    split at h
    · cases h
    · next cfg hcfg =>
      cases h
      exact .of_kept (hs.begin i ⟨prepare_clean hc hcfg, hi.2⟩) rfl rfl
  · dsimp only [step] at h
    split at h
    · next cfg nowMs hi =>
      cases h
      have hclean := hs.ops i _ hi
      dsimp only [overwritten]
      rw [hi]
      exact wrote_persist hs hc i cfg fun u ws hw => pushWrite_spec hw hclean.1 hclean.2
    · cases h
  · dsimp only [step] at h
    split_ifs at h with hi
    split at h
    · cases h
    · next cfg hcfg =>
      cases h
      have hcfg' : (Op.pull cfg).Clean := prepare_clean hc hcfg
      exact .of_kept (hs.begin i hcfg') rfl rfl
  · dsimp only [step] at h
    split at h
    · next cfg hi =>
      split_ifs at h with hnow
      cases h
      have hclean := hs.ops i _ hi
      dsimp only [overwritten]
      rw [hi]
      exact wrote_persist hs hc i cfg fun u ws hw => pullWrite_spec hw hclean hnow
    · cases h
  · dsimp only [step] at h
    split_ifs at h with hi
    rw [hc.storageCapRead bytes] at h
    cases h
    exact .of_kept (hs.begin i ⟨c, rfl⟩) rfl rfl
  · dsimp only [step] at h
    split at h
    · next bytes json hi =>
      have hcap := storageCap_fromJsonValue (hs.ops i _ hi)
      have hclean := clean_fromJsonValue json
      rw [hc.setJson] at h
      cases h
      dsimp only [overwritten]
      rw [hi]
      refine wrote_finish hs hc i hclean ?_
      -- the copy already holds the new cap, so writing the field again changes nothing
      symm
      apply update_eq_self_iff.mpr
      exact hcap.symm
    · cases h
  · cases h
    exact .of_kept (hs.finish i hc []) rfl rfl
  · dsimp only [step] at h
    unfold Store.updateSecurityTier at h
    rw [hc.update] at h
    cases h
    dsimp only
    split_ifs with hsame
    · refine wrote_slice hs hc ?_
      symm
      apply update_eq_self_iff.mpr
      show some tier = c.security.map SecurityConfig.tier
      rw [hsame]
      rfl
    · have hclean : Clean { c with security := some ⟨tier,
          (c.security.map SecurityConfig.modifiers).getD SecurityTierModifiers.default⟩ } :=
        ⟨hc.clean.sync, hc.clean.cap⟩
      refine wrote_slice hs (hc.put hclean) ?_
      funext f
      rcases f with _ | _ | _ | _ | _ | _ | _ | _ | _ <;> rfl
  · dsimp only [step] at h
    unfold Store.updateSecurityProbeCache at h
    rw [hc.update] at h
    cases h
    have hclean : Clean { c with securityProbeCache := caps } := ⟨hc.clean.sync, hc.clean.cap⟩
    refine wrote_slice hs (hc.put hclean) ?_
    funext f
    rcases f with _ | _ | _ | _ | _ | _ | _ | _ | _ <;> rfl

theorem holds_step_iff (hs : s.Sound) (hI : s.Holds) (h : step A s l = some s') : s'.Holds ↔ UpToDate A s l := by
  obtain ⟨c, hc⟩ := hs.ready
  have hw := step_wrote hs hc h
  rcases ho : overwritten A s l with _ | ⟨copy, ws⟩
  · obtain ⟨hstore, hlast⟩ := hw.kept ho
    refine ⟨fun _ copy ws h' => ?_, fun _ c' hc' => ?_⟩
    · rw [ho] at h'
      cases h'
    · rw [hstore] at hc'
      rw [hlast]
      exact hI c' hc'
  · obtain ⟨hlast, c', hc', hread⟩ := hw.written copy ws ho
    have hnow : readField c = s.last := hI c hc.current
    have hholds : s'.Holds ↔ record ws (readField (copy c)) = record ws (readField c) := by
      rw [← hread, hnow, ← hlast]
      refine ⟨fun h => h c' hc'.current, fun h c'' hc'' => ?_⟩
      rw [hc'.current] at hc''
      cases hc''
      exact h
    rw [hholds, record_eq_iff]
    refine ⟨fun h copy' ws' h' c'' hc'' => ?_, fun h => h copy ws ho c hc.current⟩
    rw [ho] at h'
    cases h'
    rw [hc.current] at hc''
    cases hc''
    exact h

end Steps

/-! ## Runs -/

theorem Writers.Sound.start (h : store.Ready c) : (Writers.start store c).Sound where
  ready := ⟨c, h⟩
  ops _ _ hop := nomatch hop

/-- **Exactly the runs that only write copies back that are up to date** keep the value of the last
operation that wrote it in every field, in every state on the way and so also when all is finished. -/
theorem holds_iff_upToDate (A : Actors Text) {path : String} {file : Option (Except String Json)} {store : Store}
    {c : AppConfig} {ls : List (Label Text)} {t : Writers} (hinit : Store.init path file = .ok store)
    (hc : store.current = some c) (hrun : run (step A) (.start store c) ls = some t) :
    (∀ pre, pre <+: ls → ∀ u, run (step A) (.start store c) pre = some u → u.Holds) ↔
      Along (step A) (UpToDate A) (.start store c) ls := by
  obtain ⟨c', hready⟩ := Store.ready_init hinit
  rw [hready.current] at hc
  cases hc
  refine run_invariant_iff (J := Writers.Sound) (fun s l s' hs h => ?_) (fun s l s' hs hI h => ?_)
    (Writers.Sound.start hready) (fun c'' h => ?_) hrun
  · obtain ⟨c, hc⟩ := hs.ready
    exact (step_wrote hs hc h).sound
  · exact holds_step_iff hs hI h
  · have h' : store.current = some c'' := h
    rw [hready.current] at h'
    cases h'
    rfl

/-! ### A tier is lost -/

def freshStore : Store := ⟨some "config.json", some AppConfig.default, none⟩

def tierDuringCap : List (Label ParsedText) :=
  [.storageCapRead 0 1000, .updateSecurityTier .keychain, .storageCapWrite 0]

theorem holds_iff_upToDate_sample : Store.init "config.json" none = .ok freshStore ∧
      (run (step (plainActors [])) (.start freshStore AppConfig.default) tierDuringCap).isSome = true ∧
      ((∀ pre, pre <+: tierDuringCap → ∀ u,
          run (step (plainActors [])) (.start freshStore AppConfig.default) pre = some u → u.Holds) ↔
        Along (step (plainActors [])) (UpToDate (plainActors [])) (.start freshStore AppConfig.default) tierDuringCap) := by
  have hinit : Store.init "config.json" none = .ok freshStore := rfl
  have hrun : (run (step (plainActors [])) (.start freshStore AppConfig.default) tierDuringCap).isSome = true := rfl
  obtain ⟨t, ht⟩ := Option.isSome_iff_exists.mp hrun
  exact ⟨hinit, hrun, holds_iff_upToDate (plainActors []) hinit rfl ht⟩

/-- The cap is written back with the configuration it was read from, and the tier set in between is
gone when both operations are finished. -/
theorem tier_lost_during_cap : ¬ ∀ (ls : List (Label ParsedText)) (t : Writers),
      run (step (plainActors [])) (.start freshStore AppConfig.default) ls = some t → t.Finished → t.Holds := by
  intro h
  have hrun : (run (step (plainActors [])) (.start freshStore AppConfig.default) tierDuringCap).isSome = true := rfl
  have hfinished : ((run (step (plainActors [])) (.start freshStore AppConfig.default) tierDuringCap).get hrun).Finished := by
    intro i
    rcases i with _ | i <;> rfl
  have hholds := h tierDuringCap _ (Option.some_get hrun).symm hfinished
    (AppConfig.fromJsonValue (.obj (AppConfig.default.withStorageCap 1000))) rfl
  have hstored : readField (AppConfig.fromJsonValue (.obj (AppConfig.default.withStorageCap 1000))) .tier = none :=
    congrArg (Option.map SecurityConfig.tier) (AppConfig.default.fromJsonObject_withStorageCap_security 1000)
  rw [hholds] at hstored
  cases hstored

end LetsFlutSsh.Sync
