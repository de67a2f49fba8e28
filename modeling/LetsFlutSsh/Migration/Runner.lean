import LetsFlutSsh.Lib.Json
import Mathlib.Data.Fintype.EquivFin
import Mathlib.Order.WellFounded

/-!
# Migrations at startup

`migration/mod.rs` and its registry. `σ` is the support directory as far as artefacts and migrations see it; versions are
integers in the range of `i32`.

* `Registry` : artefacts, migrations, and what is migrated after what;
* `topoSort` : the order of the artefacts; `Kahn` : what its loop keeps;
* `migrateArtefact`, `walkChain` : one artefact; the fuel bounds the steps of a chain;
* `runOnStartup` : the report of a start, and the directory it leaves;
* `startup_laws` : when there is an order, and what a start without a fatal error does.
-/

namespace LetsFlutSsh.Migrations
open Lib List Option Function

structure Artefact (σ : Type) where
  id : String
  targetVersion : Int
  readVersion : σ → Except String Int

structure Migration (σ : Type) where
  artefactId : String
  sourceVersion : Int
  targetVersion : Int
  apply : σ → Except String Unit × σ

/-- The map of dependencies is a list in the order in which the map is walked; a key stands in it once. -/
structure Registry (σ : Type) where
  artefacts : List (Artefact σ) := []
  migrations : List (Migration σ) := []
  dependencies : List (String × List String) := []

structure Step where
  artefactId : String
  fromVersion : Int
  toVersion : Int
  succeeded : Bool
  error : Option String
  deriving DecidableEq

structure UnsupportedFutureVersion where
  artefactId : String
  onDiskVersion : Int
  knownTargetVersion : Int
  deriving DecidableEq

structure Report where
  steps : List Step := []
  futureVersions : List UnsupportedFutureVersion := []
  fatalError : Option String := none
  deriving DecidableEq

inductive ArtefactOutcome
  | ok
  | future (f : UnsupportedFutureVersion)
  | fatal (e : String)
  deriving DecidableEq

variable {σ : Type}

/-! ## The order -/

namespace Registry

/-- `id_to_idx`: of two artefacts with one id the later one. -/
def idToIdx (R : Registry σ) (id : String) : Option Nat :=
  (R.artefacts.zipIdx.reverse.find? fun e => e.1.id = id).map Prod.snd

/-- The pairs of a prerequisite and its dependant; what is not registered is passed over. -/
def edges (R : Registry σ) : List (Nat × Nat) :=
  R.dependencies.flatMap fun e => (R.idToIdx e.1).elim [] fun dep =>
    e.2.filterMap fun pre => (R.idToIdx pre).map fun pre => (pre, dep)

def adjacency (R : Registry σ) (i : Nat) : List Nat := (R.edges.filter fun e => e.1 = i).map Prod.snd

def indegree (R : Registry σ) (i : Nat) : Nat := R.edges.countP fun e => e.2 = i

end Registry

/-- One more prerequisite of `next` is done; the queue is a stack whose top is its last element. -/
def release (s : (Nat → Nat) × List Nat) (next : Nat) : (Nat → Nat) × List Nat :=
  let indegree := update s.1 next (s.1 next - 1)
  (indegree, if indegree next = 0 then s.2 ++ [next] else s.2)

/-- The loop over the queue; `none` where the fuel ends before it. -/
def drain (adjacency : Nat → List Nat) : Nat → (Nat → Nat) → List Nat → List Nat → Option (List Nat)
  | 0, _, _, _ => none
  | fuel + 1, indegree, queue, ordered =>
    match queue.getLast? with
    | none => some ordered
    | some i =>
      let s := (adjacency i).foldl release (indegree, queue.dropLast)
      drain adjacency fuel s.1 s.2 (ordered ++ [i])

/-- Every artefact enters the queue once, so there are at most as many rounds as artefacts, and a last one. -/
def topoSort (R : Registry σ) : Except String (List Nat) :=
  let n := R.artefacts.length
  match drain R.adjacency (n + 1) R.indegree ((List.range n).filter fun i => R.indegree i = 0) [] with
  | some ordered => if ordered.length = n then .ok ordered else .error "cycle in migration dependencies"
  | none => .error "cycle in migration dependencies"

/-! ## One artefact -/

def findMigration (R : Registry σ) (artefactId : String) (source : Int) : Option (Migration σ) :=
  R.migrations.find? fun m => m.artefactId = artefactId ∧ m.sourceVersion = source

/-- The directory, and the steps so far. -/
abbrev Running (σ : Type) := σ × List Step

def walkChain (R : Registry σ) (a : Artefact σ) : Nat → Int → Running σ → Option (ArtefactOutcome × Running σ)
  | 0, _, _ => none
  | fuel + 1, current, s =>
    if current < a.targetVersion then
      match findMigration R a.id current with
      | none =>
        let err := "no migration registered for " ++ a.id ++ " from version " ++ toString current
        some (.fatal err, (s.1, s.2 ++ [⟨a.id, current, current + 1, false, some err⟩]))
      | some m =>
        match m.apply s.1 with
        | (.ok (), dir) =>
          walkChain R a fuel m.targetVersion (dir, s.2 ++ [⟨a.id, m.sourceVersion, m.targetVersion, true, none⟩])
        | (.error e, dir) =>
          some (.fatal e, (dir, s.2 ++ [⟨a.id, m.sourceVersion, m.targetVersion, false, some e⟩]))
    else some (.ok, s)

def migrateArtefact (R : Registry σ) (fuel : Nat) (a : Artefact σ) (s : Running σ) : Option (ArtefactOutcome × Running σ) :=
  match a.readVersion s.1 with
  | .error e => some (.fatal (a.id ++ ": " ++ e), s)
  | .ok onDisk =>
    if onDisk < 0 then some (.ok, s)
    else if onDisk = a.targetVersion then some (.ok, s)
    else if a.targetVersion < onDisk then some (.future ⟨a.id, onDisk, a.targetVersion⟩, s)
    else walkChain R a fuel onDisk s

/-! ## The start -/

/-- The loop over the artefacts; the first fatal error ends it. -/
def runOrdered (R : Registry σ) (fuel : Nat) : List Nat → List UnsupportedFutureVersion → Running σ → Option (Report × σ)
  | [], future, s => some (⟨s.2, future, none⟩, s.1)
  | i :: rest, future, s =>
    match R.artefacts[i]? with
    | none => runOrdered R fuel rest future s
    | some a =>
      (migrateArtefact R fuel a s).bind fun r => match r.1 with
        | .ok => runOrdered R fuel rest future r.2
        | .future f => runOrdered R fuel rest (future ++ [f]) r.2
        | .fatal e => some (⟨r.2.2, future, some e⟩, r.2.1)

/-- `run_on_startup`; nothing where the fuel ends before a chain. -/
def runOnStartup (R : Registry σ) (fuel : Nat) (dir : σ) : Option (Report × σ) :=
  match topoSort R with
  | .error e => some ({ fatalError := some e }, dir)
  | .ok ordered => runOrdered R fuel ordered [] (dir, [])

/-! ## The order is one of the dependencies -/

section Order

variable {E : List (Nat × Nat)} {n i : Nat} {d : Nat → Nat} {queue ordered : List Nat}

def succs (E : List (Nat × Nat)) (i : Nat) : List Nat := (E.filter fun e => e.1 = i).map Prod.snd

/-- What holds before every round of the loop. -/
structure Kahn (E : List (Nat × Nat)) (n : Nat) (d : Nat → Nat) (queue ordered : List Nat) : Prop where
  degree : ∀ j, d j = E.countP fun e => e.2 = j ∧ e.1 ∉ ordered
  nodup : (ordered ++ queue).Nodup
  ready : ∀ j, j ∈ ordered ++ queue ↔ j < n ∧ d j = 0
  sorted : ∀ e ∈ E, e.2 ∈ ordered → ordered.idxOf e.1 < ordered.idxOf e.2

theorem foldl_release (queue js : List Nat) (base : Nat → Nat) (h : ∀ j, d j = base j + js.count j) :
    (∀ j, (js.foldl release (d, queue)).1 j = base j) ∧ ∃ new, (js.foldl release (d, queue)).2 = queue ++ new ∧ new.Nodup ∧
      ∀ j, j ∈ new ↔ j ∈ js ∧ base j = 0 := by
  induction js generalizing d queue with
  | nil => exact ⟨fun j => by simpa using h j, [], by simp⟩
  | cons next js ih =>
    have hnext := h next
    rw [count_cons_self] at hnext
    have hd : ∀ j, update d next (d next - 1) j = base j + js.count j := by
      intro j
      rcases eq_or_ne j next with rfl | hne
      · rw [update_self]
        omega
      · rw [update_of_ne hne, h j, count_cons_of_ne hne.symm]
    have hzero : d next - 1 = 0 ↔ base next = 0 ∧ next ∉ js := by
      rw [← count_eq_zero]
      omega
    rw [foldl_cons, release, update_self]
    obtain ⟨hbase, new, hqueue, hnodup, hmem⟩ := ih (if d next - 1 = 0 then queue ++ [next] else queue) hd
    refine ⟨hbase, (if d next - 1 = 0 then [next] else []) ++ new, ?_, ?_, fun j => ?_⟩
    · rw [hqueue]
      split_ifs <;> simp
    · split_ifs with hlast
      · exact nodup_cons.2 ⟨fun hin => (hzero.1 hlast).2 ((hmem _).1 hin).1, hnodup⟩
      · exact hnodup
    · rw [mem_append, hmem, mem_cons]
      split_ifs with hlast
      · rw [mem_singleton]
        constructor
        · rintro (rfl | hj)
          · exact ⟨.inl rfl, (hzero.1 hlast).1⟩
          · exact ⟨.inr hj.1, hj.2⟩
        · rintro ⟨rfl | hj, hb⟩
          · exact .inl rfl
          · exact .inr ⟨hj, hb⟩
      · rw [or_iff_right not_mem_nil]
        refine and_congr_left fun hb => ⟨.inr, ?_⟩
        rintro (rfl | hj)
        · by_contra hnot
          exact hlast (hzero.2 ⟨hb, hnot⟩)
        · exact hj

theorem countP_done (hi : i ∉ ordered) (j : Nat) : (E.countP fun e => e.2 = j ∧ e.1 ∉ ordered) =
    (E.countP fun e => e.2 = j ∧ e.1 ∉ ordered ++ [i]) + (succs E i).count j := by
  induction E with
  | nil => rfl
  | cons e E ih =>
    unfold succs at ih ⊢
    rw [countP_cons, countP_cons, ih, filter_cons]
    by_cases hei : e.1 = i
    all_goals
      by_cases hej : e.2 = j
      all_goals simp [hei, hej, hi]
    all_goals omega

namespace Kahn

theorem before (h : Kahn E n d queue ordered) {e : Nat × Nat} (he : e ∈ E) (hj : e.2 ∈ ordered ++ queue) : e.1 ∈ ordered := by
  have hzero := ((h.ready _).1 hj).2
  rw [h.degree, countP_eq_zero] at hzero
  simpa using hzero e he

theorem length_le (h : Kahn E n d queue ordered) : (ordered ++ queue).length ≤ n := by
  have hsub : ordered ++ queue ⊆ List.range n := fun j hj => mem_range.2 ((h.ready j).1 hj).1
  simpa using (h.nodup.subperm hsub).length_le

theorem round (hE : ∀ e ∈ E, e.2 < n) (h : Kahn E n d (queue ++ [i]) ordered) :
    Kahn E n ((succs E i).foldl release (d, queue)).1 ((succs E i).foldl release (d, queue)).2 (ordered ++ [i]) := by
  have hi : i ∉ ordered := fun hmem => (nodup_append'.1 h.nodup).2.2 hmem (by simp)
  have hd : ∀ j, d j = (E.countP fun e => e.2 = j ∧ e.1 ∉ ordered ++ [i]) + (succs E i).count j := fun j => by
    rw [h.degree, countP_done hi]
  have hold : ∀ j, j ∈ ordered ++ [i] ++ queue ↔ j < n ∧ d j = 0 := fun j => by
    rw [← h.ready]
    simp only [mem_append]
    tauto
  obtain ⟨hdegree, new, hqueue, hnodup, hmem⟩ := foldl_release queue (succs E i) _ hd
  refine ⟨hdegree, ?_, fun j => ?_, fun e he hj => ?_⟩
  · rw [hqueue, ← append_assoc]
    refine (Perm.nodup_iff ?_).1 h.nodup |>.append hnodup fun j hj hnew => ?_
    · rw [append_assoc]
      exact perm_append_comm.append_left _
    · have hzero := ((hold j).1 hj).2
      have hpos := count_pos_iff.2 ((hmem j).1 hnew).1
      rw [hd] at hzero
      omega
  · rw [hqueue, hdegree, ← append_assoc, mem_append, hold, hmem, hd]
    constructor
    · rintro (⟨hj, hzero⟩ | ⟨hj, hzero⟩)
      · exact ⟨hj, by omega⟩
      · obtain ⟨e, he, rfl⟩ := mem_map.1 hj
        exact ⟨hE e (mem_of_mem_filter he), hzero⟩
    · rintro ⟨hj, hzero⟩
      rw [hzero, Nat.zero_add, count_eq_zero]
      by_cases hsucc : j ∈ succs E i
      · exact .inr ⟨hsucc, rfl⟩
      · exact .inl ⟨hj, hsucc⟩
  · have hpre : e.1 ∈ ordered := h.before he (by
      rw [mem_append] at hj ⊢
      exact hj.imp_right fun hj => mem_append_right _ hj)
    rw [idxOf_append_of_mem hpre]
    by_cases hdone : e.2 ∈ ordered
    · rw [idxOf_append_of_mem hdone]
      exact h.sorted e he hdone
    · rw [idxOf_append_of_notMem hdone]
      exact Nat.lt_add_right _ (idxOf_lt_length_of_mem hpre)

end Kahn

theorem drain_kahn (hE : ∀ e ∈ E, e.2 < n) (fuel : Nat) (h : Kahn E n d queue ordered) (hfuel : n < fuel + ordered.length) :
    ∃ d' out, drain (succs E) fuel d queue ordered = some out ∧ Kahn E n d' [] out := by
  induction fuel generalizing d queue ordered with
  | zero =>
    have hle := h.length_le
    rw [length_append] at hle
    omega
  | succ fuel ih =>
    rw [drain]
    rcases eq_nil_or_concat queue with rfl | ⟨queue, i, rfl⟩
    · exact ⟨d, ordered, rfl, h⟩
    · rw [concat_eq_append] at h ⊢
      rw [getLast?_concat, dropLast_concat]
      exact ih (h.round hE) (by rw [length_append]; simp; omega)

namespace Kahn

theorem subset (h : Kahn E n d [] ordered) : ordered.Nodup ∧ ordered ⊆ List.range n := by
  have hnodup := h.nodup
  rw [append_nil] at hnodup
  exact ⟨hnodup, fun j hj => mem_range.2 ((h.ready j).1 (by simpa using hj)).1⟩

theorem perm (h : Kahn E n d [] ordered) (hlength : ordered.length = n) : ordered.Perm (List.range n) :=
  (h.subset.1.subperm h.subset.2).perm_of_length_le (by simp [hlength])

theorem idxOf_lt (hE : ∀ e ∈ E, e.2 < n) (h : Kahn E n d [] ordered) (hlength : ordered.length = n) {i j : Nat}
    (he : (i, j) ∈ E) : ordered.idxOf i < ordered.idxOf j :=
  h.sorted (i, j) he ((h.perm hlength).mem_iff.2 (mem_range.2 (hE _ he)))

/-- With nothing left to do, all is done where the dependencies have no cycle. -/
theorem all_iff (hE : ∀ e ∈ E, e.1 < n ∧ e.2 < n) (h : Kahn E n d [] ordered) :
    ordered.length = n ↔ ∀ i, ¬Relation.TransGen (fun i j => (i, j) ∈ E) i i := by
  constructor
  · intro hlength i hcycle
    have hlt : ∀ {i j}, Relation.TransGen (fun i j => (i, j) ∈ E) i j → ordered.idxOf i < ordered.idxOf j := by
      intro i j hij
      induction hij with
      | single he => exact h.idxOf_lt (fun e he => (hE e he).2) hlength he
      | tail _ he ih => exact ih.trans (h.idxOf_lt (fun e he => (hE e he).2) hlength he)
    exact Nat.lt_irrefl _ (hlt hcycle)
  · intro hacyclic
    let below : Fin n → Fin n → Prop := Relation.TransGen fun i j => (i.1, j.1) ∈ E
    have : IsTrans (Fin n) below := ⟨fun _ _ _ => .trans⟩
    have : Std.Irrefl below := ⟨fun i hi => hacyclic i.1 (hi.lift Fin.val fun _ _ he => he)⟩
    have hall : ∀ i : Fin n, i.1 ∈ ordered := by
      intro i
      induction i using (Finite.wellFounded_of_trans_of_irrefl below).induction with
      | h i ih =>
        have hzero : d i = 0 := by
          rw [h.degree, countP_eq_zero]
          intro e he hleft
          simp only [decide_eq_true_eq] at hleft
          exact hleft.2 (ih ⟨e.1, (hE e he).1⟩ (.single (hleft.1 ▸ he)))
        simpa using (h.ready i).2 ⟨i.2, hzero⟩
    have hle := (nodup_range.subperm fun j hj => hall ⟨j, mem_range.1 hj⟩).length_le
    have hle' := (h.subset.1.subperm h.subset.2).length_le
    rw [length_range] at hle hle'
    omega

end Kahn

end Order

/-- `id` waits for `pre`. -/
def Registry.After (R : Registry σ) (pre id : String) : Prop := ∃ pres, (id, pres) ∈ R.dependencies ∧ pre ∈ pres

/-- The first of two registered artefacts is a prerequisite of the second. -/
def Registry.Before (R : Registry σ) (i j : Nat) : Prop :=
  ∃ a b, R.artefacts[i]? = some a ∧ R.artefacts[j]? = some b ∧ R.After a.id b.id

variable {R : Registry σ}

theorem idToIdx_eq_some_iff (hids : (R.artefacts.map Artefact.id).Nodup) {id : String} {i : Nat} :
    R.idToIdx id = some i ↔ ∃ a, R.artefacts[i]? = some a ∧ a.id = id := by
  unfold Registry.idToIdx
  rw [map_eq_some_iff]
  constructor
  · rintro ⟨⟨a, k⟩, hfind, rfl⟩
    have hmem := mem_reverse.1 (mem_of_find?_eq_some hfind)
    exact ⟨a, mk_mem_zipIdx_iff_getElem?.1 hmem, by simpa using find?_some hfind⟩
  rintro ⟨a, ha, rfl⟩
  have hmem : (a, i) ∈ R.artefacts.zipIdx.reverse := mem_reverse.2 (mk_mem_zipIdx_iff_getElem?.2 ha)
  have hsome : (R.artefacts.zipIdx.reverse.find? fun e => e.1.id = a.id).isSome :=
    find?_isSome.2 ⟨_, hmem, decide_eq_true rfl⟩
  obtain ⟨⟨b, k⟩, hfind⟩ := isSome_iff_exists.1 hsome
  have hk := mk_mem_zipIdx_iff_getElem?.1 (mem_reverse.1 (mem_of_find?_eq_some hfind))
  have hid := find?_some hfind
  rw [decide_eq_true_eq] at hid
  have hlt : k < (R.artefacts.map Artefact.id).length := by
    rw [length_map]
    exact (List.getElem?_eq_some_iff.1 hk).1
  refine ⟨_, hfind, (getElem?_inj hlt hids).1 ?_⟩
  rw [getElem?_map, getElem?_map, hk, ha, map_some, map_some, hid]

theorem mem_edges_iff (hids : (R.artefacts.map Artefact.id).Nodup) {i j : Nat} : (i, j) ∈ R.edges ↔ R.Before i j := by
  have hidx {id i} := @idToIdx_eq_some_iff _ _ hids id i
  unfold Registry.edges Registry.Before Registry.After
  rw [mem_flatMap]
  constructor
  · rintro ⟨⟨id, pres⟩, hdep, hmem⟩
    rcases hid : R.idToIdx id with _ | dep
    · simp [hid] at hmem
    · simp only [hid, elim_some, mem_filterMap, map_eq_some_iff, Prod.mk.injEq] at hmem
      obtain ⟨pre, hpre, k, hk, rfl, rfl⟩ := hmem
      obtain ⟨b, hb, rfl⟩ := hidx.1 hid
      obtain ⟨a, ha, rfl⟩ := hidx.1 hk
      exact ⟨a, b, ha, hb, pres, hdep, hpre⟩
  · rintro ⟨a, b, ha, hb, pres, hdep, hpre⟩
    refine ⟨_, hdep, ?_⟩
    simp only [hidx.2 ⟨b, hb, rfl⟩, elim_some, mem_filterMap, map_eq_some_iff, Prod.mk.injEq]
    exact ⟨_, hpre, i, hidx.2 ⟨a, ha, rfl⟩, by simp⟩

theorem topoSort_kahn (hids : (R.artefacts.map Artefact.id).Nodup) :
    ∃ d out, Kahn R.edges R.artefacts.length d [] out ∧ (∀ e ∈ R.edges, e.1 < R.artefacts.length ∧ e.2 < R.artefacts.length) ∧
      topoSort R = if out.length = R.artefacts.length then .ok out else .error "cycle in migration dependencies" := by
  have hE : ∀ e ∈ R.edges, e.1 < R.artefacts.length ∧ e.2 < R.artefacts.length := by
    rintro ⟨i, j⟩ he
    obtain ⟨a, b, ha, hb, -⟩ := (mem_edges_iff hids).1 he
    exact ⟨(List.getElem?_eq_some_iff.1 ha).1, (List.getElem?_eq_some_iff.1 hb).1⟩
  have hinit : Kahn R.edges R.artefacts.length R.indegree
      ((List.range R.artefacts.length).filter fun i => R.indegree i = 0) [] := by
    refine ⟨fun j => by simp [Registry.indegree], ?_, fun j => ?_, nofun⟩
    · exact nodup_range.filter _
    · rw [nil_append, mem_filter, mem_range, decide_eq_true_eq]
  obtain ⟨d, out, hout, hkahn⟩ := drain_kahn (fun e he => (hE e he).2) (R.artefacts.length + 1) hinit (by simp)
  refine ⟨d, out, hkahn, hE, ?_⟩
  have hsorted : topoSort R = match drain (succs R.edges) (R.artefacts.length + 1) R.indegree
      ((List.range R.artefacts.length).filter fun i => R.indegree i = 0) [] with
    | some ordered =>
      if ordered.length = R.artefacts.length then .ok ordered else .error "cycle in migration dependencies"
    | none => .error "cycle in migration dependencies" := rfl
  rw [hsorted, hout]

variable {fuel : Nat} {order : List Nat} {d : σ}

/-! ## What a start does -/

section Start

variable {β : Type} {part : String → σ → β} {a : Artefact σ} {s s' : Running σ} {o : ArtefactOutcome}

/-- An artefact is read from its own part of the directory; a migration raises its version by one, and changes nothing
else. -/
structure Registry.Atomic (R : Registry σ) (part : String → σ → β) : Prop where
  read : ∀ a ∈ R.artefacts, ∀ d d', part a.id d = part a.id d' → a.readVersion d = a.readVersion d'
  raises : ∀ m ∈ R.migrations, m.targetVersion = m.sourceVersion + 1
  done : ∀ m ∈ R.migrations, ∀ a ∈ R.artefacts, m.artefactId = a.id → ∀ d d', a.readVersion d = .ok m.sourceVersion →
    m.apply d = (.ok (), d') → a.readVersion d' = .ok m.targetVersion
  frame : ∀ m ∈ R.migrations, ∀ d, ∀ id ≠ m.artefactId, part id (m.apply d).2 = part id d

/-- The version an artefact is left with. -/
def Artefact.after (a : Artefact σ) (v : Int) : Int := if 0 ≤ v ∧ v < a.targetVersion then a.targetVersion else v

/-- What the migration of one artefact leaves alone, and the steps it adds. -/
structure Touches (part : String → σ → β) (id : String) (s s' : Running σ) : Prop where
  frame : ∀ id' ≠ id, part id' s'.1 = part id' s.1
  steps : ∃ new, s'.2 = s.2 ++ new ∧ ∀ st ∈ new, st.artefactId = id

theorem Touches.refl (id : String) (s : Running σ) : Touches part id s s := ⟨fun _ _ => rfl, [], by simp⟩

theorem Touches.step {id : String} {st : Step} (hst : st.artefactId = id)
    (hd : ∀ id' ≠ id, part id' d = part id' s.1) (h : Touches part id (d, s.2 ++ [st]) s') : Touches part id s s' := by
  obtain ⟨hframe, new, hnew, hid⟩ := h
  refine ⟨fun id' hne => (hframe id' hne).trans (hd id' hne), st :: new, by simp [hnew], ?_⟩
  exact forall_mem_cons.2 ⟨hst, hid⟩

theorem findMigration_eq_some {id : String} {v : Int} {m : Migration σ} (h : findMigration R id v = some m) :
    m ∈ R.migrations ∧ m.artefactId = id ∧ m.sourceVersion = v := by
  have hm := find?_some h
  rw [decide_eq_true_eq] at hm
  exact ⟨mem_of_find?_eq_some h, hm⟩

theorem walkChain_touches (hR : R.Atomic part) (ha : a ∈ R.artefacts) (fuel : Nat) {current : Int}
    (hread : a.readVersion s.1 = .ok current) (hle : current ≤ a.targetVersion)
    (h : walkChain R a fuel current s = some (o, s')) :
    Touches part a.id s s' ∧ ((∃ e, o = .fatal e) ∨ o = .ok ∧ a.readVersion s'.1 = .ok a.targetVersion) := by
  induction fuel generalizing current s with
  | zero => cases h
  | succ fuel ih =>
    rw [walkChain] at h
    split_ifs at h with hlt
    · rcases hm : findMigration R a.id current with _ | m
      · rw [hm] at h
        cases h
        exact ⟨(Touches.refl _ _).step rfl fun _ _ => rfl, .inl ⟨_, rfl⟩⟩
      obtain ⟨hmem, hid, rfl⟩ := findMigration_eq_some hm
      have hframe : ∀ id' ≠ a.id, part id' (m.apply s.1).2 = part id' s.1 := fun id' hne =>
        hR.frame m hmem s.1 id' (hid ▸ hne)
      rw [hm] at h
      rcases happly : m.apply s.1 with ⟨e | ⟨⟩, d⟩
      · simp only [happly, Option.some.injEq, Prod.mk.injEq] at h hframe
        obtain ⟨rfl, rfl⟩ := h
        exact ⟨(Touches.refl _ _).step rfl hframe, .inl ⟨e, rfl⟩⟩
      · simp only [happly] at h hframe
        have hraised := hR.raises m hmem
        obtain ⟨htouches, hdone⟩ := ih (hR.done m hmem a ha hid _ _ hread happly) (by omega) h
        exact ⟨htouches.step rfl hframe, hdone⟩
    · cases h
      obtain rfl : current = a.targetVersion := by omega
      exact ⟨.refl _ _, .inr ⟨rfl, hread⟩⟩

theorem walkChain_isSome (hR : R.Atomic part) (fuel : Nat) {current : Int} (hle : current ≤ a.targetVersion)
    (hfuel : a.targetVersion < fuel + current) : ∃ r, walkChain R a fuel current s = some r := by
  induction fuel generalizing current s with
  | zero => omega
  | succ fuel ih =>
    rw [walkChain]
    split_ifs with hlt
    · rcases hm : findMigration R a.id current with _ | m
      · exact ⟨_, rfl⟩
      · obtain ⟨hmem, -, rfl⟩ := findMigration_eq_some hm
        have hraised := hR.raises m hmem
        dsimp only
        rcases m.apply s.1 with ⟨e | ⟨⟩, d⟩
        · exact ⟨_, rfl⟩
        · exact ih (by omega) (by omega)
    · exact ⟨_, rfl⟩

theorem migrateArtefact_touches (hR : R.Atomic part) (ha : a ∈ R.artefacts)
    (h : migrateArtefact R fuel a s = some (o, s')) : Touches part a.id s s' ∧ ((∃ e, o = .fatal e) ∨ ∃ v,
      a.readVersion s.1 = .ok v ∧ a.readVersion s'.1 = .ok (a.after v) ∧ (a.after v = v → s' = s)) := by
  unfold migrateArtefact at h
  rcases hread : a.readVersion s.1 with e | v
  · rw [hread] at h
    cases h
    exact ⟨.refl _ _, .inl ⟨_, rfl⟩⟩
  rw [hread] at h
  dsimp only at h
  by_cases hchain : 0 ≤ v ∧ v < a.targetVersion
  · rw [if_neg (by omega), if_neg (by omega), if_neg (by omega)] at h
    obtain ⟨htouches, hfatal | ⟨-, hdone⟩⟩ := walkChain_touches hR ha fuel hread (by omega) h
    · exact ⟨htouches, .inl hfatal⟩
    · refine ⟨htouches, .inr ⟨v, rfl, ?_, fun heq => ?_⟩⟩
      · rw [hdone, Artefact.after, if_pos hchain]
      · rw [Artefact.after, if_pos hchain] at heq
        omega
  · have hs : s' = s := by
      split_ifs at h <;> first | (cases h; rfl) | omega
    have hafter : a.after v = v := if_neg hchain
    rw [hs]
    exact ⟨.refl _ _, .inr ⟨v, rfl, by rw [hafter, hread], fun _ => rfl⟩⟩

/-- No step of a prerequisite comes after one of its dependants. -/
def Registry.InOrder (R : Registry σ) (ids : List String) : Prop := ids.Pairwise fun id later => ¬R.After later id

/-- What the loop leaves of the artefacts it has gone through. -/
structure Migrates (part : String → σ → β) (as : List (Artefact σ)) (d d' : σ) : Prop where
  frame : ∀ id, (∀ a ∈ as, a.id ≠ id) → part id d' = part id d
  versions : ∀ a ∈ as, ∃ v, a.readVersion d = .ok v ∧ a.readVersion d' = .ok (a.after v) ∧
    (a.after v = v → part a.id d' = part a.id d)

theorem runOrdered_migrates (hR : R.Atomic part) {as : List (Artefact σ)} (hmem : as ⊆ R.artefacts)
    (hids : (as.map Artefact.id).Nodup) (horder : R.InOrder (as.map Artefact.id)) (hself : ∀ a ∈ R.artefacts, ¬R.After a.id a.id)
    (has : order.map (R.artefacts[·]?) = as.map some)
    {future : List UnsupportedFutureVersion} {r : Report} {d' : σ}
    (h : runOrdered R fuel order future s = some (r, d')) (hfatal : r.fatalError = none) : Migrates part as s.1 d' ∧
      ∃ new, r.steps = s.2 ++ new ∧ R.InOrder (new.map Step.artefactId) ∧ ∀ st ∈ new, ∃ a ∈ as, a.id = st.artefactId := by
  induction as generalizing order future s with
  | nil =>
    rw [map_nil, map_eq_nil_iff] at has
    subst has
    cases h
    exact ⟨⟨fun _ _ => rfl, nofun⟩, [], by simp [Registry.InOrder]⟩
  | cons a as ih =>
    obtain ⟨i, order, rfl, hi, has⟩ := map_eq_cons_iff.1 has
    obtain ⟨ha, hmem⟩ := cons_subset.1 hmem
    rw [map_cons, nodup_cons] at hids
    obtain ⟨hfirst, horder⟩ := pairwise_cons.1 horder
    rw [runOrdered, hi] at h
    obtain ⟨⟨o, s₁⟩, hm, h⟩ := bind_eq_some_iff.1 h
    obtain ⟨htouches, hcase⟩ := migrateArtefact_touches hR ha hm
    obtain ⟨⟨future', h⟩, hlives⟩ : (∃ future', runOrdered R fuel order future' s₁ = some (r, d')) ∧ ¬∃ e, o = .fatal e := by
      rcases o with _ | f | e
      · exact ⟨⟨_, h⟩, by simp⟩
      · exact ⟨⟨_, h⟩, by simp⟩
      · cases h
        cases hfatal
    obtain ⟨v, hv, hv', hkept⟩ := hcase.resolve_left hlives
    obtain ⟨⟨hframe, hversions⟩, new, hsteps, hsorted, hfrom⟩ := ih hmem hids.2 horder has h
    have hothers : ∀ b ∈ as, b.id ≠ a.id := fun b hb heq => hids.1 (heq ▸ mem_map_of_mem hb)
    refine ⟨⟨fun id hid => ?_, ?_⟩, ?_⟩
    · rw [hframe id fun b hb => hid b (mem_cons_of_mem _ hb), htouches.frame id (hid a mem_cons_self).symm]
    · have hown := hframe a.id hothers
      refine forall_mem_cons.2 ⟨⟨v, hv, ?_, fun heq => ?_⟩, fun b hb => ?_⟩
      · rw [hR.read a ha _ _ hown, hv']
      · rw [hown, hkept heq]
      · obtain ⟨w, hw, hw', hkept'⟩ := hversions b hb
        have hbefore := htouches.frame b.id (hothers b hb)
        exact ⟨w, by rw [← hw, hR.read b (hmem hb) _ _ hbefore], hw', fun heq => (hkept' heq).trans hbefore⟩
    · obtain ⟨own, hown, hid⟩ := htouches.steps
      refine ⟨own ++ new, by rw [hsteps, hown, append_assoc], ?_, fun st hst => ?_⟩
      · rw [map_append]
        have hown : ∀ x ∈ own.map Step.artefactId, x = a.id := forall_mem_map.2 hid
        refine pairwise_append.2 ⟨pairwise_of_forall_mem_list fun x hx y hy => ?_, hsorted, fun x hx y hy => ?_⟩
        · rw [hown x hx, hown y hy]
          exact hself a ha
        · obtain ⟨st, hst, rfl⟩ := mem_map.1 hy
          obtain ⟨b, hb, hb'⟩ := hfrom st hst
          rw [hown x hx, ← hb']
          exact hfirst b.id (mem_map_of_mem hb)
      · rcases mem_append.1 hst with hst | hst
        · exact ⟨a, mem_cons_self, (hid st hst).symm⟩
        · obtain ⟨b, hb, hst⟩ := hfrom st hst
          exact ⟨b, mem_cons_of_mem _ hb, hst⟩

/-- Where nothing is to be migrated, nothing is done. -/
theorem runOrdered_idle {as : List (Artefact σ)} (hidle : ∀ a ∈ as, ∃ v, a.readVersion d = .ok v ∧ a.after v = v)
    (has : order.map (R.artefacts[·]?) = as.map some) (fuel : Nat)
    (future : List UnsupportedFutureVersion) (steps : List Step) :
    ∃ future', runOrdered R fuel order future (d, steps) = some (⟨steps, future', none⟩, d) := by
  induction as generalizing order future with
  | nil =>
    rw [map_nil, map_eq_nil_iff] at has
    exact ⟨future, by rw [has]; rfl⟩
  | cons a as ih =>
    obtain ⟨i, order, rfl, hi, has⟩ := map_eq_cons_iff.1 has
    obtain ⟨⟨v, hread, hafter⟩, hidle⟩ := forall_mem_cons.1 hidle
    have hstays : ¬(0 ≤ v ∧ v < a.targetVersion) := fun h => by
      rw [Artefact.after, if_pos h] at hafter
      omega
    rw [runOrdered, hi]
    simp only [migrateArtefact, hread]
    split_ifs
    · exact ih hidle has _
    · exact ih hidle has _
    · exact ih hidle has _
    · omega

theorem runOrdered_isSome (hR : R.Atomic part) (hfuel : ∀ a ∈ R.artefacts, a.targetVersion < fuel)
    (order : List Nat) (future : List UnsupportedFutureVersion) : ∃ out, runOrdered R fuel order future s = some out := by
  induction order generalizing future s with
  | nil => exact ⟨_, rfl⟩
  | cons i order ih =>
    rw [runOrdered]
    rcases ha : R.artefacts[i]? with _ | a
    · exact ih _
    obtain ⟨⟨o, s'⟩, hm⟩ : ∃ out, migrateArtefact R fuel a s = some out := by
      unfold migrateArtefact
      rcases a.readVersion s.1 with e | v
      · exact ⟨_, rfl⟩
      have hlt := hfuel a (mem_of_getElem? ha)
      dsimp only
      split_ifs
      · exact ⟨_, rfl⟩
      · exact ⟨_, rfl⟩
      · exact ⟨_, rfl⟩
      · exact walkChain_isSome hR fuel (by omega) (by omega)
    dsimp only
    rw [hm, bind_some]
    rcases o with _ | f | e
    · exact ih _
    · exact ih _
    · exact ⟨_, rfl⟩

end Start

/-- Every artefact that is there and not too new ends at its target, the others stay as they were, and steps follow the
dependencies. -/
structure Migrated {β : Type} (part : String → σ → β) (R : Registry σ) (d d' : σ) (r : Report) : Prop where
  reached : ∀ a ∈ R.artefacts, ∀ v, a.readVersion d = .ok v → 1 ≤ v → v ≤ a.targetVersion →
    a.readVersion d' = .ok a.targetVersion
  untouched : ∀ a ∈ R.artefacts, ∀ v, a.readVersion d = .ok v → v < 0 ∨ a.targetVersion < v → part a.id d' = part a.id d
  inOrder : R.InOrder (r.steps.map Step.artefactId)

theorem topoSort_iff (hids : (R.artefacts.map Artefact.id).Nodup) :
    ((∃ order, topoSort R = .ok order) ↔ ∀ i, ¬Relation.TransGen R.Before i i) ∧
      ∀ order, topoSort R = .ok order → order.Perm (List.range R.artefacts.length) ∧
        ∀ i j, R.Before i j → order.idxOf i < order.idxOf j := by
  obtain ⟨d, out, hkahn, hE, hsort⟩ := topoSort_kahn hids
  have hedges : (fun i j => (i, j) ∈ R.edges) = R.Before := funext fun i => funext fun j => propext (mem_edges_iff hids)
  have hall := hkahn.all_iff hE
  rw [hedges] at hall
  rw [← hall, hsort]
  refine ⟨by split_ifs with h <;> simp [h], fun order horder => ?_⟩
  split_ifs at horder with hlength
  cases horder
  exact ⟨hkahn.perm hlength, fun i j hij => hkahn.idxOf_lt (fun e he => (hE e he).2) hlength ((mem_edges_iff hids).2 hij)⟩

/-- The artefacts in the order they are gone through. -/
theorem exists_ordered (hids : (R.artefacts.map Artefact.id).Nodup) (horder : topoSort R = .ok order) :
    ∃ as : List (Artefact σ), order.map (R.artefacts[·]?) = as.map some ∧ as.Perm R.artefacts ∧
      R.InOrder (as.map Artefact.id) := by
  obtain ⟨hperm, hlt⟩ := (topoSort_iff hids).2 order horder
  have hmap : (order.map (R.artefacts[·]?)).Perm (R.artefacts.map some) := by
    refine (hperm.map _).trans (Perm.of_eq (ext_getElem (by simp) fun i hi hi' => ?_))
    simp only [length_map] at hi'
    simp [hi']
  obtain ⟨as, has⟩ : ∃ as, List.map some as = order.map (R.artefacts[·]?) := by
    refine (Set.range_list_map some).ge fun x hx => ?_
    obtain ⟨a, -, rfl⟩ := mem_map.1 (hmap.mem_iff.1 hx)
    exact ⟨a, rfl⟩
  have hnodup : order.Nodup := hperm.nodup_iff.2 nodup_range
  have hpairs : order.Pairwise fun i j => ¬R.Before j i := pairwise_iff_getElem.2 fun i j hi hj hij hbefore => by
    have hlt' := hlt _ _ hbefore
    rw [hnodup.idxOf_getElem, hnodup.idxOf_getElem] at hlt'
    omega
  have hsome : (List.map some as).Pairwise fun x y => ∀ a b, x = some a → y = some b → ¬R.After b.id a.id := by
    rw [has]
    refine pairwise_map.2 (hpairs.imp fun hnot a b ha hb hafter => hnot ⟨b, a, hb, ha, hafter⟩)
  rw [← has] at hmap
  refine ⟨as, has.symm, (map_perm_map_iff (some_injective _)).1 hmap, pairwise_map.2 ?_⟩
  exact (pairwise_map.1 hsome).imp fun h => h _ _ rfl rfl

theorem runOnStartup_migrates {β : Type} {part : String → σ → β} (hids : (R.artefacts.map Artefact.id).Nodup)
    (hR : R.Atomic part) {d' : σ} {r : Report} (h : runOnStartup R fuel d = some (r, d'))
    (hfatal : r.fatalError = none) : Migrated part R d d' r ∧
      ∃ future, runOnStartup R fuel d' = some (⟨[], future, none⟩, d') := by
  unfold runOnStartup at h ⊢
  rcases horder : topoSort R with e | order
  · rw [horder] at h
    cases h
    cases hfatal
  rw [horder] at h
  obtain ⟨as, has, hperm, hsorted⟩ := exists_ordered hids horder
  have hself : ∀ a ∈ R.artefacts, ¬R.After a.id a.id := fun a ha hafter => by
    obtain ⟨i, hi⟩ := mem_iff_getElem?.1 ha
    exact Nat.lt_irrefl _ (((topoSort_iff hids).2 order horder).2 i i ⟨a, a, hi, hi, hafter⟩)
  obtain ⟨⟨-, hversions⟩, new, hnew, hinOrder, -⟩ := runOrdered_migrates hR hperm.subset
    ((hperm.map _).nodup_iff.2 hids) hsorted hself has h hfatal
  have hall := fun a ha => hversions a (hperm.mem_iff.2 ha)
  refine ⟨⟨fun a ha v hv hpos hle => ?_, fun a ha v hv hout => ?_, ?_⟩, ?_⟩
  · obtain ⟨w, hw, hw', -⟩ := hall a ha
    rw [hv, Except.ok.injEq] at hw
    rw [hw', ← hw, Artefact.after]
    congr 1
    split_ifs <;> omega
  · obtain ⟨w, hw, -, hkept⟩ := hall a ha
    rw [hv, Except.ok.injEq] at hw
    refine hkept ?_
    rw [← hw, Artefact.after, if_neg (by omega)]
  · rw [hnew, nil_append]
    exact hinOrder
  · refine runOrdered_idle (fun a ha => ?_) has fuel [] []
    obtain ⟨w, -, hw, -⟩ := hversions a ha
    refine ⟨_, hw, ?_⟩
    unfold Artefact.after
    split_ifs <;> omega

/-- The order, and what a start does in it; a start ends where no target is beyond the fuel. -/
theorem startup_laws (hids : (R.artefacts.map Artefact.id).Nodup) :
    ((∃ order, topoSort R = .ok order) ↔ ∀ i, ¬Relation.TransGen R.Before i i) ∧
      (∀ order, topoSort R = .ok order → order.Perm (List.range R.artefacts.length) ∧
        ∀ i j, R.Before i j → order.idxOf i < order.idxOf j) ∧
      ∀ {β : Type} (part : String → σ → β), R.Atomic part → ∀ (fuel : Nat) (d : σ),
        ((∀ a ∈ R.artefacts, a.targetVersion < fuel) → ∃ r d', runOnStartup R fuel d = some (r, d')) ∧
        ∀ r d', runOnStartup R fuel d = some (r, d') → r.fatalError = none →
          Migrated part R d d' r ∧ ∃ future, runOnStartup R fuel d' = some (⟨[], future, none⟩, d') := by
  refine ⟨(topoSort_iff hids).1, (topoSort_iff hids).2, fun part hR fuel d => ⟨fun hfuel => ?_, fun r d' h hfatal => ?_⟩⟩
  · unfold runOnStartup
    rcases topoSort R with e | order
    · exact ⟨_, _, rfl⟩
    · obtain ⟨⟨r, d'⟩, hr⟩ := runOrdered_isSome hR hfuel order [] (s := (d, []))
      exact ⟨r, d', hr⟩
  · exact runOnStartup_migrates hids hR h hfatal

/-- Two artefacts at versions that a directory holds, and the second waits for the first. -/
def sampleRegistry : Registry (String → Int) where
  artefacts := [⟨"b", 2, fun d => .ok (d "b")⟩, ⟨"a", 3, fun d => .ok (d "a")⟩]
  migrations := [⟨"a", 1, 2, fun d => (.ok (), update d "a" 2)⟩,
    ⟨"a", 2, 3, fun d => (.ok (), update d "a" 3)⟩, ⟨"b", 1, 2, fun d => (.ok (), update d "b" 2)⟩]
  dependencies := [("b", ["a", "c"])]

theorem sampleRegistry_atomic : sampleRegistry.Atomic fun id (d : String → Int) => d id := by
  refine ⟨?_, ?_, ?_, ?_⟩
  · simp [sampleRegistry]
  · simp [sampleRegistry]
  · rintro m hm a ha hid d d' - happly
    simp only [sampleRegistry, mem_cons, not_mem_nil, or_false] at hm ha
    rcases hm with rfl | rfl | rfl
    all_goals
      rcases ha with rfl | rfl
      all_goals
        cases happly
        first | exact absurd hid (by decide) | rfl
  · simp only [sampleRegistry, forall_mem_cons, not_mem_nil, false_imp_iff, implies_true, and_true]
    exact ⟨fun d id h => update_of_ne h _ _, fun d id h => update_of_ne h _ _,
      fun d id h => update_of_ne h _ _⟩

theorem startup_laws_sample : ∃ r d', runOnStartup sampleRegistry 4 (fun _ => 1) = some (r, d') ∧ r.steps.length = 3 ∧
    Migrated (fun id d => d id) sampleRegistry (fun _ => 1) d' r := by
  have hlaws := (startup_laws (R := sampleRegistry) (by decide)).2.2 _ sampleRegistry_atomic 4 fun _ => 1
  exact ⟨_, _, rfl, rfl, (hlaws.2 _ _ rfl rfl).1⟩

end LetsFlutSsh.Migrations
