import LetsFlutSsh.Lib.Forest
import LetsFlutSsh.Lib.Run
import Mathlib.Data.List.Nodup

/-!
# Sessions: jump hosts

* `detectProxyCycle` : the check of the session dialog; the fuel bounds the rounds of its loop;
* `Follows` : one session is the jump host of another;
* `walk_spec` : the loop ends, and finds the session that is edited exactly if it is on the way;
* `Edit`, `step` : what the dialog saves, once the check has admitted it.
-/

namespace LetsFlutSsh.Sessions.ProxyCycle
open Lib Forest List

structure ProxyRef where
  sessionId : String
  viaSessionId : Option String
  deriving DecidableEq

/-- The jump host by the table of the check; of two entries with one id the later one is in it. -/
def lookup (chain : List ProxyRef) (id : String) : Option String :=
  (chain.reverse.find? fun r => r.sessionId = id).bind ProxyRef.viaSessionId

/-- The loop; `none` where the fuel ends before it. -/
def walk (chain : List ProxyRef) (seed : String) : Nat → List String → Option String → Option Bool
  | 0, _, _ => none
  | _ + 1, _, none => some false
  | fuel + 1, visited, some node =>
    if node ∈ visited then some false
    else if node = seed then some true
    else walk chain seed fuel (node :: visited) (lookup chain node)

def detectProxyCycle (fuel : Nat) (seedId : Option String) (candidateId : String) (chain : List ProxyRef) : Option Bool :=
  seedId.elim (some false) fun seed => walk chain seed fuel [] (some candidateId)

def Follows (chain : List ProxyRef) (a b : String) : Prop := ⟨a, some b⟩ ∈ chain

def Distinct (chain : List ProxyRef) : Prop := (chain.map ProxyRef.sessionId).Nodup

variable {chain : List ProxyRef}

theorem lookup_eq_some_iff (h : Distinct chain) {a b : String} : lookup chain a = some b ↔ Follows chain a b := by
  unfold lookup Follows
  rw [Option.bind_eq_some_iff]
  constructor
  · rintro ⟨⟨id, via⟩, hfind, rfl⟩
    obtain rfl : id = a := by simpa using find?_some hfind
    exact mem_reverse.1 (mem_of_find?_eq_some hfind)
  · intro hmem
    rcases hfind : chain.reverse.find? fun r => r.sessionId = a with _ | r
    · exact absurd (decide_eq_true rfl) (find?_eq_none.1 hfind ⟨a, some b⟩ (mem_reverse.2 hmem))
    · have hr := mem_reverse.1 (mem_of_find?_eq_some hfind)
      have hid : r.sessionId = a := by simpa using find?_some hfind
      exact ⟨r, hfind, by rw [inj_on_of_nodup_map h hr hmem hid]⟩

theorem up_lookup (h : Distinct chain) : Up (lookup chain) = Follows chain :=
  funext fun _ => funext fun _ => propext (lookup_eq_some_iff h)

theorem mem_ids_of_lookup {a b : String} (h : lookup chain a = some b) : a ∈ chain.map ProxyRef.sessionId := by
  obtain ⟨r, hfind, -⟩ := Option.bind_eq_some_iff.1 h
  have hid : r.sessionId = a := by simpa using find?_some hfind
  exact hid ▸ mem_map_of_mem (mem_reverse.1 (mem_of_find?_eq_some hfind))

/-- The sessions passed are closed under jump hosts but for the session the walk has come to. -/
theorem walk_spec {seed : String} {fuel : Nat} {visited : List String} {current : Option String}
    (hfuel : ∀ node, current = some node → ((chain.map ProxyRef.sessionId).filter (· ∉ visited)).length + 2 ≤ fuel)
    (hpos : 0 < fuel) (hseed : seed ∉ visited)
    (hclosed : ∀ v ∈ visited, ∀ w, lookup chain v = some w → w ∈ visited ∨ current = some w) :
    ∃ b, walk chain seed fuel visited current = some b ∧
      (b = true ↔ ∃ node, current = some node ∧ Under (lookup chain) node seed) := by
  induction fuel generalizing visited current with
  | zero => omega
  | succ fuel ih =>
    rcases current with _ | node
    · exact ⟨false, rfl, by simp⟩
    have hmeasure := hfuel node rfl
    rw [walk]
    by_cases hvisited : node ∈ visited
    · refine ⟨false, if_pos hvisited, ?_⟩
      have hstay : ∀ a, Under (lookup chain) node a → a ∈ visited := by
        intro a ha
        induction ha with
        | refl => exact hvisited
        | @tail b c _ hup hb =>
          rcases hclosed b hb c hup with hc | hc
          · exact hc
          · exact Option.some.inj hc ▸ hvisited
      simp only [Bool.false_eq_true, Option.some.injEq, exists_eq_left', false_iff]
      exact fun hunder => hseed (hstay seed hunder)
    rw [if_neg hvisited]
    by_cases hnode : node = seed
    · subst hnode
      exact ⟨true, if_pos rfl, fun _ => ⟨node, rfl, .refl⟩, fun _ => rfl⟩
    rw [if_neg hnode]
    have hfewer : ∀ next, lookup chain node = some next →
        ((chain.map ProxyRef.sessionId).filter (· ∉ node :: visited)).length + 2 ≤ fuel := by
      intro next hnext
      have hmem : node ∈ (chain.map ProxyRef.sessionId).filter (· ∉ visited) :=
        mem_filter.2 ⟨mem_ids_of_lookup hnext, decide_eq_true hvisited⟩
      have hless := (length_filter_lt_length_iff_exists (p := fun a => decide (a ≠ node))).2 ⟨node, hmem, by simp⟩
      rw [filter_filter] at hless
      simp only [mem_cons, not_or, Bool.decide_and, ne_eq] at hless ⊢
      omega
    have hstill : ∀ v ∈ node :: visited, ∀ w, lookup chain v = some w → w ∈ node :: visited ∨ lookup chain node = some w := by
      intro v hv w hw
      rcases mem_cons.1 hv with rfl | hv
      · exact .inr hw
      · rcases hclosed v hv w hw with h | h
        · exact .inl (mem_cons_of_mem _ h)
        · exact .inl (Option.some.inj h ▸ mem_cons_self)
    obtain ⟨b, hb, hiff⟩ := ih hfewer (by omega) (by simp [hseed, Ne.symm hnode]) hstill
    refine ⟨b, hb, hiff.trans ?_⟩
    simp only [Option.some.injEq, exists_eq_left']
    constructor
    · rintro ⟨next, hnext, hunder⟩
      exact under_of_up hnext hunder
    · intro hunder
      exact hunder.cases.resolve_left hnode

theorem detectProxyCycle_spec (h : Distinct chain) (seed candidate : String) {fuel : Nat} (hfuel : chain.length + 2 ≤ fuel) :
    ∃ b, detectProxyCycle fuel (some seed) candidate chain = some b ∧
      (b = true ↔ Relation.ReflTransGen (Follows chain) candidate seed) := by
  obtain ⟨b, hb, hiff⟩ := @walk_spec chain seed fuel [] (some candidate)
    (fun _ _ => by simpa using hfuel) (by omega) not_mem_nil (by simp)
  refine ⟨b, hb, hiff.trans ?_⟩
  rw [← up_lookup h]
  simp [Under]

/-! ## Edits -/

/-- What the dialog saves: a jump host, or none, for a session; and a session with a new id. -/
inductive Edit
  | jumpHost (seed : String) (candidate : Option String)
  | create (id : String) (candidate : Option String)

def setVia (seed : String) (candidate : Option String) (chain : List ProxyRef) : List ProxyRef :=
  chain.map fun r => if r.sessionId = seed then { r with viaSessionId := candidate } else r

def admits (seed : Option String) (candidate : Option String) (chain : List ProxyRef) : Prop :=
  ∀ c ∈ candidate, detectProxyCycle (chain.length + 2) seed c chain = some false

instance (seed candidate : Option String) (chain : List ProxyRef) : Decidable (admits seed candidate chain) :=
  inferInstanceAs (Decidable (∀ c ∈ candidate, _))

/-- New ids are random, and references lead to stored sessions: nothing has the id of a new session or refers to it. -/
def Unheard (id : String) (candidate : Option String) (chain : List ProxyRef) : Prop :=
  some id ≠ candidate ∧ ∀ r ∈ chain, r.sessionId ≠ id ∧ r.viaSessionId ≠ some id

instance (id : String) (candidate : Option String) (chain : List ProxyRef) : Decidable (Unheard id candidate chain) :=
  inferInstanceAs (Decidable (_ ∧ _))

def step (chain : List ProxyRef) : Edit → Option (List ProxyRef)
  | .jumpHost seed candidate => if admits (some seed) candidate chain then some (setVia seed candidate chain) else none
  | .create id candidate =>
    if Unheard id candidate chain ∧ admits none candidate chain then some (⟨id, candidate⟩ :: chain) else none

def NoLoop (chain : List ProxyRef) : Prop := ∀ a, ¬Relation.TransGen (Follows chain) a a

structure Sound (chain : List ProxyRef) : Prop where
  distinct : Distinct chain
  noLoop : NoLoop chain

variable {chain' : List ProxyRef}

/-- Only one session has another jump host than before, and that one does not lead to it. -/
theorem Sound.noLoop_of_update (h : Sound chain) {x : String} {p : Option String}
    (hfollows : ∀ a b, Follows chain' a b → if a = x then p = some b else Follows chain a b)
    (hx : ∀ y, p = some y → ¬Relation.ReflTransGen (Follows chain) y x) : NoLoop chain' := by
  have hold : Acyclic (lookup chain) := by
    unfold Acyclic
    rw [up_lookup h.distinct]
    exact h.noLoop
  have hnew := hold.update (x := x) (p := p) (by unfold Under; rwa [up_lookup h.distinct])
  intro a hcycle
  refine hnew a (Relation.TransGen.mono (fun b c hbc => ?_) _ _ hcycle)
  have hbc := hfollows b c hbc
  by_cases hb : b = x
  · subst hb
    rw [if_pos rfl] at hbc
    rwa [Up, Function.update_self]
  · rw [if_neg hb, ← lookup_eq_some_iff h.distinct] at hbc
    rwa [Up, Function.update_of_ne hb]

theorem Sound.step {e : Edit} (h : Sound chain) (hstep : step chain e = some chain') :
    Sound chain' := by
  cases e with
  | jumpHost seed candidate =>
    rw [ProxyCycle.step] at hstep
    split_ifs at hstep with hadmits
    cases hstep
    have hids : (setVia seed candidate chain).map ProxyRef.sessionId = chain.map ProxyRef.sessionId := by
      rw [setVia, map_map]
      refine map_congr_left fun r _ => ?_
      dsimp only [Function.comp]
      split_ifs <;> rfl
    refine ⟨by rw [Distinct, hids]; exact h.distinct, h.noLoop_of_update (x := seed) (p := candidate) ?_ ?_⟩
    · intro a b hab
      obtain ⟨r, hr, heq⟩ := mem_map.1 hab
      by_cases hseed : r.sessionId = seed
      · rw [if_pos hseed] at heq
        cases heq
        rw [if_pos hseed]
      · rw [if_neg hseed] at heq
        subst heq
        rw [if_neg hseed]
        exact hr
    · intro y hy hunder
      obtain ⟨b, hb, hiff⟩ := detectProxyCycle_spec h.distinct seed y (Nat.le_refl (chain.length + 2))
      rw [hadmits y hy] at hb
      cases hb
      exact Bool.false_ne_true (hiff.2 hunder)
  | create id candidate =>
    rw [ProxyCycle.step] at hstep
    split_ifs at hstep with hnew
    cases hstep
    obtain ⟨⟨hself, hunheard⟩, -⟩ := hnew
    refine ⟨nodup_cons.2 ⟨?_, h.distinct⟩, h.noLoop_of_update (x := id) (p := candidate) ?_ ?_⟩
    · intro hmem
      obtain ⟨r, hr, hid⟩ := mem_map.1 hmem
      exact (hunheard r hr).1 hid
    · intro a b hab
      rcases mem_cons.1 hab with heq | hab
      · cases heq
        rw [if_pos rfl]
      · rw [if_neg (hunheard _ hab).1]
        exact hab
    · intro y hy hunder
      rcases Relation.ReflTransGen.cases_tail hunder with rfl | ⟨a, -, ha⟩
      · exact hself hy.symm
      · exact (hunheard _ ha).2 rfl

theorem noLoop_run {edits : List Edit} (hids : Distinct chain) (h : NoLoop chain)
    (hrun : run step chain edits = some chain') : NoLoop chain' :=
  (run_keeps (fun _ _ _ hs hstep => hs.step hstep) (Sound.mk hids h) hrun).noLoop

/-- **The jump-host check**, and what it is for. -/
theorem detectProxyCycle_sound : (∀ chain, Distinct chain → ∀ seed candidate fuel, chain.length + 2 ≤ fuel →
      ∃ b, detectProxyCycle fuel (some seed) candidate chain = some b ∧
        (b = true ↔ Relation.ReflTransGen (Follows chain) candidate seed)) ∧
      (∀ chain candidate fuel, detectProxyCycle fuel none candidate chain = some false) ∧
      ∀ chain edits chain', Distinct chain → NoLoop chain → run step chain edits = some chain' → NoLoop chain' :=
  ⟨fun _ h seed candidate _ hfuel => detectProxyCycle_spec h seed candidate hfuel, fun _ _ _ => rfl,
    fun _ _ _ => noLoop_run⟩

theorem detectProxyCycle_sound_sample :
    ∃ chain, run step [⟨"a", none⟩] [.create "b" (some "a"), .jumpHost "b" none, .jumpHost "a" (some "b")] = some chain ∧
      NoLoop chain := by
  refine ⟨_, rfl, detectProxyCycle_sound.2.2 [⟨"a", none⟩]
    [.create "b" (some "a"), .jumpHost "b" none, .jumpHost "a" (some "b")] _ (by unfold Distinct; decide) ?_ rfl⟩
  intro a hcycle
  obtain ⟨b, hb, -⟩ := Relation.TransGen.head'_iff.1 hcycle
  simp [Follows] at hb

end LetsFlutSsh.Sessions.ProxyCycle
