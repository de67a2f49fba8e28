import Mathlib.Data.List.Range

/-!
# Walks of a tree that is known by its listings only

* `Visit` : what a walk does with one entry of a node; `LeafAt` : the routes to the leaves, by position and entry;
* `leaves` : the routes that a walk of bounded depth finds; `mem_leaves`, `pairwise_leaves` : these, in listing order;
* `Reaches` : the nodes on the way.

A node may be listed below itself: only the bound on the depth makes the walk finite.
-/

namespace Lib
open List

/-- What becomes of an entry: passed over, a leaf, or a node to list in turn. -/
inductive Visit (κ : Type) where
  | skip
  | leaf
  | enter (node : κ)

variable {κ ε ω α : Type}

def Lists (listing : κ → Except ω (List ε)) (node : κ) (i : Nat) (entry : ε) : Prop :=
  ∃ entries, listing node = .ok entries ∧ entries[i]? = some entry

section Tree
variable (listing : κ → Except ω (List ε)) (visit : κ → ε → Visit κ)

/-- The positions and the entries on the way from a node down to a leaf, the leaf included. -/
inductive LeafAt : κ → List Nat → List ε → Prop where
  | leaf {node : κ} {i : Nat} {entry : ε} (hentry : Lists listing node i entry) (hvisit : visit node entry = .leaf) :
      LeafAt node [i] [entry]
  | down {node child : κ} {i : Nat} {entry : ε} {is : List Nat} {es : List ε} (hentry : Lists listing node i entry)
      (hvisit : visit node entry = .enter child) (hchild : LeafAt child is es) : LeafAt node (i :: is) (entry :: es)

/-- A node so many levels below another. -/
inductive Reaches : κ → Nat → κ → Prop where
  | here {node : κ} : Reaches node 0 node
  | down {node child target : κ} {i levels : Nat} {entry : ε} (hentry : Lists listing node i entry)
      (hvisit : visit node entry = .enter child) (hchild : Reaches child levels target) : Reaches node (levels + 1) target

/-- The routes that go on with one entry, given those below each node. -/
def routesAt (deeper : κ → List (List Nat × List ε)) (node : κ) (p : ε × Nat) : List (List Nat × List ε) :=
  match visit node p.1 with
  | .skip => []
  | .leaf => [([p.2], [p.1])]
  | .enter child => (deeper child).map fun r => (p.2 :: r.1, p.1 :: r.2)

def leaves : Nat → κ → List (List Nat × List ε)
  | 0, _ => []
  | depth + 1, node =>
    match listing node with
    | .error _ => []
    | .ok entries => entries.zipIdx.flatMap (routesAt visit (leaves depth) node)

def carried (f : List ε → α) (depth : Nat) (node : κ) (entry : ε) : List α :=
  match visit node entry with
  | .skip => []
  | .leaf => [f [entry]]
  | .enter child => (leaves listing visit depth child).map fun r => f (entry :: r.2)

end Tree

variable {listing : κ → Except ω (List ε)} {visit : κ → ε → Visit κ} {node : κ} {is : List Nat} {es : List ε}

theorem LeafAt.length_pos (h : LeafAt listing visit node is es) : 0 < es.length := by
  cases h <;> simp

theorem mem_leaves {depth : Nat} {r : List Nat × List ε} :
    r ∈ leaves listing visit depth node ↔ LeafAt listing visit node r.1 r.2 ∧ r.2.length ≤ depth := by
  induction depth generalizing node r with
  | zero =>
    simp only [leaves, not_mem_nil, false_iff, not_and]
    intro h
    have := h.length_pos
    omega
  | succ depth ih =>
    rw [leaves]
    constructor
    · intro h
      split at h
      · cases h
      next entries hlist =>
      obtain ⟨⟨entry, i⟩, hmem, hr⟩ := mem_flatMap.1 h
      have hentry : Lists listing node i entry := ⟨entries, hlist, mem_zipIdx_iff_getElem?.1 hmem⟩
      unfold routesAt at hr
      split at hr
      · cases hr
      · next hvisit =>
        rw [mem_singleton] at hr
        rw [hr]
        exact ⟨.leaf hentry hvisit, by simp⟩
      · next child hvisit =>
        obtain ⟨r', hr', rfl⟩ := mem_map.1 hr
        obtain ⟨hleaf, hlen⟩ := ih.1 hr'
        exact ⟨.down hentry hvisit hleaf, Nat.succ_le_succ hlen⟩
    · obtain ⟨is, es⟩ := r
      rintro ⟨h, hlen⟩
      cases h with
      | @leaf _ i entry hentry hvisit =>
        obtain ⟨entries, hlist, hget⟩ := hentry
        rw [hlist]
        apply mem_flatMap.2
        refine ⟨(entry, i), mem_zipIdx_iff_getElem?.2 hget, ?_⟩
        simp [routesAt, hvisit]
      | @down _ child i entry is es hentry hvisit hchild =>
        obtain ⟨entries, hlist, hget⟩ := hentry
        rw [hlist]
        apply mem_flatMap.2
        refine ⟨(entry, i), mem_zipIdx_iff_getElem?.2 hget, ?_⟩
        simp only [routesAt, hvisit, mem_map]
        exact ⟨(is, es), ih.2 ⟨hchild, Nat.le_of_succ_le_succ hlen⟩, rfl⟩

theorem head_of_mem_routesAt {deeper : κ → List (List Nat × List ε)} {p : ε × Nat} {r : List Nat × List ε}
    (h : r ∈ routesAt visit deeper node p) : ∃ is, r.1 = p.2 :: is := by
  unfold routesAt at h
  split at h
  · cases h
  · exact ⟨[], by rw [mem_singleton.1 h]⟩
  · obtain ⟨r', -, rfl⟩ := mem_map.1 h
    exact ⟨r'.1, rfl⟩

theorem pairwise_leaves (depth : Nat) (node : κ) : (leaves listing visit depth node).Pairwise fun r r' => r.1 < r'.1 := by
  induction depth generalizing node with
  | zero => exact .nil
  | succ depth ih =>
    rw [leaves]
    split
    · exact .nil
    next entries _ =>
    rw [pairwise_flatMap]
    constructor
    · intro p _
      unfold routesAt
      split
      · exact .nil
      · exact pairwise_singleton _ _
      · next child _ =>
        rw [pairwise_map]
        apply (ih child).imp
        intro r r' h
        exact cons_lt_cons_iff.2 (.inr ⟨rfl, h⟩)
    · have hidx : (entries.zipIdx.map Prod.snd).Pairwise (· < ·) := by
        rw [zipIdx_map_snd]
        exact pairwise_lt_range'
      rw [pairwise_map] at hidx
      apply hidx.imp
      intro p q hpq r hr r' hr'
      obtain ⟨is, his⟩ := head_of_mem_routesAt hr
      obtain ⟨is', his'⟩ := head_of_mem_routesAt hr'
      rw [his, his']
      exact cons_lt_cons_iff.2 (.inl hpq)

theorem map_leaves {f : List ε → α} {entries : List ε} {depth : Nat} (hlist : listing node = .ok entries) :
    (leaves listing visit (depth + 1) node).map (fun r => f r.2) = entries.flatMap (carried listing visit f depth node) := by
  rw [leaves, hlist]
  rw [map_flatMap]
  conv_rhs => rw [← zipIdx_map_fst 0 entries]
  rw [flatMap_map]
  congr 1
  funext p
  unfold routesAt carried
  split
  · rfl
  · rfl
  · rw [map_map]
    rfl

theorem foldlM_gathers {step : List α → ε → Except ω (List α)} {part : ε → List α} {Stops : ω → Prop} {Goes : ε → Prop}
    (entries : List ε) (h : ∀ entry ∈ entries, (∃ e, Stops e ∧ ∀ out, step out entry = .error e) ∨
      Goes entry ∧ ∀ out, step out entry = .ok (out ++ part entry)) :
    (∃ e, Stops e ∧ ∀ out, entries.foldlM step out = .error e) ∨
      (∀ entry ∈ entries, Goes entry) ∧ ∀ out, entries.foldlM step out = .ok (out ++ entries.flatMap part) := by
  induction entries with
  | nil =>
    refine .inr ⟨by simp, fun out => ?_⟩
    simp [pure, Except.pure]
  | cons entry entries ih =>
    rw [forall_mem_cons] at h
    obtain ⟨e, he, hstop⟩ | ⟨hgoes, hstep⟩ := h.1
    · refine .inl ⟨e, he, fun out => ?_⟩
      rw [foldlM_cons, hstop]
      rfl
    obtain ⟨e, he, hstop⟩ | ⟨hall, hrest⟩ := ih h.2
    · refine .inl ⟨e, he, fun out => ?_⟩
      rw [foldlM_cons, hstep]
      exact hstop _
    · refine .inr ⟨forall_mem_cons.2 ⟨hgoes, hall⟩, fun out => ?_⟩
      rw [foldlM_cons, hstep, flatMap_cons, ← append_assoc]
      exact hrest _

end Lib
