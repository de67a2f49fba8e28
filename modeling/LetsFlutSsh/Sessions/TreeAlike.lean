import LetsFlutSsh.Sessions.TreeContent

/-!
# The order of the inputs of a tree

* `Alike` : two forests that differ in the order of nodes with equal names only, names compared without case;
* `alike_sortTree` : sorted forests of the same slots are alike when what stands below each branch is.
-/

namespace LetsFlutSsh.Sessions
open Lib List

def sortKey (toLowercase : String → String) (n : TreeNode) : Bool × String := (n.sessionId.isNone, toLowercase n.name)

mutual

/-- Nodes that differ below them only. -/
inductive AlikeNode (toLowercase : String → String) : TreeNode → TreeNode → Prop
  | mk (name fullPath : String) (sessionId : Option String) (sessionCount : UInt32) {children children' : List TreeNode}
      (h : Alike toLowercase children children') :
      AlikeNode toLowercase ⟨name, fullPath, sessionId, sessionCount, children⟩
        ⟨name, fullPath, sessionId, sessionCount, children'⟩

/-- Node by node. -/
inductive AlikeEach (toLowercase : String → String) : List TreeNode → List TreeNode → Prop
  | nil : AlikeEach toLowercase [] []
  | cons {n n' : TreeNode} {ns ns' : List TreeNode} (h : AlikeNode toLowercase n n') (hs : AlikeEach toLowercase ns ns') :
      AlikeEach toLowercase (n :: ns) (n' :: ns')

/-- After nodes of one key have changed places. -/
inductive Alike (toLowercase : String → String) : List TreeNode → List TreeNode → Prop
  | mk {nodes between nodes' : List TreeNode} (heach : AlikeEach toLowercase nodes between) (hperm : between.Perm nodes')
      (hkeys : between.map (sortKey toLowercase) = nodes'.map (sortKey toLowercase)) : Alike toLowercase nodes nodes'

end

variable {toLowercase : String → String} {parts : List String} {items items' : List (Item String TreeSession)}

theorem Alike.nil : Alike toLowercase [] [] := .mk .nil (.refl _) rfl

theorem alikeEach_map {α : Type} {f g : α → TreeNode} {xs : List α} (h : ∀ x ∈ xs, AlikeNode toLowercase (f x) (g x)) :
    AlikeEach toLowercase (xs.map f) (xs.map g) := by
  induction xs with
  | nil => exact .nil
  | cons x xs ih =>
    obtain ⟨hx, hxs⟩ := forall_mem_cons.1 h
    exact .cons hx (ih hxs)

theorem nodeOrder_congr {a a' b b' : TreeNode} (ha : sortKey toLowercase a = sortKey toLowercase a')
    (hb : sortKey toLowercase b = sortKey toLowercase b') : nodeOrder toLowercase a b = nodeOrder toLowercase a' b' := by
  obtain ⟨hkind, hname⟩ := Prod.mk.inj ha
  obtain ⟨hkind', hname'⟩ := Prod.mk.inj hb
  unfold nodeOrder
  rw [hkind, hname, hkind', hname']

def KeyBefore (x y : Bool × String) : Prop := (x.1 = true ∧ y.1 = false) ∨ (x.1 = y.1 ∧ x.2 ≤ y.2)

theorem before_iff {a b : TreeNode} : Before toLowercase a b ↔ KeyBefore (sortKey toLowercase a) (sortKey toLowercase b) :=
  Iff.rfl

theorem KeyBefore.antisymm {x y : Bool × String} (hxy : KeyBefore x y) (hyx : KeyBefore y x) : x = y := by
  rcases hxy with ⟨hx, hy⟩ | ⟨hkind, hle⟩
  · rcases hyx with ⟨hy', _⟩ | ⟨hkind, _⟩
    · rw [hy] at hy'
      cases hy'
    · rw [hx, hy] at hkind
      cases hkind
  · rcases hyx with ⟨hy, hx⟩ | ⟨_, hge⟩
    · rw [hx, hy] at hkind
      cases hkind
    · exact Prod.ext hkind (le_antisymm hle hge)

theorem map_sortKey_eq {nodes nodes' : List TreeNode} (hnodes : nodes.Pairwise (Before toLowercase))
    (hnodes' : nodes'.Pairwise (Before toLowercase)) (h : nodes.Perm nodes') :
    nodes.map (sortKey toLowercase) = nodes'.map (sortKey toLowercase) := by
  have hkeys : (nodes.map (sortKey toLowercase)).Pairwise KeyBefore := pairwise_map.2 (hnodes.imp before_iff.1)
  have hkeys' : (nodes'.map (sortKey toLowercase)).Pairwise KeyBefore := pairwise_map.2 (hnodes'.imp before_iff.1)
  exact Perm.eq_of_pairwise (fun _ _ _ _ => KeyBefore.antisymm) hkeys hkeys' (h.map _)

section Slots

variable {sub sub' : String → List TreeNode} {slots slots' : List (Slot String TreeSession)}

def slotOrder (toLowercase : String → String) (x y : Slot String TreeSession) : Bool :=
  (nodeOrder toLowercase (nodeOf (fun _ => []) [] x) (nodeOf (fun _ => []) [] y)).isLE

theorem sortTree_map_nodeOf (slots : List (Slot String TreeSession)) : sortTree toLowercase (slots.map (nodeOf sub parts)) =
    (slots.mergeSort (slotOrder toLowercase)).map fun slot => sortNode toLowercase (nodeOf sub parts slot) := by
  have hkey : ∀ slot, sortKey toLowercase (nodeOf sub parts slot) = sortKey toLowercase (nodeOf (fun _ => []) [] slot) := by
    intro slot
    cases slot <;> rfl
  rw [sortTree_eq, ← map_mergeSort (f := nodeOf sub parts) (r := slotOrder toLowercase), map_map]
  · rfl
  · intro x _ y _
    exact congrArg Ordering.isLE (nodeOrder_congr (hkey x).symm (hkey y).symm)

theorem alike_sortTree (hsub : ∀ part, Alike toLowercase (sortTree toLowercase (sub part)) (sortTree toLowercase (sub' part)))
    (hcount : ∀ part, countAll (sortTree toLowercase (sub part)) = countAll (sortTree toLowercase (sub' part)))
    (h : slots.Perm slots') :
    Alike toLowercase (sortTree toLowercase (slots.map (nodeOf sub parts)))
      (sortTree toLowercase (slots'.map (nodeOf sub' parts))) := by
  have hnode : ∀ slot, AlikeNode toLowercase (sortNode toLowercase (nodeOf sub parts slot))
      (sortNode toLowercase (nodeOf sub' parts slot)) := by
    intro slot
    cases slot with
    | leaf s =>
      unfold nodeOf
      rw [sortNode_leaf rfl]
      exact .mk _ _ _ _ Alike.nil
    | branch part =>
      unfold nodeOf
      rw [sortNode_folder rfl, sortNode_folder rfl]
      rw [hcount part]
      exact .mk _ _ _ _ (hsub part)
  have hsorted : (slots.mergeSort (slotOrder toLowercase)).Perm (slots'.mergeSort (slotOrder toLowercase)) :=
    (mergeSort_perm slots _).trans (h.trans (mergeSort_perm slots' _).symm)
  have hbetween : ((slots.mergeSort (slotOrder toLowercase)).map fun slot => sortNode toLowercase (nodeOf sub' parts slot)).Perm
      (sortTree toLowercase (slots'.map (nodeOf sub' parts))) := by
    rw [sortTree_map_nodeOf slots']
    exact hsorted.map _
  refine .mk ?_ hbetween ?_
  · rw [sortTree_map_nodeOf slots]
    exact alikeEach_map fun slot _ => hnode slot
  · rw [← sortTree_map_nodeOf slots] at hbetween ⊢
    exact map_sortKey_eq (pairwise_sortTree _) (pairwise_sortTree _) hbetween

end Slots

theorem alike_grouped {depth : Nat} (hitems : ∀ item ∈ items, item.1.length ≤ depth) (h : items.Perm items') :
    Alike toLowercase (sortTree toLowercase (grouped depth parts items))
      (sortTree toLowercase (grouped depth parts items')) := by
  have hempty : sortTree toLowercase [] = [] := by rw [sortTree_eq, mergeSort_nil, map_nil]
  induction depth generalizing parts items items' with
  | zero =>
    refine alike_sortTree (fun _ => ?_) (fun _ => rfl) (slots_perm h)
    rw [hempty]
    exact Alike.nil
  | succ depth ih =>
    rw [grouped_succ, grouped_succ]
    have hbelow : ∀ part, ∀ item ∈ under part items, item.1.length ≤ depth := fun _ => length_of_mem_under hitems
    refine alike_sortTree (fun part => ih (hbelow part) (under_perm part h)) (fun part => ?_) (slots_perm h)
    -- The counts are those of the leaves, which are the same.
    have hbelow' : ∀ item ∈ under part items', item.1.length ≤ depth := fun item hitem =>
      hbelow part item ((under_perm part h).mem_iff.2 hitem)
    have hleaves : (leaves (pathText (parts ++ [part])) (grouped depth (parts ++ [part]) (under part items))).Perm
        (leaves (pathText (parts ++ [part])) (grouped depth (parts ++ [part]) (under part items'))) :=
      (leaves_grouped (hbelow part)).trans (((under_perm part h).flatMap_right _).trans (leaves_grouped hbelow').symm)
    rw [countAll_eq _ (pathText (parts ++ [part])), countAll_eq _ (pathText (parts ++ [part])),
      (leaves_sortTree _ _).length_eq, (leaves_sortTree _ _).length_eq, hleaves.length_eq]

end LetsFlutSsh.Sessions
