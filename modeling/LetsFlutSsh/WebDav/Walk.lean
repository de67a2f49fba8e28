import Mathlib.Algebra.BigOperators.Group.List.Basic
import Mathlib.Data.List.DropRight
import LetsFlutSsh.Lib.Pages

/-!
# Listings of a WebDAV tree

The answer to a listing holds the collection itself besides its members; it is known by its place alone.

* `list`, `walkDirSize` : the members of a collection, and the size of all files below it;
* `Members`, `Collection`, `Serves` : a tree, and a server that answers for it in any order;
* `exact_iff` : when all listings and the size are right.
-/

namespace LetsFlutSsh.WebDav
open Lib List

structure PropfindEntry where
  href : String
  displayName : Option String
  sizeBytes : Option Nat
  lastModifiedUnixMs : Option Int
  isCollection : Bool

inductive EntryKind where
  | file
  | dir

structure Entry where
  path : String
  name : String
  kind : EntryKind
  sizeBytes : Nat
  modifiedUnixMs : Option Int

def hrefBasename (href : String) (isCollection : Bool) : Option String :=
  let trimmed := if isCollection then href.toList.rdropWhile (· = '/') else href.toList
  let last := trimmed.rtakeWhile (· ≠ '/')
  if last = [] then none else some (String.ofList last)

def entryFromPropfind (p : PropfindEntry) : Entry where
  path := p.href
  name := ((hrefBasename p.href p.isCollection).or p.displayName).getD ""
  kind := if p.isCollection then .dir else .file
  sizeBytes := p.sizeBytes.getD 0
  modifiedUnixMs := p.lastModifiedUnixMs

def firstHref (entries : List PropfindEntry) : Option String := entries.head?.map (·.href)

/-- What the server answers to a request of depth 1, which is the n-th that it gets. -/
abbrev Propfind := Nat → String → Except String (List PropfindEntry)

def list (propfind : Propfind) (n : Nat) (path : String) : Except String (List Entry) :=
  match propfind n path with
  | .error e => .error e
  | .ok entries => .ok ((entries.filter fun e => firstHref entries ≠ some e.href).map entryFromPropfind)

/-! ## The walk -/

def maxDepth : Nat := 100

/-- The walk between two requests: how many there were, the total, and what is still to be asked for with its depth. -/
structure Walk where
  asked : Nat
  total : Nat
  stack : List (String × Nat)

/-- `accumulate_propfind_entry`. -/
def accumulate (rootHref : Option String) (depth : Nat) (w : Walk) (entry : PropfindEntry) : Walk :=
  if rootHref = some entry.href then w
  else if entry.isCollection then { w with stack := (entry.href, depth + 1) :: w.stack }
  else { w with total := satAdd maxU64 w.total (entry.sizeBytes.getD 0) }

/-- `walk_dir_size`, from a state of its loop; nothing when the fuel runs out. -/
def walkDirSize (propfind : Propfind) : Nat → Walk → Option (Except String Nat)
  | 0, _ => none
  | fuel + 1, w =>
    match w.stack with
    | [] => some (.ok w.total)
    | (path, depth) :: stack =>
      if maxDepth ≤ depth then some (.error ("dir_size: depth " ++ toString maxDepth ++ " exceeded at " ++ path))
      else
        match propfind w.asked path with
        | .error e => some (.error e)
        | .ok entries =>
          walkDirSize propfind fuel
            (entries.foldl (accumulate (firstHref entries) depth) { asked := w.asked + 1, total := w.total, stack })

/-- `dir_size`, after `asked` requests. -/
def dirSize (propfind : Propfind) (fuel asked : Nat) (root : String) : Option (Except String Nat) :=
  walkDirSize propfind fuel { asked, total := 0, stack := [(root, 0)] }

/-! ## Trees -/

/-- What a collection holds: an entry with its own members, and the rest. Those of a file are not looked at. -/
inductive Members where
  | nil
  | cons (entry : PropfindEntry) (held rest : Members)

abbrev Node := PropfindEntry × Members

/-- A collection: the path it is asked for by, its own entry and what it holds. -/
structure Collection where
  path : String
  own : PropfindEntry
  held : Members

def Collection.ofNode (x : Node) : Option Collection := if x.1.isCollection then some ⟨x.1.href, x.1, x.2⟩ else none

def fileSize (x : Node) : Nat := if x.1.isCollection then 0 else x.1.sizeBytes.getD 0

variable {c : Collection}

namespace Members

def direct : Members → List Node
  | nil => []
  | cons entry held rest => (entry, held) :: rest.direct

def branches (m : Members) : List Collection := m.direct.filterMap Collection.ofNode

def collections : Members → List Collection
  | nil => []
  | cons entry held rest =>
    if entry.isCollection then ⟨entry.href, entry, held⟩ :: (held.collections ++ rest.collections) else rest.collections

def size : Members → Nat
  | nil => 0
  | cons entry held rest => (if entry.isCollection then held.size else entry.sizeBytes.getD 0) + rest.size

def height : Members → Nat
  | nil => 0
  | cons entry held rest => max (if entry.isCollection then held.height + 1 else 0) rest.height

theorem size_eq (m : Members) : m.size = (m.direct.map fileSize).sum + (m.branches.map (·.held.size)).sum := by
  unfold branches
  induction m with
  | nil => rfl
  | cons entry held rest _ ih =>
    rw [size, ih, direct, filterMap_cons, map_cons, sum_cons, fileSize, Collection.ofNode]
    rcases entry.isCollection
    · exact (Nat.add_assoc ..).symm
    · simp only [if_true, map_cons, sum_cons]
      omega

theorem length_collections (m : Members) :
    m.collections.length = (m.branches.map fun c => c.held.collections.length + 1).sum := by
  unfold branches
  induction m with
  | nil => rfl
  | cons entry held rest _ ih =>
    rw [collections, direct, filterMap_cons, Collection.ofNode]
    rcases entry.isCollection
    · exact ih
    · simp only [if_true, map_cons, sum_cons, length_cons, length_append]
      omega

theorem branch_within {m : Members} (h : c ∈ m.branches) :
    c.held.height < m.height ∧ c ∈ m.collections ∧ ∀ c' ∈ c.held.collections, c' ∈ m.collections := by
  unfold branches at h
  induction m with
  | nil => cases h
  | cons entry held rest _ ih =>
    rw [direct, filterMap_cons, Collection.ofNode] at h
    rw [height, collections]
    rcases hentry : entry.isCollection
    · rw [hentry] at h
      obtain ⟨hheight, hself, hbelow⟩ := ih h
      exact ⟨Nat.lt_of_lt_of_le hheight (Nat.le_max_right _ _), hself, hbelow⟩
    rw [hentry] at h
    rcases mem_cons.1 h with rfl | h
    · exact ⟨Nat.lt_of_lt_of_le (Nat.lt_succ_self _) (Nat.le_max_left _ _), mem_cons_self,
        fun c' hc' => mem_cons_of_mem _ (mem_append_left _ hc')⟩
    · obtain ⟨hheight, hself, hbelow⟩ := ih h
      exact ⟨Nat.lt_of_lt_of_le hheight (Nat.le_max_right _ _), mem_cons_of_mem _ (mem_append_right _ hself),
        fun c' hc' => mem_cons_of_mem _ (mem_append_right _ (hbelow c' hc'))⟩

end Members

def Collection.all (c : Collection) : List Collection := c :: c.held.collections

/-! ## Servers -/

/-- A server that answers for a collection: with its own entry and its members, in some order at every request. -/
def Serves (propfind : Propfind) (c : Collection) : Prop :=
  ∀ n, ∃ order : List Node, order.Perm ((c.own, .nil) :: c.held.direct) ∧ propfind n c.path = .ok (order.map Prod.fst)

def OwnHref (c : Collection) : Prop := ∀ x ∈ c.held.direct, x.1.href ≠ c.own.href

def OwnFirst (propfind : Propfind) (c : Collection) : Prop :=
  ∀ n entries, propfind n c.path = .ok entries → firstHref entries = some c.own.href

def ListExact (propfind : Propfind) (c : Collection) : Prop :=
  ∀ n, ∃ out, list propfind n c.path = .ok out ∧ out.Perm (c.held.direct.map fun x => entryFromPropfind x.1)

variable {propfind : Propfind}

section
theorem answer_of_ownFirst (hserves : Serves propfind c) (hown : OwnHref c) (hfirst : OwnFirst propfind c) (n : Nat) :
    ∃ order : List Node, order.Perm c.held.direct ∧ propfind n c.path = .ok (c.own :: order.map Prod.fst) := by
  obtain ⟨_ | ⟨x, order⟩, hperm, hanswer⟩ := hserves n
  · exact absurd hperm.length_eq nofun
  have hhref : x.1.href = c.own.href := Option.some.inj (hfirst n _ hanswer)
  obtain rfl : x = (c.own, .nil) :=
    (mem_cons.1 (hperm.subset mem_cons_self)).resolve_right fun hmem => hown x hmem hhref
  exact ⟨order, hperm.cons_inv, hanswer⟩

theorem list_exact_iff (hserves : Serves propfind c) (hown : OwnHref c) : ListExact propfind c ↔ OwnFirst propfind c := by
  constructor
  · -- The entry of the collection itself is left out, which takes its href to be the first one.
    intro h n entries hanswer
    obtain ⟨order, hperm, horder⟩ := hserves n
    obtain rfl : order.map Prod.fst = entries := Except.ok.inj (horder.symm.trans hanswer)
    obtain ⟨out, hout, hmembers⟩ := h n
    rw [list, hanswer] at hout
    cases hout
    by_contra hne
    have hself : entryFromPropfind c.own ∈ ((order.map Prod.fst).filter fun e =>
        firstHref (order.map Prod.fst) ≠ some e.href).map entryFromPropfind :=
      mem_map_of_mem (mem_filter.2 ⟨mem_map_of_mem (hperm.mem_iff.2 mem_cons_self), decide_eq_true hne⟩)
    obtain ⟨x, hx, heq⟩ := mem_map.1 (hmembers.mem_iff.1 hself)
    exact hown x hx (congrArg Entry.path heq)
  · intro h n
    obtain ⟨order, hperm, hanswer⟩ := answer_of_ownFirst hserves hown h n
    refine ⟨_, by rw [list, hanswer], ?_⟩
    have hself : (decide (firstHref (c.own :: order.map Prod.fst) ≠ some c.own.href)) = false := decide_eq_false fun h => h rfl
    have hmembers : ∀ e ∈ order.map Prod.fst, (decide (firstHref (c.own :: order.map Prod.fst) ≠ some e.href)) = true := by
      intro e he
      obtain ⟨x, hx, rfl⟩ := mem_map.1 he
      exact decide_eq_true fun heq => hown x (hperm.mem_iff.1 hx) (Option.some.inj heq).symm
    rw [filter_cons_of_neg (by rw [hself]; exact Bool.false_ne_true), filter_eq_self.2 hmembers, map_map]
    exact hperm.map _

end

/-! ## The size -/

theorem foldl_accumulate {rootHref : String} (depth : Nat) {nodes : List Node} (h : ∀ x ∈ nodes, x.1.href ≠ rootHref) (w : Walk)
    (hw : w.total ≤ maxU64) :
    (nodes.map Prod.fst).foldl (accumulate (some rootHref) depth) w =
      { asked := w.asked
        total := min (w.total + (nodes.map fileSize).sum) maxU64
        stack := (nodes.filterMap Collection.ofNode).reverse.map (fun c => (c.path, depth + 1)) ++ w.stack } := by
  induction nodes generalizing w with
  | nil =>
    have hsum : min (w.total + (([] : List Node).map fileSize).sum) maxU64 = w.total := Nat.min_eq_left hw
    rw [hsum]
    rfl
  | cons x nodes ih =>
    have hx : ¬some rootHref = some x.1.href := fun heq => h x mem_cons_self (Option.some.inj heq).symm
    have hrest : ∀ y ∈ nodes, y.1.href ≠ rootHref := fun y hy => h y (mem_cons_of_mem _ hy)
    rw [map_cons, foldl_cons, accumulate, if_neg hx, map_cons, sum_cons, filterMap_cons,
      Collection.ofNode, fileSize]
    rcases x.1.isCollection
    · rw [if_neg Bool.false_ne_true, ih hrest _ (Nat.min_le_right _ _)]
      simp only [Walk.mk.injEq, true_and, Bool.false_eq_true, if_false, and_true]
      unfold satAdd
      omega
    · rw [if_pos rfl, ih hrest { w with stack := (x.1.href, depth + 1) :: w.stack } hw]
      simp

def pendingSize (pending : List (Collection × Nat)) : Nat := (pending.map (·.1.held.size)).sum
def pendingRequests (pending : List (Collection × Nat)) : Nat := (pending.map fun p => p.1.held.collections.length + 1).sum

theorem walk_spec {fuel : Nat} {pending : List (Collection × Nat)} {w : Walk}
    (hstack : w.stack = pending.map fun p => (p.1.path, p.2))
    (hgood : ∀ p ∈ pending, (∀ c ∈ p.1.all, Serves propfind c ∧ OwnHref c ∧ OwnFirst propfind c) ∧ p.2 + p.1.held.height < maxDepth)
    (htotal : w.total ≤ maxU64) (hfuel : pendingRequests pending < fuel) :
    walkDirSize propfind fuel w = some (.ok (min (w.total + pendingSize pending) maxU64)) := by
  induction fuel generalizing pending w with
  | zero => cases hfuel
  | succ fuel ih =>
    rcases pending with _ | ⟨⟨c, depth⟩, pending⟩
    · have hsum : min (w.total + pendingSize []) maxU64 = w.total := Nat.min_eq_left htotal
      rw [walkDirSize, hstack, hsum]
      rfl
    obtain ⟨hall, hdepth⟩ := hgood _ mem_cons_self
    obtain ⟨hserves, hown, hfirst⟩ := hall c mem_cons_self
    obtain ⟨order, hperm, hanswer⟩ := answer_of_ownFirst hserves hown hfirst w.asked
    have hhrefs : ∀ x ∈ order, x.1.href ≠ c.own.href := fun x hx => hown x (hperm.mem_iff.1 hx)
    have hbranches : ((order.filterMap Collection.ofNode).reverse).Perm c.held.branches :=
      (reverse_perm _).trans (hperm.filterMap _)
    have hnot : ¬maxDepth ≤ depth := by omega
    have hnext : (c.own :: order.map Prod.fst).foldl (accumulate (firstHref (c.own :: order.map Prod.fst)) depth)
        { asked := w.asked + 1, total := w.total, stack := pending.map fun p => (p.1.path, p.2) } =
        { asked := w.asked + 1
          total := min (w.total + (c.held.direct.map fileSize).sum) maxU64
          stack := ((order.filterMap Collection.ofNode).reverse.map (fun b => (b, depth + 1)) ++ pending).map
            fun p => (p.1.path, p.2) } := by
      have hskip : ∀ w, accumulate (some c.own.href) depth w c.own = w := fun w => if_pos rfl
      show (c.own :: order.map Prod.fst).foldl (accumulate (some c.own.href) depth) _ = _
      rw [foldl_cons, hskip,
        foldl_accumulate depth hhrefs { asked := w.asked + 1, total := w.total, stack := pending.map fun p => (p.1.path, p.2) } htotal,
        (hperm.map fileSize).sum_eq, map_append, map_map]
      rfl
    have hsize : pendingSize ((order.filterMap Collection.ofNode).reverse.map (fun b => (b, depth + 1)) ++ pending) =
        (c.held.branches.map (·.held.size)).sum + pendingSize pending := by
      rw [pendingSize, map_append, sum_append, map_map, ← (hbranches.map _).sum_eq]
      rfl
    have hrequests : pendingRequests ((order.filterMap Collection.ofNode).reverse.map (fun b => (b, depth + 1)) ++ pending) =
        c.held.collections.length + pendingRequests pending := by
      rw [Members.length_collections, pendingRequests, map_append, sum_append, map_map, ← (hbranches.map _).sum_eq]
      rfl
    have hgoodNext : ∀ p ∈ (order.filterMap Collection.ofNode).reverse.map (fun b => (b, depth + 1)) ++ pending,
        (∀ b ∈ p.1.all, Serves propfind b ∧ OwnHref b ∧ OwnFirst propfind b) ∧ p.2 + p.1.held.height < maxDepth := by
      intro p hp
      rcases mem_append.1 hp with hp | hp
      · obtain ⟨b, hb, rfl⟩ := mem_map.1 hp
        obtain ⟨hheight, hself, hbelow⟩ := Members.branch_within (hbranches.mem_iff.1 hb)
        refine ⟨fun b' hb' => hall b' (mem_cons_of_mem _ ?_), by dsimp only at hdepth ⊢; omega⟩
        rcases mem_cons.1 hb' with rfl | hb'
        · exact hself
        · exact hbelow b' hb'
      · exact hgood p (mem_cons_of_mem _ hp)
    have hfuelNext : c.held.collections.length + 1 + pendingRequests pending < fuel + 1 := hfuel
    rw [walkDirSize, hstack]
    simp only [map_cons]
    rw [if_neg hnot, hanswer]
    simp only []
    rw [hnext, ih rfl hgoodNext (Nat.min_le_right _ _) (by omega), hsize]
    have hcons : pendingSize ((c, depth) :: pending) = c.held.size + pendingSize pending := rfl
    have htotals : min (min (w.total + (c.held.direct.map fileSize).sum) maxU64 +
        ((c.held.branches.map (·.held.size)).sum + pendingSize pending)) maxU64 =
        min (w.total + (c.held.size + pendingSize pending)) maxU64 := by
      rw [Members.size_eq]
      omega
    rw [hcons, htotals]

/-- The size is right, however many requests there were before, once the fuel is enough. -/
def SizeExact (propfind : Propfind) (root : Collection) : Prop :=
  ∀ asked, ∃ requests, ∀ fuel, requests ≤ fuel → dirSize propfind fuel asked root.path = some (.ok root.held.size)

theorem dirSize_eq {root : Collection}
    (hgood : ∀ c ∈ root.all, Serves propfind c ∧ OwnHref c ∧ OwnFirst propfind c) (hheight : root.held.height < maxDepth)
    {fuel asked : Nat} (hfuel : root.all.length < fuel) :
    dirSize propfind fuel asked root.path = some (.ok (min root.held.size maxU64)) := by
  have hgoodRoot : ∀ p ∈ [(root, 0)],
      (∀ c ∈ p.1.all, Serves propfind c ∧ OwnHref c ∧ OwnFirst propfind c) ∧ p.2 + p.1.held.height < maxDepth := by
    intro p hp
    obtain rfl := mem_singleton.1 hp
    exact ⟨hgood, by rwa [Nat.zero_add]⟩
  have hwalk : dirSize propfind fuel asked root.path = some (.ok (min (0 + (root.held.size + 0)) maxU64)) :=
    walk_spec rfl hgoodRoot (Nat.zero_le _) hfuel
  rwa [Nat.zero_add, Nat.add_zero] at hwalk

/-- **When the listings of a tree and its size are right**: when every collection stands first in every answer for it, and the
sizes do not add up to 2^64. -/
theorem exact_iff {propfind : Propfind} {root : Collection} (hserves : ∀ c ∈ root.all, Serves propfind c ∧ OwnHref c)
    (hheight : root.held.height < maxDepth) :
    ((∀ c ∈ root.all, ListExact propfind c) ∧ SizeExact propfind root) ↔
      (∀ c ∈ root.all, OwnFirst propfind c) ∧ root.held.size < 2 ^ 64 := by
  have hlists : (∀ c ∈ root.all, ListExact propfind c) ↔ ∀ c ∈ root.all, OwnFirst propfind c :=
    forall₂_congr fun c hc => list_exact_iff (hserves c hc).1 (hserves c hc).2
  rw [hlists]
  refine and_congr_right fun hfirst => ?_
  have hsize : ∀ fuel asked, root.all.length < fuel →
      dirSize propfind fuel asked root.path = some (.ok (min root.held.size maxU64)) := fun fuel asked =>
    dirSize_eq (fun c hc => ⟨(hserves c hc).1, (hserves c hc).2, hfirst c hc⟩) hheight
  constructor
  · intro h
    obtain ⟨requests, hrequests⟩ := h 0
    have heq := (hsize (requests + root.all.length + 1) 0 (by omega)).symm.trans (hrequests _ (by omega))
    rw [Option.some.injEq, Except.ok.injEq, maxU64] at heq
    omega
  · intro h asked
    refine ⟨root.all.length + 1, fun fuel hfuel => ?_⟩
    rw [hsize fuel asked hfuel, Nat.min_eq_left (by unfold maxU64; omega)]

/-! ## A collection with one file -/

def sampleRoot : Collection where
  path := "/dav/"
  own := { href := "/dav/", displayName := none, sizeBytes := none, lastModifiedUnixMs := none, isCollection := true }
  held := .cons { href := "/dav/a", displayName := none, sizeBytes := some 5, lastModifiedUnixMs := none, isCollection := false }
    .nil .nil

/-- Servers that answer for it with the collection first, or last. -/
def ownFirstServer : Propfind := fun _ _ => .ok (sampleRoot.own :: sampleRoot.held.direct.map Prod.fst)

def ownLastServer : Propfind := fun _ _ => .ok (sampleRoot.held.direct.map Prod.fst ++ [sampleRoot.own])

theorem ownHref_sample : OwnHref sampleRoot := by
  intro x hx
  obtain rfl := mem_singleton.1 hx
  decide

theorem exact_iff_sample : ((∀ c ∈ sampleRoot.all, ListExact ownFirstServer c) ∧ SizeExact ownFirstServer sampleRoot) ↔
      (∀ c ∈ sampleRoot.all, OwnFirst ownFirstServer c) ∧ sampleRoot.held.size < 2 ^ 64 := by
  refine exact_iff ?_ (by decide)
  intro c hc
  obtain rfl := mem_singleton.1 hc
  exact ⟨fun _ => ⟨_, .refl _, rfl⟩, ownHref_sample⟩

/-- **A file in the first place**: it is missing from the listing, which shows the collection instead; the walk asks for the
collection again until it gives up. -/
theorem ownLast_fails : (∀ c ∈ sampleRoot.all, Serves ownLastServer c ∧ OwnHref c) ∧ sampleRoot.held.height < maxDepth ∧
      ¬ListExact ownLastServer sampleRoot ∧
      dirSize ownLastServer 101 0 "/dav/" = some (.error "dir_size: depth 100 exceeded at /dav/") := by
  refine ⟨?_, by decide, ?_, by decide +kernel⟩
  · intro c hc
    obtain rfl := mem_singleton.1 hc
    exact ⟨fun _ => ⟨_, perm_append_singleton _ _, rfl⟩, ownHref_sample⟩
  · intro h
    obtain ⟨out, hout, hperm⟩ := h 0
    cases hout
    exact absurd (congrArg Entry.path (singleton_perm_singleton.1 hperm)) (by decide)

end LetsFlutSsh.WebDav
