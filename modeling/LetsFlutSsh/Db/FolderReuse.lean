import LetsFlutSsh.Db.FolderTree

/-!
# Finding a path again

`ensure_folder_path` finds folders by parent and name. What it found or created it finds again:

* `byParent_listAll_set`: a folder with a name of its own changes no other answer of the map;
* `Extends`: every answer of the map is still given;
* `resolve`: the walk down existing folders;
* `ensureFolderPath_resolves`: the folder answered for a path is the one the walk finds afterwards;
* `ensureFolderPath_of_resolve`: a path whose walk succeeds creates nothing.
-/

namespace LetsFlutSsh.Folders
open Lib List Option

variable {Text : Type}

theorem listedBefore_trans (a b c : String × FolderRow) (hab : listedBefore a b = true) (hbc : listedBefore b c = true) :
    listedBefore a c = true := by
  unfold listedBefore at *
  simp only [Bool.or_eq_true, Bool.and_eq_true, decide_eq_true_eq, beq_iff_eq] at *
  rcases hab with hab | ⟨hab, hab'⟩ <;> rcases hbc with hbc | ⟨hbc, hbc'⟩
  · exact .inl (Int64.lt_trans hab hbc)
  · exact .inl (hbc ▸ hab)
  · exact .inl (hab ▸ hbc)
  · exact .inr ⟨hab.trans hbc, String.le_trans hab' hbc'⟩

theorem listedBefore_total (a b : String × FolderRow) : (listedBefore a b || listedBefore b a) = true := by
  unfold listedBefore
  simp only [Bool.or_eq_true, Bool.and_eq_true, decide_eq_true_eq, beq_iff_eq]
  by_cases hab : a.2.sortOrder < b.2.sortOrder
  · exact .inl (.inl hab)
  by_cases hba : b.2.sortOrder < a.2.sortOrder
  · exact .inr (.inl hba)
  have heq : a.2.sortOrder = b.2.sortOrder := Int64.le_antisymm (Int64.not_lt.1 hba) (Int64.not_lt.1 hab)
  rcases String.le_total a.2.name b.2.name with h | h
  · exact .inl (.inr ⟨heq, h⟩)
  · exact .inr (.inr ⟨heq.symm, h⟩)

def named (parent : Option String) (name : String) (rows : List (String × FolderRow)) : List (String × FolderRow) :=
  rows.filter fun e => e.2.parentId = parent ∧ e.2.name = name

variable (parent : Option String)

theorem byParent_eq (rows : List (String × FolderRow)) (name : String) :
    byParent rows parent name = ((named parent name rows).getLast?).map Prod.fst := by
  unfold byParent named
  rw [← head?_filter, filter_reverse, head?_reverse]

variable {parent : Option String}

theorem named_of_byParent_none {rows : List (String × FolderRow)} {name : String}
    (h : byParent rows parent name = none) : named parent name rows = [] := by
  rw [byParent_eq, map_eq_none_iff, getLast?_eq_none_iff] at h
  exact h

theorem byParent_append {rows : List (String × FolderRow)} (e : String × FolderRow) (name : String) :
    byParent (rows ++ [e]) parent name =
      if e.2.parentId = parent ∧ e.2.name = name then some e.1 else byParent rows parent name := by
  unfold byParent
  rw [reverse_append, reverse_singleton, singleton_append, find?_cons]
  by_cases h : e.2.parentId = parent ∧ e.2.name = name
  · simp [h]
  · simp [h]

variable {db : Db Text}

theorem byParent_listAll_set {id : String} {row : FolderRow} (hid : db.folders.get id = none)
    (hfree : byParent (listAll db) row.parentId row.name = none) (name : String) :
    byParent (listAll { db with folders := db.folders.set id row }) parent name =
      if row.parentId = parent ∧ row.name = name then some id else byParent (listAll db) parent name := by
  have hfilter : ∀ rows : List (String × FolderRow), named parent name (rows.mergeSort listedBefore) =
      (named parent name rows).mergeSort listedBefore :=
    filter_mergeSort listedBefore_trans listedBefore_total _
  have hold : named parent name (listAll db) = (named parent name db.folders.rows).mergeSort listedBefore :=
    hfilter db.folders.rows
  have hnew : named parent name (listAll { db with folders := db.folders.set id row }) =
      (named parent name (db.folders.rows ++ [(id, row)])).mergeSort listedBefore := by
    rw [← Table.rows_set_of_none row hid]
    exact hfilter _
  by_cases h : row.parentId = parent ∧ row.name = name
  · obtain ⟨rfl, rfl⟩ := h
    -- No folder had the name, so the new one is alone.
    have hnone : named row.parentId row.name db.folders.rows = [] := by
      have hempty := named_of_byParent_none hfree
      rw [hold] at hempty
      simpa using congrArg List.length hempty
    rw [if_pos ⟨rfl, rfl⟩, byParent_eq, hnew]
    unfold named at hnone ⊢
    rw [filter_append, hnone]
    simp
  · rw [if_neg h, byParent_eq, byParent_eq, hnew, hold]
    unfold named
    rw [filter_append, filter_cons_of_neg (by simpa using h), filter_nil, append_nil]

def Extends (db db' : Db Text) : Prop :=
  ∀ parent name id, byParent (listAll db) parent name = some id → byParent (listAll db') parent name = some id

theorem Extends.refl (db : Db Text) : Extends db db := fun _ _ _ h => h

theorem Extends.trans {db₁ db₂ db₃ : Db Text} (h₁ : Extends db₁ db₂) (h₂ : Extends db₂ db₃) : Extends db₁ db₃ :=
  fun parent name id h => h₂ parent name id (h₁ parent name id h)

def resolve (rows : List (String × FolderRow)) : Option String → List String → Option (Option String)
  | parent, [] => some parent
  | parent, seg :: segs => (byParent rows parent seg).bind fun id => resolve rows (some id) segs

variable {x : Option String}

theorem Extends.resolve {db' : Db Text} (h : Extends db db') {segs : List String}
    (hx : resolve (listAll db) parent segs = some x) : resolve (listAll db') parent segs = some x := by
  induction segs generalizing parent with
  | nil => exact hx
  | cons seg segs ih =>
    obtain ⟨id, hid, hrest⟩ := bind_eq_some_iff.1 hx
    exact bind_eq_some_iff.2 ⟨id, h parent seg id hid, ih hrest⟩

theorem extends_set {id : String} {row : FolderRow} (hid : db.folders.get id = none)
    (hfree : byParent (listAll db) row.parentId row.name = none) :
    Extends db { db with folders := db.folders.set id row } := by
  intro parent name id' h
  rw [byParent_listAll_set hid hfree]
  by_cases hkey : row.parentId = parent ∧ row.name = name
  · obtain ⟨rfl, rfl⟩ := hkey
    rw [hfree] at h
    cases h
  · rw [if_neg hkey, h]

theorem ensureSegments_resolves {mint : List String → String} (hmint : ∀ used, mint used ∉ used)
    (listed : List (String × FolderRow)) (now : Int64) (segs : List String)
    {made : List (String × FolderRow)}
    (hby : ∀ p n, byParent (listed ++ made) p n = byParent (listAll db) p n)
    (hparent : ∀ f, parent = some f → (db.folders.get f).isSome) :
    ∃ db' x, ensureSegments mint listed now db made parent segs = (db', .ok x) ∧ Extends db db' ∧
      resolve (listAll db') parent segs = some x := by
  induction segs generalizing db made parent with
  | nil => exact ⟨db, parent, rfl, .refl db, rfl⟩
  | cons seg segs ih =>
    unfold ensureSegments
    rcases hfound : byParent (listed ++ made) parent seg with _ | id
    · obtain ⟨db₁, hup, -, hget⟩ :=
        upsert_fresh db ⟨seg, parent, 0, false, now⟩ (hmint db.folders.keys) hparent
      have hfresh : db.folders.get (mint db.folders.keys) = none := by
        rw [← not_isSome_iff_eq_none, ← Table.mem_keys_iff]
        exact hmint db.folders.keys
      have hfree : byParent (listAll db) parent seg = none := by rw [← hby, hfound]
      obtain ⟨-, rfl⟩ := upsert_ok hup
      simp only [hup]
      have hby₁ : ∀ p n, byParent (listed ++ (made ++ [(mint db.folders.keys, (⟨seg, parent, 0, false, now⟩ : FolderRow))])) p n =
          byParent (listAll { db with folders := db.folders.set (mint db.folders.keys) ⟨seg, parent, 0, false, now⟩ }) p n := by
        intro p n
        rw [← append_assoc, byParent_append, byParent_listAll_set hfresh hfree, hby]
      have hparent₁ : ∀ f, some (mint db.folders.keys) = some f →
          ((db.folders.set (mint db.folders.keys) ⟨seg, parent, 0, false, now⟩).get f).isSome := by
        rintro _ ⟨⟩
        rw [hget]
        rfl
      obtain ⟨db', x, hrun, hext, hres⟩ := ih hby₁ hparent₁
      refine ⟨db', x, hrun, (extends_set hfresh hfree).trans hext, ?_⟩
      refine bind_eq_some_iff.2 ⟨mint db.folders.keys, hext _ _ _ ?_, hres⟩
      rw [byParent_listAll_set hfresh hfree]
      simp
    · rw [hby] at hfound
      have hsome : (db.folders.get id).isSome := by
        obtain ⟨row, hmem, -, -⟩ := byParent_mem hfound
        rw [listAll, mem_mergeSort, Table.mem_rows_iff] at hmem
        rw [hmem]
        rfl
      have hparent₁ : ∀ f, some id = some f → (db.folders.get f).isSome := by
        rintro _ ⟨⟩
        exact hsome
      obtain ⟨db', x, hrun, hext, hres⟩ := ih hby hparent₁
      exact ⟨db', x, hrun, hext, bind_eq_some_iff.2 ⟨id, hext _ _ _ hfound, hres⟩⟩

theorem ensureSegments_of_resolve (mint : List String → String) (now : Int64) {segs : List String}
    (h : resolve (listAll db) parent segs = some x) :
    ensureSegments mint (listAll db) now db [] parent segs = (db, .ok x) := by
  induction segs generalizing parent with
  | nil =>
    cases h
    rfl
  | cons seg segs ih =>
    obtain ⟨id, hid, hrest⟩ := bind_eq_some_iff.1 h
    unfold ensureSegments
    rw [append_nil, hid]
    exact ih hrest

theorem ensureFolderPath_resolves {mint : List String → String} (hmint : ∀ used, mint used ∉ used) (db : Db Text)
    {path : String} (hpath : path ≠ "") (now : Int64) :
    ∃ db' x, ensureFolderPath mint db path now = (db', .ok x) ∧ Extends db db' ∧
      resolve (listAll db') none (segments path) = some x := by
  unfold ensureFolderPath
  rw [if_neg hpath]
  exact ensureSegments_resolves hmint (listAll db) now (segments path) (fun p n => by rw [append_nil]) (by rintro _ ⟨⟩)

theorem ensureFolderPath_of_resolve (mint : List String → String) (now : Int64) {path : String}
    (hpath : path ≠ "") (h : resolve (listAll db) none (segments path) = some x) :
    ensureFolderPath mint db path now = (db, .ok x) := by
  unfold ensureFolderPath
  rw [if_neg hpath, ensureSegments_of_resolve mint now h]

end LetsFlutSsh.Folders
