import LetsFlutSsh.Db.Dao

/-!
# The folder tree

* `Kept`, `Grows`: no folder was changed; folders were added and nothing else changed;
* `Chain db x names`: following parents from `x` ends at a root, through the folders called `names`.
-/

namespace LetsFlutSsh.Folders
open Lib List

variable {Text : Type}

def Kept (db db' : Db Text) : Prop := ∀ id row, db.folders.get id = some row → db'.folders.get id = some row

/-- Folders were added, nothing else changed. -/
structure Grows (db db' : Db Text) : Prop where
  kept : Kept db db'
  rest : db'.withoutFolders = db.withoutFolders

theorem Grows.refl (db : Db Text) : Grows db db := ⟨fun _ _ h => h, rfl⟩

theorem Grows.trans {db₁ db₂ db₃ : Db Text} (h₁ : Grows db₁ db₂) (h₂ : Grows db₂ db₃) : Grows db₁ db₃ :=
  ⟨fun id row h => h₂.kept id row (h₁.kept id row h), h₂.rest.trans h₁.rest⟩

variable {db db' : Db Text} {id : String} {x : Option String} {names seen : List String}

theorem Kept.isSome (h : Kept db db') (hid : (db.folders.get id).isSome) : (db'.folders.get id).isSome := by
  obtain ⟨row, hrow⟩ := Option.isSome_iff_exists.1 hid
  rw [h id row hrow]
  rfl

theorem upsert_ok {row : FolderRow} (h : upsert db id row = .ok db') :
    (∀ f, row.parentId = some f → f = id ∨ (db.folders.get f).isSome) ∧
      db' = { db with folders := db.folders.set id row } := by
  unfold upsert at h
  split_ifs at h with hok
  refine ⟨fun f hf => ?_, by cases h; rfl⟩
  rw [hf, Option.all_some, Bool.or_eq_true, decide_eq_true_eq] at hok
  exact hok

theorem upsert_fresh (db : Db Text) (row : FolderRow) (hid : id ∉ db.folders.keys)
    (hparent : ∀ f, row.parentId = some f → (db.folders.get f).isSome) :
    ∃ db', upsert db id row = .ok db' ∧ Grows db db' ∧ db'.folders.get id = some row := by
  have hok : (row.parentId.all fun f => f = id || (db.folders.get f).isSome) = true := by
    rw [Option.all_eq_true]
    intro f hf
    rw [hparent f hf, Bool.or_true]
  refine ⟨{ db with folders := db.folders.set id row }, ?_, ⟨?_, rfl⟩, ?_⟩
  · rw [upsert, if_pos hok]
  · intro id' row' hget
    have hne : id' ≠ id := by
      rintro rfl
      exact hid ((db.folders.mem_keys_iff id').2 (by rw [hget]; rfl))
    rw [Table.get_set, if_neg hne, hget]
  · rw [Table.get_set, if_pos rfl]

/-- Following parents ends at a root; the names on the way, from the root down. -/
inductive Chain (db : Db Text) : Option String → List String → Prop
  | root : Chain db none []
  | child {id : String} {row : FolderRow} {names : List String} (hrow : db.folders.get id = some row)
      (hparent : Chain db row.parentId names) : Chain db (some id) (names ++ [row.name])

theorem Chain.mono (h : Kept db db') (hc : Chain db x names) : Chain db' x names := by
  induction hc with
  | root => exact .root
  | child hrow _ ih => exact .child (h _ _ hrow) ih

theorem Chain.isSome (hc : Chain db (some id) names) : (db.folders.get id).isSome := by
  cases hc with
  | child hrow _ => rw [hrow]; rfl

theorem Chain.unique {names' : List String} (hc : Chain db x names) (hc' : Chain db x names') : names = names' := by
  induction hc generalizing names' with
  | root =>
    cases hc'
    rfl
  | child hrow _ ih =>
    cases hc' with
    | child hrow' hparent' =>
      rw [hrow] at hrow'
      cases hrow'
      rw [ih hparent']

def unseen (db : Db Text) (seen : List String) : Nat := (db.folders.keys.filter (· ∉ seen)).length

theorem unseen_cons_lt (db : Db Text) (hid : id ∈ db.folders.keys)
    (hseen : id ∉ seen) : unseen db (id :: seen) < unseen db seen := by
  have hfilter : db.folders.keys.filter (· ∉ id :: seen) = (db.folders.keys.filter (· ∉ seen)).filter (· ≠ id) := by
    rw [filter_filter]
    congr 1
    funext x
    simp
  unfold unseen
  rw [hfilter, length_filter_lt_length_iff_exists]
  exact ⟨id, by simpa using ⟨hid, hseen⟩, by simp⟩

theorem namesUp_fuel (db : Db Text) {fuel fuel' : Nat} (x : Option String)
    (hfuel : unseen db seen < fuel) (hfuel' : unseen db seen < fuel') :
    namesUp db fuel seen x = namesUp db fuel' seen x := by
  induction fuel generalizing fuel' seen x with
  | zero => omega
  | succ n ih =>
    obtain ⟨m, rfl⟩ : ∃ m, fuel' = m + 1 := ⟨fuel' - 1, by omega⟩
    rcases x with _ | id
    · rfl
    unfold namesUp
    rcases hrow : db.folders.get id with _ | row
    · rfl
    by_cases hid : id ∈ seen
    · simp only [if_pos hid]
    · have hlt := unseen_cons_lt db ((db.folders.mem_keys_iff id).2 (by rw [hrow]; rfl)) hid
      simp only [if_neg hid]
      rw [ih row.parentId (show unseen db (id :: seen) < n by omega) (show unseen db (id :: seen) < m by omega)]

theorem namesUp_of_chain (hc : Chain db x names) {fuel : Nat} (hfuel : names.length < fuel)
    (hseen : ∀ s ∈ seen, ∃ names', Chain db (some s) names' ∧ names.length < names'.length) :
    namesUp db fuel seen x = names.reverse := by
  induction hc generalizing fuel seen with
  | root => cases fuel <;> rfl
  | @child id row names hrow hparent ih =>
    rw [length_append, length_singleton] at hfuel hseen
    obtain ⟨n, rfl⟩ : ∃ n, fuel = n + 1 := ⟨fuel - 1, by omega⟩
    have hself : Chain db (some id) (names ++ [row.name]) := .child hrow hparent
    -- A folder met before has a longer chain, so the walk does not come back to it.
    have hnot : id ∉ seen := by
      intro hmem
      obtain ⟨names', hc', hlen⟩ := hseen id hmem
      have hnames := congrArg List.length (hself.unique hc')
      rw [length_append, length_singleton] at hnames
      omega
    have hwalk : namesUp db n (id :: seen) row.parentId = names.reverse := by
      refine ih (by omega) fun s hs => ?_
      rcases mem_cons.1 hs with rfl | hs
      · exact ⟨_, hself, by simp⟩
      · obtain ⟨names', hc', hlen⟩ := hseen s hs
        exact ⟨names', hc', by omega⟩
    rw [namesUp]
    simp only [hrow, if_neg hnot, hwalk, reverse_append, reverse_singleton, singleton_append]

theorem unseen_nil_le (db : Db Text) : unseen db [] ≤ db.folders.rows.length := by
  unfold unseen Table.keys
  refine (length_filter_le _ _).trans ?_
  rw [length_map]

theorem pathOf_of_chain (hc : Chain db (some id) names) : pathOf db id = "/".intercalate names := by
  have hle := unseen_nil_le db
  unfold pathOf
  rw [namesUp_fuel db _ (by omega) (show unseen db [] < db.folders.rows.length + 1 + names.length by omega),
    namesUp_of_chain hc (by omega) (by simp), reverse_reverse]

theorem namesUp_kept (h : Kept db db') (hrefs : db.RefsOk) (fuel : Nat)
    (seen : List String) (x : Option String) (hx : ∀ id, x = some id → (db.folders.get id).isSome) :
    namesUp db' fuel seen x = namesUp db fuel seen x := by
  induction fuel generalizing seen x with
  | zero => rfl
  | succ n ih =>
    rcases x with _ | id
    · rfl
    obtain ⟨row, hrow⟩ := Option.isSome_iff_exists.1 (hx id rfl)
    unfold namesUp
    simp only [hrow, h id row hrow]
    rw [ih (id :: seen) row.parentId (hrefs.folderParent id row hrow)]

theorem Kept.length_le (h : Kept db db') : db.folders.rows.length ≤ db'.folders.rows.length := by
  have hsub : db.folders.keys ⊆ db'.folders.keys := by
    intro id hid
    rw [Table.mem_keys_iff] at hid ⊢
    exact h.isSome hid
  have hle := (subperm_of_subset db.folders.nodup hsub).length_le
  unfold Table.keys at hle
  rwa [length_map, length_map] at hle

theorem pathOf_kept (h : Kept db db') (hrefs : db.RefsOk)
    (hid : (db.folders.get id).isSome) : pathOf db' id = pathOf db id := by
  have hle := unseen_nil_le db
  have hlen := h.length_le
  unfold pathOf
  rw [namesUp_kept h hrefs _ _ _ (by rintro _ ⟨⟩; exact hid),
    namesUp_fuel db _ (by omega) (show unseen db [] < db.folders.rows.length + 1 by omega)]

variable {parent : Option String}

theorem byParent_mem {rows : List (String × FolderRow)} {name : String}
    (h : byParent rows parent name = some id) :
    ∃ row, (id, row) ∈ rows ∧ row.parentId = parent ∧ row.name = name := by
  obtain ⟨⟨id', row⟩, hfind, rfl⟩ := Option.map_eq_some_iff.1 h
  have hp := find?_some hfind
  have hmem := mem_reverse.1 (mem_of_find?_eq_some hfind)
  rw [decide_eq_true_eq] at hp
  exact ⟨row, hmem, hp.1, hp.2⟩

/-- The folders `db'` has besides those of `db` lie on the way down from `names` through `segs`. -/
def MadeOnWay (db db' : Db Text) (names segs : List String) : Prop :=
  ∀ id, (db'.folders.get id).isSome →
    (db.folders.get id).isSome ∨ ∃ pre, pre ≠ [] ∧ pre <+: segs ∧ Chain db' (some id) (names ++ pre)

variable {mint : List String → String}

theorem ensureSegments_spec (hmint : ∀ used, mint used ∉ used)
    (listed : List (String × FolderRow)) (now : Int64) (segs : List String)
    {made : List (String × FolderRow)}
    (hrows : ∀ e ∈ listed ++ made, db.folders.get e.1 = some e.2) (hc : Chain db parent names) :
    ∃ db' x, ensureSegments mint listed now db made parent segs = (db', .ok x) ∧ Grows db db' ∧
      Chain db' x (names ++ segs) ∧ MadeOnWay db db' names segs := by
  induction segs generalizing db made parent names with
  | nil => exact ⟨db, parent, rfl, .refl db, by simpa using hc, fun _ => .inl⟩
  | cons seg segs ih =>
    unfold ensureSegments
    rcases hby : byParent (listed ++ made) parent seg with _ | id
    · have hparent : ∀ f, parent = some f → (db.folders.get f).isSome := by
        rintro f rfl
        exact hc.isSome
      obtain ⟨db₁, hup, hgrow, hget⟩ :=
        upsert_fresh db ⟨seg, parent, 0, false, now⟩ (hmint db.folders.keys) hparent
      have hrows₁ : ∀ e ∈ listed ++ (made ++ [(mint db.folders.keys, (⟨seg, parent, 0, false, now⟩ : FolderRow))]),
          db₁.folders.get e.1 = some e.2 := by
        intro e he
        rw [← append_assoc, mem_append, mem_singleton] at he
        rcases he with he | rfl
        · exact hgrow.kept _ _ (hrows e he)
        · exact hget
      have hc₁ := Chain.child hget (hc.mono hgrow.kept)
      obtain ⟨db', x, heq, hgrow', hc', hmade⟩ := ih hrows₁ hc₁
      refine ⟨db', x, ?_, hgrow.trans hgrow', by simpa using hc', fun id hid => ?_⟩
      · simp only [hup, heq]
      rcases hmade id hid with hid₁ | ⟨pre, hne, hpre, hcid⟩
      · rw [(upsert_ok hup).2] at hid₁
        rw [Table.get_set] at hid₁
        split_ifs at hid₁ with hself
        · refine .inr ⟨[seg], by simp, by simp, ?_⟩
          rw [hself]
          exact hc₁.mono hgrow'.kept
        · exact .inl hid₁
      · exact .inr ⟨seg :: pre, by simp, by simpa using hpre, by simpa using hcid⟩
    · obtain ⟨row, hmem, rfl, rfl⟩ := byParent_mem hby
      obtain ⟨db', x, heq, hgrow, hc', hmade⟩ := ih hrows (Chain.child (hrows _ hmem) hc)
      refine ⟨db', x, heq, hgrow, by simpa using hc', fun id hid => ?_⟩
      rcases hmade id hid with hid | ⟨pre, hne, hpre, hcid⟩
      · exact .inl hid
      · exact .inr ⟨row.name :: pre, by simp, by simpa using hpre, by simpa using hcid⟩

theorem ensureFolderPath_spec (hmint : ∀ used, mint used ∉ used) (db : Db Text)
    {path : String} (hpath : path ≠ "") (now : Int64) :
    ∃ db' x, ensureFolderPath mint db path now = (db', .ok x) ∧ Grows db db' ∧ Chain db' x (segments path) ∧
      MadeOnWay db db' [] (segments path) := by
  have hrows : ∀ e ∈ listAll db ++ [], db.folders.get e.1 = some e.2 := by
    intro e he
    rw [append_nil, listAll, mem_mergeSort] at he
    exact (db.folders.mem_rows_iff e.1 e.2).1 he
  obtain ⟨db', x, heq, hgrow, hc, hmade⟩ := ensureSegments_spec hmint (listAll db) now (segments path) hrows .root
  refine ⟨db', x, ?_, hgrow, hc, hmade⟩
  rw [ensureFolderPath, if_neg hpath, heq]

end LetsFlutSsh.Folders
