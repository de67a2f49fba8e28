import Mathlib.Data.List.Dedup
import LetsFlutSsh.Archive.Atomicity

/-!
# The order of the session entries

An import applies its session entries one after the other. Entries with distinct ids touch
different sessions, so their order matters through the references between them only:

* `upsert_congr`: what `upsert` makes of a session depends on what was stored about it and on the
  two reference checks;
* `Settled`: the checks of every entry come out the same whenever the entry is reached;
* `NewJumpHost`: an entry whose jump host is itself new to the database.
-/

namespace LetsFlutSsh.Archive
open Lib List Option Sessions

variable {Text : Type}

/-! ## One write -/

theorem upsert_eq (db : Db Text) (row : SessionRow Text) : Sessions.upsert db row =
    if folderOk db row then
      if normaliseKind row.kind = kindSsh then
        if refsOk db row then
          (dropOtherDetails { writeParent db row with
            sshDetails := db.sshDetails.set row.id (detailsWritten row) } row, .ok ())
          else (writeParent db row, .error (dbError "ssh_session_details upsert" fkFailed))
        else
          (dropOtherDetails { writeParent db row with
            sshDetails := db.sshDetails.erase row.id } row, .ok ())
      else (db, .error (dbError "sessions upsert" fkFailed)) := by
  rcases upsert_cases db row with ⟨hf, h⟩ | ⟨hf, hk, hr, h⟩ | ⟨hf, hk, hr, h⟩ | ⟨hf, hk, h⟩
  · rw [h, hf, if_neg Bool.false_ne_true]
  · rw [h, hf, if_pos rfl, if_pos hk, hr, if_neg Bool.false_ne_true]
  · rw [h, hf, if_pos rfl, if_pos hk, hr, if_pos rfl]
  · rw [h, hf, if_pos rfl, if_neg hk]

theorem upsert_congr {db db' : Db Text} (row : SessionRow Text) (hstate : db'.sessionState row.id = db.sessionState row.id)
    (hfolder : folderOk db' row = folderOk db row)
    (hrefs : normaliseKind row.kind = kindSsh → refsOk db' row = refsOk db row) :
    (Sessions.upsert db' row).1.sessionState row.id = (Sessions.upsert db row).1.sessionState row.id ∧
      (Sessions.upsert db' row).2 = (Sessions.upsert db row).2 := by
  have hparent : db'.sessions.get row.id = db.sessions.get row.id := congrArg Db.SessionState.parent hstate
  have hdetails : db'.sshDetails.get row.id = db.sshDetails.get row.id := congrArg Db.SessionState.details hstate
  have hwebdav : decide (row.id ∈ db'.webdavDetails) = decide (row.id ∈ db.webdavDetails) :=
    congrArg Db.SessionState.hasWebdav hstate
  have hs3 : decide (row.id ∈ db'.s3Details) = decide (row.id ∈ db.s3Details) := congrArg Db.SessionState.hasS3 hstate
  rw [upsert_eq db', upsert_eq db, hfolder]
  split_ifs with _ hkind hrefs' hrefs'' hrefs''
  · refine ⟨?_, rfl⟩
    unfold dropOtherDetails writeParent Db.sessionState
    simp only [Table.get_set, if_true, hparent, Db.SessionState.mk.injEq, true_and]
    constructor
    · split_ifs <;> simp [hwebdav]
    · split_ifs <;> simp [hs3]
  · exact absurd ((hrefs hkind).symm.trans hrefs') hrefs''
  · exact absurd ((hrefs hkind).trans hrefs'') hrefs'
  · refine ⟨?_, rfl⟩
    unfold writeParent Db.sessionState
    simp only [Table.get_set, if_true, hparent, hdetails, hwebdav, hs3]
  · refine ⟨?_, rfl⟩
    unfold dropOtherDetails writeParent Db.sessionState
    simp only [Table.get_set, Table.get_erase, if_true, hparent, Db.SessionState.mk.injEq, true_and]
    constructor
    · split_ifs <;> simp [hwebdav]
    · split_ifs <;> simp [hs3]
  · exact ⟨hstate, rfl⟩

variable {s : Applying Text}

/-! ## One entry -/

section Entry

variable (J : JsonText Text) (mode : ApplyMode) (folderIds : List (String × String))
variable (live : String → Option Int64) (now : Int64) (v : Json)

def appliedTo (db : Db Text) : Db Text := (applyOneSession J mode folderIds live now v (db, {})).1

def reports (db : Db Text) : List String := (applyOneSession J mode folderIds live now v (db, {})).2.errors

theorem applyOneSession_parts (s : Applying Text) :
    (applyOneSession J mode folderIds live now v s).1 = appliedTo J mode folderIds live now v s.1 ∧
      (applyOneSession J mode folderIds live now v s).2.errors = s.2.errors ++ reports J mode folderIds live now v s.1 := by
  unfold appliedTo reports applyOneSession
  dsimp only
  split_ifs
  · exact ⟨rfl, rfl⟩
  · exact ⟨rfl, (append_nil _).symm⟩
  · exact ⟨rfl, (append_nil _).symm⟩
  · exact ⟨rfl, (append_nil _).symm⟩
  · exact ⟨rfl, (append_nil _).symm⟩
  · rcases Sessions.upsert s.1 (buildSessionRow J mode folderIds now v) with ⟨db, _ | _⟩
    · exact ⟨rfl, rfl⟩
    · exact ⟨rfl, (append_nil _).symm⟩

theorem normaliseKind_nonEmpty (v : Json) : normaliseKind ((jsonNonEmpty v "kind").getD kindSsh) = kindSsh ↔
    (jsonNonEmpty v "kind").getD kindSsh = kindSsh := by
  unfold normaliseKind
  split_ifs with hempty
  · -- A kind that is present is not empty.
    rcases hk : jsonNonEmpty v "kind" with _ | k
    · rw [hk] at hempty
      exact absurd hempty (by decide)
    · rw [hk, getD_some] at hempty
      have hne := (filter_eq_some_iff.1 hk).2
      rw [hempty] at hne
      cases hne
  · rfl

theorem appliedTo_congr {db db' : Db Text}
    (hstate : db'.sessionState (jsonString v "id") = db.sessionState (jsonString v "id"))
    (hfolders : db'.folders = db.folders)
    (hrefs : writesSession mode live now v = true → (jsonNonEmpty v "kind").getD kindSsh = kindSsh →
      refsOk db' (buildSessionRow J mode folderIds now v) = refsOk db (buildSessionRow J mode folderIds now v)) :
    (appliedTo J mode folderIds live now v db').sessionState (jsonString v "id") =
        (appliedTo J mode folderIds live now v db).sessionState (jsonString v "id") ∧
      reports J mode folderIds live now v db' = reports J mode folderIds live now v db := by
  unfold appliedTo reports
  by_cases hw : writesSession mode live now v = true
  · have hfolder : folderOk db' (buildSessionRow J mode folderIds now v) =
        folderOk db (buildSessionRow J mode folderIds now v) := by
      unfold folderOk
      rw [hfolders]
    have hkind : normaliseKind (buildSessionRow J mode folderIds now v).kind = kindSsh →
        (jsonNonEmpty v "kind").getD kindSsh = kindSsh := (normaliseKind_nonEmpty v).1
    have hrow := upsert_congr (buildSessionRow J mode folderIds now v) hstate hfolder fun h => hrefs hw (hkind h)
    rw [applyOneSession_of_writes J mode folderIds live now v _ hw,
      applyOneSession_of_writes J mode folderIds live now v _ hw]
    refine ⟨hrow.1, ?_⟩
    rw [hrow.2]
  · unfold writesSession at hw
    unfold applyOneSession
    dsimp only
    split_ifs with hid _ htomb hsync hlww
    · exact ⟨hstate, rfl⟩
    · exact ⟨hstate, rfl⟩
    · refine ⟨?_, rfl⟩
      have hparent : db'.sessions.get (jsonString v "id") = db.sessions.get (jsonString v "id") :=
        congrArg Db.SessionState.parent hstate
      rw [sessionState_applyTombstone, sessionState_applyTombstone, hstate, hparent]
    · exact ⟨hstate, rfl⟩
    · exact ⟨hstate, rfl⟩
    · simp [hid, htomb, hlww] at hw

theorem isSome_sessions_applyOneSession (hmap : MapsToFolders s.1 folderIds) (x : String) :
    ((applyOneSession J mode folderIds live now v s).1.sessions.get x).isSome ↔
      (s.1.sessions.get x).isSome ∨ (writesSession mode live now v = true ∧ jsonString v "id" = x) := by
  by_cases hx : x = jsonString v "id"
  · subst hx
    by_cases hw : writesSession mode live now v = true
    · have hparent : (Sessions.upsert s.1 (buildSessionRow J mode folderIds now v)).1.sessions.get (jsonString v "id") = _ :=
        upsert_parent s.1 _ (folderOk_buildSessionRow hmap J mode now v)
      rw [applyOneSession_of_writes J mode folderIds live now v s hw, hparent]
      simp [hw]
    rw [Bool.not_eq_true] at hw
    rcases applyOneSession_of_not_writes J mode folderIds live now v s hw with hsame | ⟨-, -, -, htomb⟩
    · rw [hsame]
      simp [hw]
    · have hget : (Sessions.applyTombstone s.1 (jsonString v "id") ((jsonI64Opt v "deleted_at_ms").getD 0)).sessions.get
          (jsonString v "id") = (s.1.sessions.get (jsonString v "id")).map (deleteParent _) :=
        congrArg Db.SessionState.parent (sessionState_applyTombstone s.1 _ _)
      rw [htomb, hget, isSome_map]
      simp [hw]
  · have hget : (applyOneSession J mode folderIds live now v s).1.sessions.get x = s.1.sessions.get x :=
      congrArg Db.SessionState.parent (sessionState_applyOneSession_ne J mode folderIds live now v s hx)
    rw [hget]
    simp [Ne.symm hx]

end Entry

/-! ## All entries -/

/-- The jump host of the entry `v` is the session of the entry `u`, which `db` does not have: both
are written, and `v` is an SSH session whose key is there. -/
structure NewJumpHost (mode : ApplyMode) (now : Int64) (db : Db Text) (u v : Json) : Prop where
  written : writesSession mode (liveSessions mode db) now v = true
  hostWritten : writesSession mode (liveSessions mode db) now u = true
  ssh : (jsonNonEmpty v "kind").getD kindSsh = kindSsh
  key : ∀ k, jsonNonEmpty v "key_id" = some k → (db.sshKeys.get k).isSome
  jump : jsonNonEmpty v "via_session_id" = some (jsonString u "id")
  other : jsonString u "id" ≠ jsonString v "id"
  new : db.sessions.get (jsonString u "id") = none

/-- Two outcomes with the same tables and the same set of errors. -/
structure SameOutcome (s s' : Applying Text) : Prop where
  rest : s'.1.withoutSessions = s.1.withoutSessions
  sessions : ∀ i, s'.1.sessionState i = s.1.sessionState i
  errors : ∀ e, e ∈ s'.2.errors ↔ e ∈ s.2.errors

def DistinctIds (items : List Json) : Prop := (items.map fun v => jsonString v "id").Nodup

variable {l items : List Json} {v : Json}

section Loop

variable {J : JsonText Text} {mode : ApplyMode} {folderIds : List (String × String)} {now : Int64}
def looped (J : JsonText Text) (mode : ApplyMode) (folderIds : List (String × String)) (now : Int64)
    (s : Applying Text) (l : List Json) : Applying Text :=
  sessionLoop J mode folderIds (liveSessions mode s.1) now l s

theorem looped_concat (l : List Json) (v : Json) : looped J mode folderIds now s (l ++ [v]) =
    applyOneSession J mode folderIds (liveSessions mode s.1) now v (looped J mode folderIds now s l) :=
  sessionLoop_append J mode folderIds (liveSessions mode s.1) now l [v] s

theorem withoutSessions_looped (l : List Json) :
    (looped J mode folderIds now s l).1.withoutSessions = s.1.withoutSessions :=
  sessionLoop_withoutSessions J mode folderIds _ now l s

section

variable (hmap : MapsToFolders s.1 folderIds)
include hmap

theorem isSome_sessions_looped (l : List Json) (x : String) : ((looped J mode folderIds now s l).1.sessions.get x).isSome ↔
    (s.1.sessions.get x).isSome ∨
      ∃ u ∈ l, writesSession mode (liveSessions mode s.1) now u = true ∧ jsonString u "id" = x :=
  foldl_or_iff (P := fun t : Applying Text => (t.1.sessions.get x).isSome)
    (I := fun t : Applying Text => MapsToFolders t.1 folderIds)
    (fun _ _ _ ht => mapsToFolders_applyOneSession ht)
    (fun _ v _ ht => isSome_sessions_applyOneSession J mode folderIds _ now v ht x) hmap

section

variable (hno : ∀ u ∈ items, ∀ v ∈ items, ¬ NewJumpHost mode now s.1 u v)
include hno

theorem refsOk_looped (hl : l ⊆ items) (hv : v ∈ items)
    (hssh : (jsonNonEmpty v "kind").getD kindSsh = kindSsh)
    (hw : writesSession mode (liveSessions mode s.1) now v = true) :
    refsOk (looped J mode folderIds now s l).1 (buildSessionRow J mode folderIds now v) =
      refsOk s.1 (buildSessionRow J mode folderIds now v) := by
  have hkeys : (looped J mode folderIds now s l).1.sshKeys = s.1.sshKeys :=
    ignores (g := Db.sshKeys) (x := Db.withoutSessions) (fun _ => rfl) _ _ (withoutSessions_looped l)
  have hkeyId : (buildSessionRow J mode folderIds now v).keyId = jsonNonEmpty v "key_id" := rfl
  have hviaId : (buildSessionRow J mode folderIds now v).viaSessionId = jsonNonEmpty v "via_session_id" := rfl
  have hid : (buildSessionRow J mode folderIds now v).id = jsonString v "id" := rfl
  unfold refsOk
  rw [hkeys, hkeyId, hviaId, hid]
  by_cases hkey : ((jsonNonEmpty v "key_id").all fun k => (s.1.sshKeys.get k).isSome) = true
  · rw [hkey, Bool.true_and, Bool.true_and]
    rcases hvia : jsonNonEmpty v "via_session_id" with _ | x
    · rfl
    rw [all_some, all_some, Bool.eq_iff_iff, Bool.or_eq_true, Bool.or_eq_true,
      isSome_sessions_looped hmap, decide_eq_true_eq]
    constructor
    · rintro (hself | hthere | ⟨u, hu, hwu, rfl⟩)
      · exact .inl hself
      · exact .inr hthere
      · by_contra hnone
        obtain ⟨hself, hnew⟩ := not_or.1 hnone
        refine hno u (hl hu) v hv ⟨hw, hwu, hssh, fun k hk => ?_, hvia, hself, not_isSome_iff_eq_none.1 hnew⟩
        rw [hk, all_some] at hkey
        exact hkey
    · rintro (hself | hthere)
      · exact .inl hself
      · exact .inr (.inl hthere)
  · rw [Bool.not_eq_true] at hkey
    rw [hkey, Bool.false_and, Bool.false_and]

theorem looped_alone (l : List Json) (hl : l ⊆ items) (hids : DistinctIds l) :
    (∀ v ∈ l, (looped J mode folderIds now s l).1.sessionState (jsonString v "id") =
        (appliedTo J mode folderIds (liveSessions mode s.1) now v s.1).sessionState (jsonString v "id")) ∧
      (looped J mode folderIds now s l).2.errors =
        s.2.errors ++ l.flatMap fun v => reports J mode folderIds (liveSessions mode s.1) now v s.1 := by
  -- The induction adds the entry applied last.
  induction l using List.reverseRecOn with
  | nil => exact ⟨by simp, (append_nil _).symm⟩
  | append_singleton l v ih =>
    have hv : v ∈ items := hl (by simp)
    unfold DistinctIds at hids
    rw [map_append, map_singleton, nodup_append] at hids
    obtain ⟨hids, -, hapart⟩ := hids
    have hne : ∀ u ∈ l, jsonString u "id" ≠ jsonString v "id" := fun u hu =>
      hapart _ (mem_map_of_mem hu) _ (mem_singleton_self _)
    have hl' : l ⊆ items := fun u hu => hl (mem_append_left _ hu)
    obtain ⟨hstates, herrors⟩ := ih hl' hids
    have hown : (looped J mode folderIds now s l).1.sessionState (jsonString v "id") = s.1.sessionState (jsonString v "id") :=
      sessionState_sessionLoop_ne J mode folderIds _ now hne s
    have hfolders : (looped J mode folderIds now s l).1.folders = s.1.folders :=
      ignores (g := Db.folders) (x := Db.withoutSessions) (fun _ => rfl) _ _ (withoutSessions_looped l)
    obtain ⟨hstate, hreports⟩ := appliedTo_congr J mode folderIds (liveSessions mode s.1) now v hown hfolders
      fun hw hssh => refsOk_looped hmap hno hl' hv hssh hw
    obtain ⟨hdb, herr⟩ := applyOneSession_parts J mode folderIds (liveSessions mode s.1) now v
      (looped J mode folderIds now s l)
    rw [looped_concat]
    constructor
    · intro u hu
      rw [mem_append, mem_singleton] at hu
      rcases hu with hu | rfl
      · rw [sessionState_applyOneSession_ne J mode folderIds _ now v _ (hne u hu)]
        exact hstates u hu
      · rw [hdb]
        exact hstate
    · rw [herr, herrors, hreports, flatMap_append, flatMap_singleton, append_assoc]

theorem sameOutcome_of_no_jump (hids : DistinctIds items) (hl : l.Perm items) :
    SameOutcome (looped J mode folderIds now s items) (looped J mode folderIds now s l) := by
  have hids' : DistinctIds l := (hl.map _).nodup_iff.2 hids
  obtain ⟨hstates, herrors⟩ := looped_alone (J := J) hmap hno items (List.Subset.refl _) hids
  obtain ⟨hstates', herrors'⟩ := looped_alone (J := J) hmap hno l hl.subset hids'
  refine ⟨?_, fun i => ?_, fun e => ?_⟩
  · rw [withoutSessions_looped, withoutSessions_looped]
  · by_cases hi : ∃ v ∈ items, jsonString v "id" = i
    · obtain ⟨v, hv, rfl⟩ := hi
      rw [hstates v hv, hstates' v (hl.mem_iff.2 hv)]
    · have hother : ∀ v ∈ items, jsonString v "id" ≠ i := fun v hv h => hi ⟨v, hv, h⟩
      unfold looped
      rw [sessionState_sessionLoop_ne J mode folderIds _ now hother,
        sessionState_sessionLoop_ne J mode folderIds _ now fun v hv => hother v (hl.mem_iff.1 hv)]
  · rw [herrors, herrors', mem_append, mem_append, mem_flatMap, mem_flatMap]
    refine or_congr_right ⟨?_, ?_⟩
    · rintro ⟨v, hv, he⟩
      exact ⟨v, hl.mem_iff.1 hv, he⟩
    · rintro ⟨v, hv, he⟩
      exact ⟨v, hl.mem_iff.2 hv, he⟩

end

end

/-! ### A jump host that comes later -/

theorem details_applyOneSession {live : String → Option Int64} {t : Applying Text}
    (hw : writesSession mode live now v = true) (hmap : MapsToFolders t.1 folderIds)
    (hssh : (jsonNonEmpty v "kind").getD kindSsh = kindSsh) :
    (applyOneSession J mode folderIds live now v t).1.sshDetails.get (jsonString v "id") =
      if refsOk t.1 (buildSessionRow J mode folderIds now v) then
        some (detailsWritten (buildSessionRow J mode folderIds now v))
      else t.1.sshDetails.get (jsonString v "id") := by
  have hkind : normaliseKind (buildSessionRow J mode folderIds now v).kind = kindSsh :=
    (normaliseKind_nonEmpty v).2 hssh
  rw [applyOneSession_of_writes J mode folderIds live now v t hw, upsert_eq,
    if_pos (folderOk_buildSessionRow hmap J mode now v), if_pos hkind]
  split_ifs
  · show (t.1.sshDetails.set (jsonString v "id") _).get (jsonString v "id") = _
    rw [Table.get_set, if_pos rfl]
  · rfl

theorem details_looped (pre : List Json) {post : List Json}
    (hpost : ∀ u ∈ post, jsonString u "id" ≠ jsonString v "id") :
    (looped J mode folderIds now s (pre ++ v :: post)).1.sshDetails.get (jsonString v "id") =
      (applyOneSession J mode folderIds (liveSessions mode s.1) now v (looped J mode folderIds now s pre)).1.sshDetails.get
        (jsonString v "id") := by
  have hsplit : looped J mode folderIds now s (pre ++ v :: post) =
      sessionLoop J mode folderIds (liveSessions mode s.1) now post
        (applyOneSession J mode folderIds (liveSessions mode s.1) now v (looped J mode folderIds now s pre)) :=
    sessionLoop_append J mode folderIds (liveSessions mode s.1) now pre (v :: post) s
  rw [hsplit]
  exact congrArg Db.SessionState.details (sessionState_sessionLoop_ne J mode folderIds _ now hpost _)

theorem refsOk_of_newJumpHost {u : Json} (h : NewJumpHost mode now s.1 u v) (hmap : MapsToFolders s.1 folderIds) :
    refsOk (looped J mode folderIds now s l).1 (buildSessionRow J mode folderIds now v) = true ↔
      ∃ u' ∈ l, writesSession mode (liveSessions mode s.1) now u' = true ∧ jsonString u' "id" = jsonString u "id" := by
  have hkeys : (looped J mode folderIds now s l).1.sshKeys = s.1.sshKeys :=
    ignores (g := Db.sshKeys) (x := Db.withoutSessions) (fun _ => rfl) _ _ (withoutSessions_looped l)
  have hkey : ((jsonNonEmpty v "key_id").all fun k => (s.1.sshKeys.get k).isSome) = true := by
    rw [Option.all_eq_true]
    exact h.key
  show ((jsonNonEmpty v "key_id").all fun k => ((looped J mode folderIds now s l).1.sshKeys.get k).isSome) &&
    ((jsonNonEmpty v "via_session_id").all fun x =>
      x = jsonString v "id" || ((looped J mode folderIds now s l).1.sessions.get x).isSome) ↔ _
  rw [hkeys, hkey, Bool.true_and, h.jump, all_some, decide_eq_false h.other, Bool.false_or,
    isSome_sessions_looped hmap, h.new]
  simp

/-- **The order decides.** With the jump host after the session, the session keeps the details it
had, and with the jump host before it, the ones of the entry. -/
theorem not_sameOutcome_of_newJumpHost (hmap : MapsToFolders s.1 folderIds)
    (hrefs : ∀ id d, s.1.sshDetails.get id = some d → s.1.refsResolve d.keyId d.viaSessionId)
    (hids : DistinctIds items) {u : Json} (hu : u ∈ items) (hv : v ∈ items) (h : NewJumpHost mode now s.1 u v) :
    ∃ l, l.Perm items ∧ ¬ SameOutcome (looped J mode folderIds now s items) (looped J mode folderIds now s l) := by
  by_contra hall
  push Not at hall
  have huv : u ≠ v := fun huv => h.other (by rw [huv])
  have hfront : ∀ {x : Json} {l : List Json}, x ∈ l → ∃ l', l.Perm (x :: l') := by
    intro x l hx
    obtain ⟨pre, post, rfl⟩ := append_of_mem hx
    exact ⟨pre ++ post, perm_middle⟩
  obtain ⟨rest, hrest⟩ : ∃ rest, items.Perm (u :: v :: rest) := by
    obtain ⟨l, hl⟩ := hfront hu
    obtain ⟨l', hl'⟩ := hfront ((mem_cons.1 (hl.mem_iff.1 hv)).resolve_left huv.symm)
    exact ⟨l', hl.trans (hl'.cons u)⟩
  have hids' : DistinctIds (u :: v :: rest) := (hrest.map _).nodup_iff.1 hids
  unfold DistinctIds at hids'
  rw [map_cons, map_cons, nodup_cons, nodup_cons] at hids'
  have hpost : ∀ x ∈ rest, jsonString x "id" ≠ jsonString v "id" := fun x hx heq =>
    hids'.2.1 (mem_map.2 ⟨x, hx, heq⟩)
  have hsame := congrArg Db.SessionState.details ((hall _ hrest.symm).sessions (jsonString v "id"))
  have hsame' := congrArg Db.SessionState.details
    ((hall _ ((Perm.swap u v rest).trans hrest.symm)).sessions (jsonString v "id"))
  have hfirst : (looped J mode folderIds now s (u :: v :: rest)).1.sshDetails.get (jsonString v "id") =
      some (detailsWritten (buildSessionRow J mode folderIds now v)) := by
    have hmap' : MapsToFolders (looped J mode folderIds now s [u]).1 folderIds := mapsToFolders_applyOneSession hmap
    have hok := (refsOk_of_newJumpHost (J := J) h hmap (l := [u])).2 ⟨u, mem_singleton_self u, h.hostWritten, rfl⟩
    have hafter : (looped J mode folderIds now s ([u] ++ v :: rest)).1.sshDetails.get (jsonString v "id") = _ :=
      details_looped [u] hpost
    rw [details_applyOneSession h.written hmap' h.ssh, if_pos hok] at hafter
    exact hafter
  have hlater : (looped J mode folderIds now s (v :: u :: rest)).1.sshDetails.get (jsonString v "id") =
      s.1.sshDetails.get (jsonString v "id") := by
    have hpost' : ∀ x ∈ u :: rest, jsonString x "id" ≠ jsonString v "id" := by
      intro x hx
      rcases mem_cons.1 hx with rfl | hx
      · exact h.other
      · exact hpost x hx
    have hno := mt (refsOk_of_newJumpHost (J := J) h hmap (l := [])).1 (by simp)
    have hafter : (looped J mode folderIds now s ([] ++ v :: u :: rest)).1.sshDetails.get (jsonString v "id") = _ :=
      details_looped [] hpost'
    rw [details_applyOneSession (t := looped J mode folderIds now s []) h.written hmap h.ssh, if_neg hno] at hafter
    exact hafter
  have hold : s.1.sshDetails.get (jsonString v "id") = some (detailsWritten (buildSessionRow J mode folderIds now v)) :=
    hlater.symm.trans ((hsame'.trans hsame.symm).trans hfirst)
  -- The old details name a session that is there, and the jump host is not.
  have hres := hrefs _ _ hold
  have hvia : (detailsWritten (buildSessionRow J mode folderIds now v)).viaSessionId = some (jsonString u "id") :=
    h.jump
  unfold Db.refsResolve at hres
  rw [hvia, all_some, h.new, isSome_none, Bool.and_false] at hres
  cases hres

end Loop

/-! ## The import -/

theorem folderPaths_perm {items' : List Json} (h : items'.Perm items) : folderPaths items' = folderPaths items := by
  have hperm := ((h.filterMap fun v => jsonNonEmpty v "folder").dedup)
  have hsorted : ∀ l : List String, (l.mergeSort fun a b => a ≤ b).Pairwise fun a b => a ≤ b := fun l =>
    pairwise_mergeSort' (· ≤ ·) l
  refine Perm.eq_of_pairwise' (hsorted _) (hsorted _) ?_
  exact (mergeSort_perm _ _).trans (hperm.trans (mergeSort_perm _ _).symm)

/-- `sessions.json` with the entries `items`, applied to a database. -/
def sessionsImported (E : Env Text) (mode : ApplyMode) (now : Int64) (items : List Json) (s : Applying Text) :
    Applying Text :=
  (applySessionsJson E mode now (E.json.toStr (.arr items)) s).2

theorem sessionsImported_eq (E : Env Text) (mode : ApplyMode) (now : Int64) (hl : l.Perm items)
    (s : Applying Text) :
    sessionsImported E mode now l s =
      looped E.json mode (applyFolderTree E mode now items s).1 now (applyFolderTree E mode now items s).2 l := by
  have htree : applyFolderTree E mode now l s = applyFolderTree E mode now items s := by
    unfold applyFolderTree
    rw [folderPaths_perm hl]
  unfold sessionsImported applySessionsJson parseArray
  rw [E.json.fromStr_toStr]
  show applySessionItems E.json mode (applyFolderTree E mode now l s).1 now l (applyFolderTree E mode now l s).2 = _
  rw [htree]
  rfl

/-- **The order of the entries.** All orders of `sessions.json` end in the same database and the same
errors exactly when no entry has a jump host that is itself new with this import. -/
theorem import_order_iff (E : Env Text) (mode : ApplyMode) (now : Int64) (db : Db Text) (hrefs : db.RefsOk)
    (o : ApplyOutcome) (items : List Json) (hids : DistinctIds items) :
    (∀ l, l.Perm items → SameOutcome (sessionsImported E mode now items (db, o)) (sessionsImported E mode now l (db, o))) ↔
      ∀ u ∈ items, ∀ v ∈ items, ¬ NewJumpHost mode now db u v := by
  obtain ⟨hgrow, hmap⟩ := applyFolderTree_grows E mode now items (db, o)
  have hsessions : (applyFolderTree E mode now items (db, o)).2.1.sessions = db.sessions :=
    ignores (g := Db.sessions) (x := Db.withoutFolders) (fun _ => rfl) _ _ hgrow.rest
  have hdetails : (applyFolderTree E mode now items (db, o)).2.1.sshDetails = db.sshDetails :=
    ignores (g := Db.sshDetails) (x := Db.withoutFolders) (fun _ => rfl) _ _ hgrow.rest
  have hkeys : (applyFolderTree E mode now items (db, o)).2.1.sshKeys = db.sshKeys :=
    ignores (g := Db.sshKeys) (x := Db.withoutFolders) (fun _ => rfl) _ _ hgrow.rest
  have hlive : liveSessions mode (applyFolderTree E mode now items (db, o)).2.1 = liveSessions mode db := by
    unfold liveSessions Sessions.liveUpdatedAt
    rw [hsessions]
  have hjump : ∀ u v, NewJumpHost mode now (applyFolderTree E mode now items (db, o)).2.1 u v ↔
      NewJumpHost mode now db u v := by
    intro u v
    constructor
    · intro h
      exact ⟨hlive ▸ h.written, hlive ▸ h.hostWritten, h.ssh, hkeys ▸ h.key, h.jump, h.other, hsessions ▸ h.new⟩
    · intro h
      exact ⟨hlive ▸ h.written, hlive ▸ h.hostWritten, h.ssh, hkeys ▸ h.key, h.jump, h.other, hsessions ▸ h.new⟩
  have hresolve : ∀ id d, (applyFolderTree E mode now items (db, o)).2.1.sshDetails.get id = some d →
      (applyFolderTree E mode now items (db, o)).2.1.refsResolve d.keyId d.viaSessionId := by
    unfold Db.refsResolve
    rw [hsessions, hdetails, hkeys]
    exact hrefs.details
  constructor
  · intro hall u hu v hv h
    obtain ⟨l, hl, hne⟩ := not_sameOutcome_of_newJumpHost (J := E.json) hmap hresolve hids hu hv ((hjump u v).2 h)
    apply hne
    rw [← sessionsImported_eq E mode now hl, ← sessionsImported_eq E mode now (Perm.refl items)]
    exact hall l hl
  · intro hno l hl
    rw [sessionsImported_eq E mode now hl, sessionsImported_eq E mode now (Perm.refl items)]
    exact sameOutcome_of_no_jump hmap (fun u hu v hv h => hno u hu v hv ((hjump u v).1 h)) hids hl

/-! ### Two orders of two entries -/

theorem empty_refsOk : (Db.empty : Db Text).RefsOk where
  folderParent id row h := by cases h
  folder id p h := by cases h
  parent id d h := by cases h
  details id d h := by cases h

theorem import_order_iff_sample : (∀ l, l.Perm jumpItems →
        SameOutcome (sessionsImported plainEnv (.archiveImport false) 40 jumpItems (Db.empty, {}))
          (sessionsImported plainEnv (.archiveImport false) 40 l (Db.empty, {}))) ↔
      ∀ u ∈ jumpItems, ∀ v ∈ jumpItems, ¬ NewJumpHost (.archiveImport false) 40 (Db.empty : Db ParsedText) u v :=
  import_order_iff plainEnv (.archiveImport false) 40 Db.empty empty_refsOk {} jumpItems
    (by unfold DistinctIds; decide +kernel)

/-- The same two entries: with the jump host first both sessions are stored, with it second the
session that uses it has no details and is reported. -/
theorem jump_host_order :
    DistinctIds jumpItems ∧ [jumpEntry "bastion" none, jumpEntry "app" (some "bastion")].Perm jumpItems ∧
      ¬ SameOutcome (sessionsImported plainEnv (.archiveImport false) 40 jumpItems (Db.empty, {}))
        (sessionsImported plainEnv (.archiveImport false) 40
          [jumpEntry "bastion" none, jumpEntry "app" (some "bastion")] (Db.empty, {})) := by
  refine ⟨by unfold DistinctIds; decide +kernel, Perm.swap _ _ _, fun h => ?_⟩
  have hdetails := congrArg (fun st => st.details.isSome) (h.sessions "app")
  revert hdetails
  decide +kernel

end LetsFlutSsh.Archive
