import LetsFlutSsh.Archive.CleanImport

/-!
# Keys of imported sessions

A merge import skips keys it has by fingerprint, and its sessions keep the ids the archive gave them:

* `landedKey`: the entry of the archive whose key is stored under an id;
* `KeyRefsKept`: every session refers to the key the archive meant;
* `KeyRefsFit`: the ids the sessions use are those of the meant keys, here or in the archive;
* `keyRefsKept_iff`: and exactly then an import without errors keeps the references.
-/

namespace LetsFlutSsh.Archive
open Lib List Option Sessions

variable {Text : Type}

def entryFingerprint (E : Env Text) (v : Json) : String := keyPubFingerprint E (jsonString v "public_key")

def keyLands (E : Env Text) (known : List String) (v : Json) : Bool :=
  !(entryFingerprint E v ≠ "" && entryFingerprint E v ∈ known)

/-- The last entry whose key is stored under `k`. -/
def landedKey (E : Env Text) (known : List String) (items : List Json) (k : String) : Option Json :=
  (items.filter fun v => keyLands E known v && jsonString v "id" == k).getLast?

/-- The fingerprint of the live key `k`. -/
def liveFingerprint (E : Env Text) (db : Db Text) (k : String) : Option String :=
  (db.sshKeys.get k).bind fun s => if s.deletedAt.isNone then some (keyPubFingerprint E s.row.publicKey) else none

variable {v : Json} {s : Applying Text} {options : Option ApplyOptions} {p : PendingImport Text}

section Keys

variable (E : Env Text) (now : Int64)

theorem applyOneKeyArchive_clean {known : List String}
    (h : (applyOneKeyArchive E known now v s).2.errors = []) :
    (applyOneKeyArchive E known now v s).1 = if keyLands E known v then SshKeys.upsert s.1 (buildKeyRow v now) else s.1 := by
  unfold applyOneKeyArchive keyLands entryFingerprint at *
  dsimp only at h ⊢
  split_ifs at h ⊢ with hknown <;> first | rfl | simp_all [push_ne_nil]

theorem landedKey_concat (known : List String) (items : List Json) (v : Json) (k : String) :
    landedKey E known (items ++ [v]) k =
      if (keyLands E known v && jsonString v "id" == k) = true then some v else landedKey E known items k := by
  unfold landedKey
  rw [filter_append, filter_singleton]
  rcases keyLands E known v && jsonString v "id" == k with _ | _
  · rw [cond_false, append_nil, if_neg Bool.false_ne_true]
  · rw [cond_true, getLast?_concat, if_pos rfl]

theorem keyLoop_clean (known : List String) (items : List Json) (s : Applying Text) (k : String)
    (h : (items.foldl (fun s v => applyOneKeyArchive E known now v s) s).2.errors = []) :
    (items.foldl (fun s v => applyOneKeyArchive E known now v s) s).1.sshKeys.get k =
      (landedKey E known items k).elim (s.1.sshKeys.get k) fun v => some ⟨buildKeyRow v now, none⟩ := by
  induction items using List.reverseRecOn with
  | nil => rfl
  | append_singleton items v ih =>
    rw [foldl_append, foldl_cons, foldl_nil] at h ⊢
    have hbefore := keepsReports_applyOneKeyArchive E now known v _ h
    rw [applyOneKeyArchive_clean E now h, landedKey_concat]
    rcases hlands : keyLands E known v with _ | _
    · rw [if_neg Bool.false_ne_true, Bool.false_and, if_neg Bool.false_ne_true]
      exact ih hbefore
    have hget : (SshKeys.upsert (items.foldl (fun s v => applyOneKeyArchive E known now v s) s).1
        (buildKeyRow v now)).sshKeys.get k = if k = jsonString v "id" then some ⟨buildKeyRow v now, none⟩
          else (items.foldl (fun s v => applyOneKeyArchive E known now v s) s).1.sshKeys.get k := Table.get_set _ _ _ _
    rw [if_pos rfl, hget, Bool.true_and]
    by_cases hid : k = jsonString v "id"
    · rw [if_pos hid, if_pos (beq_iff_eq.2 hid.symm), elim_some]
    · rw [if_neg hid, if_neg fun h => hid (beq_iff_eq.1 h).symm]
      exact ih hbefore

variable {E now} {b : Bool}

section

variable (h : (runApply E (.archiveImport b) options now p s).2.errors = []) (k : String)
include h

theorem sshKeys_runApply : (runApply E (.archiveImport b) options now p s).1.sshKeys.get k =
    (landedKey E (knownFingerprints E s.1) (taken E.json (WantFlags.fromOptions options).keys p.keysJson) k).elim
      (s.1.sshKeys.get k) fun v => some ⟨buildKeyRow v now, none⟩ := by
  have hclean := (cleanStages h).keys
  rw [runApply_fixes_afterTags (g := fun db => db.sshKeys.get k) (fun _ => rfl)
      fun _ => rfl,
    afterTags_fixes (g := fun db => db.sshKeys.get k) fun _ => rfl,
    afterSessions_fixes (g := fun db => db.sshKeys.get k) (fun _ => rfl) fun _ => rfl]
  unfold afterKeys at hclean ⊢
  have hrun := overEntry_clean (fun _ => rfl) hclean
  rw [hrun] at hclean ⊢
  exact keyLoop_clean E now _ _ s k hclean

theorem liveFingerprint_runApply : liveFingerprint E (runApply E (.archiveImport b) options now p s).1 k =
    (landedKey E (knownFingerprints E s.1) (taken E.json (WantFlags.fromOptions options).keys p.keysJson) k).elim
      (liveFingerprint E s.1 k) fun v => some (entryFingerprint E v) := by
  unfold liveFingerprint
  rw [sshKeys_runApply h]
  rcases landedKey E (knownFingerprints E s.1) (taken E.json (WantFlags.fromOptions options).keys p.keysJson) k with _ | v
  · rfl
  · rfl

end

end Keys

/-- An entry that decides what is stored for its session: a later one for the same id would be a
tombstone, which an import passes over. -/
def LastEntry (items : List Json) (v : Json) : Prop :=
  ∃ pre post, items = pre ++ v :: post ∧ isTombstone v = false ∧
    ∀ u ∈ post, isTombstone u = false → jsonString u "id" ≠ jsonString v "id"

/-- The session of the entry `v` refers to a live key with the fingerprint of the entry `e`. -/
def RefersTo (E : Env Text) (db : Db Text) (v e : Json) : Prop :=
  ∃ d k, db.sshDetails.get (jsonString v "id") = some d ∧ d.keyId = some k ∧
    liveFingerprint E db k = some (entryFingerprint E e)

/-- Every imported session that the archive gave one of its keys refers to that key. -/
def KeyRefsKept (E : Env Text) (options : ApplyOptions) (p : PendingImport Text) (db : Db Text) : Prop :=
  ∀ v, LastEntry (taken E.json options.applySessions p.sessionsJson) v → ∀ e ∈ itemsOf E.json p.keysJson,
    jsonNonEmpty v "key_id" = some (jsonString e "id") → RefersTo E db v e

/-- Such a session has SSH details, and under its key's id stands, in the archive or else here, a key of
the same fingerprint. -/
def KeyRefsFit (E : Env Text) (options : ApplyOptions) (p : PendingImport Text) (db : Db Text) : Prop :=
  ∀ v, LastEntry (taken E.json options.applySessions p.sessionsJson) v → ∀ e ∈ itemsOf E.json p.keysJson,
    jsonNonEmpty v "key_id" = some (jsonString e "id") → normaliseKind ((jsonNonEmpty v "kind").getD kindSsh) = kindSsh ∧
        (landedKey E (knownFingerprints E db) (taken E.json options.applyKeys p.keysJson) (jsonString e "id")).elim
          (liveFingerprint E db (jsonString e "id")) (fun w => some (entryFingerprint E w)) = some (entryFingerprint E e)

section Sessions

variable {E : Env Text} {now : Int64} {b : Bool}

theorem details_upsert {db db' : Db Text} {row : SessionRow Text} (h : Sessions.upsert db row = (db', .ok ())) :
    db'.sshDetails.get row.id =
      if normaliseKind row.kind = kindSsh then some (detailsWritten row) else none := by
  rcases upsert_cases db row with ⟨-, hu⟩ | ⟨-, -, -, hu⟩ | ⟨-, hkind, -, hu⟩ | ⟨-, hkind, hu⟩
  · rw [hu] at h
    cases h
  · rw [hu] at h
    cases h
  · rw [hu] at h
    cases h
    simp [dropOtherDetails, hkind]
  · rw [hu] at h
    cases h
    simp [dropOtherDetails, hkind]

theorem applyOneSession_fst_of_tombstone {J : JsonText Text} {folderIds : List (String × String)}
    {live : String → Option Int64} (h : isTombstone v = true) :
    (applyOneSession J (.archiveImport b) folderIds live now v s).1 = s.1 := by
  unfold applyOneSession
  simp only [ApplyMode.isSync, ApplyMode.isArchive, Bool.false_eq_true, if_false, if_true, h]
  split_ifs <;> rfl

theorem details_runApply (h : (runApply E (.archiveImport b) options now p s).2.errors = [])
    (hv : LastEntry (taken E.json (WantFlags.fromOptions options).sessions p.sessionsJson) v) :
    ∃ folderIds, (runApply E (.archiveImport b) options now p s).1.sshDetails.get (jsonString v "id") =
      if normaliseKind ((jsonNonEmpty v "kind").getD kindSsh) = kindSsh then
        some (detailsWritten (buildSessionRow E.json (.archiveImport b) folderIds now v)) else none := by
  obtain ⟨pre, post, hsplit, htomb, hpost⟩ := hv
  have hwant : (WantFlags.fromOptions options).sessions = true := by
    by_contra hno
    rw [taken, if_neg hno] at hsplit
    exact absurd hsplit (append_ne_nil_of_right_ne_nil _ (cons_ne_nil _ _)).symm
  rcases hentry : p.sessionsJson with _ | text
  · rw [hentry, taken, if_pos hwant] at hsplit
    exact absurd hsplit (append_ne_nil_of_right_ne_nil _ (cons_ne_nil _ _)).symm
  obtain ⟨items, hitems, hloop⟩ := sessionsReached_clean (cleanStages h) hwant hentry
  have htaken : items = pre ++ v :: post := by
    rw [← hsplit, taken, if_pos hwant, itemsOf, hentry, bind_some, hitems]
    rfl
  have hstate := sessionState_runApply E (.archiveImport b) options now p s hwant hentry hitems (jsonString v "id")
  refine ⟨(folderTree E (.archiveImport b) options now p s items).1, ?_⟩
  rw [show (runApply E (.archiveImport b) options now p s).1.sshDetails.get (jsonString v "id") =
    ((sessionsReached E (.archiveImport b) options now p s items items).1.sessionState (jsonString v "id")).details from
      congrArg Db.SessionState.details hstate]
  unfold sessionsReached at hloop ⊢
  generalize folderTree E (.archiveImport b) options now p s items = tree at hloop ⊢
  rw [htaken, sessionLoop_append, sessionLoop_cons] at hloop ⊢
  -- The entries after the deciding one leave its session alone.
  have hafter : ∀ t : Applying Text, (sessionLoop E.json (.archiveImport b) tree.1 (liveSessions (.archiveImport b) tree.2.1)
      now post t).1.sessionState (jsonString v "id") = t.1.sessionState (jsonString v "id") := by
    intro t
    refine foldl_fixes (fun s : Applying Text => s.1.sessionState (jsonString v "id")) (fun t u hu => ?_) t
    rcases hdead : isTombstone u with _ | _
    · exact sessionState_applyOneSession_ne _ _ _ _ _ _ _ (hpost u hu hdead).symm
    · rw [applyOneSession_fst_of_tombstone hdead]
  rw [hafter]
  obtain ⟨-, -, ⟨hdead, -⟩ | ⟨-, hupsert⟩⟩ := applyOneSession_clean b now (keepsReports_sessionLoop b now E.json _ _ _ _ hloop)
  · rw [htomb] at hdead
    cases hdead
  · exact details_upsert hupsert

end Sessions

/-- **Keys of imported sessions.** A merge import without errors leaves every session with the key the
archive meant exactly when the key ids its sessions use lead to keys of the meant fingerprints. -/
theorem keyRefsKept_iff (E : Env Text) (options : ApplyOptions) (now : Int64) (p : PendingImport Text) (db : Db Text)
    (h : (applyPendingImportMerge E options now p db).2.errors = []) :
    KeyRefsKept E options p (applyPendingImportMerge E options now p db).1 ↔ KeyRefsFit E options p db := by
  unfold KeyRefsKept KeyRefsFit applyPendingImportMerge at *
  refine forall_congr' fun v => forall_congr' fun hv => forall_congr' fun e => forall_congr' fun he =>
    forall_congr' fun hkey => ?_
  obtain ⟨folderIds, hdetails⟩ := details_runApply h hv
  have hfp := liveFingerprint_runApply h (jsonString e "id")
  have hkeyId : (detailsWritten (buildSessionRow E.json (.archiveImport false) folderIds now v)).keyId =
      some (jsonString e "id") := hkey
  unfold RefersTo
  rw [hdetails]
  constructor
  · rintro ⟨d, k, hd, hk, hlive⟩
    split_ifs at hd with hkind
    cases hd
    rw [hkeyId] at hk
    cases hk
    exact ⟨hkind, hfp.symm.trans hlive⟩
  · rintro ⟨hkind, hlive⟩
    exact ⟨_, _, if_pos hkind, hkeyId, hfp.trans hlive⟩

def keyJson (id pub : String) : Json :=
  .obj [("id", .str id), ("label", .str pub), ("private_key", .str ("PEM of " ++ pub)), ("public_key", .str pub),
    ("key_type", .str "ed25519")]

/-- A device with the key `A` under `k` and the key `B` under `l`. -/
def twoKeys : Db ParsedText :=
  { (Db.empty : Db ParsedText) with
    sshKeys := (Table.empty.set "k" ⟨buildKeyRow (keyJson "k" "A") 5, none⟩).set "l" ⟨buildKeyRow (keyJson "l" "B") 5, none⟩ }

/-- An archive of a device that has the key `pub` under `k`, and a session that uses it. -/
def keyedArchive (pub : String) : PendingImport ParsedText where
  keysJson := some (.json (.arr [keyJson "k" pub]))
  sessionsJson := some (.json (.arr [.obj [("id", .str "s"), ("label", .str "box"), ("host", .str "h"), ("port", .int 22),
    ("auth_type", .str "key"), ("key_id", .str "k")]]))

def sessionsAndKeys : ApplyOptions := ⟨true, true, false, false⟩

theorem lastEntry_keyed (pub : String) : LastEntry (taken plainEnv.json true (keyedArchive pub).sessionsJson)
    (.obj [("id", .str "s"), ("label", .str "box"), ("host", .str "h"), ("port", .int 22), ("auth_type", .str "key"),
      ("key_id", .str "k")]) := ⟨[], [], rfl, rfl, fun _ h => absurd h not_mem_nil⟩

/-- The archive means the key `B`; it is skipped, and its session finds `A` under the id. -/
theorem session_with_other_key : ¬ ∀ (db : Db ParsedText) (p : PendingImport ParsedText),
      (applyPendingImportMerge plainEnv sessionsAndKeys 40 p db).2.errors = [] →
        KeyRefsKept plainEnv sessionsAndKeys p (applyPendingImportMerge plainEnv sessionsAndKeys 40 p db).1 := by
  intro h
  obtain ⟨d, k, hd, hk, hlive⟩ := h twoKeys (keyedArchive "B") (by decide +kernel) _ (lastEntry_keyed "B") (keyJson "k" "B")
    mem_cons_self rfl
  have hstored : ((applyPendingImportMerge plainEnv sessionsAndKeys 40 (keyedArchive "B") twoKeys).1.sshDetails.get "s").bind
      (fun d => d.keyId.bind
        (liveFingerprint plainEnv (applyPendingImportMerge plainEnv sessionsAndKeys 40 (keyedArchive "B") twoKeys).1)) =
      some "A" := by decide +kernel
  have hsession : (applyPendingImportMerge plainEnv sessionsAndKeys 40 (keyedArchive "B") twoKeys).1.sshDetails.get "s" =
      some d := hd
  rw [hsession, bind_some, hk, bind_some, hlive] at hstored
  exact absurd hstored (by decide +kernel)

theorem keyRefsKept_iff_keyed :
    (applyPendingImportMerge plainEnv sessionsAndKeys 40 (keyedArchive "A") twoKeys).2.errors = [] ∧
      (KeyRefsKept plainEnv sessionsAndKeys (keyedArchive "A")
          (applyPendingImportMerge plainEnv sessionsAndKeys 40 (keyedArchive "A") twoKeys).1 ↔
        KeyRefsFit plainEnv sessionsAndKeys (keyedArchive "A") twoKeys) :=
  ⟨by decide +kernel, keyRefsKept_iff plainEnv sessionsAndKeys 40 (keyedArchive "A") twoKeys (by decide +kernel)⟩

end LetsFlutSsh.Archive
