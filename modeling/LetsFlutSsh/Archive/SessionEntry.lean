import LetsFlutSsh.Archive.Apply

/-!
# A session through its entry

What a sync reads of a session entry that another device composed: `received` is the row that the reader builds.
-/

namespace LetsFlutSsh.Archive
open Lib Lib.Json Option Sessions

variable {Text : Type}
variable (obj : Object)

theorem get_insertNonEmpty (k k' v : String) : Object.get (insertNonEmpty k v obj) k' =
    if k' = k ∧ v ≠ "" then some (.str v) else Object.get obj k' := by
  unfold insertNonEmpty
  by_cases hv : v = ""
  · simp [hv]
  · simp [hv]

/-- The `extras` member of an entry. -/
def extrasMember (J : JsonText Text) (r : SessionRow Text) : Option Json :=
  if J.isEmpty r.extras then none
  else
    match J.fromStr r.extras with
    | .ok (.obj (e :: m)) => some (.obj (e :: m))
    | _ => none

variable (r : SessionRow Text)

theorem insertSessionExtras_eq (J : JsonText Text) :
    insertSessionExtras J r obj = insertOpt "extras" (extrasMember J r) obj := by
  unfold insertSessionExtras extrasMember
  by_cases hempty : J.isEmpty r.extras = true
  · rw [if_pos hempty, if_pos hempty]
    rfl
  · rw [if_neg hempty, if_neg hempty]
    rcases J.fromStr r.extras with e | v
    · rfl
    · cases v with
      | obj m => cases m <;> rfl
      | _ => rfl

def viaTrio (r : SessionRow Text) : Option (String × Int64 × String) :=
  match r.viaHost, r.viaPort, r.viaUser with
  | some h, some p, some u => if h ≠ "" ∧ u ≠ "" then some (h, p, u) else none
  | _, _, _ => none

/-- The `via_override` member of an entry. -/
def viaMember (t : String × Int64 × String) : Json :=
  .obj (Object.insert "host" (.str t.1) (Object.insert "port" (.ofI64 t.2.1) (Object.insert "user" (.str t.2.2) [])))

theorem insertSessionVia_eq : insertSessionVia r obj =
    insertOpt "via_override" ((viaTrio r).map viaMember)
      (insertNonEmpty "via_session_id" (r.viaSessionId.getD "") obj) := by
  unfold insertSessionVia viaTrio
  rcases r.viaHost with _ | h
  · rfl
  rcases r.viaPort with _ | p
  · rfl
  rcases r.viaUser with _ | u
  · rfl
  dsimp only
  split_ifs <;> rfl

theorem get_insertOpt (k k' : String) (o : Option Json) : Object.get (insertOpt k o obj) k' =
    if k' = k then o.or (Object.get obj k') else Object.get obj k' := by
  rcases o with _ | v
  · simp [insertOpt]
  · simp [insertOpt]

/-- The `kind` member of an entry. -/
def kindMember (r : SessionRow Text) : String := if r.kind ≠ kindSsh then r.kind else ""

theorem insertKind_eq :
    (if r.kind ≠ kindSsh then insertNonEmpty "kind" r.kind obj else obj) = insertNonEmpty "kind" (kindMember r) obj := by
  unfold kindMember
  split_ifs
  · rfl
  · simp [insertNonEmpty]

theorem get_insertTombstone (deletedAt : Option Int64) (k : String) :
    Object.get (insertTombstone deletedAt obj) k =
      if k = "tombstone" ∧ deletedAt.isSome then some (.bool true)
      else if k = "deleted_at_ms" ∧ deletedAt.isSome then deletedAt.map ofI64
      else Object.get obj k := by
  rcases deletedAt with _ | ts
  · simp [insertTombstone]
  · simp [insertTombstone]

section Members

variable (J : JsonText Text) (r : SessionRow Text) (path : String)

theorem sessionFields_eq : sessionFields J r path = insertNonEmpty "notes" r.notes (
    Object.insert "passphrase" (.str r.passphrase) (
    Object.insert "key_data" (.str r.keyData) (
    Object.insert "password" (.str r.password) (
    insertOpt "via_override" ((viaTrio r).map viaMember) (
    insertNonEmpty "via_session_id" (r.viaSessionId.getD "") (
    insertOpt "extras" (extrasMember J r) (
    Object.insert "updated_at" (.str (formatIso8601Utc r.updatedAtMs)) (
    Object.insert "created_at" (.str (formatIso8601Utc r.createdAtMs)) (
    Object.insert "key_path" (.str r.keyPath) (
    insertNonEmpty "key_id" (r.keyId.getD "") (
    Object.insert "auth_type" (.str r.authType) (
    Object.insert "user" (.str r.user) (
    Object.insert "port" (.ofI64 r.port) (
    Object.insert "host" (.str r.host) (
    insertNonEmpty "kind" (kindMember r) (
    Object.insert "folder" (.str path) (
    Object.insert "label" (.str r.label) (
    Object.insert "id" (.str r.id) [])))))))))))))))))) := by
  unfold sessionFields
  dsimp only
  rw [insertKind_eq, insertSessionExtras_eq, insertSessionVia_eq]

theorem member_sessionRowToJson (deletedAt : Option Int64) {k : String} (h₁ : k ≠ "tombstone") (h₂ : k ≠ "deleted_at_ms") :
    (sessionRowToJson J r path deletedAt).member k = Object.get (sessionFields J r path) k := by
  unfold sessionRowToJson
  rw [member_obj, get_insertTombstone, if_neg fun h => h₁ h.1, if_neg fun h => h₂ h.1]

theorem sessionFields_id : Object.get (sessionFields J r path) "id" = some (.str r.id) := by
  simp [sessionFields_eq, get_insertOpt, get_insertNonEmpty]

theorem sessionFields_folder : Object.get (sessionFields J r path) "folder" = some (.str path) := by
  simp [sessionFields_eq, get_insertOpt, get_insertNonEmpty]

theorem sessionFields_notes : Object.get (sessionFields J r path) "notes" =
    if r.notes ≠ "" then some (.str r.notes) else none := by
  simp [sessionFields_eq, get_insertOpt, get_insertNonEmpty]

theorem sessionFields_createdAt : Object.get (sessionFields J r path) "created_at" =
    some (.str (formatIso8601Utc r.createdAtMs)) := by
  simp [sessionFields_eq, get_insertOpt, get_insertNonEmpty]

theorem sessionFields_updatedAt : Object.get (sessionFields J r path) "updated_at" =
    some (.str (formatIso8601Utc r.updatedAtMs)) := by
  simp [sessionFields_eq, get_insertOpt, get_insertNonEmpty]

theorem sessionFields_keyId : Object.get (sessionFields J r path) "key_id" =
    if r.keyId.getD "" ≠ "" then some (.str (r.keyId.getD "")) else none := by
  simp [sessionFields_eq, get_insertOpt, get_insertNonEmpty]

theorem sessionFields_viaSessionId : Object.get (sessionFields J r path) "via_session_id" =
    if r.viaSessionId.getD "" ≠ "" then some (.str (r.viaSessionId.getD "")) else none := by
  simp [sessionFields_eq, get_insertOpt, get_insertNonEmpty]

theorem jsonString_id (deletedAt : Option Int64) : jsonString (sessionRowToJson J r path deletedAt) "id" = r.id := by
  unfold jsonString
  rw [member_sessionRowToJson J r path deletedAt (by decide) (by decide), sessionFields_id]
  rfl

theorem jsonString_updatedAt (deletedAt : Option Int64) :
    jsonString (sessionRowToJson J r path deletedAt) "updated_at" = formatIso8601Utc r.updatedAtMs := by
  unfold jsonString
  rw [member_sessionRowToJson J r path deletedAt (by decide) (by decide), sessionFields_updatedAt]
  rfl

theorem jsonNonEmpty_folder (deletedAt : Option Int64) :
    jsonNonEmpty (sessionRowToJson J r path deletedAt) "folder" = if path = "" then none else some path := by
  unfold jsonNonEmpty
  rw [member_sessionRowToJson J r path deletedAt (by decide) (by decide), sessionFields_folder]
  by_cases h : path = "" <;> simp [h]

theorem isTombstone_sessionRowToJson (deletedAt : Option Int64) :
    isTombstone (sessionRowToJson J r path deletedAt) = deletedAt.isSome := by
  have hnone : Object.get (sessionFields J r path) "tombstone" = none := by
    simp [sessionFields_eq, get_insertOpt, get_insertNonEmpty]
  unfold isTombstone jsonFlag sessionRowToJson
  rw [member_obj, get_insertTombstone]
  rcases deletedAt with _ | ts
  · simp [hnone]
  · simp

theorem deletedAtMs_sessionRowToJson (ts : Int64) :
    jsonI64Opt (sessionRowToJson J r path (some ts)) "deleted_at_ms" = some ts := by
  unfold jsonI64Opt sessionRowToJson
  rw [member_obj, get_insertTombstone]
  simp

end Members

/-- The row a sync builds from the entry of `r`. -/
def received (J : JsonText Text) (folderIds : List (String × String)) (now : Int64) (r : SessionRow Text)
    (path : String) : SessionRow Text :=
  { r with
    folderId := if path = "" then none else folderIds.lookup path
    kind := if kindMember r = "" then kindSsh else r.kind
    keyId := r.keyId.filter (· ≠ "")
    sortOrder := 0
    notes := ""
    lastConnectedAtMs := none
    extras := J.toStr ((extrasMember J r).getD (.obj []))
    viaSessionId := r.viaSessionId.filter (· ≠ "")
    viaHost := (viaTrio r).map Prod.fst
    viaPort := (viaTrio r).map fun t => t.2.1
    viaUser := (viaTrio r).map fun t => t.2.2
    createdAtMs := parseIso8601OrNow (formatIso8601Utc r.createdAtMs) now
    updatedAtMs := (parseIso8601Opt (formatIso8601Utc r.updatedAtMs)).getD 0 }

theorem nonEmpty_read (o : Option String) : Option.filter (fun x => !decide (x = ""))
    ((if o.getD "" = "" then none else some (Json.str (o.getD ""))).bind asStr) =
    Option.filter (fun x => !decide (x = "")) o := by
  rcases o with _ | t
  · rfl
  · by_cases h : t = "" <;> simp [h, filter_some]

theorem viaMember_read {α : Type} (f : Json → Option α) (g : String × Int64 × String → α)
    (h : ∀ t, f (viaMember t) = some (g t)) (o : Option (String × Int64 × String)) :
    (o.map viaMember).bind f = o.map g := by
  rcases o with _ | t
  · rfl
  · exact h t

theorem buildSessionRow_sessionRowToJson (J : JsonText Text) (folderIds : List (String × String)) (now : Int64)
    (path : String) (deletedAt : Option Int64) :
    buildSessionRow J .sync folderIds now (sessionRowToJson J r path deletedAt) = received J folderIds now r path := by
  have hkind : (Option.filter (fun x => !decide (x = ""))
      ((if kindMember r = "" then none else some (Json.str (kindMember r))).bind asStr)).getD kindSsh =
      if kindMember r = "" then kindSsh else r.kind := by
    by_cases h : kindMember r = ""
    · simp [h]
    have hsame : kindMember r = r.kind := by
      unfold kindMember at h ⊢
      split_ifs at h ⊢ with hssh
      · rfl
      · exact absurd rfl h
    have hne : r.kind ≠ "" := hsame ▸ h
    simp [hsame, hne, filter_some]
  have hfolder : ((Option.filter (fun x => !decide (x = "")) (some path)).bind fun p => folderIds.lookup p) =
      if path = "" then none else folderIds.lookup path := by
    by_cases h : path = "" <;> simp [h, filter_some]
  simp [buildSessionRow, received, jsonString, jsonNonEmpty, jsonI64Opt, extrasOf, peerUpdatedAt,
    member_sessionRowToJson, sessionFields_eq, get_insertOpt, get_insertNonEmpty, ApplyMode.isSync]
  refine ⟨hfolder, hkind, nonEmpty_read r.keyId, nonEmpty_read r.viaSessionId, ?_, ?_, ?_⟩
  · exact viaMember_read _ _ (fun t => by simp [viaMember]) _
  · exact viaMember_read _ _ (fun t => by simp [viaMember]) _
  · exact viaMember_read _ _ (fun t => by simp [viaMember]) _

def blankDetails (r : SessionRow Text) : SessionRow Text :=
  { r with
    host := ""
    port := 22
    user := ""
    authType := "password"
    password := ""
    keyPath := ""
    keyData := ""
    keyId := none
    passphrase := ""
    viaSessionId := none
    viaHost := none
    viaPort := none
    viaUser := none }

/-- The row read back once the entry of `r` was stored on top of the parent row `old`. -/
def storedRow (J : JsonText Text) (folderIds : List (String × String)) (now : Int64)
    (old : Option (SessionParent Text)) (r : SessionRow Text) (path : String) : SessionRow Text :=
  rowFrom r.id (parentWritten old (received J folderIds now r path))
    (if kindMember r = "" then some (detailsWritten (received J folderIds now r path)) else none)

/-- The creation stamp stored for the entry of `r`: a known session keeps its own. -/
def createdIn (old : Option (SessionParent Text)) (r : SessionRow Text) (now : Int64) : Int64 :=
  (old.map SessionParent.createdAt).getD (parseIso8601OrNow (formatIso8601Utc r.createdAtMs) now)

section Stored

variable (J : JsonText Text) (folderIds : List (String × String)) (now : Int64)
variable (old : Option (SessionParent Text)) (r : SessionRow Text) (path : String)

theorem normaliseKind_sent : normaliseKind (if kindMember r = "" then kindSsh else r.kind) = normaliseKind r.kind := by
  unfold normaliseKind kindMember
  by_cases hssh : r.kind = kindSsh
  · simp [hssh, kindSsh]
  · by_cases hempty : r.kind = ""
    · simp [hempty, kindSsh]
    · simp [hssh, hempty]

theorem normaliseKind_received : normaliseKind (received J folderIds now r path).kind = kindSsh ↔ kindMember r = "" := by
  change normaliseKind (if kindMember r = "" then kindSsh else r.kind) = kindSsh ↔ _
  rw [normaliseKind_sent]
  grind [kindMember, normaliseKind, kindSsh]

theorem kindMember_storedRow : kindMember (storedRow J folderIds now old r path) = kindMember r := by
  change (if normaliseKind (if kindMember r = "" then kindSsh else r.kind) ≠ kindSsh then
    normaliseKind (if kindMember r = "" then kindSsh else r.kind) else "") = kindMember r
  rw [normaliseKind_sent]
  grind [kindMember, normaliseKind]

theorem extrasMember_eq_some {v : Json} (h : extrasMember J r = some v) : ∃ e m, v = .obj (e :: m) := by
  unfold extrasMember at h
  split_ifs at h
  split at h
  · rename_i e m _
    exact ⟨e, m, (Option.some.inj h).symm⟩
  · cases h

theorem extrasMember_storedRow : extrasMember J (storedRow J folderIds now old r path) = extrasMember J r := by
  have hextras : (storedRow J folderIds now old r path).extras = J.toStr ((extrasMember J r).getD (.obj [])) := rfl
  rcases h : extrasMember J r with _ | v
  · unfold extrasMember
    rw [hextras, h, J.isEmpty_toStr, if_neg Bool.false_ne_true, J.fromStr_toStr]
    rfl
  · obtain ⟨e, m, rfl⟩ := extrasMember_eq_some J r h
    unfold extrasMember
    rw [hextras, h, J.isEmpty_toStr, if_neg Bool.false_ne_true, J.fromStr_toStr]
    rfl

theorem viaTrio_idem {h u : String} {p : Int64} (ht : viaTrio r = some (h, p, u)) : h ≠ "" ∧ u ≠ "" := by
  unfold viaTrio at ht
  split at ht
  · split_ifs at ht with hne
    cases ht
    exact hne
  · cases ht

theorem viaTrio_storedRow (hssh : kindMember r = "") : viaTrio (storedRow J folderIds now old r path) = viaTrio r := by
  have hrow : (storedRow J folderIds now old r path).viaHost = (viaTrio r).map Prod.fst ∧
      (storedRow J folderIds now old r path).viaPort = (viaTrio r).map (fun t => t.2.1) ∧
      (storedRow J folderIds now old r path).viaUser = (viaTrio r).map (fun t => t.2.2) := by
    unfold storedRow
    rw [if_pos hssh]
    exact ⟨rfl, rfl, rfl⟩
  rw [viaTrio.eq_def (storedRow J folderIds now old r path), hrow.1, hrow.2.1, hrow.2.2]
  rcases ht : viaTrio r with _ | ⟨h, p, u⟩
  · rfl
  · simp [viaTrio_idem r ht]

theorem getD_filter (o : Option String) : (o.filter (· ≠ "")).getD "" = o.getD "" := by
  rcases o with _ | t
  · rfl
  · by_cases h : t = "" <;> simp [h, filter_some]

theorem createdAtMs_storedRow : (storedRow J folderIds now old r path).createdAtMs = createdIn old r now := by
  simp only [storedRow, rowFrom, parentWritten, received, createdIn]

theorem updatedAtMs_storedRow : (storedRow J folderIds now old r path).updatedAtMs =
    (parseIso8601Opt (formatIso8601Utc r.updatedAtMs)).getD 0 := by
  simp only [storedRow, rowFrom, parentWritten, received]

theorem sessionFields_storedRow (hnotes : r.notes = "")
    (hcreated : formatIso8601Utc (createdIn old r now) = formatIso8601Utc r.createdAtMs)
    (hupdated : Stable r.updatedAtMs) :
    sessionFields J (storedRow J folderIds now old r path) path =
      sessionFields J (if kindMember r = "" then r else blankDetails r) path := by
  have hupdated' : (storedRow J folderIds now old r path).updatedAtMs = r.updatedAtMs := by
    rw [updatedAtMs_storedRow, hupdated, getD_some]
  rw [sessionFields_eq, sessionFields_eq, kindMember_storedRow, extrasMember_storedRow, createdAtMs_storedRow,
    hcreated, hupdated']
  by_cases hssh : kindMember r = ""
  · have hkey : (storedRow J folderIds now old r path).keyId.getD "" = r.keyId.getD "" := by
      unfold storedRow
      rw [if_pos hssh]
      exact getD_filter r.keyId
    have hvia : (storedRow J folderIds now old r path).viaSessionId.getD "" = r.viaSessionId.getD "" := by
      unfold storedRow
      rw [if_pos hssh]
      exact getD_filter r.viaSessionId
    rw [viaTrio_storedRow J folderIds now old r path hssh, hkey, hvia, if_pos hssh, hnotes]
    unfold storedRow
    rw [if_pos hssh]
    rfl
  · rw [if_neg hssh]
    unfold storedRow
    rw [if_neg hssh]
    show _ = insertNonEmpty "notes" r.notes _
    rw [hnotes]
    rfl

theorem sessionFields_storedRow_iff (hupdated : Stable r.updatedAtMs) (path' : String) :
    sessionFields J (storedRow J folderIds now old r path) path' = sessionFields J r path ↔
      r.notes = "" ∧ formatIso8601Utc (createdIn old r now) = formatIso8601Utc r.createdAtMs ∧ path' = path ∧
        (kindMember r ≠ "" → sessionFields J (blankDetails r) path = sessionFields J r path) := by
  constructor
  · intro h
    have hget := fun k => congrArg (fun o => Object.get o k) h
    have hnotes : r.notes = "" := by
      have hk := hget "notes"
      simp only [sessionFields_notes] at hk
      by_contra hne
      rw [if_pos hne] at hk
      cases hk
    have hcreated : formatIso8601Utc (createdIn old r now) = formatIso8601Utc r.createdAtMs := by
      have hk := hget "created_at"
      simp only [sessionFields_createdAt, createdAtMs_storedRow] at hk
      exact Json.str.inj (Option.some.inj hk)
    have hpath : path' = path := by
      have hk := hget "folder"
      simp only [sessionFields_folder] at hk
      exact Json.str.inj (Option.some.inj hk)
    subst hpath
    refine ⟨hnotes, hcreated, rfl, fun hkind => ?_⟩
    rw [sessionFields_storedRow J folderIds now old r path' hnotes hcreated hupdated, if_neg hkind] at h
    exact h
  · rintro ⟨hnotes, hcreated, rfl, hblank⟩
    rw [sessionFields_storedRow J folderIds now old r path' hnotes hcreated hupdated]
    by_cases hssh : kindMember r = ""
    · rw [if_pos hssh]
    · rw [if_neg hssh, hblank hssh]

end Stored

end LetsFlutSsh.Archive
