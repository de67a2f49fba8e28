import LetsFlutSsh.Archive.MergeTables

/-!
# A merge of all tables

`mergeWhole` table by table, and what a second run of each stage does:

* `mergeWhole_fst`: the main tables after their merge, next to the other tables after theirs;
* `mergedDetails_again`, `mergedBookmarks_again`, …: a second run changes nothing.
-/

namespace LetsFlutSsh.Archive
open Lib List Option

variable {Text α : Type}
variable (main : Db Text)
variable (child : ChildTables)
variable (w : Whole Text)

namespace Whole

theorem of_self : of w.main w.child = w := by
  obtain ⟨main, child, hwebdav, hs3⟩ := w
  unfold of
  congr 1
  rw [← hwebdav, ← hs3]

@[simp] theorem of_of (child' : ChildTables) : of (of main child).main child' = of main child' := rfl
@[simp] theorem child_of : (of main child).child = child := rfl

@[simp] theorem liveSessionIds_of :
    liveSessionIds (of main child).main = liveSessionIds main := rfl

end Whole

theorem dropKeys_none {t : Table String α} {gone : String → Bool} (h : ∀ id ∈ t.keys, gone id = false) :
    t.dropKeys gone = t := by
  obtain ⟨rows, hnodup⟩ := t
  unfold Table.dropKeys
  congr 1
  refine filter_eq_self.2 fun e he => ?_
  rw [h e.1 (mem_map_of_mem he)]
  rfl

theorem withMain_main : w.withMain w.main = w := by
  have hwebdav : (w.child.webdav.dropKeys fun id => id ∉ w.main.webdavDetails) = w.child.webdav := by
    refine dropKeys_none fun id hid => ?_
    rw [w.webdavIds]
    simpa using hid
  have hs3 : (w.child.s3.dropKeys fun id => id ∉ w.main.s3Details) = w.child.s3 := by
    refine dropKeys_none fun id hid => ?_
    rw [w.s3Ids]
    simpa using hid
  unfold Whole.withMain
  rw [hwebdav, hs3]
  exact w.of_self

/-! ## Known hosts -/

def readKnownHost (validBase64 : String → Bool) (raw : List Char) : Option KnownHost :=
  let line := trim raw
  if line = [] ∨ line.head? = some '#' then none
  else
    match splitSpace line with
    | (host, some rest) =>
      match splitSpace rest with
      | (keyType, some key) =>
        if String.ofList key = "" ∨ validBase64 (String.ofList key) = false then none
        else some ⟨(hostPort host).1, (hostPort host).2, String.ofList keyType, String.ofList key⟩
      | (_, none) => none
    | (_, none) => none

def hostsOf (validBase64 : String → Bool) (text : String) : List KnownHost :=
  (text.toList.splitOn '\n').filterMap (readKnownHost validBase64)

def pinAll (now : Int64) (hosts : List KnownHost) (t : Table (String × Int64) HostKey) : Table (String × Int64) HostKey :=
  hosts.foldl (fun t h => KnownHosts.upsertByHostPort t h now) t

theorem driveKnownHost_fst (E : Env Text) (now : Int64) (validBase64 : String → Bool) (raw : List Char)
    (s : Running (Whole Text)) :
    (driveKnownHost (wholeStore E now) validBase64 raw s).1 = .of s.1.main { s.1.child with
        knownHosts := pinAll now (readKnownHost validBase64 raw).toList s.1.child.knownHosts } := by
  unfold driveKnownHost readKnownHost
  by_cases hskip : trim raw = [] ∨ (trim raw).head? = some '#'
  · rw [if_pos hskip, if_pos hskip]
    exact s.1.of_self.symm
  rw [if_neg hskip, if_neg hskip]
  rcases splitSpace (trim raw) with ⟨host, _ | rest⟩
  · exact s.1.of_self.symm
  dsimp only
  rcases splitSpace rest with ⟨keyType, _ | key⟩
  · exact s.1.of_self.symm
  dsimp only
  split_ifs
  · exact s.1.of_self.symm
  · rfl

theorem driveKnownHosts_fst (E : Env Text) (now : Int64) (validBase64 : String → Bool) (text : String)
    (s : Running (Whole Text)) :
    (driveKnownHosts (wholeStore E now) validBase64 text s).1 = .of s.1.main { s.1.child with
        knownHosts := pinAll now (hostsOf validBase64 text) s.1.child.knownHosts } := by
  unfold driveKnownHosts hostsOf
  generalize text.toList.splitOn '\n' = lines
  induction lines generalizing s with
  | nil => exact s.1.of_self.symm
  | cons line lines ih =>
    rw [foldl_cons, ih, driveKnownHost_fst, filterMap_cons]
    rcases readKnownHost validBase64 line with _ | h
    · rfl
    · rfl

variable (E : DriverEnv Text)

theorem syncKnownHosts_fst (now : Int64) (p : FullImport Text) (s : Running (Whole Text)) :
    (syncKnownHosts E now p s).1 = .of s.1.main { s.1.child with
        knownHosts := pinAll now (p.knownHostsText.elim [] (hostsOf E.validBase64)) s.1.child.knownHosts } := by
  unfold syncKnownHosts
  rcases p.knownHostsText with _ | text
  · exact s.1.of_self.symm
  · exact driveKnownHosts_fst E.toEnv now E.validBase64 text s

abbrev KnownHost.place (h : KnownHost) : String × Int64 := (h.host, h.port)

variable {hosts : List KnownHost} {k : String × Int64}

theorem get_pinAll_of_not_mem {now : Int64} {t : Table (String × Int64) HostKey}
    (hk : k ∉ hosts.map KnownHost.place) : (pinAll now hosts t).get k = t.get k := by
  refine foldl_fixes (fun t : Table (String × Int64) HostKey => t.get k) (fun t h hh => ?_) t
  unfold KnownHosts.upsertByHostPort
  rw [Table.get_set, if_neg]
  rintro rfl
  exact hk (mem_map_of_mem hh)

theorem get_pinAll_of_mem (hk : k ∈ hosts.map KnownHost.place) :
    ∃ keyType keyBase64, ∀ now t, (pinAll now hosts t).get k = some ⟨keyType, keyBase64, now⟩ := by
  induction hosts with
  | nil => simp at hk
  | cons h hosts ih =>
    by_cases hrest : k ∈ hosts.map KnownHost.place
    · obtain ⟨keyType, keyBase64, hget⟩ := ih hrest
      exact ⟨keyType, keyBase64, fun now t => hget now _⟩
    · rw [map_cons, mem_cons, or_iff_left hrest] at hk
      refine ⟨h.keyType, h.keyBase64, fun now t => ?_⟩
      show (pinAll now hosts (KnownHosts.upsertByHostPort t h now)).get k = _
      rw [get_pinAll_of_not_mem hrest]
      unfold KnownHosts.upsertByHostPort
      rw [Table.get_set, if_pos hk]

theorem get_pinAll_again (now now' : Int64) (hosts : List KnownHost) (t : Table (String × Int64) HostKey)
    (k : String × Int64) :
    (pinAll now' hosts (pinAll now hosts t)).get k = ((pinAll now hosts t).get k).map fun r =>
        if k ∈ hosts.map KnownHost.place then { r with addedAtMs := now' } else r := by
  by_cases hk : k ∈ hosts.map KnownHost.place
  · obtain ⟨keyType, keyBase64, hget⟩ := get_pinAll_of_mem hk
    rw [hget, hget, map_some, if_pos hk]
  · rw [get_pinAll_of_not_mem hk]
    simp [hk]

/-! ## Certificates -/

variable {J : JsonText Text}

theorem overRows_fst {σ : Type} (what : String) (entry : Option Text)
    {stage : List Json → Running σ → Running σ} (hnil : ∀ s, (stage [] s).1 = s.1) (s : Running σ) :
    (overRows J true what entry stage s).1 = (stage (itemsOf J entry) s).1 := by
  unfold overRows itemsOf
  rw [if_pos rfl]
  rcases entry with _ | text
  · exact (hnil s).symm
  · rw [elim_some, bind_some]
    rcases parseArray J text with e | items
    · exact (hnil s).symm
    · rfl

def certificateWrite (fromText : String → Option Json) (liveKeys : List String) (v : Json) (_ : Option CertRecord) :
    Option CertRecord :=
  if jsonString v "key_id" ≠ "" ∧ jsonString v "key_id" ∈ liveKeys then
    some
      { keyId := jsonString v "key_id"
        certificate := (jsonBytes v "certificate").getD []
        validAfter := jsonI64 v "valid_after"
        validBefore := jsonI64 v "valid_before"
        principals := certPrincipals fromText v
        criticalOptions := certCriticalOptions fromText v
        fingerprint := jsonString v "fingerprint" }
  else none

def mergedCertificates (fromText : String → Option Json) (liveKeys : List String) (items : List Json)
    (t : Table String CertRecord) : Table String CertRecord :=
  t.mergeAll (fun v => jsonString v "key_id") (certificateWrite fromText liveKeys) items

variable {items : List Json}

theorem mergedCertificates_again (fromText : String → Option Json) (liveKeys : List String)
    (hids : (items.map fun v => jsonString v "key_id").Nodup) {t t' : Table String CertRecord}
    (ht' : mergedCertificates fromText liveKeys items t = t') : mergedCertificates fromText liveKeys items t' = t' := by
  subst ht'
  refine Table.mergeAll_again hids fun v _ b hb => ?_
  rw [show certificateWrite fromText liveKeys v (t.get (jsonString v "key_id")) = some b from hb, some_or]

def liveKeyIds (db : Db Text) : List String := (db.sshKeys.rows.filter fun e => e.2.deletedAt.isNone).map Prod.fst

@[simp] theorem liveKeyIds_of :
    liveKeyIds (Whole.of main child).main = liveKeyIds main := rfl

theorem driveCertificate_fst (E : Env Text) (now : Int64) (fromText : String → Option Json) (liveKeys : List String)
    (v : Json) (s : Running (Whole Text)) :
    (driveCertificate (wholeStore E now) fromText liveKeys v s).1 =
      .of s.1.main { s.1.child with
        certificates := s.1.child.certificates.mergeRow (jsonString v "key_id") (certificateWrite fromText liveKeys v) } := by
  unfold driveCertificate certificateWrite Table.mergeRow
  by_cases hid : jsonString v "key_id" = ""
  · rw [if_pos hid, if_neg fun h => h.1 hid]
    exact s.1.of_self.symm
  rw [if_neg hid]
  by_cases hlive : jsonString v "key_id" ∈ liveKeys
  · rw [if_pos hlive, if_pos ⟨hid, hlive⟩]
    rfl
  · rw [if_neg hlive, if_neg fun h => hlive h.2]
    exact s.1.of_self.symm

theorem syncCertificates_fst (now : Int64) (p : FullImport Text) (s : Running (Whole Text)) :
    (syncCertificates E now p s).1 =
      .of s.1.main { s.1.child with
        certificates := mergedCertificates E.fromText (liveKeyIds s.1.main) (itemsOf E.json p.sshKeyCertificatesJson)
          s.1.child.certificates } := by
  have hlist : ∀ w : Whole Text, (wholeStore E.toEnv now).listKeyIds w = (w, .ok (liveKeyIds w.main)) := by
    intro w
    exact Prod.ext (withMain_main w) rfl
  unfold syncCertificates overChildren withList
  simp only [hlist]
  rw [overRows_fst _ _ fun _ => rfl]
  generalize itemsOf E.json p.sshKeyCertificatesJson = items
  generalize hlive : liveKeyIds s.1.main = liveKeys
  clear hlive
  induction items generalizing s with
  | nil => exact s.1.of_self.symm
  | cons v items ih =>
    rw [foldl_cons, ih, driveCertificate_fst]
    rfl

variable (live : List String)

/-! ## Rows that hang off sessions -/

section Tables

theorem overTable_fst {τ : Type} (what : String) (entry : Option Text)
    (row : Json → Running τ → Running τ) (s : Running τ) :
    (overTable E what entry row s).1 = ((itemsOf E.json entry).foldl (fun s v => row v s) s).1 :=
  overRows_fst what entry (fun _ => rfl) s

def mergedDetails (build : Json → α) (now : Int64) (live : List String) (items : List Json)
    (t : Table String (Stamped α)) : Table String (Stamped α) :=
  t.mergeAll (fun v => jsonString v "session_id") (detailWrite build now live) items

theorem mergedDetails_again (build : Json → α) (now now' : Int64)
    (hids : (items.map fun v => jsonString v "session_id").Nodup) (hstamps : ∀ v ∈ items, (peerStamp v).isSome)
    {t t' : Table String (Stamped α)} (ht' : mergedDetails build now live items t = t') :
    mergedDetails build now' live items t' = t' := by
  subst ht'
  exact Table.mergeAll_again hids fun v hv b => detailWrite_again now now' live build (hstamps v hv) rfl

def mergedBookmarks (now : Int64) (live : List String) (items : List Json) (t : Table String (Stored SftpBookmarkRow)) :
    Table String (Stored SftpBookmarkRow) :=
  t.mergeAll entryId (fun v => bookmarkWrite now live v (bookmarkStamp (t.get (entryId v)))) items

theorem mergedBookmarks_again (now now' : Int64) (hids : (items.map entryId).Nodup)
    (hstamps : ∀ v ∈ items, (parseIso8601Opt (jsonString v "created_at")).isSome)
    {t t' : Table String (Stored SftpBookmarkRow)} (ht' : mergedBookmarks now live items t = t') :
    mergedBookmarks now' live items t' = t' :=
  Table.mergeAll_stamped_again hids (fun v hv _ _ hy _ => bookmarkWrite_again now now' live (hstamps v hv) hy) ht'

def mergedPortForwards (live : List String) (items : List Json) (t : Table String (Stored PortForwardRuleRow)) :
    Table String (Stored PortForwardRuleRow) :=
  t.mergeAll entryId (fun v => portForwardWrite live v (portForwardStamp (t.get (entryId v)))) items

theorem mergedPortForwards_again (hids : (items.map entryId).Nodup)
    {t t' : Table String (Stored PortForwardRuleRow)} (ht' : mergedPortForwards live items t = t') :
    mergedPortForwards live items t' = t' :=
  Table.mergeAll_stamped_again hids (fun v _ _ _ hy _ => portForwardWrite_again v live hy) ht'

end Tables

/-! ## All stages -/

section Merge

variable (E : DriverEnv Text) (now : Int64) (p : FullImport Text)

section

variable (s : Running (Whole Text))

theorem syncWebdav_fst : (syncWebdav E now p s).1 = .of s.1.main { s.1.child with
      webdav := mergedDetails webdavRow now (liveSessionIds s.1.main) (itemsOf E.json p.webdavSessionDetailsJson)
        s.1.child.webdav } := by
  unfold syncWebdav
  dsimp only
  rw [overTable_fst]
  rw [Table.foldl_mergeRow (g := fun t : Running (Table String (Stamped WebDavSessionRow)) => t.1)
    (fun t v => applyOneDetail_fst v now (liveSessionIds s.1.main) _ webdavRow _ t)]
  rfl

theorem syncS3_fst : (syncS3 E now p s).1 = .of s.1.main { s.1.child with
      s3 := mergedDetails s3Row now (liveSessionIds s.1.main) (itemsOf E.json p.s3SessionDetailsJson) s.1.child.s3 } := by
  unfold syncS3
  dsimp only
  rw [overTable_fst]
  rw [Table.foldl_mergeRow (g := fun t : Running (Table String (Stamped S3SessionRow)) => t.1)
    (fun t v => applyOneDetail_fst v now (liveSessionIds s.1.main) _ s3Row _ t)]
  rfl

theorem syncBookmarks_fst : (syncBookmarks E now p s).1 = .of s.1.main { s.1.child with
      bookmarks := mergedBookmarks now (liveSessionIds s.1.main) (itemsOf E.json p.sftpBookmarksJson)
        s.1.child.bookmarks } := by
  unfold syncBookmarks
  dsimp only
  rw [overTable_fst]
  rw [Table.foldl_mergeRow (g := fun t : Running (Table String (Stored SftpBookmarkRow)) => t.1)
    (fun t v => applyOneSftpBookmark_fst v now (liveSessionIds s.1.main) _ t)]
  rfl

theorem syncPortForwards_fst : (syncPortForwards E p s).1 = .of s.1.main { s.1.child with
      portForwards := mergedPortForwards (liveSessionIds s.1.main) (itemsOf E.json p.portForwardRulesJson)
        s.1.child.portForwards } := by
  unfold syncPortForwards
  dsimp only
  rw [overTable_fst]
  rw [Table.foldl_mergeRow (g := fun t : Running (Table String (Stored PortForwardRuleRow)) => t.1)
    (fun t v => applyOnePortForwardRule_fst v (liveSessionIds s.1.main) _ t)]
  rfl

end

/-- The other tables after a merge that left `main`. -/
def mergedChild (main : Db Text) (c : ChildTables) : ChildTables where
  knownHosts := pinAll now (p.knownHostsText.elim [] (hostsOf E.validBase64)) c.knownHosts
  certificates :=
    mergedCertificates E.fromText (liveKeyIds main) (itemsOf E.json p.sshKeyCertificatesJson) c.certificates
  webdav :=
    mergedDetails webdavRow now (liveSessionIds main) (itemsOf E.json p.webdavSessionDetailsJson)
      (c.webdav.dropKeys fun id => id ∉ main.webdavDetails)
  s3 :=
    mergedDetails s3Row now (liveSessionIds main) (itemsOf E.json p.s3SessionDetailsJson)
      (c.s3.dropKeys fun id => id ∉ main.s3Details)
  bookmarks := mergedBookmarks now (liveSessionIds main) (itemsOf E.json p.sftpBookmarksJson) c.bookmarks
  portForwards := mergedPortForwards (liveSessionIds main) (itemsOf E.json p.portForwardRulesJson) c.portForwards

theorem mergeWhole_fst : (mergeWhole E now p w).1 =
      .of (mergePendingIntoLocal E.toEnv now p.toPendingImport w.main).1
        (mergedChild E now p (mergePendingIntoLocal E.toEnv now p.toPendingImport w.main).1 w.child) := by
  unfold mergeWhole
  have hmain : (syncMain E now p w).1 = w.withMain (mergePendingIntoLocal E.toEnv now p.toPendingImport w.main).1 := rfl
  rw [syncPortForwards_fst, syncBookmarks_fst, syncS3_fst, syncWebdav_fst, syncCertificates_fst, syncKnownHosts_fst, hmain]
  generalize (mergePendingIntoLocal E.toEnv now p.toPendingImport w.main).1 = main
  unfold Whole.withMain mergedChild
  simp only [Whole.of_of, Whole.child_of, Whole.liveSessionIds_of, liveKeyIds_of]

end Merge

end LetsFlutSsh.Archive
