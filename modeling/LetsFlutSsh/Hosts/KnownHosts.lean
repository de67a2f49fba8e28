import LetsFlutSsh.Archive.SyncTables
import LetsFlutSsh.Hosts.KnownHostsParser

/-!
# The known-hosts table

* `importFromString`, `exportToString`, `checkHost` : the bulk operations and the decision at connect time;
* `get_importFromString` : where the rows of an imported table come from;
* `Lists` : what a line of the text lists, with its markers stripped (`import_grants_listed`);
* `Exportable` : the tables of the round trip; `get_import_export` : what it leaves of each row, and
  `roundTrip_iff`.
-/

namespace LetsFlutSsh.Hosts
open Lib Archive List Option

/-- The rows of `known_hosts`. -/
abbrev HostTable := Table (String × Int64) HostKey

structure ImportSummary where
  added : Nat := 0
  skippedExisting : Nat := 0
  skippedHashed : Nat := 0

def importEntry (now : Int64) (entry : ParsedHostEntry) (s : HostTable × ImportSummary) : HostTable × ImportSummary :=
  match splitHostPort entry.hostPort with
  | none => s
  | some (host, port) =>
    match s.1.get (host, port) with
    | some _ => (s.1, { s.2 with skippedExisting := s.2.skippedExisting + 1 })
    | none =>
      (KnownHosts.upsertByHostPort s.1 ⟨host, port, String.ofList entry.keyType, String.ofList entry.keyBase64⟩ now,
        { s.2 with added := s.2.added + 1 })

def importLine (now : Int64) (rawLine : List Char) (s : HostTable × ImportSummary) : HostTable × ImportSummary :=
  let entries := parseLine rawLine
  if entries = [] then
    if isHashedHostsLine rawLine then (s.1, { s.2 with skippedHashed := s.2.skippedHashed + 1 }) else s
  else entries.foldl (fun s entry => importEntry now entry s) s

/-- The summary, whether `KnownHostsChanged` is published, and the table afterwards. -/
def importFromString (now : Int64) (content : String) (t : HostTable) : ImportSummary × Bool × HostTable :=
  let s := (content.toList.splitOn '\n').foldl (fun s rawLine => importLine now rawLine s) (t, {})
  (s.2, decide (s.2.added > 0), s.1)

/-- A row as `host:port type key`. -/
def exportLine (e : (String × Int64) × HostKey) : List Char :=
  e.1.1.toList ++ ':' :: (toString e.1.2.toInt).toList ++ ' ' :: e.2.keyType.toList ++ ' ' :: e.2.keyBase64.toList

def exportToString (t : HostTable) : String :=
  let rows := (KnownHosts.listAll t).mergeSort KnownHosts.listedBefore
  String.ofList (rows.flatMap fun e => exportLine e ++ ['\n'])

inductive HostCheckMismatch where
  | unknown
  | changed (storedKeyB64 : String)
  deriving DecidableEq

inductive HostCheckResult where
  | accepted
  | mismatch (m : HostCheckMismatch)
  deriving DecidableEq

def checkHost (t : HostTable) (host : String) (port : Int64) (keyType keyBase64 : String) : HostCheckResult :=
  match t.get (host, port) with
  | none => .mismatch .unknown
  | some r => if r.keyType = keyType ∧ r.keyBase64 = keyBase64 then .accepted else .mismatch (.changed r.keyBase64)

variable {port : Int64} {t : HostTable}

theorem checkHost_accepted_iff {host : String} {keyType keyBase64 : String} :
    checkHost t host port keyType keyBase64 = .accepted ↔
      ∃ r, t.get (host, port) = some r ∧ r.keyType = keyType ∧ r.keyBase64 = keyBase64 := by
  unfold checkHost
  rcases t.get (host, port) with _ | r
  · simp
  · simp

variable {now : Int64} {s : HostTable × ImportSummary}

def ParsedHostEntry.row (now : Int64) (entry : ParsedHostEntry) : HostKey :=
  ⟨String.ofList entry.keyType, String.ofList entry.keyBase64, now⟩

theorem get_importEntry (entry : ParsedHostEntry) (k : String × Int64) : (importEntry now entry s).1.get k =
    if splitHostPort entry.hostPort = some k ∧ s.1.get k = none then some (entry.row now) else s.1.get k := by
  unfold importEntry
  split
  · next hnone => simp [hnone]
  next host port hsome =>
  rw [hsome]
  split
  · next r hr =>
    rw [if_neg]
    rintro ⟨heq, hk⟩
    cases heq
    rw [hr] at hk
    cases hk
  · next hr =>
    dsimp only [KnownHosts.upsertByHostPort]
    rw [Table.get_set]
    by_cases hk : k = (host, port)
    · subst hk
      rw [if_pos rfl, if_pos ⟨rfl, hr⟩]
      rfl
    · rw [if_neg hk, if_neg]
      rintro ⟨heq, -⟩
      cases heq
      exact hk rfl

theorem get_foldl_importEntry (entries : List ParsedHostEntry) (s : HostTable × ImportSummary) (k : String × Int64) :
    (entries.foldl (fun s entry => importEntry now entry s) s).1.get k =
      (s.1.get k).or ((entries.find? fun entry => splitHostPort entry.hostPort = some k).map (·.row now)) := by
  induction entries generalizing s with
  | nil => simp
  | cons entry entries ih =>
    rw [foldl_cons, ih, get_importEntry, find?_cons]
    by_cases hk : splitHostPort entry.hostPort = some k
    · rcases s.1.get k with _ | r
      · simp [hk]
      · simp
    · simp [hk]

theorem importLine_fst (rawLine : List Char) :
    (importLine now rawLine s).1 = ((parseLine rawLine).foldl (fun s entry => importEntry now entry s) s).1 := by
  unfold importLine
  dsimp only
  split
  · next hnil =>
    rw [hnil]
    split <;> rfl
  · rfl

theorem get_foldl_importLine (lines : List (List Char)) (s : HostTable × ImportSummary) (k : String × Int64) :
    (lines.foldl (fun s rawLine => importLine now rawLine s) s).1.get k =
      (s.1.get k).or (((lines.flatMap parseLine).find? fun entry => splitHostPort entry.hostPort = some k).map
        (·.row now)) := by
  induction lines generalizing s with
  | nil => simp
  | cons line lines ih =>
    rw [foldl_cons, ih, importLine_fst, get_foldl_importEntry, flatMap_cons, find?_append, map_or, Option.or_assoc]

theorem get_importFromString (now : Int64) (content : String) (t : HostTable) (k : String × Int64) :
    (importFromString now content t).2.2.get k =
      (t.get k).or ((((content.toList.splitOn '\n').flatMap parseLine).find? fun entry =>
        splitHostPort entry.hostPort = some k).map (·.row now)) :=
  get_foldl_importLine _ (t, {}) k

def fields (line : List Char) : List (List Char) := (splitWhitespace (trim line)).dropWhile isMarker

/-- The line, its markers apart, lists the host and the port with this key. -/
def Lists (line : List Char) (host : String) (port : Int64) (keyType keyBase64 : String) : Prop :=
  (trim line).head? ≠ some '#' ∧ ∃ spec more, fields line = spec :: keyType.toList :: keyBase64.toList :: more ∧
    ∃ name ∈ spec.splitOn ',', Denotes (trim name) host.toList port

def Unmarked (line : List Char) : Prop := fields line = splitWhitespace (trim line)

instance (line : List Char) : Decidable (Unmarked line) := inferInstanceAs (Decidable (_ = _))

variable {entry : ParsedHostEntry}

theorem mem_parseLine {line : List Char} (h : entry ∈ parseLine line) :
    (trim line).head? ≠ some '#' ∧ isValidStandardBase64 entry.keyBase64 = true ∧
      ∃ spec more, fields line = spec :: entry.keyType :: entry.keyBase64 :: more ∧
        ∃ name ∈ spec.splitOn ',', normaliseHostSpec name = some entry.hostPort := by
  unfold parseLine at h
  dsimp only at h
  split at h
  · cases h
  next hline =>
  split at h
  · next spec keyType keyBase64 more hfields =>
    split_ifs at h with hhashed hempty hvalid
    · cases h
    · cases h
    · cases h
    · obtain ⟨name, hname, hentry⟩ := mem_filterMap.1 h
      obtain ⟨hostPort, hhost, rfl⟩ := map_eq_some_iff.1 hentry
      exact ⟨fun hhead => hline (.inr hhead), by simpa using hvalid, spec, more, hfields, name, hname, hhost⟩
  · cases h

theorem lists_of_mem_parseLine {line : List Char} {host : String}
    (h : entry ∈ parseLine line) (hsplit : splitHostPort entry.hostPort = some (host, port)) :
    Lists line host port (String.ofList entry.keyType) (String.ofList entry.keyBase64) := by
  obtain ⟨hhead, -, spec, more, hfields, name, hname, hhost⟩ := mem_parseLine h
  refine ⟨hhead, spec, more, ?_, name, hname, denotes_of_split hhost hsplit⟩
  rw [String.toList_ofList, String.toList_ofList]
  exact hfields

/-- **Trust after an import.** A key is accepted only if it was before or some line of the text, its markers apart,
lists it for the host and the port; rows that were there are unchanged. -/
theorem import_grants_listed (now : Int64) (content : String) (t : HostTable) : (∀ host port keyType keyBase64,
      checkHost (importFromString now content t).2.2 host port keyType keyBase64 = .accepted →
        checkHost t host port keyType keyBase64 = .accepted ∨
          ∃ line ∈ content.toList.splitOn '\n', Lists line host port keyType keyBase64) ∧
      ∀ k r, t.get k = some r → (importFromString now content t).2.2.get k = some r := by
  refine ⟨fun host port keyType keyBase64 haccepted => ?_, fun k r hr => ?_⟩
  · obtain ⟨r, hr, rfl, rfl⟩ := checkHost_accepted_iff.1 haccepted
    rw [get_importFromString] at hr
    rcases hbefore : t.get (host, port) with _ | r'
    · rw [hbefore, none_or] at hr
      obtain ⟨entry, hfind, rfl⟩ := map_eq_some_iff.1 hr
      obtain ⟨line, hline, hentry⟩ := mem_flatMap.1 (mem_of_find?_eq_some hfind)
      have hsplit := find?_some hfind
      rw [decide_eq_true_eq] at hsplit
      exact .inr ⟨line, hline, lists_of_mem_parseLine hentry hsplit⟩
    · rw [hbefore, some_or] at hr
      cases hr
      exact .inl (checkHost_accepted_iff.2 ⟨r, hbefore, rfl, rfl⟩)
  · rw [get_importFromString, hr, some_or]

/-- A key that stands on a line marked `@revoked` only is accepted after the import. -/
theorem import_grants_revoked : ¬ ∀ (now : Int64) (content : String) (t : HostTable) (host : String) (port : Int64)
    (keyType keyBase64 : String),
    checkHost (importFromString now content t).2.2 host port keyType keyBase64 = .accepted →
      checkHost t host port keyType keyBase64 = .accepted ∨
        ∃ line ∈ content.toList.splitOn '\n', Unmarked line ∧ Lists line host port keyType keyBase64 := by
  intro h
  have hgrant := h 0 "@revoked h ssh-rsa AAAA" .empty "h" 22 "ssh-rsa" "AAAA" (by decide +kernel)
  rcases hgrant with hbefore | ⟨line, hline, hunmarked, -⟩
  · cases hbefore
  · revert line
    decide +kernel

/-- A host without white space, commas and brackets that does not start as a comment, a marker or a hash does. -/
structure PlainHost (host : List Char) : Prop where
  nonempty : host ≠ []
  visible : Visible host
  comma : ',' ∉ host
  opening : '[' ∉ host
  closing : ']' ∉ host
  comment : host.head? ≠ some '#'
  marker : host.head? ≠ some '@'
  hashed : hashedMark.isPrefixOf host = false

/-- Plain hosts, ports in range, and keys that the decoder accepts. -/
structure Exportable (t : HostTable) : Prop where
  host : ∀ e ∈ t.rows, PlainHost e.1.1.toList
  port : ∀ e ∈ t.rows, 1 ≤ e.1.2.toInt ∧ e.1.2.toInt ≤ 65535
  key : ∀ e ∈ t.rows, isValidStandardBase64 e.2.keyBase64.toList = true

def Worded (r : HostKey) : Prop := Visible r.keyType.toList ∧ r.keyType.toList ≠ [] ∧ r.keyBase64.toList ≠ []

variable {host digits keyType key : List Char}

theorem isDigit_visible {cs : List Char} (h : ∀ c ∈ cs, c.isDigit = true) : Visible cs := by
  intro c hc
  have hdigit := h c hc
  rw [Char.isDigit_iff_toNat] at hdigit
  have hzero : '0'.toNat = 48 := rfl
  have hnine : '9'.toNat = 57 := rfl
  exact isWhitespace_of_ascii (by omega) (by omega)

theorem hashed_append (host rest : List Char) :
    hashedMark.isPrefixOf (host ++ ':' :: rest) = hashedMark.isPrefixOf host := by
  rcases host with _ | ⟨a, _ | ⟨b, _ | ⟨c, host⟩⟩⟩ <;> simp [hashedMark, List.isPrefixOf]

theorem PlainHost.visible_spec (hhost : PlainHost host) (n : Nat) : Visible (host ++ ':' :: Nat.toDigits 10 n) := by
  intro c hc
  rcases mem_append.1 hc with hc | hc
  · exact hhost.visible c hc
  · rcases mem_cons.1 hc with rfl | hc
    · decide
    · exact isDigit_visible (fun c hc => Nat.isDigit_of_mem_toDigits (by decide) (by decide) hc) c hc

theorem normaliseHostSpec_plain (hhost : PlainHost host) {n : Nat} (h1 : 1 ≤ n) (h2 : n ≤ 65535) :
    normaliseHostSpec (host ++ ':' :: Nat.toDigits 10 n) =
      if ':' ∈ host then none else some (host ++ ':' :: Nat.toDigits 10 n) := by
  unfold normaliseHostSpec
  rw [trim_of_visible (hhost.visible_spec n)]
  dsimp only
  split
  · next heq => simp at heq
  · next rest heq =>
    rcases host with _ | ⟨c, host⟩
    · exact absurd rfl hhost.nonempty
    · rw [cons_append, List.cons.injEq] at heq
      exact absurd (heq.1 ▸ mem_cons_self) hhost.opening
  · by_cases hcolon : ':' ∈ host
    · have hcount : 0 < host.count ':' := count_pos_iff.2 hcolon
      rw [if_pos hcolon, if_pos]
      rw [count_append, count_cons_self]
      omega
    · rw [if_neg hcolon, if_neg, splitOnce_append hcolon]
      · dsimp only
        rw [if_neg hhost.nonempty, withPort, parseUnsigned_toDigits (by omega), bind_some, if_pos ⟨h1, h2⟩,
          formatCanonical, if_neg hcolon]
      · rw [count_append, count_cons_self, count_eq_zero.2 hcolon, count_eq_zero.2 (not_mem_toDigits (by decide) n)]
        omega

theorem parseLine_exported (hhost : PlainHost host) {n : Nat} (h1 : 1 ≤ n) (h2 : n ≤ 65535) (htype : Visible keyType)
    (htype' : keyType ≠ []) (hkey : isValidStandardBase64 key = true) (hkey' : key ≠ []) :
    parseLine (host ++ ':' :: Nat.toDigits 10 n ++ ' ' :: keyType ++ ' ' :: key) =
      if ':' ∈ host then [] else [⟨host ++ ':' :: Nat.toDigits 10 n, keyType, key⟩] := by
  have hspec := hhost.visible_spec n
  have hspec' : host ++ ':' :: Nat.toDigits 10 n ≠ [] := by simp
  have hhead : ∀ m : Char, host.head? ≠ some m → (host ++ ':' :: Nat.toDigits 10 n).head? ≠ some m := by
    intro m hm
    rcases host with _ | ⟨c, host⟩
    · exact absurd rfl hhost.nonempty
    · exact hm
  have hcomma : ',' ∉ host ++ ':' :: Nat.toDigits 10 n := by
    simp only [mem_append, mem_cons, not_or]
    exact ⟨hhost.comma, by decide, not_mem_toDigits (by decide) n⟩
  have hkeyVisible := visible_of_isValidStandardBase64 hkey
  have hspace : isWhitespace ' ' = true := by decide
  generalize hs : host ++ ':' :: Nat.toDigits 10 n = spec at *
  have hassoc : spec ++ ' ' :: keyType ++ ' ' :: key = spec ++ (' ' :: keyType ++ [' ']) ++ key := by simp
  have htrim : trim (spec ++ ' ' :: keyType ++ ' ' :: key) = spec ++ ' ' :: (keyType ++ ' ' :: key) := by
    rw [hassoc, trim_between hspec hkeyVisible hspec' hkey']
    simp
  have hwords : splitWhitespace (spec ++ ' ' :: (keyType ++ ' ' :: key)) = [spec, keyType, key] := by
    rw [splitWhitespace_cons hspec hspec' hspace, splitWhitespace_cons htype htype' hspace,
      splitWhitespace_single hkeyVisible hkey']
  have hmarker : isMarker spec = false := by
    unfold isMarker
    rw [decide_eq_false_iff_not]
    exact hhead '@' hhost.marker
  have hhashed : hashedMark.isPrefixOf spec = false := by
    rw [← hs, hashed_append]
    exact hhost.hashed
  unfold parseLine
  rw [htrim]
  rw [if_neg]
  · rw [hwords, dropWhile_cons_of_neg (by simp [hmarker])]
    dsimp only
    rw [if_neg (by simp [hhashed]), if_neg hkey', if_neg (by simp [hkey]), splitOn_eq_splitOnP,
      splitOnP_eq_singleton]
    · rw [filterMap_cons, ← hs, normaliseHostSpec_plain hhost h1 h2]
      split_ifs <;> rfl
    · intro c hc
      rw [beq_eq_false_iff_ne]
      rintro rfl
      exact hcomma hc
  · rw [not_or]
    refine ⟨by simp, ?_⟩
    obtain ⟨c, rest, rfl⟩ := exists_cons_of_ne_nil hspec'
    exact hhead '#' hhost.comment

theorem splitOn_lines {α : Type} (f : α → List Char) (rows : List α) (h : ∀ e ∈ rows, '\n' ∉ f e) :
    (rows.flatMap fun e => f e ++ ['\n']).splitOn '\n' = rows.map f ++ [[]] := by
  induction rows with
  | nil => rfl
  | cons e rows ih =>
    rw [forall_mem_cons] at h
    have hline : ∀ c ∈ f e, (c == '\n') = false := fun c hc => by
      rw [beq_eq_false_iff_ne]
      rintro rfl
      exact h.1 hc
    have hrest := ih h.2
    rw [splitOn_eq_splitOnP] at hrest ⊢
    rw [flatMap_cons, append_assoc, singleton_append,
      splitOnP_append_cons_of_forall_mem hline _ (by simp), hrest]
    rfl

theorem toList_toString_port (h : 1 ≤ port.toInt ∧ port.toInt ≤ 65535) :
    ∃ n : Nat, 1 ≤ n ∧ n ≤ 65535 ∧ (toString port.toInt).toList = Nat.toDigits 10 n ∧ Int64.ofInt n = port := by
  obtain ⟨n, hn⟩ := Int.eq_ofNat_of_zero_le (by omega : 0 ≤ port.toInt)
  refine ⟨n, by omega, by omega, ?_, ?_⟩
  · rw [hn]
    exact Nat.toList_repr
  · rw [← hn, Int64.ofInt_toInt]

variable {e : (String × Int64) × HostKey}

section Round

theorem mem_exported :
    e ∈ (KnownHosts.listAll t).mergeSort KnownHosts.listedBefore ↔ e ∈ t.rows := by
  rw [mem_mergeSort, KnownHosts.listAll, mem_mergeSort]

section

variable (h : Exportable t) (he : e ∈ t.rows) (hword : Worded e.2)
include h he hword

theorem parseLine_exportLine : ∃ hostPort, splitHostPort hostPort = some e.1 ∧ parseLine (exportLine e) =
    if ':' ∈ e.1.1.toList then [] else [⟨hostPort, e.2.keyType.toList, e.2.keyBase64.toList⟩] := by
  obtain ⟨n, h1, h2, hport, hback⟩ := toList_toString_port (h.port e he)
  have hhost := h.host e he
  by_cases hcolon : ':' ∈ e.1.1.toList
  · refine ⟨formatCanonical e.1.1.toList n, ?_, ?_⟩
    · rw [splitHostPort_formatCanonical hhost.nonempty h1 h2 fun hmem => absurd hmem hhost.closing,
        if_pos (.inl hcolon), String.ofList_toList, hback]
    · rw [exportLine, hport, parseLine_exported hhost h1 h2 hword.1 hword.2.1 (h.key e he) hword.2.2, if_pos hcolon,
        if_pos hcolon]
  · have hhead : e.1.1.toList.head? ≠ some '[' := fun hhead =>
      hhost.opening (mem_of_mem_head? (mem_def.2 hhead))
    refine ⟨e.1.1.toList ++ ':' :: Nat.toDigits 10 n, ?_, ?_⟩
    · have hsplit := splitHostPort_formatCanonical hhost.nonempty h1 h2 fun hmem => absurd hmem hhost.closing
      rw [formatCanonical, if_neg hcolon, if_pos (.inr hhead), String.ofList_toList, hback] at hsplit
      exact hsplit
    · rw [exportLine, hport, parseLine_exported hhost h1 h2 hword.1 hword.2.1 (h.key e he) hword.2.2, if_neg hcolon]

theorem newline_not_mem_exportLine : '\n' ∉ exportLine e := by
  obtain ⟨n, -, -, hport, -⟩ := toList_toString_port (h.port e he)
  have hnot : ∀ {cs : List Char}, Visible cs → '\n' ∉ cs := fun hcs hmem => by
    have := hcs _ hmem
    revert this
    decide
  rw [exportLine, hport]
  simp only [mem_append, mem_cons, not_or]
  exact ⟨⟨⟨hnot (h.host e he).visible, by decide, not_mem_toDigits (by decide) n⟩, by decide, hnot hword.1⟩, by decide,
    hnot (visible_of_isValidStandardBase64 (h.key e he))⟩

end

section

variable (h : Exportable t) (hword : ∀ e ∈ t.rows, Worded e.2)
include h hword

theorem lines_exportToString : (exportToString t).toList.splitOn '\n' =
    ((KnownHosts.listAll t).mergeSort KnownHosts.listedBefore).map exportLine ++ [[]] := by
  rw [exportToString, String.toList_ofList]
  refine splitOn_lines exportLine _ fun e he => ?_
  exact newline_not_mem_exportLine h (mem_exported.1 he) (hword e (mem_exported.1 he))

theorem mem_exported_entries :
    entry ∈ ((exportToString t).toList.splitOn '\n').flatMap parseLine ↔
      ∃ e ∈ t.rows, ':' ∉ e.1.1.toList ∧ entry ∈ parseLine (exportLine e) := by
  have hnil : parseLine [] = [] := by decide
  rw [lines_exportToString h hword, flatMap_append, flatMap_map, mem_append, mem_flatMap]
  simp only [flatMap_cons, flatMap_nil, hnil, append_nil, not_mem_nil, or_false, mem_exported]
  refine exists_congr fun e => and_congr_right fun he => ?_
  refine ⟨fun hentry => ⟨fun hcolon => ?_, hentry⟩, fun hentry => hentry.2⟩
  obtain ⟨hostPort, -, hparse⟩ := parseLine_exportLine h he (hword e he)
  rw [hparse, if_pos hcolon] at hentry
  cases hentry

theorem get_import_export (now : Int64) (k : String × Int64) : (importFromString now (exportToString t) .empty).2.2.get k =
    (t.get k).bind fun r => if ':' ∈ k.1.toList then none else some { r with addedAtMs := now } := by
  have hentry : ∀ {e entry}, e ∈ t.rows → entry ∈ parseLine (exportLine e) →
      splitHostPort entry.hostPort = some e.1 ∧ entry.row now = { e.2 with addedAtMs := now } := by
    intro e entry he hmem
    obtain ⟨hostPort, hsplit, hparse⟩ := parseLine_exportLine h he (hword e he)
    rw [hparse] at hmem
    split at hmem
    · cases hmem
    · rw [mem_singleton.1 hmem]
      refine ⟨hsplit, ?_⟩
      rw [ParsedHostEntry.row, String.ofList_toList, String.ofList_toList]
  rw [get_importFromString, Table.get_empty, none_or]
  generalize hfind : List.find? _ _ = found
  rcases found with _ | entry
  · rw [find?_eq_none] at hfind
    rcases hk : t.get k with _ | r
    · rfl
    rw [map_none, bind_some]
    split
    · rfl
    · next hcolon =>
      have hrow : (k, r) ∈ t.rows := (t.mem_rows_iff k r).2 hk
      obtain ⟨hostPort, hsplit, hparse⟩ := parseLine_exportLine h hrow (hword _ hrow)
      rw [if_neg hcolon] at hparse
      have hmem := (mem_exported_entries h hword).2 ⟨(k, r), hrow, hcolon, by rw [hparse]; exact mem_singleton_self _⟩
      exact absurd (decide_eq_true hsplit) (hfind _ hmem)
  · have hsplit := find?_some hfind
    rw [decide_eq_true_eq] at hsplit
    obtain ⟨e, he, hcolon, hmem⟩ := (mem_exported_entries h hword).1 (mem_of_find?_eq_some hfind)
    obtain ⟨hplace, hrow⟩ := hentry he hmem
    rw [hsplit] at hplace
    cases hplace
    rw [(t.mem_rows_iff e.1 e.2).1 he, map_some, bind_some, if_neg hcolon, hrow]

end

def SameRows (t u : HostTable) : Prop :=
  ∀ k, (t.get k).map (fun r => (r.keyType, r.keyBase64)) = (u.get k).map fun r => (r.keyType, r.keyBase64)

theorem worded_of_import {content : String} {k : String × Int64} {r : HostKey}
    (hr : (importFromString now content .empty).2.2.get k = some r) : Worded r := by
  rw [get_importFromString, Table.get_empty, none_or] at hr
  obtain ⟨entry, hfind, rfl⟩ := map_eq_some_iff.1 hr
  obtain ⟨line, -, hentry⟩ := mem_flatMap.1 (mem_of_find?_eq_some hfind)
  obtain ⟨-, -, spec, more, hfields, -⟩ := mem_parseLine hentry
  have hsub : ∀ w ∈ fields line, w ∈ splitWhitespace (trim line) := fun w hw =>
    (dropWhile_sublist _).subset hw
  rw [hfields] at hsub
  have htype := mem_splitWhitespace (hsub entry.keyType (by simp))
  have hkey := mem_splitWhitespace (hsub entry.keyBase64 (by simp))
  rw [Worded, ParsedHostEntry.row, String.toList_ofList, String.toList_ofList]
  exact ⟨htype.1, htype.2, hkey.2⟩

end Round

/-- **The round trip.** Importing the exported text into an empty table restores the rows, if and only if no host
has a colon, every key type is one word and no key is empty. -/
theorem roundTrip_iff (now : Int64) (t : HostTable) (h : Exportable t) :
    SameRows (importFromString now (exportToString t) .empty).2.2 t ↔ ∀ e ∈ t.rows, ':' ∉ e.1.1.toList ∧ Worded e.2 := by
  refine ⟨fun hsame => ?_, fun hall k => ?_⟩
  · have hback : ∀ e ∈ t.rows, ∃ r, (importFromString now (exportToString t) .empty).2.2.get e.1 = some r ∧
        r.keyType = e.2.keyType ∧ r.keyBase64 = e.2.keyBase64 := by
      intro e he
      have hk := hsame e.1
      rw [(t.mem_rows_iff e.1 e.2).1 he, map_some] at hk
      obtain ⟨r, hr, heq⟩ := map_eq_some_iff.1 hk
      rw [Prod.mk.injEq] at heq
      exact ⟨r, hr, heq.1, heq.2⟩
    have hword : ∀ e ∈ t.rows, Worded e.2 := by
      intro e he
      obtain ⟨r, hr, htype, hkey⟩ := hback e he
      have hworded := worded_of_import hr
      rw [Worded, htype, hkey] at hworded
      exact hworded
    refine fun e he => ⟨fun hcolon => ?_, hword e he⟩
    obtain ⟨r, hr, -⟩ := hback e he
    rw [get_import_export h hword, (t.mem_rows_iff e.1 e.2).1 he, bind_some, if_pos hcolon] at hr
    cases hr
  · rw [get_import_export h fun e he => (hall e he).2]
    rcases hk : t.get k with _ | r
    · rfl
    · rw [bind_some, if_neg (hall (k, r) ((t.mem_rows_iff k r).2 hk)).1]
      rfl

/-- Two hosts, one of them with two ports. -/
def sampleTable : HostTable :=
  ((Table.empty.set ("h", 22) ⟨"ssh-rsa", "AAAA", 1⟩).set ("h", 2222) ⟨"ssh-ed25519", "AAAB", 2⟩).set ("10.0.0.1", 22)
    ⟨"ssh-rsa", "AAAC", 3⟩

theorem roundTrip_sample : SameRows (importFromString 5 (exportToString sampleTable) .empty).2.2 sampleTable := by
  have hrows : sampleTable.rows = [(("h", 22), ⟨"ssh-rsa", "AAAA", 1⟩), (("h", 2222), ⟨"ssh-ed25519", "AAAB", 2⟩),
    (("10.0.0.1", 22), ⟨"ssh-rsa", "AAAC", 3⟩)] := rfl
  have hplain : ∀ e ∈ sampleTable.rows, PlainHost e.1.1.toList := by
    simp only [hrows, forall_mem_cons]
    refine ⟨?_, ?_, ?_, forall_mem_nil _⟩ <;>
      exact ⟨by decide, by decide, by decide, by decide, by decide, by decide, by decide, by decide⟩
  refine (roundTrip_iff 5 _ ⟨hplain, ?_, ?_⟩).2 ?_
  all_goals simp only [hrows, forall_mem_cons, Worded]
  all_goals decide

/-- An IPv6 host is written without brackets and not read back. -/
theorem roundTrip_ipv6 : ¬ ∀ (now : Int64) (t : HostTable), Exportable t →
    SameRows (importFromString now (exportToString t) .empty).2.2 t := by
  intro h
  have hsame := h 5 (Table.empty.set ("::1", 22) ⟨"ssh-rsa", "AAAA", 1⟩) ⟨by
    simp only [Table.set, Table.empty, setRow, forall_mem_singleton]
    exact ⟨by decide, by decide, by decide, by decide, by decide, by decide, by decide, by decide⟩,
    by decide, by decide⟩ ("::1", 22)
  revert hsame
  decide +kernel

end LetsFlutSsh.Hosts
