import LetsFlutSsh.Archive.WholeMerge

/-!
# The known-hosts text of an archive

`buildKnownHosts` prints a line `host:port keytype base64` for every pinned key, `driveKnownHosts`
reads the lines back. Hosts may hold colons, so the port stands after the last one.

* `lineOf` / `readKnownHost_lineOf` : a line is read as the row that it was printed from;
* `knownHosts_roundTrip` : an empty table takes up the rows of the exported one.
-/

namespace LetsFlutSsh.Archive
open Lib List

def pinOf (e : (String × Int64) × HostKey) : KnownHost := ⟨e.1.1, e.1.2, e.2.keyType, e.2.keyBase64⟩

def lineOf (e : (String × Int64) × HostKey) : List Char :=
  (e.1.1.toList ++ ':' :: (toString e.1.2.toInt).toList) ++ ' ' :: (e.2.keyType.toList ++ ' ' :: e.2.keyBase64.toList)

def Visible (s : String) : Prop := ∀ c ∈ s.toList, isWhitespace c = false

instance (s : String) : Decidable (Visible s) := List.decidableBAll (isWhitespace · = false) s.toList

/-- A row that a line can carry: a host without white space or a leading `#`, a port, a key type without white space,
and a key that the import takes. -/
structure Printable (validBase64 : String → Bool) (e : (String × Int64) × HostKey) : Prop where
  host : Visible e.1.1
  noComment : e.1.1.toList.head? ≠ some '#'
  port : 1 ≤ e.1.2.toInt ∧ e.1.2.toInt ≤ 65535
  keyType : Visible e.2.keyType
  key : e.2.keyBase64 ≠ "" ∧ validBase64 e.2.keyBase64 = true

theorem splitSpace_append {a : List Char} (ha : ∀ c ∈ a, isWhitespace c = false) (b : List Char) :
    splitSpace (a ++ ' ' :: b) = (a, some b) := by
  have hall : ∀ c ∈ a, (!isWhitespace c) = true := fun c hc => by rw [ha c hc, Bool.not_false]
  have htake : (' ' :: b).takeWhile (fun c => !isWhitespace c) = [] := rfl
  rw [splitSpace, takeWhile_append_of_pos hall, dropWhile_append_of_pos hall, htake, append_nil]
  rfl

theorem port_digits (port : Int64) (h : 0 ≤ port.toInt) :
    (toString port.toInt).toList ≠ [] ∧ (∀ c ∈ (toString port.toInt).toList, 48 ≤ c.toNat ∧ c.toNat ≤ 57) ∧
      parsePort (toString port.toInt).toList = some port := by
  obtain ⟨n, hn⟩ := Int.eq_ofNat_of_zero_le h
  have htext : (toString port.toInt).toList = Nat.toDigits 10 n := by
    rw [hn]
    exact Nat.toList_repr
  have hdigits : ∀ c ∈ Nat.toDigits 10 n, 48 ≤ c.toNat ∧ c.toNat ≤ 57 := by
    intro c hc
    have hdigit := Nat.isDigit_of_mem_toDigits (by decide) (by decide) hc
    rw [Char.isDigit, Bool.and_eq_true, decide_eq_true_eq, decide_eq_true_eq] at hdigit
    exact hdigit
  have hbytes : utf8 (String.ofList (Nat.toDigits 10 n)) = (Nat.toDigits 10 n).map byteOf := by
    refine (utf8_of_ascii fun c hc => ?_).trans (by rw [String.toList_ofList]; rfl)
    rw [String.toList_ofList] at hc
    have hrange := hdigits c hc
    omega
  rw [htext]
  refine ⟨Nat.toDigits_ne_nil, hdigits, ?_⟩
  rw [parsePort, hbytes, parseI64_map Nat.toDigits_ne_nil hdigits, Nat.ofDigitChars_ten_toDigits, Option.bind_some, ← hn,
    if_pos ⟨port.le_toInt, port.toInt_lt⟩, Int64.ofInt_toInt]

theorem hostPort_append (host : String) {digits : List Char} (hcolon : ':' ∉ digits) {port : Int64}
    (hport : parsePort digits = some port) : hostPort (host.toList ++ ':' :: digits) = (host, port) := by
  have hall : ∀ c ∈ digits.reverse, decide (c ≠ ':') = true := by
    intro c hc
    rw [decide_eq_true_eq]
    rintro rfl
    exact hcolon (mem_reverse.1 hc)
  have hreverse : (host.toList ++ ':' :: digits).reverse = digits.reverse ++ ':' :: host.toList.reverse := by simp
  unfold hostPort
  dsimp only
  rw [hreverse, takeWhile_append_of_pos hall, dropWhile_append_of_pos hall,
    takeWhile_cons_of_neg (by simp), dropWhile_cons_of_neg (by simp), append_nil, reverse_reverse,
    if_pos (by simp), hport]
  simp

variable {e : (String × Int64) × HostKey} {validBase64 : String → Bool}

section Line

variable (he : Printable validBase64 e)
  (hdecoder : ∀ k, validBase64 k = true → Visible k)
include he

theorem visible_hostPort : ∀ c ∈ e.1.1.toList ++ ':' :: (toString e.1.2.toInt).toList, isWhitespace c = false := by
  obtain ⟨-, hdigits, -⟩ := port_digits e.1.2 (by have h := he.port; omega)
  intro c hc
  rcases mem_append.1 hc with hc | hc
  · exact he.host c hc
  · rcases mem_cons.1 hc with rfl | hc
    · decide
    · have hrange := hdigits c hc
      unfold isWhitespace
      simp only [Bool.or_eq_false_iff, Bool.and_eq_false_iff, decide_eq_false_iff_not, beq_eq_false_iff_ne]
      omega

include hdecoder

theorem trim_lineOf : trim (lineOf e) = lineOf e := by
  obtain ⟨key, last, hkey⟩ : ∃ key last, e.2.keyBase64.toList = key ++ [last] := by
    rcases eq_nil_or_concat' e.2.keyBase64.toList with hnil | h
    · exact absurd (String.toList_eq_nil_iff.1 hnil) he.key.1
    · exact h
  have hlast : isWhitespace last = false := hdecoder _ he.key.2 last (by rw [hkey]; simp)
  obtain ⟨first, rest, hfirst⟩ : ∃ first rest, e.1.1.toList ++ ':' :: (toString e.1.2.toInt).toList = first :: rest :=
    exists_cons_of_ne_nil (by simp)
  have hvisible : isWhitespace first = false := visible_hostPort he first (by rw [hfirst]; exact mem_cons_self)
  have hsplit : lineOf e = first :: ((rest ++ ' ' :: (e.2.keyType.toList ++ ' ' :: key)) ++ [last]) := by
    rw [lineOf, hfirst, hkey]
    simp
  rw [hsplit, trim_eq_self _ hvisible hlast]

theorem readKnownHost_lineOf : readKnownHost validBase64 (lineOf e) = some (pinOf e) := by
  obtain ⟨-, hdigits, hport⟩ := port_digits e.1.2 (by have h := he.port; omega)
  have hcolon : ':' ∉ (toString e.1.2.toInt).toList := by
    intro hmem
    have hrange := hdigits _ hmem
    exact absurd hrange.2 (by decide)
  have hhead : ¬(lineOf e = [] ∨ (lineOf e).head? = some '#') := by
    rintro (hnil | hcomment)
    · simp [lineOf] at hnil
    · rcases hhost : e.1.1.toList with _ | ⟨c, cs⟩
      · rw [lineOf, hhost] at hcomment
        cases hcomment
      · rw [lineOf, hhost] at hcomment
        exact he.noComment (by rw [hhost]; exact hcomment)
  unfold readKnownHost
  rw [trim_lineOf he hdecoder, if_neg hhead]
  unfold lineOf
  rw [splitSpace_append (visible_hostPort he)]
  dsimp only
  rw [splitSpace_append he.keyType]
  dsimp only
  rw [String.ofList_toList, String.ofList_toList, if_neg (by simp [he.key.1, he.key.2]), hostPort_append _ hcolon hport]
  rfl

theorem newline_not_mem_lineOf : '\n' ∉ lineOf e := by
  have hspace : isWhitespace '\n' = true := by decide
  have hvisible : ∀ {cs : List Char}, (∀ c ∈ cs, isWhitespace c = false) → '\n' ∉ cs := by
    intro cs hcs hmem
    rw [hcs _ hmem] at hspace
    cases hspace
  have hblank : '\n' ≠ ' ' := by decide
  intro hmem
  rcases mem_append.1 hmem with hmem | hmem
  · exact hvisible (visible_hostPort he) hmem
  · rcases mem_append.1 (mem_of_ne_of_mem hblank hmem) with hmem | hmem
    · exact hvisible he.keyType hmem
    · exact hvisible (hdecoder _ he.key.2) (mem_of_ne_of_mem hblank hmem)

end Line

theorem hostsOf_buildKnownHosts (hdecoder : ∀ k, validBase64 k = true → Visible k)
    {t : Table (String × Int64) HostKey} (ht : ∀ e ∈ t.rows, Printable validBase64 e) :
    hostsOf validBase64 (buildKnownHosts t) = (KnownHosts.listAll t).map pinOf := by
  have htext : (buildKnownHosts t).toList = (KnownHosts.listAll t).flatMap fun e => lineOf e ++ ['\n'] := by
    rw [buildKnownHosts, String.toList_join, flatMap_map]
    congr 1
    funext e
    simp [lineOf]
  have hlisted : ∀ e ∈ KnownHosts.listAll t, Printable validBase64 e := fun e he => ht e (mem_mergeSort.1 he)
  unfold hostsOf
  rw [htext]
  generalize KnownHosts.listAll t = rows at hlisted
  induction rows with
  | nil => rfl
  | cons e rows ih =>
    obtain ⟨he, hrows⟩ := forall_mem_cons.1 hlisted
    have hline := newline_not_mem_lineOf he hdecoder
    rw [flatMap_cons, append_assoc, singleton_append, splitOn_append_cons_self,
      splitOn_eq_singleton hline, filterMap_append, ih hrows, filterMap_cons,
      readKnownHost_lineOf he hdecoder]
    rfl

theorem get_pinAll_pinOf {rows : List ((String × Int64) × HostKey)} (hnodup : (rows.map Prod.fst).Nodup) (now : Int64)
    (t : Table (String × Int64) HostKey) (he : e ∈ rows) :
    (pinAll now (rows.map pinOf) t).get e.1 = some { e.2 with addedAtMs := now } := by
  induction rows generalizing t with
  | nil => cases he
  | cons a rows ih =>
    rw [map_cons, nodup_cons] at hnodup
    rcases mem_cons.1 he with rfl | he
    · have hplace : e.1 ∉ (rows.map pinOf).map KnownHost.place := by
        rw [map_map]
        exact hnodup.1
      show (pinAll now (rows.map pinOf) (KnownHosts.upsertByHostPort t (pinOf e) now)).get e.1 = _
      rw [get_pinAll_of_not_mem hplace]
      exact (Table.get_set _ _ _ _).trans (if_pos rfl)
    · exact ih hnodup.2 _ he

def Pins (t : Table (String × Int64) HostKey) (host : String) (port : Int64) (keyType keyBase64 : String) : Prop :=
  ∃ addedAtMs, t.get (host, port) = some ⟨keyType, keyBase64, addedAtMs⟩

/-- **Known hosts survive an archive**: the text of a table, read into one without hosts, pins the same keys. The decoder
takes no key with white space in it. -/
theorem knownHosts_roundTrip {Text : Type} {validBase64 : String → Bool}
    (hdecoder : ∀ k, validBase64 k = true → Visible k) {t : Table (String × Int64) HostKey}
    (ht : ∀ e ∈ t.rows, Printable validBase64 e) (E : Env Text) (now : Int64) {s : Running (Whole Text)}
    (hs : s.1.child.knownHosts = .empty) (host : String) (port : Int64) (keyType keyBase64 : String) :
    Pins (driveKnownHosts (wholeStore E now) validBase64 (buildKnownHosts t) s).1.child.knownHosts host port keyType keyBase64 ↔
      Pins t host port keyType keyBase64 := by
  have hpinned : (driveKnownHosts (wholeStore E now) validBase64 (buildKnownHosts t) s).1.child.knownHosts =
      pinAll now ((KnownHosts.listAll t).map pinOf) .empty := by
    rw [driveKnownHosts_fst, hostsOf_buildKnownHosts hdecoder ht, Whole.child_of, hs]
  have hnodup : ((KnownHosts.listAll t).map Prod.fst).Nodup :=
    ((mergeSort_perm _ _).map _).nodup_iff.2 t.nodup
  have hmem : ∀ e, e ∈ KnownHosts.listAll t ↔ t.get e.1 = some e.2 := fun e =>
    mem_mergeSort.trans (t.mem_rows_iff e.1 e.2)
  rw [hpinned]
  constructor
  · rintro ⟨added, hget⟩
    by_cases hplace : (host, port) ∈ ((KnownHosts.listAll t).map pinOf).map KnownHost.place
    · rw [map_map, mem_map] at hplace
      obtain ⟨e, he, hkey⟩ := hplace
      change e.1 = (host, port) at hkey
      rw [← hkey, get_pinAll_pinOf hnodup now _ he] at hget
      refine ⟨e.2.addedAtMs, ?_⟩
      rw [← hkey, (hmem e).1 he]
      cases hget
      rfl
    · rw [get_pinAll_of_not_mem hplace, Table.get_empty] at hget
      cases hget
  · rintro ⟨added, hget⟩
    exact ⟨now, get_pinAll_pinOf hnodup now _ ((hmem ((host, port), ⟨keyType, keyBase64, added⟩)).2 hget)⟩

def sampleHosts : Table (String × Int64) HostKey :=
  (Table.empty.set ("2001:db8::1", 22) ⟨"ssh-ed25519", "AAAA", 5⟩).set ("example.org", 2222) ⟨"ssh-rsa", "BB+/", 7⟩

/-- The decoder on keys without padding: whole groups of its alphabet. -/
def groupsOfFour (k : String) : Bool :=
  k.toList.all (fun c => c ∈ "ABCDEFGHIJKLMNOPQRSTUVWXYZabcdefghijklmnopqrstuvwxyz0123456789+/".toList) && k.length % 4 = 0

theorem visible_of_groupsOfFour (k : String) (h : groupsOfFour k = true) : Visible k := by
  have halphabet : Visible "ABCDEFGHIJKLMNOPQRSTUVWXYZabcdefghijklmnopqrstuvwxyz0123456789+/" := by decide +kernel
  rw [groupsOfFour, Bool.and_eq_true, all_eq_true] at h
  exact fun c hc => halphabet c (of_decide_eq_true (h.1 c hc))

theorem printable_sampleHosts : ∀ e ∈ sampleHosts.rows, Printable groupsOfFour e := by
  have hrows : sampleHosts.rows =
      [(("2001:db8::1", 22), ⟨"ssh-ed25519", "AAAA", 5⟩), (("example.org", 2222), ⟨"ssh-rsa", "BB+/", 7⟩)] := rfl
  rw [hrows]
  intro e he
  rcases mem_cons.1 he with rfl | he
  · exact ⟨by decide +kernel, by decide +kernel, by decide +kernel, by decide +kernel, by decide +kernel⟩
  · obtain rfl := mem_singleton.1 he
    exact ⟨by decide +kernel, by decide +kernel, by decide +kernel, by decide +kernel, by decide +kernel⟩

theorem knownHosts_roundTrip_sample :
    Pins (driveKnownHosts (wholeStore plainEnv 9) groupsOfFour (buildKnownHosts sampleHosts) (noRows, {})).1.child.knownHosts
        "2001:db8::1" 22 "ssh-ed25519" "AAAA" ↔
      Pins sampleHosts "2001:db8::1" 22 "ssh-ed25519" "AAAA" :=
  knownHosts_roundTrip visible_of_groupsOfFour printable_sampleHosts plainEnv 9 rfl _ _ _ _

def emptyKey : Table (String × Int64) HostKey := Table.empty.set ("h", 22) ⟨"ssh-ed25519", "", 5⟩

/-- A line without a key has two fields and pins nothing, whatever the decoder takes. -/
theorem empty_key_is_lost : Pins emptyKey "h" 22 "ssh-ed25519" "" ∧
      ¬Pins (driveKnownHosts (wholeStore plainEnv 9) (fun _ => true) (buildKnownHosts emptyKey)
        (noRows, {})).1.child.knownHosts "h" 22 "ssh-ed25519" "" := by
  have htext : buildKnownHosts emptyKey = "h:22 ssh-ed25519 \n" := by
    have hrows : KnownHosts.listAll emptyKey = [(("h", 22), ⟨"ssh-ed25519", "", 5⟩)] := mergeSort_singleton _
    rw [buildKnownHosts, hrows]
    decide
  refine ⟨⟨5, rfl⟩, ?_⟩
  rintro ⟨added, hget⟩
  rw [htext, driveKnownHosts_fst] at hget
  have hnone : hostsOf (fun _ => true) "h:22 ssh-ed25519 \n" = [] := by decide
  rw [hnone] at hget
  cases hget

end LetsFlutSsh.Archive
