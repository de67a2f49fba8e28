import LetsFlutSsh.S3.KeyPath

/-!
# The queries of the client

* `formQuery`, `Operation.pairs` : names with encoded values (`Operation.query_eq`);
* `serverQuery` : what a server makes of a query; `serverQuery_query` : it is what the client signs.
-/

namespace LetsFlutSsh.S3
open Lib List

def formQuery (pairs : List (String × String)) : Bytes :=
  [ampersand].intercalate (pairs.map fun p => utf8 p.1 ++ equals :: uriEncode true (utf8 p.2))

def Operation.pairs : Operation → List (String × String)
  | .listObjectsV2 keyPrefix continuationToken =>
    [("delimiter", "/"), ("list-type", "2"), ("prefix", keyPrefix)] ++
      continuationToken.elim [] fun token => [("continuation-token", token)]
  | .createMultipartUpload _ => [("uploads", "")]
  | .uploadPart _ uploadId partNumber _ => [("partNumber", toString partNumber), ("uploadId", uploadId)]
  | .completeMultipartUpload _ uploadId _ | .abortMultipartUpload _ uploadId => [("uploadId", uploadId)]
  | .headObject _ | .getObject _ _ | .putObjectSingle _ _ | .deleteObject _ | .copyObject _ _ _ => []

theorem uriEncode_of_unreserved {text : Bytes} (h : ∀ b ∈ text, isUnreserved b = true) (isQuery : Bool) :
    uriEncode isQuery text = text :=
  percentEncode_of_keep fun b hb => by rw [isKept, h b hb, Bool.true_or]

theorem isUnreserved_digit {b : UInt8} (h : 0x30 ≤ b ∧ b ≤ 0x39) : isUnreserved b = true := by
  simp [isUnreserved, isLowerOrDigit, h.1, h.2]

theorem uriEncode_toString (n : Int) : uriEncode true (utf8 (toString n)) = utf8 (toString n) := by
  refine uriEncode_of_unreserved (fun b hb => ?_) true
  rcases n with n | n
  · exact isUnreserved_digit ((HttpUrl.utf8_toString n).2.2 b hb)
  · have htext : utf8 (toString (Int.negSucc n)) = utf8 "-" ++ utf8 (toString (n + 1)) := utf8_append "-" (toString (n + 1))
    have hminus : utf8 "-" = [0x2D] := by decide
    rw [htext, hminus, mem_append, mem_singleton] at hb
    rcases hb with rfl | hb
    · decide
    · exact isUnreserved_digit ((HttpUrl.utf8_toString (n + 1)).2.2 b hb)

variable (op : Operation)

theorem Operation.query_eq : op.query = formQuery op.pairs := by
  cases op with
  | listObjectsV2 keyPrefix continuationToken =>
    have hstart : utf8 "delimiter=%2F&list-type=2&prefix=" = utf8 "delimiter" ++ equals :: uriEncode true (utf8 "/") ++
        [ampersand] ++ (utf8 "list-type" ++ equals :: uriEncode true (utf8 "2")) ++ [ampersand] ++ (utf8 "prefix" ++ [equals]) := by
      decide +kernel
    have htoken : utf8 "&continuation-token=" = [ampersand] ++ (utf8 "continuation-token" ++ [equals]) := by decide +kernel
    rcases continuationToken with _ | token
    · simp [Operation.query, Operation.pairs, formQuery, intercalate_cons_cons, hstart]
    · simp [Operation.query, Operation.pairs, formQuery, intercalate_cons_cons, hstart, htoken]
  | createMultipartUpload key =>
    have htext : utf8 "uploads=" = utf8 "uploads" ++ equals :: uriEncode true (utf8 "") := by decide +kernel
    simp [Operation.query, Operation.pairs, formQuery, htext]
  | uploadPart key uploadId partNumber body =>
    have hnumber : utf8 "partNumber=" = utf8 "partNumber" ++ [equals] := by decide +kernel
    have hid : utf8 "&uploadId=" = [ampersand] ++ (utf8 "uploadId" ++ [equals]) := by decide +kernel
    have hencode := uriEncode_toString partNumber
    rw [Operation.query, Operation.pairs, formQuery, map_cons, map_singleton, intercalate_cons_cons,
      intercalate_singleton, hencode, hnumber, hid]
    simp
  | completeMultipartUpload key uploadId parts =>
    have hid : utf8 "uploadId=" = utf8 "uploadId" ++ [equals] := by decide +kernel
    simp [Operation.query, Operation.pairs, formQuery, hid]
  | abortMultipartUpload key uploadId =>
    have hid : utf8 "uploadId=" = utf8 "uploadId" ++ [equals] := by decide +kernel
    simp [Operation.query, Operation.pairs, formQuery, hid]
  | _ => rfl

theorem Operation.names_unreserved : ∀ p ∈ op.pairs, ∀ b ∈ utf8 p.1, isUnreserved b = true := by
  have hnames : ∀ name ∈ ["delimiter", "list-type", "prefix", "continuation-token", "uploads", "partNumber", "uploadId"],
      ∀ b ∈ utf8 name, isUnreserved b = true := by decide +kernel
  have hsub : op.pairs.map Prod.fst ⊆
      ["delimiter", "list-type", "prefix", "continuation-token", "uploads", "partNumber", "uploadId"] := by
    cases op with
    | listObjectsV2 keyPrefix continuationToken => rcases continuationToken with _ | token <;> simp [Operation.pairs]
    | _ => simp [Operation.pairs]
  exact fun p hp => hnames p.1 (hsub (mem_map_of_mem hp))

/-- The query's names and values are decoded once and encoded, and sorted. -/
def serverQuery (query : Option Bytes) : Bytes := canonicalizeQueryPairs ((queryParts (query.getD [])).map (recode unescape))

theorem lossy_utf8 (s : String) : lossy (utf8 s) = utf8 s := by
  rw [lossy, fromUtf8_utf8]
  rfl

theorem unescape_of_unreserved {text : Bytes} (h : ∀ b ∈ text, isUnreserved b = true) : unescape text = text := by
  have h' := percentDecode_uriEncode true text
  rw [uriEncode_of_unreserved h] at h'
  have hmap : (text.map fun b => if b = 0x2B then 0x20 else b) = text := by
    conv_rhs => rw [← map_id text]
    refine map_congr_left fun b hb => if_neg ?_
    rintro rfl
    exact absurd (h _ hb) (by decide)
  rw [unescape, hmap, h']

theorem unescape_uriEncode (text : Bytes) : unescape (uriEncode true text) = text := by
  have hmap : ((uriEncode true text).map fun b => if b = 0x2B then 0x20 else b) = uriEncode true text := by
    conv_rhs => rw [← map_id (uriEncode true text)]
    refine map_congr_left fun b hb => if_neg ?_
    rintro rfl
    rcases encoded_of_mem_uriEncode hb with hb | ⟨hb, -⟩
    · exact absurd hb (by decide)
    · cases hb
  rw [unescape, hmap, percentDecode_uriEncode]

section
variable {pairs : List (String × String)}

theorem separators_not_mem (text : Bytes) : equals ∉ uriEncode true text ∧ ampersand ∉ uriEncode true text := by
  constructor <;> intro hmem <;> rcases encoded_of_mem_uriEncode hmem with h | ⟨h, -⟩
  · exact absurd h (by decide)
  · cases h
  · exact absurd h (by decide)
  · cases h

theorem queryParts_formQuery (h : ∀ p ∈ pairs, ∀ b ∈ utf8 p.1, isUnreserved b = true) :
    queryParts (formQuery pairs) = pairs.map fun p => utf8 p.1 ++ equals :: uriEncode true (utf8 p.2) := by
  rcases eq_or_ne pairs [] with rfl | hne
  · rfl
  have hfree : ∀ part ∈ pairs.map (fun p => utf8 p.1 ++ equals :: uriEncode true (utf8 p.2)), ampersand ∉ part := by
    intro part hpart hmem
    obtain ⟨p, hp, rfl⟩ := mem_map.1 hpart
    rcases mem_append.1 hmem with hmem | hmem
    · exact absurd (h p hp _ hmem) (by decide)
    · rcases mem_cons.1 hmem with hmem | hmem
      · exact absurd hmem (by decide)
      · exact (separators_not_mem _).2 hmem
  rw [queryParts, formQuery, splitOn_intercalate _ hfree (by simpa using hne), filter_eq_self]
  intro part hpart
  obtain ⟨p, -, rfl⟩ := mem_map.1 hpart
  simp

theorem recode_part {name value : String} (h : ∀ b ∈ utf8 name, isUnreserved b = true) :
    recode urlDecode (utf8 name ++ equals :: uriEncode true (utf8 value)) =
      recode unescape (utf8 name ++ equals :: uriEncode true (utf8 value)) := by
  have hname : equals ∉ utf8 name := fun hmem => absurd (h _ hmem) (by decide)
  rw [recode, recode, HttpUrl.cut_append hname, urlDecode, urlDecode]
  dsimp only [Option.getD_some]
  rw [unescape_of_unreserved h, unescape_uriEncode, lossy_utf8, lossy_utf8]

theorem serverQuery_query : serverQuery (some op.query) = canonicalizeQuery op.query := by
  have hparts : (queryParts op.query).map (recode urlDecode) = (queryParts op.query).map (recode unescape) := by
    rw [op.query_eq, queryParts_formQuery op.names_unreserved]
    refine map_congr_left fun part hpart => ?_
    obtain ⟨p, hp, rfl⟩ := mem_map.1 hpart
    exact recode_part (op.names_unreserved p hp)
  rw [serverQuery, canonicalizeQuery, hparts]
  split_ifs with hnil
  · rw [hnil]
    rfl
  · rfl

theorem mem_joined {c b : UInt8} {texts : List Bytes} (h : b ∈ [c].intercalate texts) : b = c ∨ ∃ text ∈ texts, b ∈ text := by
  induction texts with
  | nil => exact absurd h not_mem_nil
  | cons text texts ih =>
    rcases texts with _ | ⟨next, texts⟩
    · rw [intercalate_singleton] at h
      exact .inr ⟨text, mem_cons_self, h⟩
    · rw [intercalate_cons_cons] at h
      rcases mem_append.1 h with h | h
      · rcases mem_append.1 h with h | h
        · exact .inr ⟨text, mem_cons_self, h⟩
        · exact .inl (mem_singleton.1 h)
      · exact (ih h).imp_right fun ⟨t, ht, hb⟩ => ⟨t, mem_cons_of_mem _ ht, hb⟩

theorem plain_of_mem_query : ∀ b ∈ op.query, PlainByte b := by
  intro b hb
  rw [op.query_eq, formQuery] at hb
  rcases mem_joined hb with rfl | ⟨text, htext, hb⟩
  · exact plain_byte (.inr (by decide))
  · obtain ⟨p, hp, rfl⟩ := mem_map.1 htext
    rcases mem_append.1 hb with hb | hb
    · exact plain_byte (.inl (by rw [isEncodedByte, op.names_unreserved p hp b hb, Bool.true_or]))
    · rcases mem_cons.1 hb with rfl | hb
      · exact plain_byte (.inr (by decide))
      · exact plain_of_mem_uriEncode hb

theorem newline_not_mem_recoded (decode : Bytes → Bytes) (parts : List Bytes) :
    newline ∉ canonicalizeQueryPairs (parts.map (recode decode)) := by
  intro hmem
  rcases mem_joined hmem with h | ⟨text, htext, hmem⟩
  · exact absurd h (by decide)
  obtain ⟨p, hp, rfl⟩ := mem_map.1 htext
  obtain ⟨part, -, rfl⟩ := mem_map.1 ((mem_insertionSort _).1 hp)
  rcases mem_append.1 hmem with hmem | hmem
  · exact (plain_of_mem_uriEncode hmem).noNewline rfl
  · rcases mem_cons.1 hmem with hmem | hmem
    · exact absurd hmem (by decide)
    · exact (plain_of_mem_uriEncode hmem).noNewline rfl

theorem newline_not_mem_serverQuery (query : Option Bytes) : newline ∉ serverQuery query :=
  newline_not_mem_recoded unescape _

theorem newline_not_mem_canonicalizeQuery (raw : Bytes) : newline ∉ canonicalizeQuery raw := by
  unfold canonicalizeQuery
  split_ifs
  · exact not_mem_nil
  · exact newline_not_mem_recoded urlDecode _

end

def encodedLength (text : Bytes) : Nat := (uriEncode true (unescape text)).length

/-- The length of a part in a canonical query, with its equals sign and an ampersand. -/
def partLength (part : Bytes) : Nat := (recode unescape part).1.length + (recode unescape part).2.length + 2

def queryLength (raw : Bytes) : Nat := ((queryParts raw).map partLength).sum

theorem length_canonicalizeQueryPairs (pairs : List (Bytes × Bytes)) :
    (canonicalizeQueryPairs pairs).length = (pairs.map fun p => p.1.length + p.2.length + 2).sum - 1 := by
  have hjoin : ∀ texts : List Bytes, ([ampersand].intercalate texts).length = (texts.map fun t => t.length + 1).sum - 1 := by
    intro texts
    induction texts with
    | nil => rfl
    | cons text texts ih =>
      rcases texts with _ | ⟨next, texts⟩
      · simp
      · rw [intercalate_cons_cons, length_append, length_append, ih]
        simp only [map_cons, sum_cons, length_singleton]
        omega
  have hsum : ((pairs.insertionSort PairLe).map fun p => p.1.length + p.2.length + 2).sum =
      (pairs.map fun p => p.1.length + p.2.length + 2).sum := ((perm_insertionSort PairLe pairs).map _).sum_nat
  rw [canonicalizeQueryPairs, hjoin, map_map, ← hsum]
  congr 2
  refine map_congr_left fun p _ => ?_
  simp only [Function.comp_apply, length_append, length_cons]
  omega

theorem length_serverQuery (query : Option Bytes) : (serverQuery query).length = queryLength (query.getD []) - 1 := by
  rw [serverQuery, length_canonicalizeQueryPairs, map_map]
  rfl

theorem queryLength_append (a b : Bytes) : queryLength (a ++ ampersand :: b) = queryLength a + queryLength b := by
  rw [queryLength, queryParts, splitOn_append_cons_self, filter_append, map_append, sum_append]
  rfl

theorem queryLength_of_not_mem {part : Bytes} (h : ampersand ∉ part) (hne : part ≠ []) : queryLength part = partLength part := by
  rw [queryLength, queryParts, splitOn_eq_singleton h, filter_singleton]
  simp [hne]

theorem encodedLength_append {c : UInt8} (hc : hexValue c = none) (hne : c ≠ percent) (hplus : c ≠ 0x2B)
    (hkept : isKept true c = false) (a b : Bytes) : encodedLength (a ++ c :: b) = encodedLength a + 3 + encodedLength b := by
  unfold encodedLength unescape uriEncode
  rw [map_append, map_cons, if_neg hplus, percentDecode_append hc hne, percentEncode_append, percentEncode_cons,
    hkept, if_neg Bool.false_ne_true, length_append, length_append]
  change _ + (3 + _) = _
  omega

theorem partLength_eq (part : Bytes) : partLength part + (if equals ∈ part then 3 else 0) = encodedLength part + 2 := by
  by_cases h : equals ∈ part
  · obtain ⟨name, value, rfl, hname⟩ := eq_append_cons_of_mem h
    rw [if_pos h, encodedLength_append (by decide) (by decide) (by decide) (by decide), partLength, recode,
      HttpUrl.cut_append hname]
    dsimp only [Option.getD_some]
    unfold encodedLength
    omega
  · rw [if_neg h, partLength, recode, HttpUrl.cut_of_not_mem h]
    rfl

theorem partLength_mark (a b : Bytes) : partLength b < partLength (a ++ 0x3F :: b) := by
  have hwhole := partLength_eq (a ++ 0x3F :: b)
  have hpart := partLength_eq b
  rw [encodedLength_append (by decide) (by decide) (by decide) (by decide)] at hwhole
  have hmem : equals ∈ a ++ 0x3F :: b ↔ equals ∈ a ∨ equals ∈ b := by
    have hne : equals ≠ 0x3F := by decide
    rw [mem_append, mem_cons, or_iff_right hne]
  by_cases hb : equals ∈ b
  · rw [if_pos (hmem.2 (.inr hb))] at hwhole
    rw [if_pos hb] at hpart
    omega
  rw [if_neg hb] at hpart
  by_cases ha : equals ∈ a
  · obtain ⟨name, value, rfl, -⟩ := eq_append_cons_of_mem ha
    rw [if_pos (hmem.2 (.inl ha)), encodedLength_append (by decide) (by decide) (by decide) (by decide)] at hwhole
    omega
  · rw [if_neg (by simp [hmem, ha, hb])] at hwhole
    omega

theorem queryLength_mark (a b : Bytes) : queryLength b < queryLength (a ++ 0x3F :: b) := by
  -- Only the last part of `a` and the first part of `b` are in one part.
  have hfirst : ∀ a b : Bytes, ampersand ∉ a → queryLength b < queryLength (a ++ 0x3F :: b) := by
    intro a b ha
    by_cases hb : ampersand ∈ b
    · obtain ⟨part, rest, rfl, hpart⟩ := eq_append_cons_of_mem hb
      have hassoc : a ++ 0x3F :: (part ++ ampersand :: rest) = a ++ 0x3F :: part ++ ampersand :: rest := by simp
      have hnot : ampersand ∉ a ++ 0x3F :: part := by
        rw [mem_append, mem_cons]
        rintro (h | h | h)
        · exact ha h
        · exact absurd h (by decide)
        · exact hpart h
      rw [hassoc, queryLength_append, queryLength_append, queryLength_of_not_mem hnot (by simp)]
      have hlt := partLength_mark a part
      rcases eq_or_ne part [] with rfl | hne
      · have hzero : queryLength [] = 0 := rfl
        omega
      · rw [queryLength_of_not_mem hpart hne]
        omega
    · have hnot : ampersand ∉ a ++ 0x3F :: b := by
        rw [mem_append, mem_cons]
        rintro (h | h | h)
        · exact ha h
        · exact absurd h (by decide)
        · exact hb h
      rw [queryLength_of_not_mem hnot (by simp)]
      have hlt := partLength_mark a b
      rcases eq_or_ne b [] with rfl | hne
      · have hzero : queryLength [] = 0 := rfl
        omega
      · rw [queryLength_of_not_mem hb hne]
        exact hlt
  by_cases ha : ampersand ∈ a
  · obtain ⟨last, front, hrev, hlast⟩ := eq_append_cons_of_mem (mem_reverse.2 ha)
    have hsplit : a = front.reverse ++ ampersand :: last.reverse := by
      rw [← reverse_reverse a, hrev]
      simp
    have hlt := hfirst last.reverse b (by simpa using hlast)
    rw [hsplit, append_assoc, cons_append, queryLength_append]
    omega
  · exact hfirst a b ha

theorem two_le_queryLength {raw : Bytes} {b : UInt8} (hb : b ∈ raw) (hne : b ≠ ampersand) : 2 ≤ queryLength raw := by
  have hjoined : b ∈ [ampersand].intercalate (raw.splitOn ampersand) := by rwa [intercalate_splitOn]
  obtain ⟨part, hpart, hmem⟩ := (mem_joined hjoined).resolve_left hne
  have hparts : part ∈ queryParts raw := by
    refine mem_filter.2 ⟨hpart, ?_⟩
    simpa using ne_nil_of_mem hmem
  have htwo : 2 ≤ partLength part := Nat.le_add_left 2 _
  obtain ⟨before, after, hsplit⟩ := append_of_mem hparts
  rw [queryLength, hsplit, map_append, sum_append, map_cons, sum_cons]
  omega

end LetsFlutSsh.S3
