import LetsFlutSsh.S3.Client

/-!
# Keys in the path of an address

* `Dotless` : no segment of a key is `.` or `..`;
* `PlainByte` : the bytes that the address parser leaves alone, of which encoded text is made.
-/

namespace LetsFlutSsh.S3
open Lib List HttpUrl

def keyRules : DotRules Bytes := { up := fun seg => seg = [dot, dot], here := fun seg => seg = [dot], empty := [] }
def keySegments (key : Bytes) : List Bytes := key.splitOn slash

/-- No segment of the key is `.` or `..`. -/
def Dotless (key : Bytes) : Prop := ∀ seg ∈ keySegments key, keyRules.isDot seg = false

instance (key : Bytes) : Decidable (Dotless key) := List.decidableBAll (keyRules.isDot · = false) _

def isEncodedByte (b : UInt8) : Bool := isUnreserved b || b = percent

theorem hexDigit_unreserved {n : Nat} (h : n < 16) : isUnreserved (hexDigit n) = true := by
  have hall : ∀ n < 16, isUnreserved (hexDigit n) = true := by decide
  exact hall n h

variable {b : UInt8}

theorem encoded_of_mem_uriEncode {isQuery : Bool} {input : Bytes} (h : b ∈ uriEncode isQuery input) :
    isEncodedByte b = true ∨ isQuery = false ∧ b = slash := by
  rcases mem_percentEncode h with hkeep | rfl | ⟨n, hn, rfl⟩
  · unfold isKept at hkeep
    rw [Bool.or_eq_true, Bool.and_eq_true, Bool.not_eq_true', decide_eq_true_eq] at hkeep
    rcases hkeep with hkeep | hkeep
    · exact .inl (by rw [isEncodedByte, hkeep, Bool.true_or])
    · exact .inr ⟨hkeep.2, hkeep.1⟩
  · exact .inl (by decide)
  · exact .inl (by rw [isEncodedByte, hexDigit_unreserved hn, Bool.true_or])

/-- The address parser does nothing with a byte. -/
structure PlainByte (b : UInt8) : Prop where
  visible : 0x20 < b
  noHash : b ≠ 0x23
  noMark : b ≠ 0x3F
  inPath : keptInPath b = true
  inQuery : keptInQuery b = true
  noNewline : b ≠ newline
  isSlash : isSlash b = true → b = slash

theorem plain_byte (h : isEncodedByte b = true ∨ b ∈ [slash, equals, ampersand]) : PlainByte b := by
  have hall := forall_byte (p := fun b => !(isEncodedByte b || decide (b ∈ [slash, equals, ampersand])) ||
    (decide (0x20 < b) && decide (b ≠ 0x23) && decide (b ≠ 0x3F) && keptInPath b && keptInQuery b &&
      decide (b ≠ newline) && decide (isSlash b = true → b = slash))) (by decide +kernel) b
  have htrue : (isEncodedByte b || decide (b ∈ [slash, equals, ampersand])) = true := by
    rw [Bool.or_eq_true, decide_eq_true_eq]
    exact h
  rw [htrue, Bool.not_true, Bool.false_or] at hall
  simp only [Bool.and_eq_true, decide_eq_true_eq, and_assoc] at hall
  obtain ⟨h₁, h₂, h₃, h₄, h₅, h₆, h₇⟩ := hall
  exact ⟨h₁, h₂, h₃, h₄, h₅, h₆, h₇⟩

theorem isUnreserved_of_isBucketByte (h : isBucketByte b = true) : isUnreserved b = true := by
  unfold isBucketByte at h
  unfold isUnreserved
  rw [Bool.or_eq_true, Bool.or_eq_true] at h
  rcases h with (h | h) | h
  · rw [h]
    simp
  · rw [h]
    simp
  · rw [h]
    simp

variable {bucket : Bytes}

theorem plain_of_mem_bucket (h : ValidBucket bucket) (hb : b ∈ bucket) : PlainByte b := by
  refine plain_byte (.inl ?_)
  rw [isEncodedByte, isUnreserved_of_isBucketByte ((validBucket_bytes h).2.1 b hb), Bool.true_or]

theorem plain_of_mem_uriEncode {isQuery : Bool} {input : Bytes} (h : b ∈ uriEncode isQuery input) :
    PlainByte b := by
  rcases encoded_of_mem_uriEncode h with h | ⟨-, rfl⟩
  · exact plain_byte (.inl h)
  · exact plain_byte (.inr mem_cons_self)

theorem slashFree_keySegments (key : Bytes) : ∀ seg ∈ keySegments key, slash ∉ seg := by
  intro seg hseg hmem
  rw [keySegments, splitOn_eq_splitOnP] at hseg
  have h := not_of_mem_splitOnP hseg slash hmem
  rw [beq_self_eq_true] at h
  cases h

theorem slash_not_mem_uriEncode {seg : Bytes} (h : slash ∉ seg) : slash ∉ uriEncode false seg := by
  intro hmem
  obtain ⟨b, hb, hslash⟩ := mem_flatMap.1 hmem
  have hhex : ∀ n < 16, hexDigit n ≠ slash := by decide
  have hlt := b.toNat_lt
  split_ifs at hslash with hkeep
  · exact h (mem_singleton.1 hslash ▸ hb)
  · simp only [percentByte, mem_cons, not_mem_nil, or_false] at hslash
    rcases hslash with hslash | hslash | hslash
    · exact absurd hslash (by decide)
    · exact hhex _ (by omega) hslash.symm
    · exact hhex _ (by omega) hslash.symm

theorem splitOnP_congr {p q : UInt8 → Bool} {xs : Bytes} (h : ∀ b ∈ xs, p b = q b) : xs.splitOnP p = xs.splitOnP q := by
  induction xs with
  | nil => rfl
  | cons b xs ih =>
    obtain ⟨hb, hxs⟩ := forall_mem_cons.1 h
    rw [splitOnP_cons_eq_if_modifyHead, splitOnP_cons_eq_if_modifyHead, hb, ih hxs]

theorem splitOnP_uriEncode (key : Bytes) :
    (uriEncode false key).splitOnP HttpUrl.isSlash = (keySegments key).map (uriEncode false) := by
  have hsame : ∀ b ∈ uriEncode false key, isSlash b = (b == slash) := by
    intro b hb
    rw [Bool.eq_iff_iff, beq_iff_eq]
    refine ⟨(plain_of_mem_uriEncode hb).isSlash, ?_⟩
    rintro rfl
    rfl
  have hpieces := congrArg (List.splitOn slash) (pathText_map_uriEncode key)
  rw [← nil_append (slash :: uriEncode false key), splitOn_append_cons_self] at hpieces
  have hfree : ∀ seg ∈ (key.splitOn slash).map (uriEncode false), slash ∉ seg := by
    intro seg hseg
    obtain ⟨seg, hmem, rfl⟩ := mem_map.1 hseg
    exact slash_not_mem_uriEncode (slashFree_keySegments key seg hmem)
  have hpath : (pathText ((key.splitOn slash).map (uriEncode false))).splitOn slash =
      [] :: ((key.splitOn slash).map (uriEncode false)).flatMap fun seg => seg.splitOn slash := splitOn_pathText _
  rw [hpath, splitOn_nil, singleton_append, List.cons.injEq] at hpieces
  rw [splitOnP_congr hsame, ← splitOn_eq_splitOnP, ← hpieces.2]
  exact flatMap_splitOn_of_slashFree hfree

theorem climb_uriEncode (segs : List Bytes) : dots.climb (segs.map (uriEncode false)) =
    ((keyRules.climb segs).1, (keyRules.climb segs).2.map (uriEncode false)) := by
  refine DotRules.climb_map (R := keyRules) (Q := dots) (f := uriEncode false) (fun seg => ?_) (fun seg => ?_) rfl segs
  · rw [Bool.eq_iff_iff]
    constructor
    · intro h
      have hdecode := percentDecode_of_isUp h
      rw [percentDecode_uriEncode] at hdecode
      exact decide_eq_true hdecode
    · intro h
      rw [of_decide_eq_true h]
      decide
  · rw [Bool.eq_iff_iff]
    constructor
    · intro h
      have hdecode := percentDecode_of_isHere h
      rw [percentDecode_uriEncode] at hdecode
      exact decide_eq_true hdecode
    · intro h
      rw [of_decide_eq_true h]
      decide

section

variable (h : ValidBucket bucket)
include h

theorem percentDecode_bucket : percentDecode bucket = bucket :=
  percentDecode_of_not_mem fun hmem => (ne_of_isBucketByte ((validBucket_bytes h).2.1 percent hmem)).2 rfl

theorem slash_not_mem_bucket : slash ∉ bucket := fun hmem =>
  (ne_of_isBucketByte ((validBucket_bytes h).2.1 slash hmem)).1 rfl

theorem isDot_bucket : dots.isDot bucket = false := by
  have hlength := (validBucket_bytes h).1
  refine Bool.or_eq_false_iff.2 ⟨?_, ?_⟩
  · refine Bool.eq_false_iff.2 fun hup => ?_
    have hdecode := percentDecode_of_isUp hup
    rw [percentDecode_bucket h] at hdecode
    rw [hdecode] at hlength
    exact absurd hlength (by decide)
  · refine Bool.eq_false_iff.2 fun hhere => ?_
    have hdecode := percentDecode_of_isHere hhere
    rw [percentDecode_bucket h] at hdecode
    rw [hdecode] at hlength
    exact absurd hlength (by decide)

theorem keyRules_bucket : keyRules.isDot bucket = false := by
  have hlength := (validBucket_bytes h).1
  refine Bool.or_eq_false_iff.2 ⟨decide_eq_false ?_, decide_eq_false ?_⟩
  · rintro rfl
    exact absurd hlength (by decide)
  · rintro rfl
    exact absurd hlength (by decide)

end

theorem kept_of_mem_splitOnP {text piece : Bytes} (h : ∀ b ∈ text, PlainByte b) (hpiece : piece ∈ text.splitOnP HttpUrl.isSlash) :
    ∀ b ∈ piece, keptInPath b = true := by
  intro b hb
  exact (h b (subset_of_mem_splitOnP hpiece hb)).inPath

section
variable {front : List Bytes}

theorem below_bucket_key (h : ValidBucket bucket) (front : List Bytes) (key : Bytes) :
    below front (bucket ++ slash :: uriEncode false key) =
      (front ++ [bucket]).take (front.length + 1 - (keyRules.climb (keySegments key)).1) ++
        (keyRules.climb (keySegments key)).2.map (uriEncode false) := by
  have hplain : ∀ b ∈ bucket ++ slash :: uriEncode false key, PlainByte b := by
    intro b hb
    rcases mem_append.1 hb with hb | hb
    · exact plain_of_mem_bucket h hb
    · rcases mem_cons.1 hb with rfl | hb
      · exact plain_byte (.inr mem_cons_self)
      · exact plain_of_mem_uriEncode hb
  have hbucket : ∀ b ∈ bucket, isSlash b = false := by
    intro b hb
    refine Bool.eq_false_iff.2 fun hslash => ?_
    exact slash_not_mem_bucket h ((plain_of_mem_bucket h hb).isSlash hslash ▸ hb)
  have hpieces : (bucket ++ slash :: uriEncode false key).splitOnP HttpUrl.isSlash =
      [bucket] ++ (keySegments key).map (uriEncode false) := by
    rw [splitOnP_append_cons_of_forall_mem hbucket slash (by decide), splitOnP_uriEncode]
    rfl
  have hne : (keySegments key).map (uriEncode false) ≠ [] := by
    rw [Ne, map_eq_nil_iff]
    exact splitOn_ne_nil _ key
  have hdot : ∀ seg ∈ [bucket], dots.isDot seg = false := by
    intro seg hseg
    rw [mem_singleton.1 hseg]
    exact isDot_bucket h
  rw [below_eq fun piece hpiece => kept_of_mem_splitOnP hplain hpiece, hpieces, DotRules.removeDots_append _ _ hne,
    DotRules.foldl_enter_of_plain hdot, DotRules.removeDots_eq, climb_uriEncode, length_append, length_singleton]

theorem below_key (key : Bytes) :
    below [] (uriEncode false key) = (keyRules.climb (keySegments key)).2.map (uriEncode false) := by
  rw [below_eq fun piece hpiece => kept_of_mem_splitOnP (fun b hb => plain_of_mem_uriEncode hb) hpiece,
    splitOnP_uriEncode, DotRules.removeDots_eq, climb_uriEncode, take_nil, nil_append]

theorem map_percentDecode_uriEncode (segs : List Bytes) : (segs.map (uriEncode false)).map percentDecode = segs := by
  rw [map_map]
  conv_rhs => rw [← map_id segs]
  exact map_congr_left fun seg _ => percentDecode_uriEncode false seg

theorem slashFree_climb (key : Bytes) : ∀ seg ∈ (keyRules.climb (keySegments key)).2, slash ∉ seg := by
  intro seg hseg
  rcases DotRules.mem_climb seg hseg with ⟨hmem, -⟩ | rfl
  · exact slashFree_keySegments key seg hmem
  · exact not_mem_nil

theorem climb_dotless {key : Bytes} (h : Dotless key) : keyRules.climb (keySegments key) = (0, keySegments key) :=
  DotRules.climb_of_plain h

theorem pathText_eq_iff {xs ys : List Bytes} (hxs : ∀ seg ∈ xs, slash ∉ seg) (hys : ∀ seg ∈ ys, slash ∉ seg) :
    pathText xs = pathText ys ↔ xs = ys := by
  refine ⟨fun h => ?_, congrArg pathText⟩
  have hsplit := congrArg (List.splitOn (0x2F : UInt8)) h
  rw [splitOn_pathText, splitOn_pathText, flatMap_splitOn_of_slashFree hxs, flatMap_splitOn_of_slashFree hys] at hsplit
  exact (List.cons.inj hsplit).2

theorem key_iff (key : Bytes) : percentDecode (pathText (below [] (uriEncode false key))) = slash :: key ↔ Dotless key := by
  have htext : slash :: key = pathText (keySegments key) := (pathText_splitOn key).symm
  rw [below_key, percentDecode_pathText, map_percentDecode_uriEncode, htext,
    pathText_eq_iff (slashFree_climb key) (slashFree_keySegments key)]
  constructor
  · intro h
    unfold Dotless
    rw [← h]
    exact DotRules.climb_plain (by decide)
  · intro h
    rw [climb_dotless h]

theorem pathText_bucket_key (bucket key : Bytes) :
    pathText (bucket :: keySegments key) = slash :: bucket ++ slash :: key := by
  rw [pathText_cons]
  exact congrArg (fun text => slash :: (bucket ++ text)) (pathText_splitOn key)

theorem bucket_key_iff (h : ValidBucket bucket) {before : List Bytes} {key : Bytes} {left : List Bytes}
    (hclimb : keyRules.climb (keySegments key) = (0, left)) :
    pathText (before ++ bucket :: left) = slash :: bucket ++ slash :: key ↔ before = [] ∧ Dotless key := by
  rw [← pathText_bucket_key]
  have hfree : ∀ seg ∈ bucket :: keySegments key, slash ∉ seg :=
    forall_mem_cons.2 ⟨slash_not_mem_bucket h, slashFree_keySegments key⟩
  have hleft : ∀ seg ∈ bucket :: left, slash ∉ seg := by
    refine forall_mem_cons.2 ⟨slash_not_mem_bucket h, ?_⟩
    have hall := slashFree_climb key
    rwa [hclimb] at hall
  constructor
  · intro htext
    have hsplit := congrArg (List.splitOn (0x2F : UInt8)) htext
    rw [splitOn_pathText, splitOn_pathText, flatMap_splitOn_of_slashFree hfree, flatMap_append,
      flatMap_splitOn_of_slashFree hleft] at hsplit
    have hsegs := (List.cons.inj hsplit).2
    rcases before with _ | ⟨seg, before⟩
    · refine ⟨rfl, ?_⟩
      rw [flatMap_nil, nil_append, List.cons.injEq] at hsegs
      unfold Dotless
      rw [← hsegs.2]
      have hplain : ∀ seg ∈ (keyRules.climb (keySegments key)).2, keyRules.isDot seg = false :=
        DotRules.climb_plain (by decide)
      rwa [hclimb] at hplain
    · -- The key would have to end with the bucket and with what is left of the key.
      exfalso
      rw [flatMap_cons] at hsegs
      obtain ⟨first, rest, hseg⟩ := exists_cons_of_ne_nil (splitOn_ne_nil (0x2F : UInt8) seg)
      rw [hseg, cons_append, cons_append, List.cons.injEq] at hsegs
      rw [← hsegs.2] at hclimb
      have hend : (keyRules.climb (rest ++ (before.flatMap fun seg => seg.splitOn 0x2F) ++ bucket :: left)).2 = left := by
        rw [hclimb]
      exact DotRules.not_climb_append (keyRules_bucket h) (by decide) _ hend
  · rintro ⟨rfl, hdotless⟩
    rw [climb_dotless hdotless, Prod.mk.injEq] at hclimb
    rw [hclimb.2]
    rfl

theorem bucket_key_below_iff (h : ValidBucket bucket) (front : List Bytes) (key : Bytes) :
    percentDecode (pathText (below front (bucket ++ slash :: uriEncode false key))) = slash :: bucket ++ slash :: key ↔
      match keyRules.climb (keySegments key) with
      | (0, _) => front = [] ∧ Dotless key
      | (climbed + 1, left) =>
        pathText ((front.take (front.length - climbed)).map percentDecode ++ left) = slash :: bucket ++ slash :: key := by
  rw [below_bucket_key h, percentDecode_pathText, map_append, map_percentDecode_uriEncode]
  rcases hclimb : keyRules.climb (keySegments key) with ⟨_ | climbed, left⟩
  · rw [Nat.sub_zero, take_of_length_le (by simp), map_append, map_singleton, percentDecode_bucket h,
      append_assoc, singleton_append, bucket_key_iff h hclimb, map_eq_nil_iff]
  · rw [Nat.add_sub_add_right, take_append_of_le_length (Nat.sub_le _ _)]

end

end LetsFlutSsh.S3
