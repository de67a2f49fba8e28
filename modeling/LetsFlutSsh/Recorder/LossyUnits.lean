import LetsFlutSsh.Recorder.Line

/-!
# Recorder: the units of a lossy decoding

`String::from_utf8_lossy` consumes one unit after another: a well-formed sequence, or a maximal
ill-formed one. A cut in the middle of a unit decodes its two halves apart.

* `decodeUnit` : the character of the first unit and what follows it (`fromUtf8Lossy_cons`);
* `Extends` : more bytes change only a unit that nothing follows (`extends_decodeUnit`);
* `AtBoundary p q` : the units of `p ++ q` end where `p` ends (`fromUtf8Lossy_append_iff`);
* `WholeUnits` : no cut between two chunks falls inside a unit (`flatMap_fromUtf8Lossy_iff`).
-/

namespace LetsFlutSsh.Recorder
open Lib List

/-! ## One unit -/

/-- Go on with `k` after a byte that `p` allows here; any other byte, and the end, break the sequence off. -/
def continued (p : UInt8 → Bool) (k : UInt8 → Bytes → Char × Bytes) : Bytes → Char × Bytes
  | [] => (replacement, [])
  | c :: r => if p c then k c r else (replacement, c :: r)

def decodeUnit (b : UInt8) (r : Bytes) : Char × Bytes :=
  if b < 0x80 then (Char.ofNat b.toNat, r)
  else if 0xC2 ≤ b && b ≤ 0xDF then
    continued isCont (fun c r => (scalar (b.toNat % 32) [c], r)) r
  else if 0xE0 ≤ b && b ≤ 0xEF then
    continued (isSecondOf3 b) (fun c => continued isCont fun d r => (scalar (b.toNat % 16) [c, d], r)) r
  else if 0xF0 ≤ b && b ≤ 0xF4 then
    continued (isSecondOf4 b) (fun c => continued isCont fun d => continued isCont fun e r =>
      (scalar (b.toNat % 8) [c, d, e], r)) r
  else (replacement, r)

theorem fromUtf8Lossy_cons (b : UInt8) (r : Bytes) :
    fromUtf8Lossy (b :: r) = (decodeUnit b r).1 :: fromUtf8Lossy (decodeUnit b r).2 := by
  rw [fromUtf8Lossy.eq_def]
  unfold decodeUnit
  dsimp only
  by_cases h₁ : b < 0x80
  · rw [if_pos h₁, if_pos h₁]
  rw [if_neg h₁, if_neg h₁]
  by_cases h₂ : (0xC2 ≤ b && b ≤ 0xDF) = true
  · rw [if_pos h₂, if_pos h₂]
    cases r with
    | nil => rfl
    | cons c r₁ =>
      dsimp only [continued]
      split_ifs <;> rfl
  rw [if_neg h₂, if_neg h₂]
  by_cases h₃ : (0xE0 ≤ b && b ≤ 0xEF) = true
  · rw [if_pos h₃, if_pos h₃]
    rcases r with _ | ⟨c, _ | ⟨d, r₂⟩⟩ <;> dsimp only [continued]
    · rfl
    all_goals split_ifs <;> rfl
  rw [if_neg h₃, if_neg h₃]
  by_cases h₄ : (0xF0 ≤ b && b ≤ 0xF4) = true
  · rw [if_pos h₄, if_pos h₄]
    rcases r with _ | ⟨c, _ | ⟨d, _ | ⟨e, r₃⟩⟩⟩ <;> dsimp only [continued]
    · rfl
    all_goals split_ifs <;> rfl
  rw [if_neg h₄, if_neg h₄]

/-! ## Continuation bytes -/

theorem isCont_iff {c : UInt8} : isCont c = true ↔ 0x80 ≤ c ∧ c ≤ 0xBF := by
  have h := forall_byte (p := fun c => isCont c == (decide (0x80 ≤ c) && decide (c ≤ 0xBF))) (by decide +kernel) c
  rw [eq_of_beq h, Bool.and_eq_true, decide_eq_true_eq, decide_eq_true_eq]

theorem isCont_of_second {b c : UInt8} (h : isSecondOf3 b c = true ∨ isSecondOf4 b c = true) : isCont c = true := by
  unfold isSecondOf3 isSecondOf4 at h
  simp only [isCont_iff, Bool.or_eq_true, Bool.and_eq_true, decide_eq_true_eq, UInt8.le_iff_toNat_le] at h ⊢
  simp only [UInt8.reduceToNat] at h ⊢
  omega

theorem decodeUnit_of_isCont {b : UInt8} (h : isCont b = true) (r : Bytes) : decodeUnit b r = (replacement, r) := by
  rw [isCont_iff] at h
  simp only [UInt8.le_iff_toNat_le, UInt8.reduceToNat] at h
  have h₁ : ¬ b < 0x80 := by
    simp only [UInt8.lt_iff_toNat_lt, UInt8.reduceToNat]
    omega
  have h₂ : ∀ n : UInt8, 0xC2 ≤ n → ¬ n ≤ b := by
    intro n hn hb
    simp only [UInt8.le_iff_toNat_le, UInt8.reduceToNat] at hn hb
    omega
  simp only [decodeUnit, h₁, h₂ 0xC2 (by decide), h₂ 0xE0 (by decide), h₂ 0xF0 (by decide), decide_false,
    Bool.false_and, Bool.false_eq_true, if_false]

theorem fromUtf8Lossy_conts {u : Bytes} (h : ∀ c ∈ u, isCont c = true) (q : Bytes) :
    fromUtf8Lossy (u ++ q) = List.replicate u.length replacement ++ fromUtf8Lossy q := by
  induction u with
  | nil => rfl
  | cons c u ih =>
    obtain ⟨hc, hu⟩ := forall_mem_cons.mp h
    rw [cons_append, fromUtf8Lossy_cons, decodeUnit_of_isCont hc, ih hu]
    rfl

/-! ## More bytes -/

/-- `q` continues with continuation bytes up to `q'`. -/
def Continues (q q' : Bytes) : Prop := ∃ u : Bytes, (∀ c ∈ u, isCont c = true) ∧ q = u ++ q'

/-- Reading takes continuation bytes only. More bytes leave what was read as it was, or they go on with
a sequence that nothing followed. -/
structure Extends (f : Bytes → Char × Bytes) : Prop where
  continues : ∀ q, Continues q (f q).2
  append : ∀ r q, f (r ++ q) = ((f r).1, (f r).2 ++ q) ∨ (f r).2 = [] ∧ (f (r ++ q)).2 ≠ q ∧ Continues q (f (r ++ q)).2

theorem extends_done (c : Char) : Extends fun r => (c, r) where
  continues q := ⟨[], by simp⟩
  append r q := .inl rfl

theorem extends_continued {p : UInt8 → Bool} {k : UInt8 → Bytes → Char × Bytes}
    (hp : ∀ c, p c = true → isCont c = true) (hk : ∀ c, Extends (k c)) : Extends (continued p k) where
  continues q := by
    cases q with
    | nil => exact ⟨[], by simp [continued]⟩
    | cons c q =>
      by_cases hc : p c
      · obtain ⟨u, hu, hq⟩ := (hk c).continues q
        refine ⟨c :: u, forall_mem_cons.mpr ⟨hp c hc, hu⟩, ?_⟩
        rw [continued, if_pos hc, cons_append, ← hq]
      · exact ⟨[], by simp [continued, hc]⟩
  append r q := by
    cases r with
    | cons c r =>
      by_cases hc : p c
      · simpa only [cons_append, continued, if_pos hc] using (hk c).append r q
      · exact .inl (by simp [continued, hc])
    | nil =>
      cases q with
      | nil => exact .inl rfl
      | cons c q =>
        by_cases hc : p c
        · obtain ⟨u, hu, hq⟩ := (hk c).continues q
          have hread : (continued p k ([] ++ c :: q)).2 = (k c q).2 := by
            rw [nil_append, continued, if_pos hc]
          rw [hread]
          refine .inr ⟨rfl, fun hsame => ?_, c :: u, forall_mem_cons.mpr ⟨hp c hc, hu⟩, ?_⟩
          · have hlen := congrArg List.length hq
            rw [hsame, length_append, length_cons] at hlen
            omega
          · rw [cons_append, ← hq]
        · exact .inl (by simp [continued, hc])

theorem extends_decodeUnit (b : UInt8) : Extends (decodeUnit b) := by
  unfold decodeUnit
  by_cases h₁ : b < 0x80
  · simp only [if_pos h₁]
    exact extends_done _
  simp only [if_neg h₁]
  by_cases h₂ : (0xC2 ≤ b && b ≤ 0xDF) = true
  · simp only [if_pos h₂]
    exact extends_continued (fun _ h => h) fun c => extends_done _
  simp only [if_neg h₂]
  by_cases h₃ : (0xE0 ≤ b && b ≤ 0xEF) = true
  · simp only [if_pos h₃]
    apply extends_continued (fun _ h => isCont_of_second (.inl h))
    intro c
    exact extends_continued (fun _ h => h) fun d => extends_done _
  simp only [if_neg h₃]
  by_cases h₄ : (0xF0 ≤ b && b ≤ 0xF4) = true
  · simp only [if_pos h₄]
    apply extends_continued (fun _ h => isCont_of_second (.inr h))
    intro c
    apply extends_continued (fun _ h => h)
    intro d
    exact extends_continued (fun _ h => h) fun e => extends_done _
  simp only [if_neg h₄]
  exact extends_done _

/-! ## Cuts -/

/-- The units of `p ++ q`, read from the start of `p`, end where `p` ends. -/
inductive AtBoundary : Bytes → Bytes → Prop
  | nil {q : Bytes} : AtBoundary [] q
  | unit {b : UInt8} {r p q : Bytes} : (decodeUnit b (r ++ q)).2 = p ++ q → AtBoundary p q → AtBoundary (b :: r) q

theorem atBoundary_cons {b : UInt8} {r q : Bytes} :
    AtBoundary (b :: r) q ↔ ∃ p, (decodeUnit b (r ++ q)).2 = p ++ q ∧ AtBoundary p q := by
  constructor
  · intro h
    cases h with
    | unit hread hp => exact ⟨_, hread, hp⟩
  · rintro ⟨p, hread, hp⟩
    exact .unit hread hp

theorem fromUtf8Lossy_append (p q : Bytes) : AtBoundary p q ∧ fromUtf8Lossy (p ++ q) = fromUtf8Lossy p ++ fromUtf8Lossy q ∨
    ¬ AtBoundary p q ∧ (fromUtf8Lossy (p ++ q)).length < (fromUtf8Lossy p).length + (fromUtf8Lossy q).length := by
  induction hn : p.length using Nat.strong_induction_on generalizing p with
  | _ n ih =>
    cases p with
    | nil => exact .inl ⟨.nil, rfl⟩
    | cons b r =>
      have hE := extends_decodeUnit b
      rw [atBoundary_cons, cons_append, fromUtf8Lossy_cons b r, fromUtf8Lossy_cons b (r ++ q)]
      rcases hE.append r q with hsame | ⟨hpending, hne, u, hu, hq⟩
      · -- the unit ends inside `p`
        obtain ⟨u, -, hr⟩ := hE.continues r
        have hshort : (decodeUnit b r).2.length < n := by
          have hlen := congrArg List.length hr
          rw [length_append] at hlen
          rw [length_cons] at hn
          omega
        have hiff : (∃ p, (decodeUnit b (r ++ q)).2 = p ++ q ∧ AtBoundary p q) ↔ AtBoundary (decodeUnit b r).2 q := by
          rw [hsame]
          constructor
          · rintro ⟨p, hp, hat⟩
            rwa [append_cancel_right hp]
          · exact fun hat => ⟨_, rfl, hat⟩
        rw [hiff, hsame]
        rcases ih _ hshort _ rfl with ⟨hat, heq⟩ | ⟨hat, hlt⟩
        · exact .inl ⟨hat, by rw [heq, cons_append]⟩
        · refine .inr ⟨hat, ?_⟩
          dsimp only
          rw [length_cons, length_cons]
          omega
      · -- the unit goes on in `q`, where its bytes decode one by one
        right
        generalize (decodeUnit b (r ++ q)).2 = q' at hne hq ⊢
        have hpos : 0 < u.length := by
          apply length_pos_of_ne_nil
          rintro rfl
          exact hne hq.symm
        constructor
        · rintro ⟨p, hp, -⟩
          have hlen := congrArg List.length hq
          rw [hp, length_append, length_append] at hlen
          omega
        · rw [hpending, hq, fromUtf8Lossy_conts hu, length_append, length_replicate, length_cons]
          simp only [fromUtf8Lossy, length_cons, length_nil]
          omega

theorem fromUtf8Lossy_append_iff (p q : Bytes) :
    fromUtf8Lossy (p ++ q) = fromUtf8Lossy p ++ fromUtf8Lossy q ↔ AtBoundary p q := by
  rcases fromUtf8Lossy_append p q with ⟨hat, heq⟩ | ⟨hat, hlt⟩
  · exact iff_of_true heq hat
  · refine iff_of_false (fun heq => ?_) hat
    rw [heq, length_append] at hlt
    exact Nat.lt_irrefl _ hlt

theorem length_fromUtf8Lossy_append_le (p q : Bytes) :
    (fromUtf8Lossy (p ++ q)).length ≤ (fromUtf8Lossy p).length + (fromUtf8Lossy q).length := by
  rcases fromUtf8Lossy_append p q with ⟨-, heq⟩ | ⟨-, hlt⟩
  · rw [heq, length_append]
  · exact hlt.le

theorem AtBoundary.append_iff {p q r : Bytes} (h : AtBoundary p (q ++ r)) : AtBoundary (p ++ q) r ↔ AtBoundary q r := by
  generalize hqr : q ++ r = s at h
  induction h with
  | nil => rfl
  | unit hread _ ih =>
    subst hqr
    rw [cons_append, atBoundary_cons, append_assoc, hread, ← append_assoc, ← ih rfl]
    constructor
    · rintro ⟨x, hx, hat⟩
      rwa [append_cancel_right hx]
    · exact fun hat => ⟨_, rfl, hat⟩

/-- No cut between two chunks falls inside a unit of the whole stream. -/
def WholeUnits (chunks : List Bytes) : Prop :=
  ∀ pre post, chunks = pre ++ post → AtBoundary pre.flatten post.flatten

theorem wholeUnits_cons {c : Bytes} {chunks : List Bytes} :
    WholeUnits (c :: chunks) ↔ AtBoundary c chunks.flatten ∧ WholeUnits chunks := by
  constructor
  · intro h
    have hhead : AtBoundary c chunks.flatten := by simpa using h [c] chunks rfl
    refine ⟨hhead, fun pre post hsplit => ?_⟩
    have htail := h (c :: pre) post (by rw [hsplit, cons_append])
    rw [hsplit, flatten_append] at hhead
    exact hhead.append_iff.mp htail
  · rintro ⟨hhead, htail⟩ pre post hsplit
    cases pre with
    | nil => exact .nil
    | cons x pre =>
      obtain ⟨rfl, hrest⟩ := List.cons.inj hsplit
      rw [hrest, append_eq, flatten_append] at hhead
      exact hhead.append_iff.mpr (htail pre post hrest)

theorem length_flatMap_fromUtf8Lossy (chunks : List Bytes) :
    (fromUtf8Lossy chunks.flatten).length ≤ (chunks.flatMap fromUtf8Lossy).length := by
  induction chunks with
  | nil => exact Nat.le_refl _
  | cons c chunks ih =>
    have hcut := length_fromUtf8Lossy_append_le c chunks.flatten
    rw [flatten_cons, flatMap_cons, length_append]
    omega

theorem flatMap_fromUtf8Lossy_iff (chunks : List Bytes) :
    chunks.flatMap fromUtf8Lossy = fromUtf8Lossy chunks.flatten ↔ WholeUnits chunks := by
  induction chunks with
  | nil =>
    refine iff_of_true rfl fun pre post hsplit => ?_
    rw [(append_eq_nil_iff.mp hsplit.symm).1]
    exact .nil
  | cons c chunks ih =>
    rw [wholeUnits_cons, ← ih, flatten_cons, flatMap_cons]
    have hrest := length_flatMap_fromUtf8Lossy chunks
    constructor
    · intro h
      rcases fromUtf8Lossy_append c chunks.flatten with ⟨hat, heq⟩ | ⟨-, hlt⟩
      · rw [heq] at h
        exact ⟨hat, append_cancel_left h⟩
      · have hlen := congrArg List.length h
        rw [length_append] at hlen
        omega
    · rintro ⟨hat, htail⟩
      rw [htail, (fromUtf8Lossy_append_iff _ _).mpr hat]

end LetsFlutSsh.Recorder
