import LetsFlutSsh.Lib.Fields
import LetsFlutSsh.Lib.Percent

/-!
# Form-encoded queries

What a query such as `a=1&b=x%20y` says:

* `FormDecodes` : the bytes that an encoding stands for, a plus sign for a space and an escape for its byte;
* `Reads` : the text that an encoding stands for;
* `IsPair` : the key and the value of a pair;
* `Gives` : the value of a key, which its last pair gives (`foldl_gives`).
-/

namespace Lib
open List Option

/-! ## Cutting -/

variable {α : Type}

theorem cut_at_iff {p : α → Bool} {xs a b : List α} :
    xs.takeWhile p = a ∧ xs.dropWhile p = b ↔ xs = a ++ b ∧ (∀ x ∈ a, p x = true) ∧ ∀ x ∈ b.head?, p x = false := by
  constructor
  · rintro ⟨rfl, rfl⟩
    refine ⟨takeWhile_append_dropWhile.symm, fun x hx => mem_takeWhile_imp hx, fun x hx => ?_⟩
    have hstop := head?_dropWhile_not p xs
    rw [mem_def.1 hx] at hstop
    exact hstop
  · rintro ⟨rfl, ha, hb⟩
    rw [takeWhile_append_of_pos ha, dropWhile_append_of_pos ha]
    rcases b with _ | ⟨x, b⟩
    · exact ⟨append_nil a, rfl⟩
    · have hx := hb x rfl
      rw [takeWhile_cons_of_neg (by simp [hx]), dropWhile_cons_of_neg (by simp [hx]), append_nil]
      exact ⟨rfl, rfl⟩

/-! ## Encoded texts -/

def plus : UInt8 := 0x2B

inductive FormDecodes : Bytes → Bytes → Prop
  | nil : FormDecodes [] []
  | space {raw bs : Bytes} (rest : FormDecodes raw bs) : FormDecodes (plus :: raw) (0x20 :: bs)
  | escape {hi lo : UInt8} {h l : Nat} {raw bs : Bytes} (hhi : hexValue hi = some h) (hlo : hexValue lo = some l)
      (rest : FormDecodes raw bs) : FormDecodes (percent :: hi :: lo :: raw) (UInt8.ofNat (16 * h + l) :: bs)
  | byte {b : UInt8} {raw bs : Bytes} (hplus : b ≠ plus) (hpercent : b ≠ percent) (rest : FormDecodes raw bs) :
      FormDecodes (b :: raw) (b :: bs)

def Reads (raw text : List Char) : Prop := FormDecodes (utf8 (String.ofList raw)) (utf8 (String.ofList text))

/-! ## Pairs -/

/-- The raw key and the raw value of a pair: the value is empty without an equals sign. -/
inductive Cut : List Char → List Char → List Char → Prop
  | equals {k v : List Char} (hk : '=' ∉ k) : Cut (k ++ '=' :: v) k v
  | alone {k : List Char} (hk : '=' ∉ k) : Cut k k []

theorem cut_iff {pair k v : List Char} : Cut pair k v ↔ (splitOnce '=' pair).getD (pair, []) = (k, v) := by
  constructor
  · rintro (hk | hk)
    · rw [splitOnce_append hk, getD_some]
    · rw [splitOnce_of_not_mem hk, getD_none]
  intro h
  rcases hcut : splitOnce '=' pair with _ | ⟨k', v'⟩
  · rw [hcut, getD_none, Prod.mk.injEq] at h
    obtain ⟨rfl, rfl⟩ := h
    refine .alone fun hmem => ?_
    obtain ⟨a, b, rfl, ha⟩ := eq_append_cons_of_mem hmem
    rw [splitOnce_append ha] at hcut
    cases hcut
  · rw [hcut, getD_some, Prod.mk.injEq] at h
    obtain ⟨rfl, rfl⟩ := h
    obtain ⟨rfl, hk⟩ := eq_of_splitOnce hcut
    exact .equals hk

def IsPair (pair key value : List Char) : Prop := ∃ k v, Cut pair k v ∧ Reads k key ∧ Reads v value

/-- An entry with `Q` after which all have `P`. -/
def LastIs {α : Type} (Q P : α → Prop) (xs : List α) : Prop :=
  ∃ before x after, xs = before ++ x :: after ∧ Q x ∧ ∀ y ∈ after, P y

def Gives (query key value : List Char) : Prop :=
  LastIs (IsPair · key value) (fun pair => ∀ v, ¬IsPair pair key v) (query.splitOn '&')

theorem not_lastIs_nil {Q P : α → Prop} : ¬LastIs Q P [] := by
  rintro ⟨before, x, after, heq, -, -⟩
  simp at heq

theorem lastIs_concat {Q P : α → Prop} {xs : List α} {a : α} :
    LastIs Q P (xs ++ [a]) ↔ Q a ∨ (P a ∧ LastIs Q P xs) := by
  constructor
  · rintro ⟨before, x, after, heq, hx, hafter⟩
    rcases eq_nil_or_concat after with rfl | ⟨after, last, rfl⟩
    · obtain ⟨-, hlast⟩ := append_inj' heq rfl
      rw [singleton_inj.1 hlast]
      exact .inl hx
    · rw [concat_eq_append] at heq hafter
      rw [← cons_append, ← append_assoc] at heq
      obtain ⟨hxs, hlast⟩ := append_inj' heq rfl
      rw [singleton_inj.1 hlast]
      rw [forall_mem_append, forall_mem_singleton] at hafter
      exact .inr ⟨hafter.2, before, x, after, hxs, hx, hafter.1⟩
  · rintro (ha | ⟨ha, before, x, after, rfl, hx, hafter⟩)
    · exact ⟨xs, a, [], rfl, ha, nofun⟩
    · refine ⟨before, x, after ++ [a], by simp, hx, ?_⟩
      rw [forall_mem_append, forall_mem_singleton]
      exact ⟨hafter, ha⟩

/-! ## Reading -/

section Reading
variable {σ : Type} {step : σ → List Char × List Char → σ} {proj : σ → Option (List Char)}
  {read : List Char → Option (List Char × List Char)} {key : List Char}

theorem foldl_gives (hread : ∀ pair k v, k ≠ [] → (read pair = some (k, v) ↔ IsPair pair k v)) (hkey : key ≠ [])
    (hstep : ∀ s kv, proj (step s kv) = if kv.1 = key then some kv.2 else proj s) {s : σ} (hs : proj s = none)
    {query v : List Char} :
    proj (((query.splitOn '&').filterMap read).foldl step s) = some v ↔ Gives query key v := by
  unfold Gives
  induction query.splitOn '&' using List.reverseRecOn with
  | nil =>
    rw [filterMap_nil, foldl_nil, hs]
    exact ⟨nofun, fun h => absurd h not_lastIs_nil⟩
  | append_singleton pairs pair ih =>
    rw [lastIs_concat, ← ih, filterMap_append, foldl_append]
    generalize (pairs.filterMap read).foldl step s = t
    rcases hpair : read pair with _ | kv
    · -- A pair that does not decode has no key.
      have hnot : ∀ w, ¬IsPair pair key w := by
        intro w hw
        rw [(hread pair key w hkey).2 hw] at hpair
        cases hpair
      rw [filterMap_cons_none hpair, filterMap_nil, foldl_nil]
      simp [hnot]
    · have hiff : ∀ w, IsPair pair key w ↔ kv = (key, w) := by
        intro w
        rw [← hread pair key w hkey, hpair, Option.some.injEq]
      rw [filterMap_cons_some hpair, filterMap_nil, foldl_cons, foldl_nil, hstep, hiff]
      simp only [hiff, Prod.ext_iff]
      split_ifs with hk
      · simp [hk]
      · simp [hk]

end Reading

end Lib
