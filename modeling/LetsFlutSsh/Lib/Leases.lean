import Mathlib.Data.List.AList

/-!
# Entries of a map that are leased

Holders put entries into a map that they share, and take them out again.

* `Leased` : every holder finds what it put there, no two hold the same entry, and an entry that was given back is gone;
* `Leased.put`, `Leased.drop`, `Leased.aside` : what a holder does with an entry that no other holds, and what others do to
  the rest of the map.
-/

namespace Lib
open Option

variable {κ ν ι : Type} {get get' : κ → Option ν} {held held' : ι → κ → Option ν} {used used' : κ → Prop}

/-- The entries that the holders have in a map; `used` are those that were ever leased. -/
structure Leased (get : κ → Option ν) (held : ι → κ → Option ν) (used : κ → Prop) : Prop where
  found : ∀ i k v, held i k = some v → get k = some v
  exclusive : ∀ i j k, held i k ≠ none → held j k ≠ none → i = j
  gone : ∀ k, used k → (∀ i, held i k = none) → get k = none

theorem leased_nil (h : ∀ i k, held i k = none) : Leased get held fun _ => False := by
  refine ⟨fun i k v hv => ?_, fun i j k hi => absurd (h i k) hi, nofun⟩
  rw [h i k] at hv
  cases hv

namespace Leased

section
variable [DecidableEq κ] [DecidableEq ι]

theorem put {i : ι} {k : κ} {v : ν} (h : Leased get held used) (hfree : ∀ j, j ≠ i → held j k = none)
    (hget : ∀ k', get' k' = if k' = k then some v else get k')
    (hheld : ∀ j k', held' j k' = if j = i ∧ k' = k then some v else held j k')
    (hused : ∀ k', used' k' → k' = k ∨ used k') : Leased get' held' used' := by
  refine ⟨fun j k' v' hv' => ?_, fun j j' k' hj hj' => ?_, fun k' hk' hnone => ?_⟩
  · rw [hget]
    rw [hheld] at hv'
    split_ifs at hv' with hown
    · rw [if_pos hown.2, hv']
    · rcases eq_or_ne k' k with rfl | hne
      · have hj : j ≠ i := fun heq => hown ⟨heq, rfl⟩
        rw [hfree j hj] at hv'
        cases hv'
      · rw [if_neg hne]
        exact h.found j k' v' hv'
  · rcases eq_or_ne k' k with rfl | hne
    · have hthis : ∀ j, held' j k' ≠ none → j = i := by
        intro j hj
        by_contra hne
        rw [hheld, if_neg fun hown => hne hown.1] at hj
        exact hj (hfree j hne)
      rw [hthis j hj, hthis j' hj']
    · rw [hheld, if_neg fun hown => hne hown.2] at hj hj'
      exact h.exclusive j j' k' hj hj'
  · have hne : k' ≠ k := by
      rintro rfl
      have hi := hnone i
      rw [hheld, if_pos ⟨rfl, rfl⟩] at hi
      cases hi
    rw [hget, if_neg hne]
    refine h.gone k' ((hused k' hk').resolve_left hne) fun j => ?_
    have hj := hnone j
    rwa [hheld, if_neg fun hown => hne hown.2] at hj

theorem drop {i : ι} {k : κ} (h : Leased get held used) (hown : held i k ≠ none)
    (hget : ∀ k', get' k' = if k' = k then none else get k')
    (hheld : ∀ j k', held' j k' = if j = i ∧ k' = k then none else held j k')
    (hused : ∀ k', used' k' → used k') : Leased get' held' used' := by
  have hother : ∀ {j k' v}, held' j k' = some v → k' ≠ k ∧ held j k' = some v := by
    intro j k' v hv
    rw [hheld] at hv
    split_ifs at hv with hthis
    refine ⟨?_, hv⟩
    rintro rfl
    refine hthis ⟨h.exclusive j i k' ?_ hown, rfl⟩
    rw [hv]
    exact some_ne_none v
  refine ⟨fun j k' v hv => ?_, fun j j' k' hj hj' => ?_, fun k' hk' hnone => ?_⟩
  · obtain ⟨hne, hv⟩ := hother hv
    rw [hget, if_neg hne]
    exact h.found j k' v hv
  · obtain ⟨v, hv⟩ := ne_none_iff_exists'.1 hj
    obtain ⟨v', hv'⟩ := ne_none_iff_exists'.1 hj'
    refine h.exclusive j j' k' ?_ ?_
    · rw [(hother hv).2]
      exact some_ne_none v
    · rw [(hother hv').2]
      exact some_ne_none v'
  · rw [hget]
    split_ifs with hk
    · rfl
    · refine h.gone k' (hused k' hk') fun j => ?_
      have hj := hnone j
      rwa [hheld, if_neg fun hthis => hk hthis.2] at hj

end

theorem aside (h : Leased get held used) (hget : ∀ k, (used k ∨ ∃ i, held i k ≠ none) → get' k = get k)
    (hheld : ∀ i k, held' i k = held i k) (hused : ∀ k, used' k → used k) : Leased get' held' used' := by
  refine ⟨fun i k v hv => ?_, fun i j k hi hj => ?_, fun k hk hnone => ?_⟩
  · rw [hheld] at hv
    rw [hget k (.inr ⟨i, by rw [hv]; exact some_ne_none v⟩)]
    exact h.found i k v hv
  · rw [hheld] at hi hj
    exact h.exclusive i j k hi hj
  · rw [hget k (.inl (hused k hk))]
    refine h.gone k (hused k hk) fun i => ?_
    rw [← hheld]
    exact hnone i

end Leased

end Lib
