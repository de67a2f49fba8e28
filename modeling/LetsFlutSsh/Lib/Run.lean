/-!
# Runs of a partial step function

A system is a step function `step : σ → ι → Option σ`: a label that is not enabled gives nothing. A
schedule is a list of labels.

* `run step s ls` : the state after the labels, if all were enabled;
* `Along step ok s ls` : every step of the schedule is taken in a state where `ok` allows it;
* `along_append` : both parts of an allowed schedule are allowed;
* `along_of_invariant` : what an invariant makes of one condition on the steps, along a schedule;
* `run_invariant` : what every allowed step keeps holds at the end of every such run (`run_keeps`: every run);
* `run_invariant_iff` : when a step keeps an invariant only if it is allowed, the schedules that keep
  it throughout are the allowed ones;
* `foldl_fixes` : a loop keeps what every pass of it keeps;
* `foldl_establishes` : a loop reaches what one of its passes establishes and no later pass undoes;
* `foldlM_simulates` : a loop that may fail, beside a loop that goes on.
-/

namespace Lib
open List

variable {σ ι : Type}

def run (step : σ → ι → Option σ) : σ → List ι → Option σ
  | s, [] => some s
  | s, l :: ls => (step s l).bind fun s' => run step s' ls

/-- Every step is taken in a state where `ok` holds of its label. -/
def Along (step : σ → ι → Option σ) (ok : σ → ι → Prop) : σ → List ι → Prop
  | _, [] => True
  | s, l :: ls => ok s l ∧ ∀ s', step s l = some s' → Along step ok s' ls

variable {step : σ → ι → Option σ} {ok : σ → ι → Prop} {ls : List ι} {s t : σ}

theorem run_cons {l : ι} (h : run step s (l :: ls) = some t) :
    ∃ s', step s l = some s' ∧ run step s' ls = some t :=
  Option.bind_eq_some_iff.mp h

theorem along_cons {s' : σ} {l : ι} (hstep : step s l = some s') (hok : ok s l)
    (hrest : Along step ok s' ls) : Along step ok s (l :: ls) := by
  refine ⟨hok, fun t ht => ?_⟩
  rw [hstep] at ht
  cases ht
  exact hrest

theorem along_and {ok' : σ → ι → Prop} (h : Along step ok s ls) (h' : Along step ok' s ls) :
    Along step (fun s l => ok s l ∧ ok' s l) s ls := by
  induction ls generalizing s with
  | nil => trivial
  | cons l ls ih => exact ⟨⟨h.1, h'.1⟩, fun s' hs' => ih (h.2 s' hs') (h'.2 s' hs')⟩

theorem run_append (s : σ) (ls ms : List ι) : run step s (ls ++ ms) = (run step s ls).bind fun t => run step t ms := by
  induction ls generalizing s with
  | nil => rfl
  | cons l ls ih =>
    rw [cons_append, run, run]
    rcases step s l with _ | s'
    · rfl
    · exact ih s'

theorem along_append {ms : List ι} (h : Along step ok s (ls ++ ms)) :
    Along step ok s ls ∧ ∀ t, run step s ls = some t → Along step ok t ms := by
  induction ls generalizing s with
  | nil =>
    refine ⟨trivial, fun t ht => ?_⟩
    cases ht
    exact h
  | cons l ls ih =>
    refine ⟨⟨h.1, fun s' hs' => (ih (h.2 s' hs')).1⟩, fun t ht => ?_⟩
    obtain ⟨s', hs', hrest⟩ := run_cons ht
    exact (ih (h.2 s' hs')).2 t hrest

theorem along_of_forall
    (h : ∀ pre l post, ls = pre ++ l :: post → ∀ t, run step s pre = some t → ok t l) : Along step ok s ls := by
  induction ls generalizing s with
  | nil => trivial
  | cons l ls ih =>
    refine ⟨h [] l ls rfl s rfl, fun s' hs' => ih fun pre k post hsplit t ht => ?_⟩
    refine h (l :: pre) k post (by rw [hsplit]; rfl) t ?_
    rw [run, hs']
    exact ht

variable {I : σ → Prop}

theorem along_of_invariant {ok' : σ → ι → Prop} (hstep : ∀ s l s', I s → ok s l → step s l = some s' → I s')
    (h : ∀ s l, I s → ok s l → ok' s l) (hs : I s) (hok : Along step ok s ls) : Along step ok' s ls := by
  induction ls generalizing s with
  | nil => trivial
  | cons l ls ih => exact ⟨h s l hs hok.1, fun s' hs' => ih (hstep s l s' hs hok.1 hs') (hok.2 s' hs')⟩

theorem run_invariant (hstep : ∀ s l s', I s → ok s l → step s l = some s' → I s')
    {s t : σ} (hs : I s) (hok : Along step ok s ls) (hrun : run step s ls = some t) :
    I t := by
  induction ls generalizing s with
  | nil =>
    cases hrun
    exact hs
  | cons l ls ih =>
    obtain ⟨s', hstep', hrest⟩ := run_cons hrun
    exact ih (hstep s l s' hs hok.1 hstep') (hok.2 s' hstep') hrest

theorem run_keeps (hstep : ∀ s l s', I s → step s l = some s' → I s') {s t : σ} (hs : I s)
    (hrun : run step s ls = some t) : I t := by
  have halong : ∀ {s : σ} {ls : List ι}, Along step (fun _ _ => True) s ls := by
    intro s ls
    induction ls generalizing s with
    | nil => trivial
    | cons l ls ih => exact ⟨trivial, fun _ _ => ih⟩
  exact run_invariant (fun s l s' hI _ h => hstep s l s' hI h) hs halong hrun

def checks (step : σ → ι → Option σ) (test : σ → ι → Bool) : σ → List ι → Bool
  | _, [] => true
  | s, l :: ls => test s l && (step s l).all fun s' => checks step test s' ls

theorem along_of_checks {test : σ → ι → Bool} (htest : ∀ s l, test s l = true → ok s l)
    (h : checks step test s ls = true) : Along step ok s ls := by
  induction ls generalizing s with
  | nil => trivial
  | cons l ls ih =>
    rw [checks, Bool.and_eq_true] at h
    refine ⟨htest s l h.1, fun s' hs' => ih ?_⟩
    have hrest := h.2
    rw [hs', Option.all_some] at hrest
    exact hrest

theorem run_invariant_iff {J : σ → Prop} (hJ : ∀ s l s', J s → step s l = some s' → J s')
    (hstep : ∀ s l s', J s → I s → step s l = some s' → (I s' ↔ ok s l)) (hs : J s)
    (hI : I s) (hrun : run step s ls = some t) :
    (∀ pre, pre <+: ls → ∀ u, run step s pre = some u → I u) ↔ Along step ok s ls := by
  induction ls generalizing s with
  | nil =>
    refine ⟨fun _ => trivial, fun _ pre hpre u hu => ?_⟩
    rw [prefix_nil.mp hpre] at hu
    cases hu
    exact hI
  | cons l ls ih =>
    obtain ⟨s', hs', hrest⟩ := run_cons hrun
    have hiff := hstep s l s' hs hI hs'
    refine ⟨fun h => ?_, fun h pre hpre u hu => ?_⟩
    · have hI' : I s' := h [l] ⟨ls, rfl⟩ s' (by rw [run, hs']; rfl)
      refine along_cons hs' (hiff.mp hI') ((ih (hJ s l s' hs hs') hI' hrest).mp fun pre hpre u hu => ?_)
      refine h (l :: pre) (cons_prefix_cons.mpr ⟨rfl, hpre⟩) u ?_
      rw [run, hs']
      exact hu
    · rcases pre with _ | ⟨k, pre⟩
      · cases hu
        exact hI
      · obtain ⟨rfl, hpre'⟩ := cons_prefix_cons.mp hpre
        obtain ⟨s'', hs'', hu'⟩ := run_cons hu
        rw [hs'] at hs''
        cases hs''
        exact (ih (hJ s k s' hs hs') (hiff.mpr h.1) hrest).mpr (h.2 s' hs') pre hpre' u hu'

variable {f : σ → ι → σ} {l : List ι}

theorem foldl_fixes {β : Type} (g : σ → β)
    (h : ∀ s, ∀ a ∈ l, g (f s a) = g s) (s : σ) : g (l.foldl f s) = g s := by
  induction l generalizing s with
  | nil => rfl
  | cons a l ih =>
    rw [foldl_cons, ih (fun s b hb => h s b (mem_cons_of_mem a hb)), h s a mem_cons_self]

theorem foldl_invariant (h : ∀ s, ∀ a ∈ l, I s → I (f s a)) (hs : I s) : I (l.foldl f s) := by
  induction l generalizing s with
  | nil => exact hs
  | cons a l ih =>
    exact ih (fun s b hb => h s b (mem_cons_of_mem a hb)) (h s a mem_cons_self hs)

variable {P : σ → Prop}

theorem foldl_establishes (hI : ∀ s, ∀ a ∈ l, I s → I (f s a))
    (hkeep : ∀ s, ∀ a ∈ l, I s → P s → P (f s a)) {a : ι} (ha : a ∈ l) (hhit : ∀ s, I s → P (f s a))
    (hs : I s) : P (l.foldl f s) := by
  obtain ⟨pre, post, rfl⟩ := append_of_mem ha
  rw [foldl_append, foldl_cons]
  have hpre : I (pre.foldl f s) :=
    foldl_invariant (fun s b hb => hI s b (mem_append_left _ hb)) hs
  refine (foldl_invariant (I := fun s => I s ∧ P s) (fun s b hb h => ?_) ⟨hI _ a ha hpre, hhit _ hpre⟩).2
  have hb' : b ∈ pre ++ a :: post := mem_append_right _ (mem_cons_of_mem a hb)
  exact ⟨hI s b hb' h.1, hkeep s b hb' h.1 h.2⟩

theorem foldl_or_iff {H : ι → Prop}
    (hI : ∀ s, ∀ a ∈ l, I s → I (f s a)) (h : ∀ s, ∀ a ∈ l, I s → (P (f s a) ↔ P s ∨ H a)) (hs : I s) :
    P (l.foldl f s) ↔ P s ∨ ∃ a ∈ l, H a := by
  induction l generalizing s with
  | nil => simp
  | cons a l ih =>
    rw [foldl_cons, ih (fun s b hb => hI s b (mem_cons_of_mem a hb))
      (fun s b hb => h s b (mem_cons_of_mem a hb)) (hI s a mem_cons_self hs),
      h s a mem_cons_self hs, or_assoc]
    simp

theorem foldl_at_split {κ β : Type} {v : σ → κ → β} {key : ι → κ} {pre post : List ι} {a : ι}
    (hother : ∀ s, ∀ b ∈ l, ∀ k, k ≠ key b → v (f s b) k = v s k) (hkeys : (l.map key).Nodup)
    (hsplit : l = pre ++ a :: post) (s : σ) :
    v (pre.foldl f s) (key a) = v s (key a) ∧ v (l.foldl f s) (key a) = v (f (pre.foldl f s) a) (key a) := by
  subst hsplit
  rw [map_append, map_cons, nodup_append] at hkeys
  refine ⟨?_, ?_⟩
  · refine foldl_fixes (fun s => v s (key a)) (fun s b hb => ?_) s
    refine hother s b (mem_append_left _ hb) _ fun heq => ?_
    exact hkeys.2.2 (key b) (mem_map_of_mem hb) (key a) mem_cons_self heq.symm
  · rw [foldl_append, foldl_cons]
    refine foldl_fixes (fun s => v s (key a)) (fun s b hb => ?_) _
    refine hother s b (mem_append_right _ (mem_cons_of_mem a hb)) _ fun heq => ?_
    refine (nodup_cons.mp hkeys.2.1).1 ?_
    rw [heq]
    exact mem_map_of_mem hb

theorem foldlM_simulates {ε τ : Type} {f : σ → ι → Except ε σ} {g : τ → ι → τ} {R : Except ε σ → τ → Prop}
    (hok : ∀ s t, ∀ a ∈ l, R (.ok s) t → R (f s a) (g t a)) (herror : ∀ e t a, R (.error e) t → R (.error e) (g t a))
    {t : τ} (h : R (.ok s) t) : R (l.foldlM f s) (l.foldl g t) := by
  induction l generalizing s t with
  | nil => exact h
  | cons a l ih =>
    rw [foldlM_cons, foldl_cons]
    have hpass := hok s t a mem_cons_self h
    cases hf : f s a with
    | ok s' =>
      rw [hf] at hpass
      exact ih (fun s t b hb => hok s t b (mem_cons_of_mem a hb)) hpass
    | error e =>
      rw [hf] at hpass
      exact foldl_invariant (fun t a _ => herror e t a) hpass

theorem foldlM_keeps {ε : Type} {f : σ → ι → Except ε σ}
    (hstep : ∀ x ∈ l, ∀ s s', P s → f s x = .ok s' → P s') {s' : σ} (h : P s) (hok : l.foldlM f s = .ok s') : P s' := by
  induction l generalizing s with
  | nil =>
    cases hok
    exact h
  | cons x l ih =>
    obtain ⟨hx, hl⟩ := forall_mem_cons.1 hstep
    rw [foldlM_cons] at hok
    rcases hone : f s x with e | s₁
    · rw [hone] at hok
      cases hok
    · rw [hone] at hok
      exact ih hl (hx s s₁ h hone) hok

end Lib
