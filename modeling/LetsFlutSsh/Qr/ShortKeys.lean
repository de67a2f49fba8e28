import LetsFlutSsh.Qr.Compose

/-!
# Short key ids

What the exporter's table of key texts holds when all sessions and keys went through it:

* `KeyDedup.Ok`: texts and short ids are in one-to-one correspondence;
* `SessionsIn`, `KeysIn`: what the table says about the sessions and the stored keys met so far;
* `exportedKeyTexts`: the key texts that travel as stored keys.
-/

namespace LetsFlutSsh.Qr
open Lib Archive List Option

variable {Text : Type}

/-! ## Numbered names -/

theorem numbered_injective (a : String) : Function.Injective fun n : Nat => a ++ toString n := by
  intro m n h
  have hchars : (toString m).toList = (toString n).toList := by
    have h' := congrArg String.toList h
    simpa using h'
  have hvalue := congrArg (fun l => Nat.ofDigitChars 10 l 0) hchars
  simpa using hvalue

theorem numbered_ne_empty (c : Char) (n : Nat) : String.ofList [c] ++ toString n ≠ "" := by
  intro h
  have hchars := congrArg String.toList h
  simp at hchars

variable {pem : String} {d : KeyDedup}

namespace KeyDedup

def short (d : KeyDedup) (pem : String) : Option String := d.keyToShort.lookup pem

/-- No text and no short id twice, and no empty text. -/
structure Ok (d : KeyDedup) : Prop where
  pems : (d.keyToShort.map Prod.fst).Nodup
  shorts : d.keyToShort.map Prod.snd = (List.range d.counter).map shortKey
  nonEmpty : ∀ e ∈ d.keyToShort, e.1 ≠ ""

theorem Ok.empty : ({} : KeyDedup).Ok := ⟨nodup_nil, rfl, fun _ h => absurd h not_mem_nil⟩

section Ok

variable (hd : d.Ok)

include hd

theorem Ok.mem_iff (pem s : String) : (pem, s) ∈ d.keyToShort ↔ d.short pem = some s :=
  Table.mem_rows_iff ⟨d.keyToShort, hd.pems⟩ pem s

theorem Ok.nodup_shorts : (d.keyToShort.map Prod.snd).Nodup := by
  rw [hd.shorts]
  exact nodup_range.map (numbered_injective "k")

theorem Ok.short_inj {p q s : String} (hp : d.short p = some s) (hq : d.short q = some s) : p = q := by
  have heq := inj_on_of_nodup_map hd.nodup_shorts ((hd.mem_iff p s).2 hp) ((hd.mem_iff q s).2 hq) rfl
  exact congrArg Prod.fst heq

theorem Ok.short_ne_empty {p s : String} (hp : d.short p = some s) : s ≠ "" := by
  have hmem : s ∈ d.keyToShort.map Prod.snd := mem_map.2 ⟨(p, s), (hd.mem_iff p s).2 hp, rfl⟩
  rw [hd.shorts, List.mem_map] at hmem
  obtain ⟨n, -, rfl⟩ := hmem
  exact numbered_ne_empty 'k' n

theorem Ok.pem_ne_empty {p s : String} (hp : d.short p = some s) : p ≠ "" :=
  hd.nonEmpty _ ((hd.mem_iff p s).2 hp)

theorem shortFor_spec (hpem : pem ≠ "") :
    (d.shortFor pem).2.Ok ∧ (d.shortFor pem).2.short pem = some (d.shortFor pem).1 ∧
      (∀ q, q ≠ pem → (d.shortFor pem).2.short q = d.short q) ∧
      (∀ s, d.short pem = some s → (d.shortFor pem).1 = s) ∧
      (d.shortFor pem).2.sessionShort = d.sessionShort ∧ (d.shortFor pem).2.managerShorts = d.managerShorts := by
  unfold shortFor
  rcases hlookup : d.keyToShort.lookup pem with _ | s
  · have hnew : pem ∉ d.keyToShort.map Prod.fst := by
      intro hmem
      obtain ⟨⟨p, s⟩, he, rfl⟩ := mem_map.1 hmem
      have hsome := (hd.mem_iff p s).1 he
      unfold short at hsome
      rw [hlookup] at hsome
      cases hsome
    have hok : KeyDedup.Ok { d with
        keyToShort := d.keyToShort ++ [(pem, shortKey d.counter)], counter := d.counter + 1 } := by
      refine ⟨?_, ?_, ?_⟩
      · rw [map_append, map_singleton, nodup_append]
        refine ⟨hd.pems, nodup_singleton pem, ?_⟩
        intro a ha b hb heq
        have hb' : b = pem := mem_singleton.1 hb
        exact hnew (hb' ▸ heq ▸ ha)
      · rw [map_append, hd.shorts, range_succ, map_append]
        rfl
      · intro e he
        rcases mem_append.1 he with he | he
        · exact hd.nonEmpty e he
        · rw [mem_singleton.1 he]
          exact hpem
    refine ⟨hok, ?_, ?_, ?_, rfl, rfl⟩
    · exact (hok.mem_iff pem _).1 (mem_append_right _ (mem_singleton_self _))
    · intro q hq
      show (d.keyToShort ++ [(pem, shortKey d.counter)]).lookup q = d.keyToShort.lookup q
      rw [lookup_append, Table.lookup_cons_ite, if_neg hq]
      simp
    · intro s hs
      unfold short at hs
      rw [hlookup] at hs
      cases hs
  · refine ⟨hd, hlookup, fun _ _ => rfl, ?_, rfl, rfl⟩
    intro s' hs'
    exact Option.some.inj (hlookup.symm.trans hs')

theorem short_shortFor (hpem : pem ≠ "") {q s : String} (hq : d.short q = some s) :
    (d.shortFor pem).2.short q = some s := by
  obtain ⟨-, hself, hother, hold, -, -⟩ := shortFor_spec hd hpem
  by_cases heq : q = pem
  · subst heq
    rw [hself, hold s hq]
  · rw [hother q heq, hq]

theorem isSome_short_shortFor (hpem : pem ≠ "") (q : String) :
    ((d.shortFor pem).2.short q).isSome ↔ (d.short q).isSome ∨ q = pem := by
  obtain ⟨-, hself, hother, -, -, -⟩ := shortFor_spec hd hpem
  by_cases heq : q = pem
  · subst heq
    simp [hself]
  · simp [hother q heq, heq]

end Ok

end KeyDedup

variable {s : SessionRow Text}

/-! ## Sessions -/

section Sessions

variable (db : Db Text) (input : QrExportInput Text)

theorem resolveSessionPem_ne_empty {m : Bool}
    (h : resolveSessionPem db input s = some (pem, m)) : pem ≠ "" := by
  unfold resolveSessionPem at h
  dsimp only at h
  split_ifs at h <;> simp_all

/-- What the table says about the sessions that went through it. -/
structure SessionsIn (done : List (SessionRow Text)) (d : KeyDedup) : Prop where
  ok : d.Ok
  known : ∀ s ∈ done, d.sessionShort.lookup s.id = (resolveSessionPem db input s).bind fun e => d.short e.1
  unknown : ∀ id, id ∉ done.map SessionRow.id → d.sessionShort.lookup id = none
  texts : ∀ pem, (d.short pem).isSome ↔ ∃ s ∈ done, ∃ m, resolveSessionPem db input s = some (pem, m)
  manager : ∀ short, short ∈ d.managerShorts ↔
    ∃ s ∈ done, ∃ pem, resolveSessionPem db input s = some (pem, true) ∧ d.short pem = some short

theorem sessionsIn_nil : SessionsIn db input [] {} where
  ok := .empty
  known _ h := absurd h not_mem_nil
  unknown _ _ := rfl
  texts _ := by simp [KeyDedup.short]
  manager _ := by simp

theorem sessionsIn_snoc {done : List (SessionRow Text)} (h : SessionsIn db input done d)
    (hs : s.id ∉ done.map SessionRow.id) :
    SessionsIn db input (done ++ [s]) (KeyDedup.addSessionKey db input d s) := by
  unfold KeyDedup.addSessionKey
  rcases hpem : resolveSessionPem db input s with _ | ⟨pem, m⟩
  · refine ⟨h.ok, ?_, ?_, ?_, ?_⟩
    · intro t ht
      rcases mem_append.1 ht with ht | ht
      · exact h.known t ht
      · rw [mem_singleton.1 ht, hpem]
        exact h.unknown s.id hs
    · intro id hid
      rw [map_append, mem_append, not_or] at hid
      exact h.unknown id hid.1
    · intro q
      rw [h.texts q]
      simp [hpem]
    · intro short
      rw [h.manager short]
      simp [hpem]
  · have hne : pem ≠ "" := resolveSessionPem_ne_empty db input hpem
    obtain ⟨hok, hself, -, -, hsession, hmanager⟩ := KeyDedup.shortFor_spec h.ok hne
    have hkeep : ∀ {q short}, d.short q = some short → (d.shortFor pem).2.short q = some short :=
      fun hq => KeyDedup.short_shortFor h.ok hne hq
    have hsame : ∀ t ∈ done, ∀ e, resolveSessionPem db input t = some e → (d.shortFor pem).2.short e.1 = d.short e.1 := by
      intro t ht e he
      obtain ⟨short, hshort⟩ := isSome_iff_exists.1 ((h.texts e.1).2 ⟨t, ht, e.2, he⟩)
      rw [hshort]
      exact hkeep hshort
    refine ⟨⟨hok.pems, hok.shorts, hok.nonEmpty⟩, ?_, ?_, ?_, ?_⟩
    · intro t ht
      show ((s.id, (d.shortFor pem).1) :: (d.shortFor pem).2.sessionShort).lookup t.id =
        (resolveSessionPem db input t).bind fun e => (d.shortFor pem).2.short e.1
      rw [Table.lookup_cons_ite, hsession]
      rcases mem_append.1 ht with ht | ht
      · have hid : t.id ≠ s.id := fun heq => hs (heq ▸ mem_map_of_mem ht)
        rw [if_neg hid, h.known t ht]
        rcases he : resolveSessionPem db input t with _ | e
        · rfl
        · exact (hsame t ht e he).symm
      · rw [mem_singleton.1 ht, if_pos rfl, hpem]
        exact hself.symm
    · intro id hid
      rw [map_append, mem_append, not_or] at hid
      have hne' : id ≠ s.id := fun heq => hid.2 (by simp [heq])
      rw [Table.lookup_cons_ite, if_neg hne', hsession]
      exact h.unknown id hid.1
    · intro q
      show ((d.shortFor pem).2.short q).isSome ↔ _
      rw [KeyDedup.isSome_short_shortFor h.ok hne, h.texts q]
      constructor
      · rintro (⟨t, ht, m', he⟩ | rfl)
        · exact ⟨t, mem_append_left _ ht, m', he⟩
        · exact ⟨s, by simp, m, hpem⟩
      · rintro ⟨t, ht, m', he⟩
        rcases mem_append.1 ht with ht | ht
        · exact .inl ⟨t, ht, m', he⟩
        · rw [mem_singleton.1 ht, hpem] at he
          cases he
          exact .inr rfl
    · intro short
      have hold : (∃ t ∈ done, ∃ q, resolveSessionPem db input t = some (q, true) ∧ d.short q = some short) ↔
          ∃ t ∈ done, ∃ q, resolveSessionPem db input t = some (q, true) ∧ (d.shortFor pem).2.short q = some short := by
        constructor
        · rintro ⟨t, ht, q, he, hq⟩
          exact ⟨t, ht, q, he, hkeep hq⟩
        · rintro ⟨t, ht, q, he, hq⟩
          exact ⟨t, ht, q, he, (hsame t ht _ he).symm.trans hq⟩
      have hlast : (∃ q, resolveSessionPem db input s = some (q, true) ∧ (d.shortFor pem).2.short q = some short) ↔
          m = true ∧ short = (d.shortFor pem).1 := by
        rw [hpem]
        constructor
        · rintro ⟨q, he, hq⟩
          cases he
          rw [hself] at hq
          exact ⟨rfl, (Option.some.inj hq).symm⟩
        · rintro ⟨rfl, rfl⟩
          exact ⟨pem, rfl, hself⟩
      have hmem : short ∈ (if m = true then (d.shortFor pem).1 :: (d.shortFor pem).2.managerShorts
          else (d.shortFor pem).2.managerShorts) ↔ (m = true ∧ short = (d.shortFor pem).1) ∨ short ∈ d.managerShorts := by
        rw [hmanager]
        rcases m with _ | _ <;> simp
      show short ∈ (if m = true then (d.shortFor pem).1 :: (d.shortFor pem).2.managerShorts
          else (d.shortFor pem).2.managerShorts) ↔
        ∃ t ∈ done ++ [s], ∃ q, resolveSessionPem db input t = some (q, true) ∧ (d.shortFor pem).2.short q = some short
      rw [hmem, h.manager short, hold, ← hlast]
      constructor
      · rintro (⟨q, hq⟩ | ⟨t, ht, hq⟩)
        · exact ⟨s, by simp, q, hq⟩
        · exact ⟨t, mem_append_left _ ht, hq⟩
      · rintro ⟨t, ht, hq⟩
        rcases mem_append.1 ht with ht | ht
        · exact .inr ⟨t, ht, hq⟩
        · rw [mem_singleton.1 ht] at hq
          exact .inl hq

theorem sessionsIn_addSessionKeys {rows : List (SessionRow Text)} (hids : (rows.map SessionRow.id).Nodup) :
    SessionsIn db input rows (KeyDedup.addSessionKeys db input {} rows) := by
  have hloop : ∀ rest done d, SessionsIn db input done d → ((done ++ rest).map SessionRow.id).Nodup →
      SessionsIn db input (done ++ rest) (KeyDedup.addSessionKeys db input d rest) := by
    intro rest
    induction rest with
    | nil =>
      intro done d h _
      rw [append_nil]
      exact h
    | cons s rest ih =>
      intro done d h hnodup
      have hs : s.id ∉ done.map SessionRow.id := by
        rw [map_append, map_cons, nodup_append] at hnodup
        exact fun hmem => hnodup.2.2 _ hmem _ mem_cons_self rfl
      rw [append_cons] at hnodup ⊢
      exact ih (done ++ [s]) _ (sessionsIn_snoc db input h hs) hnodup
  exact hloop rows [] {} (sessionsIn_nil db input) hids

end Sessions

variable {d₀ : KeyDedup}

/-! ## Stored keys -/

section Keys

def lastWith (keys : List SshKeyRow) (pem : String) : Option SshKeyRow := keys.reverse.find? fun k => k.privateKey = pem

theorem lastWith_snoc (keys : List SshKeyRow) (k : SshKeyRow) (pem : String) :
    lastWith (keys ++ [k]) pem = if k.privateKey = pem then some k else lastWith keys pem := by
  unfold lastWith
  rw [reverse_append, reverse_singleton, singleton_append, find?_cons]
  by_cases h : k.privateKey = pem
  · simp [h]
  · simp [h]

theorem isSome_lastWith (keys : List SshKeyRow) (pem : String) :
    (lastWith keys pem).isSome ↔ ∃ k ∈ keys, k.privateKey = pem := by
  simp [lastWith]

/-- What the table and the metadata say about the stored keys that went through, on top of the table `d₀`. -/
structure KeysIn (d₀ : KeyDedup) (done : List SshKeyRow) (r : KeyDedup × List (String × KeyMeta)) : Prop where
  ok : r.1.Ok
  kept : ∀ q s, d₀.short q = some s → r.1.short q = some s
  sessions : r.1.sessionShort = d₀.sessionShort
  texts : ∀ k ∈ done, k.privateKey ≠ "" → (r.1.short k.privateKey).isSome
  manager : ∀ s, s ∈ r.1.managerShorts ↔
    s ∈ d₀.managerShorts ∨ ∃ k ∈ done, k.privateKey ≠ "" ∧ r.1.short k.privateKey = some s
  infos : ∀ s m, r.2.lookup s = some m ↔ ∃ pem, r.1.short pem = some s ∧ ∃ k, lastWith done pem = some k ∧ m = metaOf k

theorem keysIn_nil (hd : d₀.Ok) : KeysIn d₀ [] (d₀, []) where
  ok := hd
  kept _ _ h := h
  sessions := rfl
  texts _ h := absurd h not_mem_nil
  manager _ := by simp
  infos _ _ := by simp [lastWith]

theorem keysIn_snoc {done : List SshKeyRow} {r : KeyDedup × List (String × KeyMeta)}
    (h : KeysIn d₀ done r) (k : SshKeyRow) : KeysIn d₀ (done ++ [k]) (foldManagerKey r k) := by
  unfold foldManagerKey
  split_ifs with hempty
  · refine ⟨h.ok, h.kept, h.sessions, ?_, ?_, ?_⟩
    · intro k' hk' hne
      rcases mem_append.1 hk' with hk' | hk'
      · exact h.texts k' hk' hne
      · rw [mem_singleton.1 hk'] at hne
        exact absurd hempty hne
    · intro s
      rw [h.manager s]
      simp [or_and_right, exists_or, hempty]
    · intro s m
      rw [h.infos s m]
      refine exists_congr fun pem => and_congr_right fun hpem => ?_
      rw [lastWith_snoc, if_neg]
      exact fun heq => h.ok.pem_ne_empty hpem (heq.symm.trans hempty)
  · obtain ⟨hok, hself, hother, -, hsession, hmanager⟩ := KeyDedup.shortFor_spec h.ok hempty
    have hkeep : ∀ {q s}, r.1.short q = some s → (r.1.shortFor k.privateKey).2.short q = some s :=
      fun hq => KeyDedup.short_shortFor h.ok hempty hq
    refine ⟨⟨hok.pems, hok.shorts, hok.nonEmpty⟩, fun q s hq => hkeep (h.kept q s hq), ?_, ?_, ?_, ?_⟩
    · exact hsession.trans h.sessions
    · intro k' hk' hne
      show ((r.1.shortFor k.privateKey).2.short k'.privateKey).isSome
      rw [KeyDedup.isSome_short_shortFor h.ok hempty]
      rcases mem_append.1 hk' with hk' | hk'
      · exact .inl (h.texts k' hk' hne)
      · exact .inr (by rw [mem_singleton.1 hk'])
    · intro s
      show s ∈ (r.1.shortFor k.privateKey).1 :: (r.1.shortFor k.privateKey).2.managerShorts ↔ s ∈ d₀.managerShorts ∨
          ∃ k' ∈ done ++ [k], k'.privateKey ≠ "" ∧ (r.1.shortFor k.privateKey).2.short k'.privateKey = some s
      rw [mem_cons, hmanager, h.manager s]
      constructor
      · rintro (rfl | hold | ⟨k', hk', hne, hs⟩)
        · exact .inr ⟨k, by simp, hempty, hself⟩
        · exact .inl hold
        · exact .inr ⟨k', mem_append_left _ hk', hne, hkeep hs⟩
      · rintro (hold | ⟨k', hk', hne, hs⟩)
        · exact .inr (.inl hold)
        · rcases mem_append.1 hk' with hk' | hk'
          · obtain ⟨s', hs'⟩ := isSome_iff_exists.1 (h.texts k' hk' hne)
            have heq : s' = s := Option.some.inj ((hkeep hs').symm.trans hs)
            exact .inr (.inr ⟨k', hk', hne, heq ▸ hs'⟩)
          · rw [mem_singleton.1 hk', hself] at hs
            exact .inl (Option.some.inj hs).symm
    · intro s m
      show (((r.1.shortFor k.privateKey).1, metaOf k) :: r.2).lookup s = some m ↔
        ∃ pem, (r.1.shortFor k.privateKey).2.short pem = some s ∧ ∃ k', lastWith (done ++ [k]) pem = some k' ∧ m = metaOf k'
      rw [Table.lookup_cons_ite]
      split_ifs with hs
      · subst hs
        constructor
        · intro hm
          exact ⟨k.privateKey, hself, k, by rw [lastWith_snoc, if_pos rfl], (Option.some.inj hm).symm⟩
        · rintro ⟨pem, hpem, k', hk', rfl⟩
          have heq : pem = k.privateKey := hok.short_inj hpem hself
          rw [heq, lastWith_snoc, if_pos rfl] at hk'
          rw [Option.some.inj hk']
      · rw [h.infos s m]
        refine exists_congr fun pem => ?_
        by_cases heq : pem = k.privateKey
        · subst heq
          constructor
          · rintro ⟨hpem, -⟩
            exact absurd (Option.some.inj ((hkeep hpem).symm.trans hself)) hs
          · rintro ⟨hpem, -⟩
            exact absurd (Option.some.inj (hpem.symm.trans hself)) hs
        · rw [hother pem heq, lastWith_snoc, if_neg (fun h => heq h.symm)]

theorem keysIn_foldl (hd : d₀.Ok) (keys : List SshKeyRow) :
    KeysIn d₀ keys (keys.foldl foldManagerKey (d₀, [])) := by
  have hloop : ∀ rest done r, KeysIn d₀ done r → KeysIn d₀ (done ++ rest) (rest.foldl foldManagerKey r) := by
    intro rest
    induction rest with
    | nil =>
      intro done r h
      rw [append_nil]
      exact h
    | cons k rest ih =>
      intro done r h
      rw [append_cons]
      exact ih (done ++ [k]) _ (keysIn_snoc h k)
  exact hloop keys [] _ (keysIn_nil hd)

/-! ## Both -/

section Export

variable (db : Db Text) (input : QrExportInput Text)

/-- The key texts that travel as stored keys: all of them, or those of the chosen sessions. -/
def exportedKeyTexts : List String :=
  if input.options.includeAllManagerKeys then ((SshKeys.listAll db).map SshKeyRow.privateKey).filter (· ≠ "")
  else if input.options.includeManagerKeys then
    (collectSessionRows db input).filterMap fun s =>
      (resolveSessionPem db input s).bind fun e => if e.2 then some e.1 else none
  else []

theorem nodup_listAll_ids : ((Sessions.listAll db).map SessionRow.id).Nodup := by
  unfold Sessions.listAll Sessions.listAllWithTombstones
  rw [List.map_map]
  have hkeys : ((db.sessions.rows.mergeSort Sessions.listedBefore).map Prod.fst).Nodup :=
    ((mergeSort_perm _ _).map _).nodup_iff.2 db.sessions.nodup
  refine Nodup.sublist (filter_sublist.map _) ?_
  rw [List.map_map]
  exact hkeys

theorem nodup_collectSessionRows : ((collectSessionRows db input).map SessionRow.id).Nodup := by
  unfold collectSessionRows
  split_ifs
  · exact (nodup_listAll_ids db).sublist (filter_sublist.map _)
  · exact nodup_nil

theorem exists_key_of_resolve
    (h : resolveSessionPem db input s = some (pem, true)) : ∃ k ∈ SshKeys.listAll db, k.privateKey = pem := by
  have hne := resolveSessionPem_ne_empty db input h
  unfold resolveSessionPem at h
  dsimp only at h
  split_ifs at h with h₁ h₂ h₃ h₄ h₅ h₆
  · rw [Option.some.injEq, Prod.mk.injEq] at h
    obtain ⟨rfl, -⟩ := h
    unfold privateKeyOf at hne ⊢
    rcases hfind : (SshKeys.listAll db).find? fun k => k.id = s.keyId.getD "" with _ | k
    · rw [hfind] at hne
      exact absurd rfl hne
    · refine ⟨k, mem_of_find?_eq_some hfind, ?_⟩
      rw [hfind]
      rfl
  · rw [Option.some.injEq, Prod.mk.injEq] at h
    exact absurd h.2 h₄

theorem keyByPem_of_exported (hpem : pem ∈ exportedKeyTexts db input) : ∃ k, keyByPem db pem = some k := by
  have hlisted : ∃ k ∈ SshKeys.listAll db, k.privateKey = pem := by
    unfold exportedKeyTexts at hpem
    split_ifs at hpem
    · exact mem_map.1 (mem_filter.1 hpem).1
    · obtain ⟨s, -, he⟩ := mem_filterMap.1 hpem
      obtain ⟨⟨q, m⟩, hresolve, hq⟩ := bind_eq_some_iff.1 he
      rcases m with _ | _
      · cases hq
      · cases hq
        exact exists_key_of_resolve db input hresolve
    · cases hpem
  exact isSome_iff_exists.1 ((isSome_lastWith (SshKeys.listAll db) pem).2 hlisted)

/-- The table of key texts and the metadata of an export. -/
structure KeysExported (r : KeyDedup × List (String × KeyMeta)) : Prop where
  ok : r.1.Ok
  session : ∀ s ∈ collectSessionRows db input,
    r.1.sessionShort.lookup s.id = (resolveSessionPem db input s).bind fun e => r.1.short e.1
  text : ∀ s ∈ collectSessionRows db input, ∀ e, resolveSessionPem db input s = some e → (r.1.short e.1).isSome
  key : ∀ pem ∈ exportedKeyTexts db input, (r.1.short pem).isSome
  manager : ∀ s, s ∈ r.1.managerShorts ↔ ∃ pem ∈ exportedKeyTexts db input, r.1.short pem = some s
  infos : ∀ s m, r.2.lookup s = some m ↔
    ∃ pem ∈ exportedKeyTexts db input, r.1.short pem = some s ∧ ∃ k, keyByPem db pem = some k ∧ m = metaOf k

theorem lookup_filterMap_of {α : Type} (g : String → Option α) (l : List String) (a : String) :
    (l.filterMap fun x => (g x).map fun b => (x, b)).lookup a = if a ∈ l then g a else none := by
  induction l with
  | nil => rfl
  | cons x l ih =>
    rw [filterMap_cons]
    rcases hx : g x with _ | b
    · rw [map_none]
      rw [ih]
      by_cases ha : a = x
      · subst ha
        simp [hx]
      · simp [ha]
    · rw [map_some]
      rw [Table.lookup_cons_ite, ih]
      by_cases ha : a = x
      · subst ha
        simp [hx]
      · simp [ha]

theorem exportedKeys_spec : KeysExported db input (exportedKeys db input) := by
  have hsessions := sessionsIn_addSessionKeys db input (nodup_collectSessionRows db input)
  unfold exportedKeys
  generalize KeyDedup.addSessionKeys db input {} (collectSessionRows db input) = d at hsessions ⊢
  unfold buildManagerMeta
  split_ifs with hall hmanager
  · have hkeys := keysIn_foldl hsessions.ok (SshKeys.listAll db)
    have htexts : ∀ pem, pem ∈ exportedKeyTexts db input ↔ pem ≠ "" ∧ ∃ k ∈ SshKeys.listAll db, k.privateKey = pem := by
      intro pem
      unfold exportedKeyTexts
      rw [if_pos hall]
      simp [and_comm]
    unfold foldAllManagerKeys
    refine ⟨hkeys.ok, ?_, ?_, ?_, ?_, ?_⟩
    · intro s hs
      rw [hkeys.sessions, hsessions.known s hs]
      rcases he : resolveSessionPem db input s with _ | e
      · rfl
      · obtain ⟨short, hshort⟩ := isSome_iff_exists.1 ((hsessions.texts e.1).2 ⟨s, hs, e.2, he⟩)
        rw [bind_some, bind_some, hshort, hkeys.kept _ _ hshort]
    · intro s hs e he
      obtain ⟨short, hshort⟩ := isSome_iff_exists.1 ((hsessions.texts e.1).2 ⟨s, hs, e.2, he⟩)
      rw [hkeys.kept _ _ hshort]
      rfl
    · intro pem hpem
      obtain ⟨hne, k, hk, rfl⟩ := (htexts pem).1 hpem
      exact hkeys.texts k hk hne
    · intro short
      rw [hkeys.manager short, hsessions.manager short]
      constructor
      · rintro (⟨s, hs, pem, he, hshort⟩ | ⟨k, hk, hne, hshort⟩)
        · exact ⟨pem, (htexts pem).2 ⟨resolveSessionPem_ne_empty db input he, exists_key_of_resolve db input he⟩,
            hkeys.kept _ _ hshort⟩
        · exact ⟨k.privateKey, (htexts _).2 ⟨hne, k, hk, rfl⟩, hshort⟩
      · rintro ⟨pem, hpem, hshort⟩
        obtain ⟨hne, k, hk, rfl⟩ := (htexts pem).1 hpem
        exact .inr ⟨k, hk, hne, hshort⟩
    · intro short m
      rw [hkeys.infos short m]
      constructor
      · rintro ⟨pem, hshort, k, hk, hm⟩
        have hlisted := (isSome_lastWith (SshKeys.listAll db) pem).1 (by rw [hk]; rfl)
        exact ⟨pem, (htexts pem).2 ⟨hkeys.ok.pem_ne_empty hshort, hlisted⟩, hshort, k, hk, hm⟩
      · rintro ⟨pem, -, hshort, k, hk, hm⟩
        exact ⟨pem, hshort, k, hk, hm⟩
  · have htexts : ∀ pem, pem ∈ exportedKeyTexts db input ↔
        ∃ s ∈ collectSessionRows db input, resolveSessionPem db input s = some (pem, true) := by
      intro pem
      unfold exportedKeyTexts
      rw [if_neg hall, if_pos hmanager, mem_filterMap]
      refine exists_congr fun s => and_congr_right fun _ => ?_
      rcases resolveSessionPem db input s with _ | ⟨q, m⟩
      · simp
      · rcases m with _ | _ <;> simp
    have hshorts : ∀ short, short ∈ d.managerShorts ↔ ∃ pem ∈ exportedKeyTexts db input, d.short pem = some short := by
      intro short
      rw [hsessions.manager short]
      constructor
      · rintro ⟨s, hs, pem, he, hshort⟩
        exact ⟨pem, (htexts pem).2 ⟨s, hs, he⟩, hshort⟩
      · rintro ⟨pem, hpem, hshort⟩
        obtain ⟨s, hs, he⟩ := (htexts pem).1 hpem
        exact ⟨s, hs, pem, he, hshort⟩
    refine ⟨hsessions.ok, hsessions.known, fun s hs e he => (hsessions.texts e.1).2 ⟨s, hs, e.2, he⟩, ?_, hshorts, ?_⟩
    · intro pem hpem
      obtain ⟨s, hs, he⟩ := (htexts pem).1 hpem
      exact (hsessions.texts pem).2 ⟨s, hs, true, he⟩
    intro short m
    have hfill : fillReferencedManagerMeta db d = d.managerShorts.filterMap fun short =>
        (((d.keyToShort.find? fun e => e.2 = short).bind fun e => keyByPem db e.1).map metaOf).map fun b => (short, b) := by
      refine filterMap_congr fun short _ => ?_
      generalize List.find? _ d.keyToShort = found
      rcases found with _ | e
      · rfl
      · rw [Option.map_map]
        rfl
    rw [hfill, lookup_filterMap_of]
    have hfind : ∀ {pem}, d.short pem = some short → d.keyToShort.find? (fun e => e.2 = short) = some (pem, short) := by
      intro pem hpem
      rcases hf : d.keyToShort.find? fun e => e.2 = short with _ | ⟨q, s⟩
      · rw [find?_eq_none] at hf
        exact absurd (decide_eq_true rfl) (hf (pem, short) ((hsessions.ok.mem_iff pem short).2 hpem))
      · have hs : s = short := by simpa using find?_some hf
        subst hs
        have hq := (hsessions.ok.mem_iff q s).1 (mem_of_find?_eq_some hf)
        rw [hf, hsessions.ok.short_inj hq hpem]
    constructor
    · intro hm
      split_ifs at hm with hin
      obtain ⟨pem, hpem, hshort⟩ := (hshorts short).1 hin
      rw [hfind hshort, bind_some] at hm
      obtain ⟨k, hk, rfl⟩ := map_eq_some_iff.1 hm
      exact ⟨pem, hpem, hshort, k, hk, rfl⟩
    · rintro ⟨pem, hpem, hshort, k, hk, rfl⟩
      rw [if_pos ((hshorts short).2 ⟨pem, hpem, hshort⟩), hfind hshort, bind_some, hk]
      rfl
  · have hnone : exportedKeyTexts db input = [] := by
      unfold exportedKeyTexts
      rw [if_neg hall, if_neg hmanager]
    have hsession : ∀ s pem, resolveSessionPem db input s ≠ some (pem, true) := by
      intro s pem he
      unfold resolveSessionPem at he
      simp only [hall, hmanager, Bool.not_false, Bool.or_self] at he
      split_ifs at he with h₁ h₂ h₃ h₄ <;> simp_all
    refine ⟨hsessions.ok, hsessions.known, fun s hs e he => (hsessions.texts e.1).2 ⟨s, hs, e.2, he⟩, ?_, ?_, ?_⟩
    · intro pem hpem
      rw [hnone] at hpem
      cases hpem
    · intro short
      rw [hsessions.manager short, hnone]
      simp [hsession]
    · intro short m
      rw [hnone]
      simp

end Export

end Keys

end LetsFlutSsh.Qr
