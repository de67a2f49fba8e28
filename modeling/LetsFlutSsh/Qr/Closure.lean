import LetsFlutSsh.Qr.RoundTrip

/-!
# References of a decoded payload

* `ReferentiallyClosed` : what an import refers to, it brings along;
* `Covered` : what a payload has to bring for that;
* `closed_iff_covered` : and exactly then the decoded import is closed.
-/

namespace LetsFlutSsh.Qr
open Lib Archive List Option

variable {Text : Type}

def Has (J : JsonText Text) (entry : Option Text) (id : String) : Prop := ∃ v ∈ itemsOf J entry, jsonString v "id" = id

/-- Every reference of an import is to something that comes with it. -/
structure ReferentiallyClosed (J : JsonText Text) (p : FullImport Text) : Prop where
  keys : ∀ s ∈ itemsOf J p.sessionsJson, ∀ k, (s.member "key_id").bind Json.asStr = some k → Has J p.keysJson k
  sessionTags : ∀ l ∈ itemsOf J p.sessionTagsJson,
    Has J p.sessionsJson (jsonString l "session_id") ∧ Has J p.tagsJson (jsonString l "tag_id")
  sessionSnippets : ∀ l ∈ itemsOf J p.sessionSnippetsJson,
    Has J p.sessionsJson (jsonString l "session_id") ∧ Has J p.snippetsJson (jsonString l "snippet_id")
  folderTags : ∀ l ∈ itemsOf J p.folderTagsJson, Has J p.tagsJson (jsonString l "tag_id")

def payloadObject (W : Wire Text) (J : JsonText Text) (payload : String) : Option Json.Object :=
  match decodeToJsonText W payload with
  | .error _ => none
  | .ok text =>
    match J.fromStr text with
    | .error _ => none
    | .ok json => json.asObject

def objectsAt (obj : Json.Object) (k : String) : List Json.Object :=
  (((obj.get k).bind Json.asArray).getD []).filterMap Json.asObject

def textAt (m : Json.Object) (k : String) : Option String := (m.get k).bind Json.asStr

/-- A link section whose links of sessions that came along name entries that came along. -/
def LinksCovered (obj : Json.Object) (links other entries : String) : Prop :=
  ∀ m ∈ objectsAt obj links, ∀ si, textAt m "si" = some si → (∃ s ∈ objectsAt obj "s", textAt s "i" = some si) →
    ∀ x, textAt m other = some x → ∃ t ∈ objectsAt obj entries, textOf t "i" = x

/-- What a payload refers to, it brings along. -/
structure Covered (obj : Json.Object) : Prop where
  /-- A manager key whose text came along has its description, too. -/
  keys : ∀ m ∈ objectsAt obj "s", (m.get "mg").bind Json.asI64 = some 1 → ∀ short, textAt m "ki" = some short →
    short ≠ "" → (parseKeyMap obj short).isSome →
    ∃ info, ((obj.get "mk").bind Json.asObject).bind (·.get short) = some (.obj info)
  tags : LinksCovered obj "st" "ti" "tg"
  snippets : LinksCovered obj "ss" "ni" "sn"
  folderTags : ∀ m ∈ objectsAt obj "ft", ∃ t ∈ objectsAt obj "tg", textOf t "i" = textOf m "ti"

variable {k : String}
variable (m : Json.Object)
variable {uuid : Nat → String} {obj : Json.Object}

section Sections
variable {keyMap : String → Option String}

theorem mem_overObjects {f : Json.Object → Option Json} {v : Json} :
    v ∈ overObjects obj k f ↔ ∃ m ∈ objectsAt obj k, f m = some v := by
  unfold overObjects objectsAt
  rw [mem_filterMap]
  constructor
  · rintro ⟨a, ha, hv⟩
    obtain ⟨m, hm, hv⟩ := bind_eq_some_iff.1 hv
    exact ⟨m, mem_filterMap.2 ⟨a, ha, hm⟩, hv⟩
  · rintro ⟨m, hm, hv⟩
    obtain ⟨a, ha, hm⟩ := mem_filterMap.1 hm
    exact ⟨a, ha, by rw [hm, bind_some, hv]⟩

theorem exists_mem_overObjects {f : Json.Object → Json} {P : Json → Prop} :
    (∃ v ∈ overObjects obj k fun m => some (f m), P v) ↔ ∃ m ∈ objectsAt obj k, P (f m) := by
  simp only [mem_overObjects, Option.some.injEq]
  constructor
  · rintro ⟨_, ⟨m, hm, rfl⟩, h⟩
    exact ⟨m, hm, h⟩
  · rintro ⟨m, hm, h⟩
    exact ⟨_, ⟨m, hm, rfl⟩, h⟩

theorem jsonString_decodeTag : jsonString (decodeTag m) "id" = textOf m "i" := by
  simp [jsonString, decodeTag, get_insertOpt]

theorem jsonString_decodeSnippet : jsonString (decodeSnippet m) "id" = textOf m "i" := by
  simp [jsonString, decodeSnippet]

theorem jsonString_decodeSession (keyMap : String → Option String) (id : String) :
    jsonString (decodeSession keyMap id m) "id" = id := by
  simp [jsonString, decodeSession_eq, get_insertNonEmpty, decodedFields]

theorem keyId_decodeSession (keyMap : String → Option String) (id : String) :
    ((decodeSession keyMap id m).member "key_id").bind Json.asStr =
      if decodedKeyId keyMap m = "" then none else some (decodedKeyId keyMap m) := by
  rw [decodeSession_eq, Json.member_obj, get_insertNonEmpty]
  by_cases hempty : decodedKeyId keyMap m = ""
  · simp [hempty, decodedFields]
  · simp [hempty]

theorem decodedKeyId_eq_iff {m : Json.Object} {short : String} (hne : short ≠ "") : decodedKeyId keyMap m = short ↔
    (m.get "mg").bind Json.asI64 = some 1 ∧ textAt m "ki" = some short ∧ (keyMap short).isSome := by
  unfold decodedKeyId textAt
  by_cases hmg : (m.get "mg").bind Json.asI64 = some 1
  · rw [if_pos hmg]
    rcases hki : (m.get "ki").bind Json.asStr with _ | k
    · simp [hne.symm]
    by_cases hk : (keyMap k).isSome
    · simp only [filter_some, hk, if_true, getD_some, hmg, true_and, Option.some.injEq]
      exact ⟨fun h => ⟨h, h ▸ hk⟩, And.left⟩
    · simp only [filter_some, hk, Bool.false_eq_true, if_false, getD_none, hmg, true_and, Option.some.injEq]
      refine ⟨fun h => absurd h.symm hne, ?_⟩
      rintro ⟨rfl, h⟩
      exact absurd h hk
  · rw [if_neg hmg]
    exact ⟨fun h => absurd h.symm hne, fun h => absurd h.1 hmg⟩

theorem parseSessionsLoop_objects (arr : List Json) (remap : List (String × String)) (out : List Json) :
    parseSessionsLoop keyMap uuid arr remap out =
      (out ++ ((arr.filterMap Json.asObject).zipIdx out.length).map (fun e => decodeSession keyMap (uuid e.2) e.1),
        (((arr.filterMap Json.asObject).zipIdx out.length).filterMap fun e =>
          (textAt e.1 "i").map fun short => (short, uuid e.2)).reverse ++ remap) := by
  induction arr generalizing remap out with
  | nil => simp [parseSessionsLoop]
  | cons entry arr ih =>
    rw [parseSessionsLoop]
    rcases hentry : entry.asObject with _ | m
    · rw [filterMap_cons_none hentry]
      exact ih remap out
    dsimp only
    rw [ih, filterMap_cons_some hentry, zipIdx_cons, map_cons, length_append, length_singleton,
      append_assoc, singleton_append]
    rcases hi : (m.get "i").bind Json.asStr with _ | short
    · rw [filterMap_cons_none (by rw [textAt, hi, map_none]), elim_none]
    · rw [filterMap_cons_some (by rw [textAt, hi, map_some]), elim_some, reverse_cons, append_assoc, singleton_append]

theorem mem_parseSessions {v : Json} : v ∈ (parseSessions obj keyMap uuid).1 ↔
    ∃ e ∈ (objectsAt obj "s").zipIdx, v = decodeSession keyMap (uuid e.2) e.1 := by
  rw [parseSessions, parseSessionsLoop_objects, nil_append, List.mem_map]
  exact exists_congr fun e => and_congr_right fun _ => eq_comm

theorem session_of_remap {si id : String} (h : (parseSessions obj keyMap uuid).2.lookup si = some id) :
    (∃ s ∈ objectsAt obj "s", textAt s "i" = some si) ∧ ∃ v ∈ (parseSessions obj keyMap uuid).1, jsonString v "id" = id := by
  obtain ⟨l₁, l₂, hsplit, -⟩ := lookup_eq_some_iff.1 h
  have hmem : (si, id) ∈ (parseSessions obj keyMap uuid).2 := by
    rw [hsplit]
    exact mem_append_right _ mem_cons_self
  rw [parseSessions, parseSessionsLoop_objects, append_nil, mem_reverse, mem_filterMap] at hmem
  obtain ⟨e, he, hpair⟩ := hmem
  obtain ⟨short, hshort, heq⟩ := map_eq_some_iff.1 hpair
  cases heq
  exact ⟨⟨e.1, fst_mem_of_mem_zipIdx he, hshort⟩, _, mem_parseSessions.2 ⟨e, he, rfl⟩, jsonString_decodeSession _ _ _⟩

theorem remap_of_session (keyMap : String → Option String) (uuid : Nat → String) {si : String} (h : ∃ s ∈ objectsAt obj "s", textAt s "i" = some si) :
    ∃ id, (parseSessions obj keyMap uuid).2.lookup si = some id := by
  obtain ⟨s, hs, hi⟩ := h
  obtain ⟨n, hn⟩ := getElem?_of_mem hs
  have hzip : (s, n) ∈ (objectsAt obj "s").zipIdx := mem_zipIdx_iff_getElem?.2 hn
  rw [← isSome_iff_exists, lookup_isSome_iff]
  refine ⟨(si, uuid n), ?_, beq_self_eq_true si⟩
  rw [parseSessions, parseSessionsLoop_objects, append_nil, mem_reverse, mem_filterMap]
  exact ⟨(s, n), hzip, by rw [hi, map_some]⟩

theorem exists_mem_parseManagerKeys : (∃ v ∈ parseManagerKeys obj (parseKeyMap obj), jsonString v "id" = k) ↔
    (∃ info, ((obj.get "mk").bind Json.asObject).bind (·.get k) = some (.obj info)) ∧ (parseKeyMap obj k).isSome := by
  have hid : ∀ short pem info, jsonString (keyEntry short pem info) "id" = short := fun short pem info => by
    rw [jsonString_keyEntry, if_pos rfl]
  simp only [mem_parseManagerKeys]
  constructor
  · rintro ⟨_, ⟨short, pem, info, ⟨mk, hmk, hget⟩, hpem, rfl⟩, hk⟩
    rw [hid] at hk
    subst hk
    exact ⟨⟨info, by rw [hmk, bind_some, hget]⟩, by rw [hpem, isSome_some]⟩
  · rintro ⟨⟨info, hinfo⟩, hpem⟩
    obtain ⟨mk, hmk, hget⟩ := bind_eq_some_iff.1 hinfo
    obtain ⟨pem, hpem⟩ := isSome_iff_exists.1 hpem
    exact ⟨_, ⟨k, pem, info, ⟨mk, hmk, hget⟩, hpem, rfl⟩, hid _ _ _⟩

end Sections

section Closed
variable {J : JsonText Text}

theorem has_vecToJson {items : List Json} {id : String} :
    Has J (vecToJson J items) id ↔ ∃ v ∈ items, jsonString v "id" = id := by
  rw [Has, itemsOf_vecToJson]

theorem mem_sessionLinks {key otherIn otherOut : String} {remap : List (String × String)} {l : Json} :
    l ∈ parseRemappedSessionLinks obj key otherIn otherOut remap ↔ ∃ m ∈ objectsAt obj key,
      ∃ si, textAt m "si" = some si ∧ ∃ mapped, remap.lookup si = some mapped ∧
        ∃ other, textAt m otherIn = some other ∧ linkValue "session_id" otherOut mapped other = l := by
  rw [parseRemappedSessionLinks, mem_overObjects]
  simp only [bind_eq_some_iff, map_eq_some_iff, textAt]

theorem sessionLinks_iff (keyMap : String → Option String) (key otherIn otherOut entries : String)
    (hout : "session_id" ≠ otherOut) {f : Json.Object → Json} (hf : ∀ m, jsonString (f m) "id" = textOf m "i") :
    (∀ l ∈ parseRemappedSessionLinks obj key otherIn otherOut (parseSessions obj keyMap uuid).2,
        (∃ v ∈ (parseSessions obj keyMap uuid).1, jsonString v "id" = jsonString l "session_id") ∧
          ∃ v ∈ overObjects obj entries fun m => some (f m), jsonString v "id" = jsonString l otherOut) ↔
      LinksCovered obj key otherIn entries := by
  have hread : ∀ mapped other, jsonString (linkValue "session_id" otherOut mapped other) "session_id" = mapped ∧
      jsonString (linkValue "session_id" otherOut mapped other) otherOut = other :=
    fun mapped other => Prod.ext_iff.1 (readLink_linkValue hout mapped other)
  constructor
  · intro h m hm si hsi hsession x hx
    obtain ⟨mapped, hmapped⟩ := remap_of_session keyMap uuid hsession
    have hlink := (h _ (mem_sessionLinks.2 ⟨m, hm, si, hsi, mapped, hmapped, x, hx, rfl⟩)).2
    rw [(hread mapped x).2, exists_mem_overObjects] at hlink
    obtain ⟨t, ht, hid⟩ := hlink
    exact ⟨t, ht, (hf t).symm.trans hid⟩
  · intro h l hl
    obtain ⟨m, hm, si, hsi, mapped, hmapped, x, hx, rfl⟩ := mem_sessionLinks.1 hl
    obtain ⟨hsession, hentry⟩ := session_of_remap hmapped
    obtain ⟨t, ht, hid⟩ := h m hm si hsi hsession x hx
    rw [(hread mapped x).1, (hread mapped x).2, exists_mem_overObjects]
    exact ⟨hentry, t, ht, (hf t).trans hid⟩

theorem keys_iff : (∀ s ∈ (parseSessions obj (parseKeyMap obj) uuid).1, ∀ k, (s.member "key_id").bind Json.asStr = some k →
      ∃ v ∈ parseManagerKeys obj (parseKeyMap obj), jsonString v "id" = k) ↔
    ∀ m ∈ objectsAt obj "s", (m.get "mg").bind Json.asI64 = some 1 → ∀ short, textAt m "ki" = some short →
      short ≠ "" → (parseKeyMap obj short).isSome →
      ∃ info, ((obj.get "mk").bind Json.asObject).bind (·.get short) = some (.obj info) := by
  constructor
  · intro h m hm hmg short hki hne hpem
    obtain ⟨n, hn⟩ := getElem?_of_mem hm
    have hkey := (decodedKeyId_eq_iff hne).2 ⟨hmg, hki, hpem⟩
    refine (exists_mem_parseManagerKeys.1 (h _ (mem_parseSessions.2 ⟨(m, n), mem_zipIdx_iff_getElem?.2 hn, rfl⟩)
      short ?_)).1
    rw [keyId_decodeSession, hkey, if_neg hne]
  · intro h s hs k hk
    obtain ⟨e, he, rfl⟩ := mem_parseSessions.1 hs
    rw [keyId_decodeSession] at hk
    split at hk
    · cases hk
    · next hne =>
      cases hk
      obtain ⟨hmg, hki, hpem⟩ := (decodedKeyId_eq_iff hne).1 rfl
      exact exists_mem_parseManagerKeys.2 ⟨h e.1 (fst_mem_of_mem_zipIdx he) hmg _ hki hne hpem, hpem⟩

theorem folderTags_iff : (∀ l ∈ parseFolderTags obj, ∃ v ∈ parseTags obj, jsonString v "id" = jsonString l "tag_id") ↔
    ∀ m ∈ objectsAt obj "ft", ∃ t ∈ objectsAt obj "tg", textOf t "i" = textOf m "ti" := by
  have hread : ∀ path tag, jsonString (linkValue "folder_path" "tag_id" path tag) "tag_id" = tag := fun path tag =>
    (Prod.ext_iff.1 (readLink_linkValue (a := "folder_path") (b := "tag_id") (by decide) path tag)).2
  have hentry : ∀ id, (∃ v ∈ parseTags obj, jsonString v "id" = id) ↔ ∃ t ∈ objectsAt obj "tg", textOf t "i" = id :=
    fun id => by
      rw [parseTags, exists_mem_overObjects]
      simp only [jsonString_decodeTag]
  simp only [hentry, parseFolderTags, mem_overObjects, Option.some.injEq]
  constructor
  · intro h m hm
    have htag := h _ ⟨m, hm, rfl⟩
    rwa [hread] at htag
  · rintro h _ ⟨m, hm, rfl⟩
    rw [hread]
    exact h m hm

theorem closed_pendingOf : ReferentiallyClosed J (pendingOf J uuid obj) ↔ Covered obj := by
  have htags := @sessionLinks_iff uuid obj (parseKeyMap obj) "st" "ti" "tag_id" "tg" (by decide) _ jsonString_decodeTag
  have hsnippets := @sessionLinks_iff uuid obj (parseKeyMap obj) "ss" "ni" "snippet_id" "sn" (by decide) _
    jsonString_decodeSnippet
  constructor
  · rintro ⟨hk, hst, hss, hft⟩
    simp only [pendingOf, itemsOf_vecToJson, has_vecToJson] at hk hst hss hft
    exact ⟨keys_iff.1 hk, htags.1 hst, hsnippets.1 hss, folderTags_iff.1 hft⟩
  · rintro ⟨hk, hst, hss, hft⟩
    constructor <;> simp only [pendingOf, itemsOf_vecToJson, has_vecToJson]
    · exact keys_iff.2 hk
    · exact htags.2 hst
    · exact hsnippets.2 hss
    · exact folderTags_iff.2 hft

end Closed

/-- **An accepted payload is read as a closed import** exactly when it covers what it refers to. -/
theorem closed_iff_covered {W : Wire Text} {J : JsonText Text} {uuid : Nat → String} {payload : String}
    {d : DecodedQrPayload Text} (h : decodePayload W J uuid payload = .ok d) :
    ∃ obj, payloadObject W J payload = some obj ∧ (ReferentiallyClosed J d.pending ↔ Covered obj) := by
  obtain ⟨text, obj, htext, hjson, hpending⟩ := pending_of_decodePayload h
  refine ⟨obj, ?_, by rw [hpending, closed_pendingOf]⟩
  rw [payloadObject, htext]
  dsimp only
  rw [hjson]
  rfl

/-- A session with a key of the key map that the list of keys leaves out. -/
def strayObject : Json.Object :=
  [("km", .obj [("k0", .str "PEM-A")]),
    ("s", .arr [.obj [("h", .str "h"), ("i", .str "s0"), ("ki", .str "k0"), ("mg", .int 1)]]), ("v", .int 1)]

def strayWire : Wire ParsedText :=
  fixedWire "q1bKzlWyqlbKNlCyUgpw9dV1VKrVUSpWsoquVsoACmUo6ShlAuliAyAjG8TKBrFy05WsDGtjdZTKQDQA"
    [171, 86, 202, 206, 85, 178, 170, 86, 202, 54, 80, 178, 82, 10, 112, 245, 213, 117, 84, 170,
     213, 81, 42, 86, 178, 138, 174, 86, 202, 0, 10, 101, 40, 233, 40, 101, 2, 233, 98, 3, 32,
     35, 27, 196, 202, 6, 177, 114, 211, 149, 172, 12, 107, 99, 117, 148, 202, 64, 52, 0]
    "\x7b\"km\":\x7b\"k0\":\"PEM-A\"\x7d,\"s\":[\x7b\"h\":\"h\",\"i\":\"s0\",\"ki\":\"k0\",\"mg\":1\x7d],\"v\":1\x7d"
    (.obj strayObject)

/-- The session keeps the reference, and no key comes with it. -/
theorem stray_key_is_read : ¬ ∀ (payload : String) (d : DecodedQrPayload ParsedText),
      decodePayload strayWire ParsedText.codec mintedId payload = .ok d → ReferentiallyClosed ParsedText.codec d.pending := by
  intro hclosed
  have hcovered : Covered strayObject := closed_pendingOf.1 (hclosed (strayWire.toBase64 [])
    ⟨pendingOf ParsedText.codec mintedId strayObject, none, 1⟩
    (decodePayload_fixedWire _ _ (.obj strayObject) mintedId _ (by decide +kernel)))
  obtain ⟨info, hinfo⟩ := hcovered.keys [("h", .str "h"), ("i", .str "s0"), ("ki", .str "k0"), ("mg", .int 1)]
    mem_cons_self rfl "k0" rfl (by decide) rfl
  cases hinfo

theorem closed_iff_covered_shared :
    ∃ d obj, decodePayload sharedWire ParsedText.codec mintedId (sharedWire.toBase64 []) = .ok d ∧
      payloadObject sharedWire ParsedText.codec (sharedWire.toBase64 []) = some obj ∧
      (ReferentiallyClosed ParsedText.codec d.pending ↔ Covered obj) := by
  have h : decodePayload sharedWire ParsedText.codec mintedId (sharedWire.toBase64 []) =
      .ok ⟨pendingOf ParsedText.codec mintedId sharedObject, none, 1⟩ :=
    decodePayload_fixedWire _ _ (.obj sharedObject) mintedId _ (by decide +kernel)
  obtain ⟨obj, hobj, hclosed⟩ := closed_iff_covered h
  exact ⟨_, obj, h, hobj, hclosed⟩

end LetsFlutSsh.Qr
