import Mathlib.Data.String.Basic
import LetsFlutSsh.Lib.Fields
import LetsFlutSsh.Lib.Percent
import LetsFlutSsh.Lib.Run
import LetsFlutSsh.Lib.SortedMap

/-!
# URIs of token objects

`pkcs11/uri.rs`: the parser, the printer of a parsed value, and the text that the import wizard composes.

* `parse`, `Pkcs11Uri.toText`, `compose` : the code;
* `Attr.segment`, `writeAll` : both emitters write segments between separators;
* `Named` : the other attributes have names, and none of the fields' names (`named_of_parse`);
* `uri_codec` : printing and parsing give the value again, and what was composed is parsed.
-/

namespace LetsFlutSsh.Pkcs11
open Lib List

structure UriError where
  reason : String

structure Pkcs11Uri where
  token : Option String := none
  manufacturer : Option String := none
  serial : Option String := none
  model : Option String := none
  libraryDescription : Option String := none
  libraryManufacturer : Option String := none
  libraryVersion : Option String := none
  object : Option String := none
  id : Option Bytes := none
  type : Option String := none
  otherPath : SortedMap String String := .empty
  moduleName : Option String := none
  modulePath : Option String := none
  otherQuery : SortedMap String String := .empty

/-! ## Bytes -/

def isAlphanumeric (b : UInt8) : Bool :=
  (0x61 ≤ b && b ≤ 0x7A) || (0x41 ≤ b && b ≤ 0x5A) || (0x30 ≤ b && b ≤ 0x39)

def isAttrNameByte (b : UInt8) : Bool := isAlphanumeric b || b == 0x2D || b == 0x5F || b == 0x2E
def isUnreservedPath (b : UInt8) : Bool := isAlphanumeric b || b == 0x2D || b == 0x5F || b == 0x2E || b == 0x7E
def isUnreservedQuery (b : UInt8) : Bool := isAlphanumeric b || b == 0x2D || b == 0x5F || b == 0x2E || b == 0x7E

/-- `hex_value`, where a digit is due. -/
def hexDigitAt (b : UInt8) : Except UriError Nat :=
  match hexValue b with
  | some n => .ok n
  | none => .error ⟨"bad percent-hex digit"⟩

def percentDecode : Bytes → Except UriError Bytes
  | [] => .ok []
  | c :: rest =>
    if c = 0x25 then
      match rest with
      | hi :: lo :: rest => do
        let h ← hexDigitAt hi
        let l ← hexDigitAt lo
        let out ← percentDecode rest
        .ok (UInt8.ofNat (16 * h + l) :: out)
      | _ => .error ⟨"truncated percent-escape"⟩
    else do
      -- A plus sign stays a plus sign.
      let out ← percentDecode rest
      .ok (c :: out)

/-- `write_percent`, `write_percent_into`. -/
def percentText (safe : UInt8 → Bool) (bytes : Bytes) : List Char :=
  (percentEncode safe bytes).map fun b => Char.ofNat b.toNat

/-! ## Parsing -/

def splitAttr (segment : List Char) : Except UriError (String × List Char) :=
  match splitOnce '=' segment with
  | none => .error ⟨"attribute missing '='"⟩
  | some (name, value) =>
    if name = [] then .error ⟨"empty attribute name"⟩
    else if (utf8 (String.ofList name)).all isAttrNameByte = true then .ok (String.ofList name, value)
    else .error ⟨"attribute name not RFC 3986 token"⟩

/-- `String::from_utf8`. -/
def asStr (decoded : Bytes) (reason : String) : Except UriError String :=
  match fromUtf8 decoded with
  | some s => .ok s
  | none => .error ⟨reason⟩

def setPathAttribute (uri : Pkcs11Uri) (name : String) (decoded : Bytes) : Except UriError Pkcs11Uri :=
  let text := asStr decoded "path attribute not UTF-8"
  match name with
  | "token" => do .ok { uri with token := some (← text) }
  | "manufacturer" => do .ok { uri with manufacturer := some (← text) }
  | "serial" => do .ok { uri with serial := some (← text) }
  | "model" => do .ok { uri with model := some (← text) }
  | "library-description" => do .ok { uri with libraryDescription := some (← text) }
  | "library-manufacturer" => do .ok { uri with libraryManufacturer := some (← text) }
  | "library-version" => do .ok { uri with libraryVersion := some (← text) }
  | "object" => do .ok { uri with object := some (← text) }
  | "id" => .ok { uri with id := some decoded }
  | "type" => do .ok { uri with type := some (← text) }
  | other => do .ok { uri with otherPath := uri.otherPath.insert other (← text) }

def setQueryAttribute (uri : Pkcs11Uri) (name : String) (decoded : Bytes) : Except UriError Pkcs11Uri := do
  let s ← asStr decoded "query attribute not UTF-8"
  match name with
  | "module-name" => .ok { uri with moduleName := some s }
  | "module-path" => .ok { uri with modulePath := some s }
  | other => .ok { uri with otherQuery := uri.otherQuery.insert other s }

def storePathAttribute (uri : Pkcs11Uri) (name : String) (value : List Char) : Except UriError Pkcs11Uri := do
  let decoded ← percentDecode (utf8 (String.ofList value))
  setPathAttribute uri name decoded

def storeQueryAttribute (uri : Pkcs11Uri) (name : String) (value : List Char) : Except UriError Pkcs11Uri := do
  let decoded ← percentDecode (utf8 (String.ofList value))
  setQueryAttribute uri name decoded

def parseAttrList (part : List Char) (sep : Char) (uri : Pkcs11Uri)
    (store : Pkcs11Uri → String → List Char → Except UriError Pkcs11Uri) : Except UriError Pkcs11Uri :=
  (part.splitOn sep).foldlM (fun uri segment =>
      if segment = [] then .ok uri
      else do
        let (name, value) ← splitAttr segment
        store uri name value)
    uri

def parse (text : String) : Except UriError Pkcs11Uri :=
  match "pkcs11:".toList.isPrefixOf? text.toList with
  | none => .error ⟨"missing pkcs11: scheme"⟩
  | some body => do
    let (path, query) := match splitOnce '?' body with
      | some (path, query) => (path, some query)
      | none => (body, none)
    let uri ← (if path = [] then .ok {} else parseAttrList path ';' {} storePathAttribute : Except UriError Pkcs11Uri)
    match query with
    | some q => if q = [] then .ok uri else parseAttrList q '&' uri storeQueryAttribute
    | none => .ok uri

/-! ## Printing -/

/-- An attribute with what stands before it, at the end of a text; the flag tells whether none stands there yet. -/
def writeAttr (opening sep : List Char) (safe : UInt8 → Bool) (name : String) (value : Bytes)
    (out : List Char × Bool) : List Char × Bool :=
  (out.1 ++ (if out.2 then opening else sep) ++ name.toList ++ '=' :: percentText safe value, false)

def pushPathAttr (name : String) (bytes : Bytes) (out : List Char × Bool) : List Char × Bool :=
  writeAttr [] [';'] isUnreservedPath name bytes out

def pushQueryAttr (name : String) (bytes : Bytes) (out : List Char × Bool) : List Char × Bool :=
  writeAttr ['?'] ['&'] isUnreservedQuery name bytes out

def compose (tokenLabel serial objectLabel : String) (ckaId : Bytes) (modulePath : String) : String :=
  let out := ("pkcs11:".toList, true)
  let out := pushPathAttr "token" (utf8 tokenLabel) out
  let out := pushPathAttr "serial" (utf8 serial) out
  let out := pushPathAttr "object" (utf8 objectLabel) out
  let out := pushPathAttr "id" ckaId out
  if modulePath = "" then String.ofList out.1
  else String.ofList (out.1 ++ "?module-path=".toList ++ percentText isUnreservedQuery (utf8 modulePath))

/-- `if let Some(v) = field`. -/
def writeSome (write : String → Bytes → List Char × Bool → List Char × Bool) (name : String) (field : Option String)
    (out : List Char × Bool) : List Char × Bool :=
  match field with
  | some v => write name (utf8 v) out
  | none => out

def fmtPathAttrs (uri : Pkcs11Uri) (out : List Char × Bool) : List Char × Bool :=
  let out := writeSome pushPathAttr "token" uri.token out
  let out := writeSome pushPathAttr "manufacturer" uri.manufacturer out
  let out := writeSome pushPathAttr "serial" uri.serial out
  let out := writeSome pushPathAttr "model" uri.model out
  let out := writeSome pushPathAttr "library-description" uri.libraryDescription out
  let out := writeSome pushPathAttr "library-manufacturer" uri.libraryManufacturer out
  let out := writeSome pushPathAttr "library-version" uri.libraryVersion out
  let out := writeSome pushPathAttr "object" uri.object out
  let out := match uri.id with
    | some v => writeAttr [] [';'] (fun _ => false) "id" v out
    | none => out
  let out := writeSome pushPathAttr "type" uri.type out
  uri.otherPath.entries.foldl (fun out e => pushPathAttr e.1 (utf8 e.2) out) out

def fmtQueryAttrs (uri : Pkcs11Uri) (out : List Char × Bool) : List Char × Bool :=
  let out := writeSome pushQueryAttr "module-name" uri.moduleName out
  let out := writeSome pushQueryAttr "module-path" uri.modulePath out
  uri.otherQuery.entries.foldl (fun out e => pushQueryAttr e.1 (utf8 e.2) out) out

/-- `to_string`. -/
def Pkcs11Uri.toText (uri : Pkcs11Uri) : String :=
  String.ofList (fmtQueryAttrs uri ((fmtPathAttrs uri ("pkcs11:".toList, true)).1, true)).1

/-! ## Values -/

theorem percentDecode_cons {c : UInt8} (hne : c ≠ 0x25) (rest : Bytes) :
    percentDecode (c :: rest) = (percentDecode rest).bind fun out => .ok (c :: out) := by
  match rest with
  | [] => exact if_neg hne
  | [_] => exact if_neg hne
  | _ :: _ :: _ => exact if_neg hne

variable {safe : UInt8 → Bool}

theorem percentDecode_percentEncode (hsafe : safe percent = false) (bs : Bytes) :
    percentDecode (percentEncode safe bs) = .ok bs := by
  induction bs with
  | nil => rfl
  | cons b bs ih =>
    rw [percentEncode_cons]
    split_ifs with hb
    · have hne : b ≠ 0x25 := by
        rintro rfl
        exact Bool.false_ne_true (hsafe.symm.trans hb)
      rw [singleton_append, percentDecode_cons hne, ih]
      rfl
    · have hlt := b.toNat_lt
      have hhi : hexDigitAt (hexDigit (b.toNat / 16)) = .ok (b.toNat / 16) := by
        rw [hexDigitAt, hexValue_hexDigit (by omega)]
      have hlo : hexDigitAt (hexDigit (b.toNat % 16)) = .ok (b.toNat % 16) := by
        rw [hexDigitAt, hexValue_hexDigit (by omega)]
      have hbyte : UInt8.ofNat (16 * (b.toNat / 16) + b.toNat % 16) = b := by rw [Nat.div_add_mod, UInt8.ofNat_toNat]
      rw [percentByte, cons_append, cons_append, cons_append, nil_append, percentDecode]
      refine (if_pos rfl).trans ?_
      rw [hhi, hlo, ih]
      exact congrArg (fun c => Except.ok (c :: bs)) hbyte

variable {b : UInt8}

theorem safe_of_mem_percentEncode (hsafe : ∀ b, safe b = true → isUnreservedPath b = true) {bs : Bytes}
    (h : b ∈ percentEncode safe bs) : b = percent ∨ isUnreservedPath b = true := by
  rcases mem_percentEncode h with hkeep | hpercent | ⟨n, hn, rfl⟩
  · exact .inr (hsafe b hkeep)
  · exact .inl hpercent
  · have hall : ∀ n < 16, isUnreservedPath (hexDigit n) = true := by decide
    exact .inr (hall n hn)

theorem lt_of_unreserved (h : b = percent ∨ isUnreservedPath b = true) : b.toNat < 128 := by
  have hall := forall_byte (p := fun b => decide (b = percent ∨ isUnreservedPath b = true → b.toNat < 128)) (by decide +kernel) b
  exact of_decide_eq_true hall h

theorem not_separator (h : b = percent ∨ isUnreservedPath b = true) :
    Char.ofNat b.toNat ∉ [';', '&', '?', '='] := by
  have hall := forall_byte
    (p := fun b => decide (b = percent ∨ isUnreservedPath b = true → Char.ofNat b.toNat ∉ [';', '&', '?', '=']))
    (by decide +kernel) b
  exact of_decide_eq_true hall h

theorem percentDecode_percentText (hsafe : ∀ b, safe b = true → isUnreservedPath b = true) (bs : Bytes) :
    percentDecode (utf8 (String.ofList (percentText safe bs))) = .ok bs := by
  have hascii : ∀ b ∈ percentEncode safe bs, b.toNat < 128 := fun b hb => lt_of_unreserved (safe_of_mem_percentEncode hsafe hb)
  have hchar : ∀ b : UInt8, b.toNat < 128 → (Char.ofNat b.toNat).toNat = b.toNat := by
    intro b hb
    have hall : ∀ n < 128, (Char.ofNat n).toNat = n := by decide
    exact hall b.toNat hb
  have htext : utf8 (String.ofList (percentText safe bs)) = percentEncode safe bs := by
    unfold percentText
    rw [utf8_of_ascii]
    · rw [String.toList_ofList, map_map]
      refine (map_congr_left fun b hb => ?_).trans (map_id _)
      rw [Function.comp_apply, hchar b (hascii b hb), UInt8.ofNat_toNat, id]
    · rw [String.toList_ofList]
      intro c hc
      obtain ⟨b, hb, rfl⟩ := mem_map.1 hc
      rw [hchar b (hascii b hb)]
      exact hascii b hb
  have hpercent : safe percent = false := by
    rcases h : safe percent with _ | _
    · rfl
    · exact absurd (hsafe percent h) (by decide)
  rw [htext, percentDecode_percentEncode hpercent]

/-! ## Segments -/

/-- An attribute to write: its name, which bytes of its value stay, and the value. -/
structure Attr where
  name : String
  safe : UInt8 → Bool
  value : Bytes

def IsName (name : String) : Prop := name.toList ≠ [] ∧ (utf8 name).all isAttrNameByte = true

/-- An attribute that is read as it is written. -/
structure Attr.Sound (a : Attr) : Prop where
  named : IsName a.name
  keeps : ∀ b, a.safe b = true → isUnreservedPath b = true

def Attr.segment (a : Attr) : List Char := a.name.toList ++ '=' :: percentText a.safe a.value

variable {a : Attr} {as : List Attr} {name : String} {c : Char}

theorem IsName.not_mem (h : IsName name) (hc : c ∈ [';', '&', '?', '=']) : c ∉ name.toList := by
  intro hmem
  have hbyte : ∀ b ∈ String.utf8EncodeChar c, isAttrNameByte b = true := fun b hb =>
    all_eq_true.1 h.2 b (by rw [utf8_eq_flatMap]; exact mem_flatMap.2 ⟨c, hmem, hb⟩)
  simp only [mem_cons, not_mem_nil, or_false] at hc
  rcases hc with rfl | rfl | rfl | rfl
  · exact absurd (hbyte 0x3B (by decide)) (by decide)
  · exact absurd (hbyte 0x26 (by decide)) (by decide)
  · exact absurd (hbyte 0x3F (by decide)) (by decide)
  · exact absurd (hbyte 0x3D (by decide)) (by decide)

theorem not_mem_percentText (hsafe : ∀ b, safe b = true → isUnreservedPath b = true) (bs : Bytes)
    (hc : c ∈ [';', '&', '?', '=']) : c ∉ percentText safe bs := by
  intro hmem
  obtain ⟨b, hb, rfl⟩ := mem_map.1 hmem
  exact not_separator (safe_of_mem_percentEncode hsafe hb) hc

theorem Attr.Sound.not_mem_segment (h : a.Sound) (hc : c ∈ [';', '&', '?']) : c ∉ a.segment := by
  have hc' : c ∈ [';', '&', '?', '='] := mem_append_left ['='] hc
  unfold Attr.segment
  rw [mem_append, mem_cons]
  rintro (hname | rfl | hvalue)
  · exact h.named.not_mem hc' hname
  · exact absurd hc (by decide)
  · exact not_mem_percentText h.keeps a.value hc' hvalue

theorem Attr.Sound.splitAttr_segment (h : a.Sound) : splitAttr a.segment = .ok (a.name, percentText a.safe a.value) := by
  unfold splitAttr Attr.segment
  rw [splitOnce_append (h.named.not_mem (by decide))]
  refine (if_neg h.named.1).trans ?_
  rw [String.ofList_toList]
  exact if_pos h.named.2

theorem Attr.segment_ne_nil (a : Attr) : a.segment ≠ [] := by
  exact append_ne_nil_of_right_ne_nil _ (cons_ne_nil _ _)

theorem writeAll (opening sep out : List Char) (as : List Attr) :
    (as.foldl (fun out a => writeAttr opening sep a.safe a.name a.value out) (out, true)).1 =
      if as = [] then out else out ++ opening ++ sep.intercalate (as.map Attr.segment) := by
  have hrest : ∀ (as : List Attr) (a : Attr) (out : List Char),
      (as.foldl (fun out a => writeAttr opening sep a.safe a.name a.value out) (out ++ a.segment, false)).1 =
        out ++ sep.intercalate ((a :: as).map Attr.segment) := by
    intro as
    induction as with
    | nil => exact fun a out => by simp [List.intercalate]
    | cons b as ih =>
      intro a out
      have hstep : writeAttr opening sep b.safe b.name b.value (out ++ a.segment, false) =
          (out ++ a.segment ++ sep ++ b.segment, false) := by
        simp [writeAttr, Attr.segment]
      rw [foldl_cons, hstep, ih b]
      simp [List.intercalate]
  cases as with
  | nil => rfl
  | cons a as =>
    have hstep : writeAttr opening sep a.safe a.name a.value (out, true) = (out ++ opening ++ a.segment, false) := by
      simp [writeAttr, Attr.segment]
    rw [foldl_cons, hstep, hrest, if_neg (cons_ne_nil _ _)]

theorem parseAttrList_segments {sep : Char} (hsep : sep ∈ [';', '&', '?'])
    {store : Pkcs11Uri → String → List Char → Except UriError Pkcs11Uri}
    {put : Pkcs11Uri → String → Bytes → Except UriError Pkcs11Uri}
    (hstore : ∀ uri name value, store uri name value = (percentDecode (utf8 (String.ofList value))).bind (put uri name))
    (hsound : ∀ a ∈ as, a.Sound) (hne : as ≠ []) (uri : Pkcs11Uri) :
    parseAttrList ([sep].intercalate (as.map Attr.segment)) sep uri store =
      as.foldlM (fun uri a => put uri a.name a.value) uri := by
  have hfree : ∀ piece ∈ as.map Attr.segment, sep ∉ piece := by
    intro piece hpiece
    obtain ⟨a, ha, rfl⟩ := mem_map.1 hpiece
    exact (hsound a ha).not_mem_segment hsep
  unfold parseAttrList
  rw [splitOn_intercalate sep hfree (by simpa using hne), foldlM_map]
  clear hne hfree
  induction as generalizing uri with
  | nil => rfl
  | cons a as ih =>
    obtain ⟨ha, has⟩ := forall_mem_cons.1 hsound
    have hone : (if a.segment = [] then Except.ok uri else do
        let (name, value) ← splitAttr a.segment
        store uri name value) = put uri a.name a.value := by
      rw [if_neg a.segment_ne_nil, ha.splitAttr_segment]
      show store uri a.name (percentText a.safe a.value) = _
      rw [hstore, percentDecode_percentText ha.keeps]
      rfl
    rw [foldlM_cons, foldlM_cons, hone]
    congr 1
    funext uri'
    exact ih has uri'

theorem isPrefixOf?_append (front cs : List Char) : front.isPrefixOf? (front ++ cs) = some cs := by
  induction front with
  | nil => rfl
  | cons c front ih => rw [cons_append, List.isPrefixOf?, if_pos (beq_self_eq_true c), ih]

theorem not_mem_intercalate {sep : List Char} {pieces : List (List Char)} (hsep : c ∉ sep)
    (h : ∀ piece ∈ pieces, c ∉ piece) : c ∉ sep.intercalate pieces := by
  induction pieces with
  | nil => exact not_mem_nil
  | cons piece pieces ih =>
    obtain ⟨hpiece, hpieces⟩ := forall_mem_cons.1 h
    rcases pieces with _ | ⟨next, pieces⟩
    · rwa [intercalate_singleton]
    · rw [intercalate_cons_cons, append_assoc, mem_append, mem_append]
      rintro (hmem | hmem | hmem)
      · exact hpiece hmem
      · exact hsep hmem
      · exact ih hpieces hmem

theorem intercalate_segments_ne_nil (sep : List Char) (a : Attr) (as : List Attr) :
    sep.intercalate ((a :: as).map Attr.segment) ≠ [] := by
  rcases as with _ | ⟨b, as⟩
  · rw [map_singleton, intercalate_singleton]
    exact a.segment_ne_nil
  · rw [map_cons, map_cons, intercalate_cons_cons, append_assoc]
    exact append_ne_nil_of_left_ne_nil a.segment_ne_nil _

def written (path query : List Attr) : List Char :=
  (query.foldl (fun out a => writeAttr ['?'] ['&'] a.safe a.name a.value out)
    ((path.foldl (fun out a => writeAttr [] [';'] a.safe a.name a.value out) ("pkcs11:".toList, true)).1, true)).1

theorem parse_written {path query : List Attr} (hpath : ∀ a ∈ path, a.Sound) (hquery : ∀ a ∈ query, a.Sound) :
    parse (String.ofList (written path query)) = (path.foldlM (fun uri a => setPathAttribute uri a.name a.value) {}).bind
        (query.foldlM fun uri a => setQueryAttribute uri a.name a.value) := by
  have hpathText : (path.foldl (fun out a => writeAttr [] [';'] a.safe a.name a.value out) ("pkcs11:".toList, true)).1 =
      "pkcs11:".toList ++ [';'].intercalate (path.map Attr.segment) := by
    rw [writeAll]
    split_ifs with hnil
    · rw [hnil, map_nil, intercalate_nil, append_nil]
    · rw [append_nil]
  have hmark : '?' ∉ [';'].intercalate (path.map Attr.segment) := by
    refine not_mem_intercalate (by decide) fun piece hpiece => ?_
    obtain ⟨a, ha, rfl⟩ := mem_map.1 hpiece
    exact (hpath a ha).not_mem_segment (by decide)
  have hfirst : (if [';'].intercalate (path.map Attr.segment) = [] then .ok ({} : Pkcs11Uri)
      else parseAttrList ([';'].intercalate (path.map Attr.segment)) ';' {} storePathAttribute) =
      path.foldlM (fun uri a => setPathAttribute uri a.name a.value) {} := by
    rcases path with _ | ⟨a, path⟩
    · rfl
    · rw [if_neg (intercalate_segments_ne_nil _ a path)]
      exact parseAttrList_segments (by decide) (fun _ _ _ => rfl) hpath (cons_ne_nil _ _) _
  have hstrip : ∀ body, "pkcs11:".toList.isPrefixOf? (String.ofList ("pkcs11:".toList ++ body)).toList = some body := fun body =>
    (congrArg _ String.toList_ofList).trans (isPrefixOf?_append _ body)
  unfold parse written
  rw [hpathText, writeAll]
  rcases query with _ | ⟨a, query⟩
  · rw [if_pos rfl, hstrip]
    dsimp only
    rw [splitOnce_of_not_mem hmark]
    rw [hfirst]
    rfl
  · rw [if_neg (cons_ne_nil _ _), append_assoc, append_assoc, hstrip]
    dsimp only
    rw [singleton_append, splitOnce_append hmark]
    dsimp only
    rw [hfirst]
    refine congrArg _ (funext fun uri => ?_)
    rw [if_neg (intercalate_segments_ne_nil _ a query)]
    exact parseAttrList_segments (by decide) (fun _ _ _ => rfl) hquery (cons_ne_nil _ _) _

/-! ## The fields of a value -/

def Attr.ofPath (name value : String) : Attr := ⟨name, isUnreservedPath, utf8 value⟩
def Attr.ofQuery (name value : String) : Attr := ⟨name, isUnreservedQuery, utf8 value⟩

def attrOf (make : String → String → Attr) (name : String) (field : Option String) : List Attr := (field.map (make name)).toList

def idAttr (id : Option Bytes) : List Attr := (id.map fun v => ⟨"id", fun _ => false, v⟩).toList

def pathAttrs (uri : Pkcs11Uri) : List Attr :=
  attrOf .ofPath "token" uri.token ++ (attrOf .ofPath "manufacturer" uri.manufacturer ++ (attrOf .ofPath "serial" uri.serial ++
  (attrOf .ofPath "model" uri.model ++ (attrOf .ofPath "library-description" uri.libraryDescription ++
  (attrOf .ofPath "library-manufacturer" uri.libraryManufacturer ++ (attrOf .ofPath "library-version" uri.libraryVersion ++
  (attrOf .ofPath "object" uri.object ++ (idAttr uri.id ++ (attrOf .ofPath "type" uri.type ++
  uri.otherPath.entries.map fun e => .ofPath e.1 e.2)))))))))

def queryAttrs (uri : Pkcs11Uri) : List Attr :=
  attrOf .ofQuery "module-name" uri.moduleName ++ (attrOf .ofQuery "module-path" uri.modulePath ++
  uri.otherQuery.entries.map fun e => .ofQuery e.1 e.2)

theorem toText_eq (uri : Pkcs11Uri) : uri.toText = String.ofList (written (pathAttrs uri) (queryAttrs uri)) := by
  have hpath : ∀ name field (out : List Char × Bool), writeSome pushPathAttr name field out =
      (attrOf .ofPath name field).foldl (fun out a => writeAttr [] [';'] a.safe a.name a.value out) out := by
    intro name field out
    cases field <;> rfl
  have hquery : ∀ name field (out : List Char × Bool), writeSome pushQueryAttr name field out =
      (attrOf .ofQuery name field).foldl (fun out a => writeAttr ['?'] ['&'] a.safe a.name a.value out) out := by
    intro name field out
    cases field <;> rfl
  have hid : ∀ (id : Option Bytes) (out : List Char × Bool), (match id with
        | some v => writeAttr [] [';'] (fun _ => false) "id" v out
        | none => out) = (idAttr id).foldl (fun out a => writeAttr [] [';'] a.safe a.name a.value out) out := by
    intro id out
    cases id <;> rfl
  unfold Pkcs11Uri.toText written fmtPathAttrs fmtQueryAttrs pathAttrs queryAttrs
  simp only [hpath, hquery, hid, foldl_append, foldl_map]
  rfl

def pathNames : List String := ["token", "manufacturer", "serial", "model", "library-description", "library-manufacturer",
  "library-version", "object", "id", "type"]

def queryNames : List String := ["module-name", "module-path"]

/-- The other attributes have names, and no field's. -/
structure Named (uri : Pkcs11Uri) : Prop where
  path : ∀ e ∈ uri.otherPath.entries, IsName e.1 ∧ e.1 ∉ pathNames
  query : ∀ e ∈ uri.otherQuery.entries, IsName e.1 ∧ e.1 ∉ queryNames

variable {uri uri' : Pkcs11Uri} {decoded : Bytes}

theorem asStr_utf8 (s reason : String) : asStr (utf8 s) reason = .ok s := by
  unfold asStr
  rw [fromUtf8_utf8]

theorem setPathAttribute_other (h : name ∉ pathNames) (value : String) :
    setPathAttribute uri name (utf8 value) = .ok { uri with otherPath := uri.otherPath.insert name value } := by
  unfold setPathAttribute
  rw [asStr_utf8]
  split <;> first | exact absurd (by decide) h | rfl

theorem setQueryAttribute_other (h : name ∉ queryNames) (value : String) :
    setQueryAttribute uri name (utf8 value) = .ok { uri with otherQuery := uri.otherQuery.insert name value } := by
  unfold setQueryAttribute
  rw [asStr_utf8]
  show (match name with
    | "module-name" => _
    | "module-path" => _
    | other => _) = _
  split <;> first | exact absurd (by decide) h | rfl

theorem foldlM_ok {f : Pkcs11Uri → Attr → Except UriError Pkcs11Uri} (h : as.foldlM f uri = .ok uri') (as' : List Attr) :
    (as ++ as').foldlM f uri = as'.foldlM f uri' := by
  rw [foldlM_append, h]
  rfl

theorem foldlM_attrOf {make : String → String → Attr} {set : Pkcs11Uri → String → Bytes → Except UriError Pkcs11Uri}
    (put : Option String → Pkcs11Uri)
    (hset : ∀ s, set (put none) (make name s).name (make name s).value = .ok (put (some s))) (field : Option String) :
    (attrOf make name field).foldlM (fun uri a => set uri a.name a.value) (put none) = .ok (put field) := by
  cases field with
  | none => rfl
  | some s =>
    show (set _ _ _).bind _ = _
    rw [hset s]
    rfl

theorem foldlM_others {make : String → String → Attr} {set : Pkcs11Uri → String → Bytes → Except UriError Pkcs11Uri}
    (put : SortedMap String String → Pkcs11Uri) (m : SortedMap String String)
    (hset : ∀ acc, ∀ e ∈ m.entries, set (put acc) (make e.1 e.2).name (make e.1 e.2).value = .ok (put (acc.insert e.1 e.2))) :
    (m.entries.map fun e => make e.1 e.2).foldlM (fun uri a => set uri a.name a.value) (put .empty) = .ok (put m) := by
  have hall : ∀ (es : List (String × String)) (acc : SortedMap String String), (∀ e ∈ es, e ∈ m.entries) →
      (es.map fun e => make e.1 e.2).foldlM (fun uri a => set uri a.name a.value) (put acc) =
        .ok (put (es.foldl (fun acc e => acc.insert e.1 e.2) acc)) := by
    intro es
    induction es with
    | nil => exact fun _ _ => rfl
    | cons e es ih =>
      intro acc hes
      obtain ⟨he, hes⟩ := forall_mem_cons.1 hes
      rw [map_cons, foldlM_cons, hset acc e he]
      exact ih _ hes
  rw [hall _ _ fun _ he => he, SortedMap.insertAll_entries]

theorem setPathAttribute_field : (∀ uri s, setPathAttribute uri "token" (utf8 s) = .ok { uri with token := some s }) ∧
    (∀ uri s, setPathAttribute uri "manufacturer" (utf8 s) = .ok { uri with manufacturer := some s }) ∧
    (∀ uri s, setPathAttribute uri "serial" (utf8 s) = .ok { uri with serial := some s }) ∧
    (∀ uri s, setPathAttribute uri "model" (utf8 s) = .ok { uri with model := some s }) ∧
    (∀ uri s, setPathAttribute uri "library-description" (utf8 s) = .ok { uri with libraryDescription := some s }) ∧
    (∀ uri s, setPathAttribute uri "library-manufacturer" (utf8 s) = .ok { uri with libraryManufacturer := some s }) ∧
    (∀ uri s, setPathAttribute uri "library-version" (utf8 s) = .ok { uri with libraryVersion := some s }) ∧
    (∀ uri s, setPathAttribute uri "object" (utf8 s) = .ok { uri with object := some s }) ∧
    (∀ uri s, setPathAttribute uri "type" (utf8 s) = .ok { uri with type := some s }) := by
  unfold setPathAttribute
  simp only [asStr_utf8]
  exact ⟨fun _ _ => rfl, fun _ _ => rfl, fun _ _ => rfl, fun _ _ => rfl, fun _ _ => rfl, fun _ _ => rfl, fun _ _ => rfl,
    fun _ _ => rfl, fun _ _ => rfl⟩

theorem foldlM_pathAttrs (h : Named uri) : (pathAttrs uri).foldlM (fun uri a => setPathAttribute uri a.name a.value) {} =
    .ok { uri with moduleName := none, modulePath := none, otherQuery := .empty } := by
  have hid : ∀ (uri : Pkcs11Uri) (id : Option Bytes), uri.id = none →
      (idAttr id).foldlM (fun uri a => setPathAttribute uri a.name a.value) uri = .ok { uri with id := id } := by
    rintro ⟨⟩ (_ | _) hnone <;> cases hnone <;> rfl
  obtain ⟨htoken, hmanufacturer, hserial, hmodel, hdescription, hlibrary, hversion, hobject, htype⟩ := setPathAttribute_field
  obtain ⟨token, manufacturer, serial, model, libraryDescription, libraryManufacturer, libraryVersion, object, id, type, otherPath,
    moduleName, modulePath, otherQuery⟩ := uri
  unfold pathAttrs
  rw [foldlM_ok (foldlM_attrOf (fun v => { token := v }) (htoken _) token),
    foldlM_ok (foldlM_attrOf (fun v => { manufacturer := v, token }) (hmanufacturer _) manufacturer),
    foldlM_ok (foldlM_attrOf (fun v => { serial := v, token, manufacturer }) (hserial _) serial),
    foldlM_ok (foldlM_attrOf (fun v => { model := v, token, manufacturer, serial }) (hmodel _) model),
    foldlM_ok (foldlM_attrOf (fun v => { libraryDescription := v, token, manufacturer, serial, model }) (hdescription _)
      libraryDescription),
    foldlM_ok (foldlM_attrOf (fun v => { libraryManufacturer := v, token, manufacturer, serial, model, libraryDescription })
      (hlibrary _) libraryManufacturer),
    foldlM_ok (foldlM_attrOf (fun v => ⟨token, manufacturer, serial, model, libraryDescription, libraryManufacturer, v,
      none, none, none, .empty, none, none, .empty⟩) (hversion _) libraryVersion),
    foldlM_ok (foldlM_attrOf (fun v => ⟨token, manufacturer, serial, model, libraryDescription, libraryManufacturer,
      libraryVersion, v, none, none, .empty, none, none, .empty⟩) (hobject _) object),
    foldlM_ok (hid _ id rfl),
    foldlM_ok (foldlM_attrOf (fun v => ⟨token, manufacturer, serial, model, libraryDescription, libraryManufacturer,
      libraryVersion, object, id, v, .empty, none, none, .empty⟩) (htype _) type)]
  exact foldlM_others (fun m => ⟨token, manufacturer, serial, model, libraryDescription, libraryManufacturer, libraryVersion,
    object, id, type, m, none, none, .empty⟩) otherPath fun _ e he => setPathAttribute_other (h.path e he).2 _

theorem setQueryAttribute_field :
    (∀ uri s, setQueryAttribute uri "module-name" (utf8 s) = .ok { uri with moduleName := some s }) ∧
    (∀ uri s, setQueryAttribute uri "module-path" (utf8 s) = .ok { uri with modulePath := some s }) := by
  unfold setQueryAttribute
  simp only [asStr_utf8]
  exact ⟨fun _ _ => rfl, fun _ _ => rfl⟩

theorem foldlM_queryAttrs (h : Named uri) : (queryAttrs uri).foldlM (fun uri a => setQueryAttribute uri a.name a.value)
    { uri with moduleName := none, modulePath := none, otherQuery := .empty } = .ok uri := by
  obtain ⟨hname, hmodule⟩ := setQueryAttribute_field
  unfold queryAttrs
  rw [foldlM_ok (foldlM_attrOf (fun v => { uri with moduleName := v, modulePath := none, otherQuery := .empty }) (hname _)
      uri.moduleName),
    foldlM_ok (foldlM_attrOf (fun v => { uri with modulePath := v, otherQuery := .empty }) (hmodule _) uri.modulePath)]
  exact foldlM_others (fun m => { uri with otherQuery := m }) uri.otherQuery fun _ e he => setQueryAttribute_other (h.query e he).2 _

/-! ## The round trips -/

instance : DecidablePred IsName := fun name =>
  inferInstanceAs (Decidable (name.toList ≠ [] ∧ (utf8 name).all isAttrNameByte = true))

theorem isName_field : ∀ name ∈ pathNames ++ queryNames, IsName name := by decide

theorem sound_attrOf {make : String → String → Attr} {field : Option String} (h : ∀ s, (make name s).Sound) :
    ∀ a ∈ attrOf make name field, a.Sound := by
  intro a ha
  obtain ⟨s, _, rfl⟩ := Option.map_eq_some_iff.1 (Option.mem_toList.1 ha)
  exact h s

theorem sound_ofPath (h : IsName name) (value : String) : (Attr.ofPath name value).Sound := ⟨h, fun _ hb => hb⟩
theorem sound_ofQuery (h : IsName name) (value : String) : (Attr.ofQuery name value).Sound := ⟨h, fun _ hb => hb⟩

theorem sound_pathAttrs (h : Named uri) : ∀ a ∈ pathAttrs uri, a.Sound := by
  have hfield : ∀ name ∈ pathNames, ∀ field, ∀ a ∈ attrOf .ofPath name field, a.Sound := fun name hname _ =>
    sound_attrOf (sound_ofPath (isName_field name (mem_append_left _ hname)))
  unfold pathAttrs
  simp only [forall_mem_append]
  refine ⟨hfield _ (by decide) _, hfield _ (by decide) _, hfield _ (by decide) _, hfield _ (by decide) _, hfield _ (by decide) _,
    hfield _ (by decide) _, hfield _ (by decide) _, hfield _ (by decide) _, fun a ha => ?_, hfield _ (by decide) _, fun a ha => ?_⟩
  · obtain ⟨v, _, rfl⟩ := Option.map_eq_some_iff.1 (Option.mem_toList.1 ha)
    exact ⟨isName_field "id" (by decide), nofun⟩
  · obtain ⟨e, he, rfl⟩ := mem_map.1 ha
    exact sound_ofPath (h.path e he).1 e.2

theorem sound_queryAttrs (h : Named uri) : ∀ a ∈ queryAttrs uri, a.Sound := by
  have hfield : ∀ name ∈ queryNames, ∀ field, ∀ a ∈ attrOf .ofQuery name field, a.Sound := fun name hname _ =>
    sound_attrOf (sound_ofQuery (isName_field name (mem_append_right _ hname)))
  unfold queryAttrs
  simp only [forall_mem_append]
  refine ⟨hfield _ (by decide) _, hfield _ (by decide) _, fun a ha => ?_⟩
  obtain ⟨e, he, rfl⟩ := mem_map.1 ha
  exact sound_ofQuery (h.query e he).1 e.2

theorem parse_toText (h : Named uri) : parse uri.toText = .ok uri := by
  rw [toText_eq, parse_written (sound_pathAttrs h) (sound_queryAttrs h), foldlM_pathAttrs h]
  exact foldlM_queryAttrs h

theorem isName_of_splitAttr {segment value : List Char} (h : splitAttr segment = .ok (name, value)) : IsName name := by
  unfold splitAttr at h
  split at h
  · cases h
  · next n v _ =>
    split_ifs at h with hnil hall
    cases h
    exact ⟨by rwa [String.toList_ofList], hall⟩

theorem setPathAttribute_cases (hok : setPathAttribute uri name decoded = .ok uri') :
    (uri'.otherPath = uri.otherPath ∨ name ∉ pathNames ∧ ∃ s, uri'.otherPath = uri.otherPath.insert name s) ∧
      uri'.otherQuery = uri.otherQuery := by
  unfold setPathAttribute at hok
  rcases htext : asStr decoded "path attribute not UTF-8" with e | s <;> rw [htext] at hok <;> split at hok <;> cases hok
  all_goals first
    | exact ⟨.inl rfl, rfl⟩
    | exact ⟨.inr ⟨by simpa [pathNames] using ⟨‹_›, ‹_›, ‹_›, ‹_›, ‹_›, ‹_›, ‹_›, ‹_›, ‹_›, ‹_›⟩, s, rfl⟩, rfl⟩

theorem setQueryAttribute_cases (hok : setQueryAttribute uri name decoded = .ok uri') :
    (uri'.otherQuery = uri.otherQuery ∨ name ∉ queryNames ∧ ∃ s, uri'.otherQuery = uri.otherQuery.insert name s) ∧
      uri'.otherPath = uri.otherPath := by
  unfold setQueryAttribute at hok
  rcases htext : asStr decoded "query attribute not UTF-8" with e | s <;> rw [htext] at hok
  · cases hok
  · split at hok <;> cases hok
    · exact ⟨.inl rfl, rfl⟩
    · exact ⟨.inl rfl, rfl⟩
    · exact ⟨.inr ⟨by simpa [queryNames] using ⟨‹_›, ‹_›⟩, s, rfl⟩, rfl⟩

theorem named_insert {names : List String} {m m' : SortedMap String String} (hname : IsName name)
    (h : ∀ e ∈ m.entries, IsName e.1 ∧ e.1 ∉ names) (hm : m' = m ∨ name ∉ names ∧ ∃ s, m' = m.insert name s) :
    ∀ e ∈ m'.entries, IsName e.1 ∧ e.1 ∉ names := by
  rcases hm with rfl | ⟨hother, s, rfl⟩
  · exact h
  · intro e he
    rcases SortedMap.mem_insert he with rfl | hold
    · exact ⟨hname, hother⟩
    · exact h e hold

theorem named_setPathAttribute (hname : IsName name) (h : Named uri) (hok : setPathAttribute uri name decoded = .ok uri') :
    Named uri' := by
  obtain ⟨hpath, hquery⟩ := setPathAttribute_cases hok
  exact ⟨named_insert hname h.path hpath, hquery ▸ h.query⟩

theorem named_setQueryAttribute (hname : IsName name) (h : Named uri) (hok : setQueryAttribute uri name decoded = .ok uri') :
    Named uri' := by
  obtain ⟨hquery, hpath⟩ := setQueryAttribute_cases hok
  exact ⟨hpath ▸ h.path, named_insert hname h.query hquery⟩

theorem named_parseAttrList {part : List Char} {sep : Char} {store : Pkcs11Uri → String → List Char → Except UriError Pkcs11Uri}
    {put : Pkcs11Uri → String → Bytes → Except UriError Pkcs11Uri}
    (hstore : ∀ uri name value, store uri name value = (percentDecode (utf8 (String.ofList value))).bind (put uri name))
    (hput : ∀ uri uri' name decoded, IsName name → Named uri → put uri name decoded = .ok uri' → Named uri')
    (h : Named uri) (hok : parseAttrList part sep uri store = .ok uri') : Named uri' := by
  refine foldlM_keeps (fun segment _ uri uri' h hok => ?_) h hok
  split_ifs at hok with hnil
  · cases hok
    exact h
  rcases hsplit : splitAttr segment with e | ⟨name, value⟩
  · rw [hsplit] at hok
    cases hok
  rw [hsplit] at hok
  change store uri name value = _ at hok
  rw [hstore] at hok
  rcases hdecoded : percentDecode (utf8 (String.ofList value)) with e | decoded
  · rw [hdecoded] at hok
    cases hok
  · rw [hdecoded] at hok
    exact hput uri uri' name decoded (isName_of_splitAttr hsplit) h hok

theorem named_empty : Named {} :=
  ⟨fun _ he => absurd he not_mem_nil, fun _ he => absurd he not_mem_nil⟩

theorem named_of_parse {text : String} (h : parse text = .ok uri) : Named uri := by
  have hfirst : ∀ (path : List Char) (start : Pkcs11Uri),
      (if path = [] then .ok {} else parseAttrList path ';' {} storePathAttribute) = .ok start → Named start := by
    intro path start hok
    split_ifs at hok
    · cases hok
      exact named_empty
    · exact named_parseAttrList (fun _ _ _ => rfl) (fun _ _ _ _ => named_setPathAttribute) named_empty hok
  have hlast : ∀ (path : List Char) (query : Option (List Char)),
      ((if path = [] then .ok {} else parseAttrList path ';' {} storePathAttribute : Except UriError Pkcs11Uri).bind fun start =>
        match query with
        | some q => if q = [] then .ok start else parseAttrList q '&' start storeQueryAttribute
        | none => .ok start) = .ok uri → Named uri := by
    intro path query hok
    rcases hpath : (if path = [] then .ok {} else parseAttrList path ';' {} storePathAttribute : Except UriError Pkcs11Uri)
      with e | start <;> rw [hpath] at hok
    · cases hok
    have hstart := hfirst path start hpath
    rcases query with _ | q
    · cases hok
      exact hstart
    · change (if q = [] then _ else _) = _ at hok
      split_ifs at hok
      · cases hok
        exact hstart
      · exact named_parseAttrList (fun _ _ _ => rfl) (fun _ _ _ _ => named_setQueryAttribute) hstart hok
  unfold parse at h
  split at h
  · cases h
  · next body _ =>
    rcases hsplit : splitOnce '?' body with _ | ⟨path, query⟩ <;> rw [hsplit] at h
    · exact hlast body none h
    · exact hlast path (some query) h

theorem compose_eq (tokenLabel serial objectLabel : String) (ckaId : Bytes) (modulePath : String) :
    compose tokenLabel serial objectLabel ckaId modulePath = String.ofList (written
      [.ofPath "token" tokenLabel, .ofPath "serial" serial, .ofPath "object" objectLabel, ⟨"id", isUnreservedPath, ckaId⟩]
      (attrOf .ofQuery "module-path" (if modulePath = "" then none else some modulePath))) := by
  unfold compose
  split_ifs
  · rfl
  · show String.ofList _ = String.ofList (_ ++ ['?'] ++ "module-path".toList ++ '=' :: _)
    rw [append_assoc, append_assoc, append_assoc]
    rfl

/-- **The codec**: what is printed is parsed as the value it was printed from, and what is composed as its five values. -/
theorem uri_codec : (∀ text uri, parse text = .ok uri → parse uri.toText = .ok uri) ∧
    ∀ tokenLabel serial objectLabel ckaId modulePath, parse (compose tokenLabel serial objectLabel ckaId modulePath) =
      .ok { token := some tokenLabel, serial := some serial, object := some objectLabel, id := some ckaId,
            modulePath := if modulePath = "" then none else some modulePath } := by
  refine ⟨fun text uri h => parse_toText (named_of_parse h), fun tokenLabel serial objectLabel ckaId modulePath => ?_⟩
  have hname : ∀ name ∈ pathNames, IsName name := fun name hname => isName_field name (mem_append_left _ hname)
  obtain ⟨htoken, _, hserial, _, _, _, _, hobject, _⟩ := setPathAttribute_field
  rw [compose_eq, parse_written]
  · have hpath : [Attr.ofPath "token" tokenLabel, .ofPath "serial" serial, .ofPath "object" objectLabel,
        ⟨"id", isUnreservedPath, ckaId⟩].foldlM (fun uri a => setPathAttribute uri a.name a.value) {} =
        .ok { token := some tokenLabel, serial := some serial, object := some objectLabel, id := some ckaId } := by
      show (setPathAttribute {} "token" (utf8 tokenLabel)).bind _ = _
      rw [htoken]
      show (setPathAttribute _ "serial" (utf8 serial)).bind _ = _
      rw [hserial]
      show (setPathAttribute _ "object" (utf8 objectLabel)).bind _ = _
      rw [hobject]
      rfl
    rw [hpath]
    exact foldlM_attrOf (fun v => { token := some tokenLabel, serial := some serial, object := some objectLabel,
                                    id := some ckaId, modulePath := v }) (setQueryAttribute_field.2 _) _
  · simp only [forall_mem_cons]
    exact ⟨sound_ofPath (hname _ (by decide)) _, sound_ofPath (hname _ (by decide)) _, sound_ofPath (hname _ (by decide)) _,
      ⟨hname "id" (by decide), fun _ hb => hb⟩, nofun⟩
  · exact sound_attrOf (sound_ofQuery (isName_field _ (by decide)))

/-- A composed text, printed again. -/
theorem uri_codec_sample : ∃ uri, parse (compose "Yubico PIV" "00000001" "SSH" [0x01, 0x02, 0xff] "") = .ok uri ∧
    parse uri.toText = .ok uri :=
  ⟨_, uri_codec.2 _ _ _ _ _, uri_codec.1 _ _ (uri_codec.2 "Yubico PIV" "00000001" "SSH" [0x01, 0x02, 0xff] "")⟩

end LetsFlutSsh.Pkcs11
