import LetsFlutSsh.S3.Listing

/-!
# Answers to a list request

* `parseListObjectsV2` : the loop over the events of a document;
* `Item`, `listed`, `lastToken` : documents, and what they say;
* `parse_document` : when they are read so.
-/

namespace LetsFlutSsh.S3
open Lib List Option

abbrev Chars := List Char

/-- An event of the reader; a CDATA section is among the others. -/
inductive Event where
  | start (name : String)
  | close (name : String)
  | text (decoded : Except String Chars)
  | generalRef (resolved : Except String Chars)
  | other
  | fault (reason : String)

structure ListParseState where
  objects : List S3Object
  nextToken : Option Bytes
  currentText : Chars
  inContents : Bool
  inCommonPrefix : Bool
  curObj : S3Object

def textBytes (text : Chars) : Bytes := utf8 (String.ofList text)

/-- `str::parse::<u64>`. -/
def parseU64 (text : Chars) : Option Nat :=
  let digits := if text.head? = some '+' then text.tail else text
  let n := digits.foldl (fun n c => 10 * n + (c.toNat - 48)) 0
  if digits ≠ [] ∧ digits.all Char.isDigit ∧ n ≤ maxU64 then some n else none

def onStart (s : ListParseState) (name : String) : ListParseState :=
  if name = "Contents" then { s with inContents := true, curObj := ⟨[], 0, none, [], false⟩, currentText := [] }
  else if name = "CommonPrefixes" then { s with inCommonPrefix := true, curObj := ⟨[], 0, none, [], true⟩, currentText := [] }
  else { s with currentText := [] }

section
variable (parseIso8601Ms : Chars → Option Int)

def onEndInContents (s : ListParseState) (name : String) (text : Chars) : ListParseState :=
  if name = "Key" then { s with curObj.key := textBytes text }
  else if name = "Size" then { s with curObj.size := (parseU64 text).getD 0 }
  else if name = "LastModified" then { s with curObj.lastModifiedUnixMs := parseIso8601Ms text }
  else if name = "ETag" then { s with curObj.etag := textBytes ((text.dropWhile (· = '"')).rdropWhile (· = '"')) }
  else if name = "Contents" then { s with objects := s.objects ++ [s.curObj], inContents := false }
  else s

def onEndInCommonPrefix (s : ListParseState) (name : String) (text : Chars) : ListParseState :=
  if name = "Prefix" then { s with curObj.key := textBytes text }
  else if name = "CommonPrefixes" then { s with objects := s.objects ++ [s.curObj], inCommonPrefix := false }
  else s

def onEnd (s : ListParseState) (name : String) : ListParseState :=
  let text := trim s.currentText
  let s := { s with currentText := [] }
  if s.inContents then onEndInContents parseIso8601Ms s name text
  else if s.inCommonPrefix then onEndInCommonPrefix s name text
  else if name = "NextContinuationToken" then { s with nextToken := some (textBytes text) }
  else s

def step (s : ListParseState) : Event → Except String ListParseState
  | .start name => .ok (onStart s name)
  | .close name => .ok (onEnd parseIso8601Ms s name)
  | .text (.ok text) | .generalRef (.ok text) => .ok { s with currentText := s.currentText ++ text }
  | .text (.error e) => .error ("ListObjectsV2 text decode: " ++ e)
  | .generalRef (.error e) => .error ("ListObjectsV2 xml entity: " ++ e)
  | .other => .ok s
  | .fault e => .error ("ListObjectsV2 parse: " ++ e)

def startState : ListParseState := ⟨[], none, [], false, false, ⟨[], 0, none, [], false⟩⟩

def parseListObjectsV2 (events : List Event) : Except String S3ObjectPage :=
  (events.foldlM (step parseIso8601Ms) startState).map fun s => { items := s.objects, next := s.nextToken }

end

/-- A part of a value, or of what stands between elements. -/
inductive Chunk where
  | text (chars : Chars)
  | ref (chars : Chars)
  | cdata (chars : Chars)

def Chunk.event : Chunk → Event
  | .text chars => .text (.ok chars)
  | .ref chars => .generalRef (.ok chars)
  | .cdata _ => .other

abbrev Value := List Chunk

def Value.full (v : Value) : Chars := v.flatMap fun | .text chars | .ref chars | .cdata chars => chars

def Value.parsed (v : Value) : Chars := v.flatMap fun | .text chars | .ref chars => chars | .cdata _ => []

def Value.read (v : Value) : Chars := trim v.parsed

def element (name : String) (body : List Event) : List Event := .start name :: body ++ [.close name]

inductive Field where
  | value (name : String) (v : Value)
  | unknown (name : String) (body : List Event)
  | gap (c : Chunk)

inductive Item where
  | group (isDir : Bool) (fields : List Field)
  | token (v : Value)
  | unknown (name : String) (body : List Event)
  | gap (c : Chunk)

def Event.IsStray (known : List String) : Event → Prop
  | .start name | .close name => name ∉ known
  | .text (.ok _) | .generalRef (.ok _) | .other => True
  | _ => False

def groupNames (isDir : Bool) : List String :=
  ["Contents", "CommonPrefixes"] ++ if isDir then ["Prefix"] else ["Key", "Size"]

def Field.Legal (isDir : Bool) : Field → Prop
  | .value name _ => name ∉ ["Contents", "CommonPrefixes"]
  | .unknown name body => ∀ e ∈ element name body, e.IsStray (groupNames isDir)
  | .gap _ => True

def Item.Legal : Item → Prop
  | .group isDir fields => ∀ field ∈ fields, field.Legal isDir
  | .unknown name body => ∀ e ∈ element name body, e.IsStray ["Contents", "CommonPrefixes", "NextContinuationToken"]
  | _ => True

def Field.events : Field → List Event
  | .value name v => element name (v.map Chunk.event)
  | .unknown name body => element name body
  | .gap c => [c.event]

def groupName (isDir : Bool) : String := if isDir then "CommonPrefixes" else "Contents"

def Item.events : Item → List Event
  | .group isDir fields => element (groupName isDir) (fields.flatMap Field.events)
  | .token v => element "NextContinuationToken" (v.map Chunk.event)
  | .unknown name body => element name body
  | .gap c => [c.event]

/-- What a document says of an object or a common prefix. -/
structure Listed where
  isDir : Bool
  key : Value
  size : Value

def Listed.add (entry : Listed) : Field → Listed
  | .value name v =>
    if name = (if entry.isDir then "Prefix" else "Key") then { entry with key := v }
    else if name = "Size" ∧ entry.isDir = false then { entry with size := v }
    else entry
  | _ => entry

def listed (items : List Item) : List Listed :=
  items.filterMap fun | .group isDir fields => some (fields.foldl Listed.add ⟨isDir, [], []⟩) | _ => none

def lastToken (token : Option Value) (items : List Item) : Option Value :=
  items.foldl (fun token item => match item with | .token v => some v | _ => token) token

def Listed.bytes (f : Value → Chars) (entry : Listed) : Nat := if entry.isDir then 0 else (parseU64 (f entry.size)).getD 0

/-- Key, size and directory flag, with values as `f` has them. -/
def Listed.row (f : Value → Chars) (entry : Listed) : Bytes × Nat × Bool :=
  (textBytes (f entry.key), entry.bytes f, entry.isDir)

def S3Object.row (obj : S3Object) : Bytes × Nat × Bool := (obj.key, obj.size, obj.isDir)

variable {P : Chars → Option Int} {s : ListParseState} {old : List Listed} {token : Option Value}

theorem foldlM_chunks (v : Value) :
    (v.map Chunk.event).foldlM (step P) s = .ok { s with currentText := s.currentText ++ v.parsed } := by
  induction v generalizing s with
  | nil => simp [Value.parsed, pure, Except.pure]
  | cons c v ih => cases c <;> simp [Chunk.event, step, bind, Except.bind, ih, Value.parsed]

theorem foldlM_element (name : String) (body : List Event) : (element name body).foldlM (step P) s =
    (body.foldlM (step P) (onStart s name)).map fun s => onEnd P s name := by
  rw [element, cons_append, foldlM_cons]
  show (body ++ [_]).foldlM (step P) _ = _
  rw [foldlM_append]
  cases body.foldlM (step P) (onStart s name) <;> rfl

theorem foldlM_value (name : String) (v : Value) : (element name (v.map Chunk.event)).foldlM (step P) s =
    .ok (onEnd P { onStart s name with currentText := v.parsed } name) := by
  have hempty : (onStart s name).currentText = [] := by
    unfold onStart
    split_ifs <;> rfl
  rw [foldlM_element, foldlM_chunks, hempty, nil_append]
  rfl

theorem foldlM_strays {known : List String} {Q : ListParseState → Prop}
    (hstart : ∀ s name, name ∉ known → Q s → Q (onStart s name)) (hend : ∀ s name, name ∉ known → Q s → Q (onEnd P s name))
    (htext : ∀ s text, Q s → Q { s with currentText := text }) {events : List Event}
    (h : ∀ e ∈ events, e.IsStray known) (hs : Q s) : ∃ s', events.foldlM (step P) s = .ok s' ∧ Q s' := by
  induction events generalizing s with
  | nil => exact ⟨s, rfl, hs⟩
  | cons e events ih =>
    rw [forall_mem_cons] at h
    obtain ⟨s₁, hstep, h₁⟩ : ∃ s₁, step P s e = .ok s₁ ∧ Q s₁ := by
      rcases e with name | name | (_ | text) | (_ | text) | _ | _
      · exact ⟨_, rfl, hstart s name h.1 hs⟩
      · exact ⟨_, rfl, hend s name h.1 hs⟩
      · exact h.1.elim
      · exact ⟨_, rfl, htext s _ hs⟩
      · exact h.1.elim
      · exact ⟨_, rfl, htext s _ hs⟩
      · exact ⟨s, rfl, hs⟩
      · exact h.1.elim
    obtain ⟨s₂, hrest, h₂⟩ := ih h.2 h₁
    exact ⟨s₂, by rw [foldlM_cons, hstep]; exact hrest, h₂⟩

/-- The loop has these entries and this token, and is in no object or in one. -/
def After (old : List Listed) (token : Option Value) (current : Option Listed) (s : ListParseState) : Prop :=
  s.objects.map S3Object.row = old.map (Listed.row Value.read) ∧ s.nextToken = token.map (textBytes ·.read) ∧
    s.inContents = current.any (!·.isDir) ∧ s.inCommonPrefix = current.any (·.isDir) ∧
    ∀ entry ∈ current, s.curObj.row = entry.row Value.read

theorem after_text (s : ListParseState) {current : Option Listed} (text : Chars) (h : After old token current s) :
    After old token current { s with currentText := text } := h

theorem after_start {current : Option Listed} (s : ListParseState) (name : String) (hname : name ∉ ["Contents", "CommonPrefixes"])
    (h : After old token current s) : After old token current (onStart s name) := by
  simp only [mem_cons, not_mem_nil, or_false, not_or] at hname
  simpa [onStart, hname, After] using h

variable {entry : Listed}

theorem after_end {name : String} {v : Value} (hname : name ∉ ["Contents", "CommonPrefixes"])
    (hv : trim s.currentText = v.read) (h : After old token (some entry) s) :
    After old token (some (entry.add (.value name v))) (onEnd P s name) := by
  obtain ⟨hobjects, htoken, hcontents, hdir, hrow⟩ := h
  obtain ⟨isDir, key, size⟩ := entry
  simp only [mem_cons, not_mem_nil, or_false, not_or] at hname
  unfold onEnd onEndInContents onEndInCommonPrefix Listed.add After
  cases isDir <;> simp only [hcontents, hdir, hname, hv, any_some, Bool.not_false, Bool.not_true, if_true, if_false,
    Bool.false_eq_true] <;> split_ifs <;> simp_all [S3Object.row, Listed.row, Listed.bytes]

theorem foldlM_field {field : Field} (hlegal : field.Legal entry.isDir) (h : After old token (some entry) s) :
    ∃ s', field.events.foldlM (step P) s = .ok s' ∧ After old token (some (entry.add field)) s' := by
  cases field with
  | value name v => exact ⟨_, foldlM_value name v, after_end hlegal rfl (after_text _ _ (after_start s name hlegal h))⟩
  | unknown name body =>
    refine foldlM_strays (fun s name hname => after_start s name (hname <| mem_append_left _ ·)) (fun s name hname hs => ?_)
      (fun s text => after_text s text) hlegal h
    have hkeep : entry.add (.value name [.text s.currentText]) = entry := by
      cases hdir : entry.isDir <;> simp_all [Listed.add]
    have hend : After old token (some (entry.add (.value name [.text s.currentText]))) (onEnd P s name) :=
      after_end (hname <| mem_append_left _ ·) (by simp [Value.read, Value.parsed]) hs
    rwa [hkeep] at hend
  | gap c => exact ⟨_, foldlM_chunks [c], after_text s _ h⟩

@[simp] theorem isDir_add (entry : Listed) (field : Field) : (entry.add field).isDir = entry.isDir := by
  unfold Listed.add
  split
  · split_ifs <;> rfl
  · rfl

theorem foldlM_fields {fields : List Field} (h : After old token (some entry) s)
    (hlegal : ∀ field ∈ fields, field.Legal entry.isDir) :
    ∃ s', (fields.flatMap Field.events).foldlM (step P) s = .ok s' ∧ After old token (some (fields.foldl Listed.add entry)) s' ∧
      (fields.foldl Listed.add entry).isDir = entry.isDir := by
  induction fields generalizing s entry with
  | nil => exact ⟨s, rfl, h, rfl⟩
  | cons field fields ih =>
    rw [forall_mem_cons] at hlegal
    obtain ⟨s₁, hrun, h₁⟩ := foldlM_field (P := P) hlegal.1 h
    obtain ⟨s₂, hrest, h₂⟩ := ih h₁ (by simpa using hlegal.2)
    exact ⟨s₂, by rw [flatMap_cons, foldlM_append, hrun]; exact hrest, by simpa using h₂⟩

theorem foldlM_item {item : Item} (hlegal : item.Legal) (h : After old token none s) :
    ∃ s', item.events.foldlM (step P) s = .ok s' ∧ After (old ++ listed [item]) (lastToken token [item]) none s' := by
  have hout := h
  obtain ⟨hobjects, htoken, hcontents, hdir, -⟩ := h
  cases item with
  | group isDir fields =>
    have hstart : After old token (some ⟨isDir, [], []⟩) (onStart s (groupName isDir)) := by
      cases isDir <;>
        simp [onStart, groupName, After, hobjects, htoken, hcontents, hdir, S3Object.row, Listed.row, Listed.bytes] <;> decide +kernel
    obtain ⟨s₁, hrun, ⟨hobjects, htoken, hc, hd, hrow⟩, hkind⟩ := foldlM_fields (P := P) hstart hlegal
    refine ⟨onEnd P s₁ (groupName isDir), by rw [Item.events, foldlM_element, hrun]; rfl, ?_⟩
    simp only [any_some, hkind] at hc hd
    cases isDir <;> simp [onEnd, onEndInContents, onEndInCommonPrefix, groupName, After, listed, lastToken, hc, hd, hobjects,
      htoken, hrow]
  | token v =>
    exact ⟨_, foldlM_value _ v, by simp [onEnd, onStart, After, listed, lastToken, hobjects, hcontents, hdir, Value.read]⟩
  | unknown name body =>
    rw [show listed [.unknown name body] = [] from rfl, append_nil]
    refine foldlM_strays (fun s name hname hs => after_start s name (fun hmem => hname (by simp_all)) hs)
      (fun s name hname hs => ?_) (fun s text => after_text s text) hlegal hout
    obtain ⟨hobjects, htoken, hcontents, hdir, -⟩ := hs
    simp_all [onEnd, After, lastToken]
  | gap c =>
    rw [show listed [.gap c] = [] from rfl, append_nil]
    exact ⟨_, foldlM_chunks [c], after_text s _ hout⟩

theorem foldlM_items {items : List Item} (hlegal : ∀ item ∈ items, item.Legal) (h : After old token none s) :
    ∃ s', (items.flatMap Item.events).foldlM (step P) s = .ok s' ∧ After (old ++ listed items) (lastToken token items) none s' := by
  induction items generalizing s old token with
  | nil => exact ⟨s, rfl, by rwa [listed, filterMap_nil, append_nil]⟩
  | cons item items ih =>
    rw [forall_mem_cons] at hlegal
    obtain ⟨s₁, hrun, h₁⟩ := foldlM_item (P := P) hlegal.1 h
    obtain ⟨s₂, hrest, h₂⟩ := ih hlegal.2 h₁
    have hlisted : listed [item] ++ listed items = listed (item :: items) := by
      rw [listed, listed, ← filterMap_append]
      rfl
    rw [append_assoc, hlisted] at h₂
    exact ⟨s₂, by rw [flatMap_cons, foldlM_append, hrun]; exact hrest, h₂⟩

theorem textBytes_inj {a b : Chars} : textBytes a = textBytes b ↔ a = b :=
  utf8_injective.eq_iff.trans String.ofList_inj

/-- **A document is read as it says** where no value loses a character to the trimming or to a CDATA section. -/
theorem parse_document {items : List Item} (hlegal : ∀ item ∈ items, item.Legal) :
    (∃ page, parseListObjectsV2 P (items.flatMap Item.events) = .ok page ∧
      page.items.map S3Object.row = (listed items).map (Listed.row Value.full) ∧
      page.next = (lastToken none items).map (textBytes ·.full)) ↔
    (∀ entry ∈ listed items, entry.key.read = entry.key.full ∧ entry.bytes Value.read = entry.bytes Value.full) ∧
      ∀ v ∈ lastToken none items, v.read = v.full := by
  obtain ⟨s, hrun, hobjects, htoken, -⟩ := foldlM_items (P := P) (s := startState) hlegal
    (⟨rfl, rfl, rfl, rfl, nofun⟩ : After [] none none startState)
  have hparse : parseListObjectsV2 P (items.flatMap Item.events) = .ok { items := s.objects, next := s.nextToken } := by
    rw [parseListObjectsV2, hrun]
    rfl
  rw [hparse]
  simp only [Except.ok.injEq, exists_eq_left', hobjects, htoken, nil_append, map_inj_left, Listed.row, Prod.mk.injEq,
    textBytes_inj, and_true]
  refine and_congr_right fun _ => ?_
  cases lastToken none items <;> simp [textBytes_inj]

/-- A page with an object whose key has a reference in it, a common prefix, an element that the parser does not know, and a
token. -/
def samplePage : List Item :=
  [.gap (.text ['\n']), .unknown "KeyCount" [.text (.ok ['2'])],
    .group false [.value "Key" [.text ['a'], .ref ['&'], .text ['b']], .value "Size" [.text ['7']], .gap (.text [' '])],
    .group true [.value "Prefix" [.text ['c', '/']]], .token [.text ['x']]]

def sample (key : Value) (more : List Field) : List Item :=
  [.group false (.value "Key" key :: .value "Size" [.text ['7']] :: more)]

theorem parse_document_sample :
    ∃ page, parseListObjectsV2 (fun _ => none) (samplePage.flatMap Item.events) = .ok page ∧
      page.items.map S3Object.row = [(textBytes ['a', '&', 'b'], 7, false), (textBytes ['c', '/'], 0, true)] ∧
      page.next = some (textBytes ['x']) := by
  have hlegal : ∀ item ∈ samplePage, item.Legal := by simp [samplePage, Item.Legal, Field.Legal, element, Event.IsStray]
  obtain ⟨page, hpage, hrows, hnext⟩ := (parse_document (P := fun _ => none) hlegal).2 (by decide +kernel)
  exact ⟨page, hpage, hrows.trans (by decide +kernel), hnext.trans (by decide +kernel)⟩

theorem keys_are_misread : Forall (fun x =>
    (parseListObjectsV2 (fun _ => none) ((sample x.1 x.2).flatMap Item.events)).toOption.map (·.items.map S3Object.row) =
      some [(textBytes ['a'], 7, false)] ∧ (listed (sample x.1 x.2)).map (Listed.row Value.full) ≠ [(textBytes ['a'], 7, false)])
    [([Chunk.text [' ', 'a']], []), ([.text ['a'], .cdata [' ']], []),
      ([.text ['b']], [Field.unknown "Tag" [.start "Key", .text (.ok ['a']), .close "Key"]])] := by
  refine ⟨?_, ?_, ?_⟩ <;> decide +kernel

end LetsFlutSsh.S3
