import LetsFlutSsh.Lib.Bytes
import LetsFlutSsh.Lib.Removal

/-!
# Terminal input: pasted text

`encode_paste` of `terminal/input.rs`.

* `encodePaste` : the bytes of a paste, framed in bracketed-paste mode;
* `shellReads` : what a shell in that mode takes as pasted, and what as typed;
* `PasteSealed` : the frame is not closed early, and a text without the closing sequence is not changed;
* `pasteSealed_iff` : it is so exactly while the text hides no closing sequence.
-/

namespace LetsFlutSsh.Terminal
open Lib

structure TermMode where
  bracketedPaste : Bool

def escape : UInt8 := 0x1b

/-- What follows the escape in the closing sequence: `[201~`. -/
def endParameters : Bytes := [0x5b, 0x32, 0x30, 0x31, 0x7e]

/-- `ESC[200~`. -/
def pasteStart : Bytes := [escape, 0x5b, 0x32, 0x30, 0x30, 0x7e]

/-- `PASTE_END`: `ESC[201~`. -/
def pasteEnd : Bytes := escape :: endParameters

example : utf8 "\x1b[200~" = pasteStart ∧ utf8 "\x1b[201~" = pasteEnd := by decide +kernel

/-- `encode_paste`. The terminator is removed in one pass over the text. -/
def encodePaste (text : String) (mode : TermMode) : Bytes :=
  if mode.bracketedPaste then
    let safe := removeAll pasteEnd (utf8 text)
    pasteStart ++ safe ++ pasteEnd
  else utf8 text

/-- What a shell in bracketed-paste mode takes as pasted, and what it takes as typed after that. -/
def shellReads (bytes : Bytes) : Option (Bytes × Bytes) :=
  if pasteStart <+: bytes then splitFirst pasteEnd (bytes.drop pasteStart.length) else none

/-- The closing sequence of a paste is the only one, nothing of the text is typed, and a text without one is kept. -/
structure PasteSealed (text : String) (mode : TermMode) : Prop where
  inside : mode.bracketedPaste = true → ∀ body, encodePaste text mode = pasteStart ++ body ++ pasteEnd → ¬pasteEnd <:+: body
  typed : mode.bracketedPaste = true → ∃ pasted, shellReads (encodePaste text mode) = some (pasted, [])
  kept : mode.bracketedPaste = true → ¬pasteEnd <:+: utf8 text → encodePaste text mode = pasteStart ++ utf8 text ++ pasteEnd

/-- The letters of the closing sequence stand in the text in order, with a whole closing sequence between them. -/
def HidesEnd (text : String) : Prop := Hides escape endParameters (utf8 text)

theorem escape_not_mem : escape ∉ endParameters := by decide

theorem encodePaste_bracketed (text : String) {mode : TermMode} (h : mode.bracketedPaste = true) :
    encodePaste text mode = pasteStart ++ removeAll pasteEnd (utf8 text) ++ pasteEnd := if_pos h

theorem shellReads_frame {body : Bytes} (h : ¬pasteEnd <:+: body) :
    shellReads (pasteStart ++ body ++ pasteEnd) = some (body, []) := by
  unfold shellReads
  rw [List.append_assoc, if_pos (List.prefix_append _ _), List.drop_left]
  have hsplit := splitFirst_append escape_not_mem h []
  rw [List.append_nil] at hsplit
  exact hsplit

/-- **A paste is sealed** exactly when the mode is off or the text hides no closing sequence. -/
theorem pasteSealed_iff (text : String) (mode : TermMode) :
    PasteSealed text mode ↔ (mode.bracketedPaste = true → ¬HidesEnd text) := by
  have hhides : pasteEnd <:+: removeAll pasteEnd (utf8 text) ↔ HidesEnd text := infix_removeAll_iff escape_not_mem _
  constructor
  · intro h hmode hhidden
    exact h.inside hmode _ (encodePaste_bracketed text hmode) (hhides.2 hhidden)
  intro h
  refine ⟨fun hmode body hbody => ?_, fun hmode => ?_, fun hmode hno => ?_⟩
  · rw [encodePaste_bracketed text hmode] at hbody
    rw [← List.append_cancel_left (List.append_cancel_right hbody)]
    exact fun hin => h hmode (hhides.1 hin)
  · rw [encodePaste_bracketed text hmode]
    exact ⟨_, shellReads_frame fun hin => h hmode (hhides.1 hin)⟩
  · rw [encodePaste_bracketed text hmode, removeAll_of_not_infix hno]

/-- **A terminator put into a terminator**: removing the inner one joins the outer one, and `id` is typed. -/
theorem joined_terminator_types :
    shellReads (encodePaste "ls\x1b[20\x1b[201~1~id" ⟨true⟩) = some (utf8 "ls", utf8 "id\x1b[201~") ∧
      ¬PasteSealed "ls\x1b[20\x1b[201~1~id" ⟨true⟩ := by
  have hread : shellReads (encodePaste "ls\x1b[20\x1b[201~1~id" ⟨true⟩) = some (utf8 "ls", utf8 "id\x1b[201~") := by
    decide +kernel
  refine ⟨hread, fun h => ?_⟩
  obtain ⟨pasted, htyped⟩ := h.typed rfl
  rw [hread] at htyped
  have hnone : utf8 "id\x1b[201~" = [] := congrArg Prod.snd (Option.some.inj htyped)
  exact absurd hnone (by decide +kernel)

end LetsFlutSsh.Terminal
