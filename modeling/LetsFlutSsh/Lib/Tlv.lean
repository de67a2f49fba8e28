import LetsFlutSsh.Lib.BigEndian

/-!
# Tagged elements of definite length

* `LengthOctets` : how a length is written, in one octet or as a count of at most eight octets and the octets;
* `IsElement` : a tag, a length and a body of that length.
-/

namespace Lib

/-- The octets of a definite length, not only the shortest ones. -/
inductive LengthOctets : Bytes → Nat → Prop where
  | short {b : UInt8} (h : b < 0x80) : LengthOctets [b] b.toNat
  | long {octets : Bytes} (hpos : octets ≠ []) (hle : octets.length ≤ 8) :
      LengthOctets ((0x80 ||| UInt8.ofNat octets.length) :: octets) (bigEndian octets)

def IsElement (tag : UInt8) (body element : Bytes) : Prop :=
  ∃ field, LengthOctets field body.length ∧ element = tag :: (field ++ body)

variable {field field' rest rest' body body' element : Bytes} {n n' : Nat} {tag : UInt8}

theorem LengthOctets.ne_nil (h : LengthOctets field n) : field ≠ [] := by
  cases h <;> exact List.cons_ne_nil _ _

theorem LengthOctets.length_le (h : LengthOctets field n) : field.length ≤ 9 := by
  cases h with
  | short _ => exact Nat.succ_le_succ (Nat.zero_le 8)
  | long _ hle => exact Nat.succ_le_succ hle

theorem longMark_spec {k : Nat} (hpos : 0 < k) (hle : k ≤ 8) :
    ¬(0x80 ||| UInt8.ofNat k) < 0x80 ∧ (0x80 ||| UInt8.ofNat k) ≠ 0x80 ∧ ((0x80 ||| UInt8.ofNat k) &&& 0x7F).toNat = k := by
  have hall : ∀ k ≤ 8, 0 < k → ¬(0x80 ||| UInt8.ofNat k) < 0x80 ∧ (0x80 ||| UInt8.ofNat k) ≠ 0x80 ∧
      ((0x80 ||| UInt8.ofNat k) &&& 0x7F).toNat = k := by decide
  exact hall k hle hpos

theorem mark_of_count {b : UInt8} (h : ¬b < 0x80) : b = 0x80 ||| UInt8.ofNat (b &&& 0x7F).toNat := by
  have hall := forall_byte (p := fun b => decide (¬b < 0x80 → b = 0x80 ||| UInt8.ofNat (b &&& 0x7F).toNat)) (by decide +kernel) b
  exact of_decide_eq_true hall h

theorem IsElement.ne_nil (h : IsElement tag body element) : element ≠ [] := by
  obtain ⟨_, _, rfl⟩ := h
  exact List.cons_ne_nil _ _

theorem IsElement.length (h : IsElement tag body element) : 2 ≤ element.length ∧ body.length < element.length := by
  obtain ⟨field, hfield, rfl⟩ := h
  have hpos : 0 < field.length := List.length_pos_of_ne_nil hfield.ne_nil
  simp only [List.length_cons, List.length_append]
  omega

end Lib
