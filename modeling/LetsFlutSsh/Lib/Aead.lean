import LetsFlutSsh.Lib.Bytes

/-!
# Authenticated encryption with a counter as associated data

* `Aead` : AES-256-GCM with a 12-byte nonce, as a program that calls it may rely on it;
* `Aead.frame` : one self-delimiting block `[len(4 LE)][nonce(12)][ciphertext + tag]` whose position
  in its stream is the associated data (`length_frame`);
* `Aead.tagged`, `Aead.keyed` : instances, for evaluating on concrete input.

GCM authenticates an 8-byte associated data through one block of its hash, so two different counters
never share a tag for one key, nonce and ciphertext (the hash subkey being nonzero): this is
`decrypt_counter`.
-/

namespace Lib

/-- An AES-256-GCM implementation: `encrypt key nonce plaintext aad` and its inverse. The
implementation may refuse inputs above `2 ^ 36` bytes, hence the bounds of `encrypt_isSome`. -/
structure Aead where
  encrypt : Block 32 → Block 12 → Bytes → Bytes → Option Bytes
  decrypt : Block 32 → Block 12 → Bytes → Bytes → Option Bytes
  encrypt_isSome : ∀ k n pt aad, pt.length < 2 ^ 32 → aad.length < 2 ^ 32 → (encrypt k n pt aad).isSome
  length_encrypt : ∀ k n pt aad ct, encrypt k n pt aad = some ct → ct.length = pt.length + 16
  decrypt_encrypt : ∀ k n pt aad ct, encrypt k n pt aad = some ct → decrypt k n ct aad = some pt
  decrypt_counter : ∀ k n pt ct i j, i < 2 ^ 64 → j < 2 ^ 64 → i ≠ j →
    encrypt k n pt (leBytes 8 i) = some ct → decrypt k n ct (leBytes 8 j) = none

variable {k : Block 32}

namespace Aead

/-- The block for `pt` at position `i` of its stream. -/
def frame (A : Aead) (k : Block 32) (i : Nat) (n : Block 12) (pt : Bytes) : Option Bytes :=
  (A.encrypt k n pt (leBytes 8 i)).map fun ct => leBytes 4 pt.length ++ n.1 ++ ct

variable {A : Aead} {i : Nat} {n : Block 12} {pt f : Bytes}

theorem frame_eq_some (h : A.frame k i n pt = some f) :
    ∃ ct, A.encrypt k n pt (leBytes 8 i) = some ct ∧ f = leBytes 4 pt.length ++ n.1 ++ ct := by
  obtain ⟨ct, hct, rfl⟩ := Option.map_eq_some_iff.mp h
  exact ⟨ct, hct, rfl⟩

theorem length_frame (h : A.frame k i n pt = some f) : f.length = pt.length + 32 := by
  obtain ⟨ct, hct, rfl⟩ := frame_eq_some h
  simp only [List.length_append, length_leBytes, n.2, A.length_encrypt _ _ _ _ _ hct]
  omega

theorem frame_isSome (k : Block 32) (i : Nat) (n : Block 12) (h : pt.length < 2 ^ 32) : (A.frame k i n pt).isSome := by
  have := A.encrypt_isSome k n pt (leBytes 8 i) h (by simp)
  simpa [frame] using this

theorem readExact_frame (h : A.frame k i n pt = some f) (rest : Bytes) : ∃ ct, A.encrypt k n pt (leBytes 8 i) = some ct ∧
    readExact 4 (f ++ rest) = some (leBytes 4 pt.length, n.1 ++ (ct ++ rest)) ∧
    readBlock 12 (n.1 ++ (ct ++ rest)) = some (n, ct ++ rest) ∧
    readExact (pt.length + 16) (ct ++ rest) = some (ct, rest) := by
  obtain ⟨ct, hct, rfl⟩ := frame_eq_some h
  refine ⟨ct, hct, ?_, readBlock_append n _, readExact_append (A.length_encrypt _ _ _ _ _ hct) _⟩
  simp only [List.append_assoc]
  exact readExact_append (length_leBytes 4 _) _

/-- Sixteen bytes that start with `aad`. -/
def tag (aad : Bytes) : Bytes := (aad ++ List.replicate 16 0).take 16

@[simp] theorem length_tag (aad : Bytes) : (tag aad).length = 16 := by
  simp [tag]

theorem tag_counter_inj {i j : Nat} (hi : i < 2 ^ 64) (hj : j < 2 ^ 64)
    (h : tag (leBytes 8 i) = tag (leBytes 8 j)) : i = j := by
  have h8 : ∀ m, (tag (leBytes 8 m)).take 8 = leBytes 8 m := by
    intro m
    simp [tag, List.take_take]
  apply leBytes_inj (w := 8) (by omega) (by omega)
  rw [← h8 i, ← h8 j, h]

/-- The instance that leaves the text readable and carries the associated data as the tag. -/
def tagged : Aead where
  encrypt _ _ pt aad := some (pt ++ tag aad)
  decrypt _ _ ct aad :=
    if ct.drop (ct.length - 16) = tag aad then some (ct.take (ct.length - 16)) else none
  encrypt_isSome _ _ _ _ _ _ := rfl
  length_encrypt _ _ pt aad ct h := by
    cases h
    simp
  decrypt_encrypt _ _ pt aad ct h := by
    cases h
    simp
  decrypt_counter _ _ pt ct i j hi hj hij h := by
    cases h
    have hne : tag (leBytes 8 i) ≠ tag (leBytes 8 j) := fun h => hij (tag_counter_inj hi hj h)
    simp [hne]

def keyTag (k : Block 32) (aad : Bytes) : Bytes := (aad ++ List.replicate 8 0).take 8 ++ k.1.take 8

@[simp] theorem length_keyTag (k : Block 32) (aad : Bytes) : (keyTag k aad).length = 16 := by
  simp [keyTag, k.2]

theorem keyTag_counter_inj {i j : Nat} (hi : i < 2 ^ 64) (hj : j < 2 ^ 64)
    (h : keyTag k (leBytes 8 i) = keyTag k (leBytes 8 j)) : i = j := by
  have h8 : ∀ m, (keyTag k (leBytes 8 m)).take 8 = leBytes 8 m := by
    intro m
    simp [keyTag]
  apply leBytes_inj (w := 8) (by omega) (by omega)
  rw [← h8 i, ← h8 j, h]

/-- The instance that leaves the text readable and carries the associated data and the key as the tag. -/
def keyed : Aead where
  encrypt k _ pt aad := some (pt ++ keyTag k aad)
  decrypt k _ ct aad :=
    if ct.drop (ct.length - 16) = keyTag k aad then some (ct.take (ct.length - 16)) else none
  encrypt_isSome _ _ _ _ _ _ := rfl
  length_encrypt _ _ pt aad ct h := by
    cases h
    simp
  decrypt_encrypt _ _ pt aad ct h := by
    cases h
    simp
  decrypt_counter k _ pt ct i j hi hj hij h := by
    cases h
    have hne : keyTag k (leBytes 8 i) ≠ keyTag k (leBytes 8 j) := fun h => hij (keyTag_counter_inj hi hj h)
    simp [hne]

end Aead

end Lib
