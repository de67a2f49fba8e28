import Mathlib.Algebra.Group.Int.Defs
import Mathlib.Algebra.Group.Nat.Defs
import Mathlib.Data.Rat.Defs

/-!
# JSON values and objects

The parsed form of a JSON text, with the accessors a typed reader uses:

* `Json`: `null`, booleans, integers, fractional numbers, strings, arrays, objects;
* `Json.Object`: the members of an object, kept in key order by `insert`;
* `asI64`, `asU64`, `asF64`, …: a number is read at a type only when it fits;
* `JsonText`: a printer and a parser that reads back what was printed.
-/

namespace Lib
open List

/-- A JSON value. Numbers are integers or fractions; a fraction is an ordered value, never rounded. -/
inductive Json where
  | null
  | bool (b : Bool)
  | int (n : Int)
  | float (x : Rat)
  | str (s : String)
  | arr (items : List Json)
  | obj (members : List (String × Json))
deriving Inhabited

variable (m : Object)
variable (k : String)

namespace Json

abbrev Object := List (String × Json)

namespace Object

/-- The member `k`, if there is one. -/
def get (m : Object) (k : String) : Option Json := m.lookup k

/-- Set member `k`, keeping the members in key order. -/
def insert (k : String) (v : Json) : Object → Object
  | [] => [(k, v)]
  | (k', v') :: m =>
    if k = k' then (k, v) :: m
    else if k < k' then (k, v) :: (k', v') :: m
    else (k', v') :: insert k v m

/-- Set every member of `o` in `m`. -/
def extend (m o : Object) : Object := o.foldr (fun e m => insert e.1 e.2 m) m

/-- The members as a map has them: of several with one key the first, which is the one found. -/
def entries : Object → Object
  | [] => []
  | e :: m => e :: (entries m).filter fun e' => e'.1 ≠ e.1

@[simp] theorem get_nil : get [] k = none := rfl

theorem get_cons (k' : String) (v : Json) : get ((k, v) :: m) k' = if k' = k then some v else get m k' := by
  by_cases h : k' = k
  · simp [get, h]
  · simp [get, lookup_cons, beq_false_of_ne h, h]

@[simp] theorem get_insert (k' : String) (v : Json) :
    get (insert k v m) k' = if k' = k then some v else get m k' := by
  induction m with
  | nil => rw [insert, get_cons]
  | cons e m ih =>
    obtain ⟨k₀, v₀⟩ := e
    unfold insert
    by_cases h₀ : k = k₀
    · subst h₀
      rw [if_pos rfl, get_cons, get_cons]
      split_ifs <;> rfl
    by_cases hlt : k < k₀
    · rw [if_neg h₀, if_pos hlt, get_cons]
    rw [if_neg h₀, if_neg hlt, get_cons, ih, get_cons]
    by_cases h : k' = k₀
    · have hk : k' ≠ k := by
        rintro rfl
        exact h₀ h
      rw [if_pos h, if_neg hk, if_pos h]
    · rw [if_neg h, if_neg h]

@[simp] theorem get_extend (o : Object) : get (m.extend o) k = (get o k).or (get m k) := by
  induction o with
  | nil => rfl
  | cons e o ih =>
    have h : extend m (e :: o) = insert e.1 e.2 (extend m o) := rfl
    rw [h, get_insert, ih, get_cons]
    split_ifs <;> rfl

end Object

namespace Object

theorem mem_entries (v : Json) : (k, v) ∈ m.entries ↔ m.get k = some v := by
  induction m with
  | nil => simp [entries]
  | cons e m ih =>
    obtain ⟨k₀, v₀⟩ := e
    rw [entries, mem_cons, mem_filter, ih, get_cons, Prod.mk.injEq]
    by_cases h : k = k₀
    · simp [h, eq_comm]
    · simp [h]

theorem nodup_entries : (m.entries.map Prod.fst).Nodup := by
  induction m with
  | nil => exact nodup_nil
  | cons e m ih =>
    rw [entries, map_cons, nodup_cons]
    refine ⟨?_, ih.sublist (filter_sublist.map _)⟩
    intro hmem
    obtain ⟨e', he', heq⟩ := mem_map.1 hmem
    rw [mem_filter] at he'
    exact of_decide_eq_true he'.2 heq

end Object

def asObject : Json → Option Object
  | .obj m => some m
  | _ => none

/-- Member `k` of an object value; other values have no members. -/
def member (v : Json) (k : String) : Option Json := v.asObject.bind fun m => m.get k

@[simp] theorem member_obj : member (.obj m) k = m.get k := rfl

def asArray : Json → Option (List Json)
  | .arr items => some items
  | _ => none

def asStr : Json → Option String
  | .str s => some s
  | _ => none

def asBool : Json → Option Bool
  | .bool b => some b
  | _ => none

def asI64 : Json → Option Int64
  | .int n => if Int64.minValue.toInt ≤ n ∧ n ≤ Int64.maxValue.toInt then some (Int64.ofInt n) else none
  | _ => none

def asU64 : Json → Option UInt64
  | .int n => if 0 ≤ n ∧ n < 2 ^ 64 then some (UInt64.ofNat n.toNat) else none
  | _ => none

def asF64 : Json → Option Rat
  | .int n => some n
  | .float x => some x
  | _ => none

def ofI64 (n : Int64) : Json := .int n.toInt
def ofU64 (n : UInt64) : Json := .int n.toNat

@[simp] theorem asObject_obj : asObject (.obj m) = some m := rfl

@[simp] theorem asArray_arr (items : List Json) : asArray (.arr items) = some items := rfl

@[simp] theorem asStr_str (s : String) : asStr (.str s) = some s := rfl

@[simp] theorem asBool_bool (b : Bool) : asBool (.bool b) = some b := rfl

@[simp] theorem asF64_float (x : Rat) : asF64 (.float x) = some x := rfl

@[simp] theorem asI64_ofI64 (n : Int64) : asI64 (ofI64 n) = some n := by
  simp only [asI64, ofI64]
  rw [if_pos ⟨Int64.minValue_le_toInt n, Int64.toInt_le n⟩, Int64.ofInt_toInt]

@[simp] theorem asU64_ofU64 (n : UInt64) : asU64 (ofU64 n) = some n := by
  have hlt : n.toNat < 2 ^ 64 := n.toNat_lt
  simp only [asU64, ofU64]
  rw [if_pos ⟨by omega, by omega⟩, Int.toNat_natCast, UInt64.ofNat_toNat]

end Json

structure JsonText (Text : Type) where
  fromStr : Text → Except String Json
  toStr : Json → Text
  /-- The text without characters. -/
  emptyText : Text
  isEmpty : Text → Bool
  fromStr_toStr : ∀ v, fromStr (toStr v) = .ok v
  /-- Every value prints at least one character. -/
  isEmpty_toStr : ∀ v, isEmpty (toStr v) = false

attribute [simp] JsonText.fromStr_toStr JsonText.isEmpty_toStr

/-- A text kept as the value it parses to, or as a text that is not JSON. -/
inductive ParsedText where
  | json (v : Json)
  | other (s : String)

def ParsedText.codec : JsonText ParsedText where
  fromStr
    | .json v => .ok v
    | .other _ => .error "expected value at line 1 column 1"
  toStr := .json
  emptyText := .other ""
  isEmpty
    | .json _ => false
    | .other s => s = ""
  fromStr_toStr _ := rfl
  isEmpty_toStr _ := rfl

end Lib
