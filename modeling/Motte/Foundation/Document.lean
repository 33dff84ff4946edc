import Mathlib.Data.Rat.Defs
import Motte.Foundation.Table
import Motte.Foundation.Value

/-! Documents: dictionaries with text keys and JSON values.

A dictionary keeps its members in the order they were first assigned. Written as
JSON with sorted keys and read back it has them in key order, at every level, and
is otherwise the same: every key finds what it found. Two documents compare equal
whatever the order of their members, with truth values as numbers and integers as
the floats of the same size. -/
namespace Motte.Foundation

/-! ### Equality of values -/

/-- A number as it is compared. -/
inductive Number where
  | finite (value : ℚ)
  | infinite (negative : Bool)
  | nan

namespace Number

/-- The number of 64 bits. -/
def ofBits (bits : UInt64) : Number :=
  let mantissa := (bits &&& 0xfffffffffffff).toNat
  let exponent := ((bits >>> 52) &&& 0x7ff).toNat
  let negative := bits >>> 63 = 1
  if exponent = 0x7ff then if mantissa = 0 then .infinite negative else .nan
  else
    let size : ℚ := if exponent = 0 then mantissa / 2 ^ 1074 else (mantissa + 2 ^ 52) * 2 ^ exponent / 2 ^ 1075
    .finite (if negative then -size else size)

/-- `==` of two numbers; a NaN equals nothing. -/
def equals : Number → Number → Bool
  | .finite a, .finite b => a = b
  | .infinite a, .infinite b => a = b
  | _, _ => false

end Number

namespace Value

def number? : Value → Option Number
  | .bool b => some (.finite (if b then 1 else 0))
  | .int n => some (.finite n)
  | .float bits => some (.ofBits bits)
  | _ => none

mutual
/-- `==` of two values whose members stand in key order. -/
def alike : Value → Value → Bool
  | .null, .null => true
  | .str a, .str b => a = b
  | .arr a, .arr b => alikeItems a b
  | .obj a, .obj b => alikeMembers a b
  | a, b => match a.number?, b.number? with
    | some x, some y => x.equals y
    | _, _ => false

def alikeItems : List Value → List Value → Bool
  | [], [] => true
  | x :: xs, y :: ys => alike x y && alikeItems xs ys
  | _, _ => false

def alikeMembers : List (String × Value) → List (String × Value) → Bool
  | [], [] => true
  | (k, x) :: xs, (l, y) :: ys => k = l && alike x y && alikeMembers xs ys
  | _, _ => false
end

/-- `==` -/
def equals (a b : Value) : Bool := alike a.canon b.canon

theorem canon_equals (a b : Value) : a.canon.equals b = a.equals b := by
  rw [equals, canon_idem, equals]

theorem equals_canon (a b : Value) : a.equals b.canon = a.equals b := by
  rw [equals, canon_idem, equals]

/-- Whether a value counts as true in a condition. -/
def truthy : Value → Bool
  | .null => false
  | .bool b => b
  | .int n => n ≠ 0
  | .float bits => bits <<< 1 ≠ 0
  | .str s => s ≠ ""
  | .arr items => !items.isEmpty
  | .obj members => !members.isEmpty

end Value

/-! ### Documents -/

/-- A dictionary with text keys, members in the order of their first assignment. -/
abbrev Document := Table String Value

namespace Document
variable {d e : Document} {key : String} {v : Value}

/-- Assign a member that is not there yet. -/
def setDefault (d : Document) (key : String) (v : Value) : Document := if (d.get key).isSome then d else d.set key v

/-- The text at a key, if there is one and it is not empty. -/
def text? (d : Document) (key : String) : Option String := (d.get key).bind Value.text?

/-- The member at a key, null when there is none. -/
def getOrNull (d : Document) (key : String) : Value := (d.get key).getD .null

/-- The document as a value. -/
def value (d : Document) : Value := .obj d.rows

/-- The document as it is written with sorted keys and read back. -/
def canon (d : Document) : Document where
  rows := Value.sortMembers (Value.canonMembers d.rows)
  nodup := by
    rw [((Value.sortMembers_perm _).map Prod.fst).nodup_iff, Value.canonMembers_eq, List.map_map]
    exact d.nodup

/-- Reading back gives what was written, in canonical form. -/
@[simp] theorem get_canon (d : Document) (key : String) : (canon d).get key = (d.get key).map Value.canon := by
  have mem : ∀ v, (key, v) ∈ (canon d).rows ↔ (key, v) ∈ d.rows.map (fun m => (m.1, m.2.canon)) := by
    intro v
    rw [canon, (Value.sortMembers_perm _).mem_iff, Value.canonMembers_eq]
  have mapped : d.rows.map (fun m => (m.1, m.2.canon)) = (Table.map Value.canon d).rows := rfl
  apply Option.ext
  intro v
  rw [Table.get_eq_some_iff, mem, mapped, ← Table.get_eq_some_iff, Table.get_map]

/-- The canonical form is made of what the keys find. -/
theorem canon_congr (h : ∀ key, (d.get key).map Value.canon = (e.get key).map Value.canon) : d.canon = e.canon := by
  have mem : ∀ m, m ∈ d.canon.rows ↔ m ∈ e.canon.rows := by
    intro m
    rw [← Table.get_eq_some_iff, ← Table.get_eq_some_iff, get_canon, get_canon, h]
  have ordered : ∀ f : Document, f.canon.rows.Pairwise (fun a b => a.1 ≤ b.1) := by
    intro f
    have total : Std.Total (fun a b : String × Value => a.1 ≤ b.1) := ⟨fun a b => le_total a.1 b.1⟩
    have trans : IsTrans (String × Value) (fun a b => a.1 ≤ b.1) := ⟨fun a b c => le_trans⟩
    exact List.pairwise_insertionSort _ _
  apply Table.ext_rows
  refine List.Perm.eq_of_pairwise ?_ (ordered d) (ordered e) ?_
  · -- Members with one key are one member.
    intro a b ha hb hab hba
    obtain ⟨k, v⟩ := a
    obtain ⟨l, w⟩ := b
    obtain rfl : k = l := le_antisymm hab hba
    have hv := Table.get_of_mem ha
    rw [Table.get_of_mem ((mem _).2 hb)] at hv
    rw [Option.some.inj hv]
  · exact (List.perm_ext_iff_of_nodup (List.Nodup.of_map _ d.canon.nodup) (List.Nodup.of_map _ e.canon.nodup)).2 mem

@[simp] theorem canon_idem (d : Document) : d.canon.canon = d.canon := by
  refine canon_congr (fun key => ?_)
  rw [get_canon, Option.map_map]
  congr 1
  funext v
  exact Value.canon_idem v

/-- Assigning to a document that was read back comes to the same. -/
@[simp] theorem canon_set (d : Document) (key : String) (v : Value) : canon (d.canon.set key v) = canon (d.set key v) := by
  refine canon_congr (fun other => ?_)
  rw [Table.get_set, Table.get_set]
  split
  · rfl
  · rw [← get_canon, ← get_canon, canon_idem]

/-- `==` of two documents -/
def equals (d e : Document) : Bool := d.value.equals e.value

theorem value_canon (d : Document) : d.canon.value = d.value.canon := rfl

@[simp] theorem canon_equals : d.canon.equals e = d.equals e := by
  rw [equals, value_canon, Value.canon_equals, equals]

@[simp] theorem getOrNull_canon (d : Document) (key : String) : d.canon.getOrNull key = (d.getOrNull key).canon := by
  rw [getOrNull, getOrNull, get_canon]
  cases d.get key <;> rfl

end Document

end Motte.Foundation
