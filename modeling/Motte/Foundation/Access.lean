import Mathlib.Tactic.Positivity
import Motte.Foundation.Document

/-! Access to values as the language makes it.

A read of a member fails on what is not an object, and only texts, arrays and
objects are gone through. Equality is the same from both sides. -/
namespace Motte.Foundation

/-- What an access can raise. -/
inductive AccessError where
  /-- `AttributeError` -/
  | attribute
  /-- `TypeError` -/
  | type
deriving DecidableEq

namespace Value

def isObj : Value → Bool
  | .obj _ => true
  | _ => false

def isStr : Value → Bool
  | .str _ => true
  | _ => false

/-- `a or b` -/
def or (a b : Value) : Value := if a.truthy then a else b

/-- The member at a key, null when there is none. -/
def member (v : Value) (key : String) : Value := (v.get? key).getD .null

/-- The value if it is an object, else the empty one. -/
def objOrEmpty (v : Value) : Value := if v.isObj then v else .obj []

/-- `v or {}`, whose members are read. -/
def dict (v : Value) : Except AccessError Value :=
  if !v.truthy then .ok (.obj []) else if v.isObj then .ok v else .error .attribute

/-- `list(v or [])` -/
def list (v : Value) : Except AccessError (List Value) :=
  if !v.truthy then .ok []
  else
    match v with
    | .arr items => .ok items
    | .str s => .ok (s.toList.map (fun c => .str (String.singleton c)))
    | .obj members => .ok (members.map (fun m => .str m.1))
    | _ => .error .type

/-- `type(v).__name__` -/
def typeName : Value → String
  | .null => "NoneType"
  | .bool _ => "bool"
  | .int _ => "int"
  | .float _ => "float"
  | .str _ => "str"
  | .arr _ => "list"
  | .obj _ => "dict"

/-- `members.update(changes)` -/
def update (members changes : List (String × Value)) : List (String × Value) :=
  changes.foldl (fun rows m => Table.assign rows m.1 m.2) members

end Value

/-- `sorted` of texts. -/
def sortedTexts (texts : List String) : List String := texts.insertionSort (· ≤ ·)

theorem mem_sortedTexts {texts : List String} {s : String} : s ∈ sortedTexts texts ↔ s ∈ texts :=
  List.mem_insertionSort _

/-! ### Equality from both sides -/

theorem Number.equals_comm (a b : Number) : a.equals b = b.equals a := by
  cases a <;> cases b <;> simp [Number.equals, eq_comm]

namespace Value

mutual
theorem alike_comm : ∀ a b : Value, alike a b = alike b a
  | .arr a, .arr b => by rw [alike, alike, alikeItems_comm]
  | .obj a, .obj b => by rw [alike, alike, alikeMembers_comm]
  | .str a, .str b => by simp only [alike, eq_comm]
  | .null, b => by cases b <;> rfl
  | .bool _, b | .int _, b | .float _, b => by
    cases b <;> first | rfl | (simp only [alike, number?]; exact Number.equals_comm _ _)
  | .str _, .null | .str _, .bool _ | .str _, .int _ | .str _, .float _ | .str _, .arr _ | .str _, .obj _ => rfl
  | .arr _, .null | .arr _, .bool _ | .arr _, .int _ | .arr _, .float _ | .arr _, .str _ | .arr _, .obj _ => rfl
  | .obj _, .null | .obj _, .bool _ | .obj _, .int _ | .obj _, .float _ | .obj _, .str _ | .obj _, .arr _ => rfl

theorem alikeItems_comm : ∀ a b : List Value, alikeItems a b = alikeItems b a
  | [], [] | [], _ :: _ | _ :: _, [] => rfl
  | x :: xs, y :: ys => by rw [alikeItems, alikeItems, alike_comm x y, alikeItems_comm xs ys]

theorem alikeMembers_comm : ∀ a b : List (String × Value), alikeMembers a b = alikeMembers b a
  | [], [] | [], _ :: _ | _ :: _, [] => rfl
  | (k, x) :: xs, (l, y) :: ys => by
    rw [alikeMembers, alikeMembers, alike_comm x y, alikeMembers_comm xs ys]
    simp only [eq_comm]
end

theorem equals_comm (a b : Value) : a.equals b = b.equals a := alike_comm _ _

/-- Only nothing equals nothing. -/
@[simp] theorem null_equals (v : Value) : Value.null.equals v = true ↔ v = .null := by
  cases v <;> simp [equals, canon, alike, number?]

@[simp] theorem equals_null (v : Value) : v.equals .null = true ↔ v = .null := by
  rw [equals_comm, null_equals]

/-! ### Equal objects -/

theorem lookup_orderedInsert (m : String × Value) (members : List (String × Value)) (key : String) :
    (members.orderedInsert (fun a b => a.1 ≤ b.1) m).lookup key = (m :: members).lookup key := by
  induction members with
  | nil => rfl
  | cons n rest ih =>
    rw [List.orderedInsert_cons]
    split
    · rfl
    · rename_i hle
      have hne : m.1 ≠ n.1 := fun h => hle (le_of_eq h)
      rw [List.lookup_cons, ih, List.lookup_cons, List.lookup_cons, List.lookup_cons]
      by_cases hn : key = n.1
      · have hm : (key == m.1) = false := by
          simp only [beq_eq_false_iff_ne]
          exact fun h => hne (h ▸ hn)
        rw [hm]
      · have hn' : (key == n.1) = false := by simpa using hn
        simp [hn']

/-- Sorting keeps what each key finds. -/
theorem lookup_sortMembers (members : List (String × Value)) (key : String) :
    (sortMembers members).lookup key = members.lookup key := by
  induction members with
  | nil => rfl
  | cons m rest ih =>
    show ((sortMembers rest).orderedInsert (fun a b => a.1 ≤ b.1) m).lookup key = _
    rw [lookup_orderedInsert, List.lookup_cons, ih, List.lookup_cons]

theorem alikeMembers_lookup {a b : List (String × Value)} (h : alikeMembers a b = true) (key : String) :
    alike ((a.lookup key).getD .null) ((b.lookup key).getD .null) = true := by
  induction a generalizing b with
  | nil =>
    cases b with
    | nil => rfl
    | cons n rest => cases h
  | cons m rest ih =>
    cases b with
    | nil => cases h
    | cons n rest' =>
      obtain ⟨k, x⟩ := m
      obtain ⟨l, y⟩ := n
      rw [alikeMembers, Bool.and_eq_true, Bool.and_eq_true, decide_eq_true_eq] at h
      obtain ⟨⟨rfl, hxy⟩, hrest⟩ := h
      rw [List.lookup_cons, List.lookup_cons]
      split
      · exact hxy
      · exact ih hrest

theorem member_canon (v : Value) (key : String) : v.canon.member key = (v.member key).canon := by
  cases v with
  | obj members =>
    show ((sortMembers (canonMembers members)).lookup key).getD .null = ((members.lookup key).getD .null).canon
    rw [lookup_sortMembers, canonMembers_eq, lookup_map]
    cases members.lookup key <;> rfl
  | _ => rfl

/-- Equal values have equal members. -/
theorem equals_member {v w : Value} (h : v.equals w = true) (key : String) :
    (v.member key).equals (w.member key) = true := by
  have hmember : ∀ x y : Value, alike x y = true → alike (x.member key) (y.member key) = true := by
    intro x y hxy
    cases x <;> cases y <;> first | rfl | exact alikeMembers_lookup hxy key | cases hxy
  rw [equals, ← member_canon, ← member_canon]
  exact hmember _ _ h

end Value

/-- A float is zero when no bit but its sign is set. -/
theorem Number.ofBits_eq_zero (bits : UInt64) : Number.ofBits bits = .finite 0 ↔ bits <<< 1 = 0 := by
  have hmantissa : (bits &&& 0xfffffffffffff).toNat = bits.toNat % 2 ^ 52 := by
    have h := Nat.and_two_pow_sub_one_eq_mod bits.toNat 52
    simpa using h
  have hexponent : ((bits >>> 52) &&& 0x7ff).toNat = bits.toNat / 2 ^ 52 % 2 ^ 11 := by
    have h := Nat.and_two_pow_sub_one_eq_mod (bits.toNat / 2 ^ 52) 11
    simpa [Nat.shiftRight_eq_div_pow] using h
  have hshift : bits <<< 1 = 0 ↔ bits.toNat * 2 % 2 ^ 64 = 0 := by
    rw [← UInt64.toNat_inj]
    simp [Nat.shiftLeft_eq]
  have hlt : bits.toNat < 2 ^ 64 := bits.toNat_lt
  rw [hshift]
  unfold Number.ofBits
  simp only [hmantissa, hexponent]
  generalize hm : bits.toNat % 2 ^ 52 = m
  generalize he : bits.toNat / 2 ^ 52 % 2 ^ 11 = e
  by_cases htop : e = 0x7ff
  · rw [if_pos htop]
    constructor
    · intro h
      split at h <;> cases h
    · intro h
      omega
  · rw [if_neg htop]
    have hsize : (if e = 0 then (m : ℚ) / 2 ^ 1074 else ((m : ℚ) + 2 ^ 52) * 2 ^ e / 2 ^ 1075) = 0 ↔ e = 0 ∧ m = 0 := by
      by_cases hzero : e = 0
      · simp [hzero]
      · have hpos : (0 : ℚ) < ((m : ℚ) + 2 ^ 52) * 2 ^ e / 2 ^ 1075 := by positivity
        simp only [hzero, if_false, false_and, iff_false]
        exact hpos.ne'
    rw [Number.finite.injEq]
    have hsign : ∀ (negative : Prop) [Decidable negative] (size : ℚ), (if negative then -size else size) = 0 ↔ size = 0 := by
      intro negative _ size
      split <;> simp
    rw [hsign, hsize]
    omega

namespace Value

/-- A number counts as true unless it is zero. -/
theorem truthy_of_number {v : Value} {n : Number} (h : v.number? = some n) : v.truthy = false ↔ n = .finite 0 := by
  cases v with
  | bool value =>
    cases h
    cases value <;> simp [truthy]
  | int value =>
    cases h
    simp [truthy]
  | float bits =>
    cases h
    rw [Number.ofBits_eq_zero]
    simp [truthy]
  | _ => cases h

theorem truthy_canon (v : Value) : v.canon.truthy = v.truthy := by
  cases v with
  | arr items => cases items <;> rfl
  | obj members =>
    have hlength := (sortMembers_perm (canonMembers members)).length_eq
    rw [canonMembers_eq, List.length_map] at hlength
    rw [Bool.eq_iff_iff]
    simp only [canon, truthy, canonMembers_eq, Bool.not_eq_true', List.isEmpty_eq_false_iff, ← List.length_pos_iff, hlength]
  | _ => rfl

/-- Equal values count alike as true. -/
theorem equals_truthy {v w : Value} (h : v.equals w = true) : v.truthy = w.truthy := by
  have hnumber : ∀ (x y : Value) (n m : Number), x.number? = some n → y.number? = some m → n.equals m = true →
      x.truthy = y.truthy := by
    intro x y n m hx hy heq
    have hzero : n = .finite 0 ↔ m = .finite 0 := by
      cases n <;> cases m <;> simp_all [Number.equals]
    rw [Bool.eq_iff_iff, ← not_iff_not, Bool.not_eq_true, Bool.not_eq_true, truthy_of_number hx, truthy_of_number hy, hzero]
  have halike : ∀ x y : Value, alike x y = true → x.truthy = y.truthy := by
    intro x y hxy
    cases x <;> cases y <;> first | rfl | (cases hxy; done) | exact hnumber _ _ _ _ rfl rfl hxy | skip
    case str.str a b =>
      have hab : a = b := by simpa [alike] using hxy
      rw [hab]
    case arr.arr a b =>
      cases a <;> cases b <;> first | rfl | cases hxy
    case obj.obj a b =>
      cases a <;> cases b <;> first | rfl | cases hxy
  rw [← truthy_canon v, ← truthy_canon w]
  exact halike _ _ h

end Value

end Motte.Foundation
