import Mathlib.Data.Finmap
import Mathlib.Data.Rat.Defs
import Mathlib.Algebra.Order.Ring.Unbundled.Rat

/-! JSON documents, and records with string keys.

A record's named members are looked up and overridden as a dictionary's are:
the order in which they were written does not matter, so records are finite
maps. Below the first level a document keeps its members in key order. -/
namespace Motte.Foundation

inductive Json where
  | null
  | bool (value : Bool)
  | num (value : ℚ)
  | str (value : String)
  | arr (items : List Json)
  | obj (members : List (String × Json))

namespace Json

mutual
def decEq : (a b : Json) → Decidable (a = b)
  | .null, .null => isTrue rfl
  | .bool a, .bool b => decidable_of_iff (a = b) (by simp)
  | .num a, .num b => decidable_of_iff (a = b) (by simp)
  | .str a, .str b => decidable_of_iff (a = b) (by simp)
  | .arr a, .arr b => match decEqItems a b with
    | isTrue h => isTrue (by rw [h])
    | isFalse h => isFalse (by simpa using h)
  | .obj a, .obj b => match decEqMembers a b with
    | isTrue h => isTrue (by rw [h])
    | isFalse h => isFalse (by simpa using h)
  | .null, .bool _ | .null, .num _ | .null, .str _ | .null, .arr _ | .null, .obj _ => isFalse nofun
  | .bool _, .null | .bool _, .num _ | .bool _, .str _ | .bool _, .arr _ | .bool _, .obj _ => isFalse nofun
  | .num _, .null | .num _, .bool _ | .num _, .str _ | .num _, .arr _ | .num _, .obj _ => isFalse nofun
  | .str _, .null | .str _, .bool _ | .str _, .num _ | .str _, .arr _ | .str _, .obj _ => isFalse nofun
  | .arr _, .null | .arr _, .bool _ | .arr _, .num _ | .arr _, .str _ | .arr _, .obj _ => isFalse nofun
  | .obj _, .null | .obj _, .bool _ | .obj _, .num _ | .obj _, .str _ | .obj _, .arr _ => isFalse nofun

def decEqItems : (a b : List Json) → Decidable (a = b)
  | [], [] => isTrue rfl
  | [], _ :: _ | _ :: _, [] => isFalse nofun
  | x :: xs, y :: ys => match decEq x y, decEqItems xs ys with
    | isTrue h, isTrue h' => isTrue (by rw [h, h'])
    | isFalse h, _ => isFalse (fun he => h (List.cons.inj he).1)
    | _, isFalse h => isFalse (fun he => h (List.cons.inj he).2)

def decEqMembers : (a b : List (String × Json)) → Decidable (a = b)
  | [], [] => isTrue rfl
  | [], _ :: _ | _ :: _, [] => isFalse nofun
  | (k, x) :: xs, (l, y) :: ys => match decEq x y, decEqMembers xs ys with
    | isTrue h, isTrue h' => decidable_of_iff (k = l) (by simp [h, h'])
    | isFalse h, _ => isFalse (fun he => h (by simpa using (List.cons.inj he).1 : k = l ∧ x = y).2)
    | _, isFalse h => isFalse (fun he => h (List.cons.inj he).2)
end

instance : DecidableEq Json := decEq

/-- Whether a value counts as true in a condition. -/
def truthy : Json → Bool
  | .null => false
  | .bool b => b
  | .num q => q ≠ 0
  | .str s => s ≠ ""
  | .arr items => !items.isEmpty
  | .obj members => !members.isEmpty

/-! ### Reading and changing a document -/

/-- The member of an object at a key, null when there is none. -/
def get (j : Json) (key : String) : Json :=
  match j with
  | .obj members => (members.lookup key).getD .null
  | _ => .null

/-- The object has a member at the key. -/
def has (j : Json) (key : String) : Bool :=
  match j with
  | .obj members => (members.lookup key).isSome
  | _ => false

def isObj : Json → Bool
  | .obj _ => true
  | _ => false

/-- The items of an array; anything else has none. -/
def items : Json → List Json
  | .arr items => items
  | _ => []

/-- The first value if it counts as true, else the second. -/
def or (a b : Json) : Json := if a.truthy then a else b

/-- Assign a member among members in key order. -/
def putMember (key : String) (value : Json) : List (String × Json) → List (String × Json)
  | [] => [(key, value)]
  | (k, v) :: rest =>
    if key = k then (key, value) :: rest
    else if key < k then (key, value) :: (k, v) :: rest
    else (k, v) :: putMember key value rest

/-- The object with a member assigned. -/
def put (j : Json) (key : String) (value : Json) : Json :=
  match j with
  | .obj members => .obj (putMember key value members)
  | _ => .obj [(key, value)]

/-! ### Comparing values

The two truth values compare as the numbers one and zero. -/

def number? : Json → Option ℚ
  | .num q => some q
  | .bool b => some (if b then 1 else 0)
  | _ => none

/-- Equality of values, with truth values as numbers. -/
def equals (a b : Json) : Bool :=
  match a.number?, b.number? with
  | some p, some q => p = q
  | _, _ => a = b

mutual
/-- Whether the first value comes before the second; `none` when the two are not ordered. -/
def less? : Json → Json → Option Bool
  | .str a, .str b => some (a < b)
  | .arr a, .arr b => lessItems? a b
  | a, b =>
    match a.number?, b.number? with
    | some p, some q => some (p < q)
    | _, _ => none

/-- Arrays are compared at the first place where they differ. -/
def lessItems? : List Json → List Json → Option Bool
  | [], [] => some false
  | [], _ :: _ => some true
  | _ :: _, [] => some false
  | x :: xs, y :: ys => if x.equals y then lessItems? xs ys else less? x y
end

theorem truthy_or (a b : Json) : (a.or b).truthy = (a.truthy || b.truthy) := by
  unfold or
  split <;> simp_all

@[simp] theorem equals_str (a : Json) (t : String) : a.equals (.str t) = true ↔ a = .str t := by
  cases a <;> simp [equals, number?]

@[simp] theorem str_equals (t : String) (a : Json) : (Json.str t).equals a = true ↔ a = .str t := by
  cases a <;> simp [equals, number?, eq_comm]

theorem equals_num {a : Json} {q : ℚ} : a.equals (.num q) = true ↔ a.number? = some q := by
  cases a <;> simp [equals, number?]

end Json

/-- How values are written out as text. A text is written as it is; nothing here
depends on how other values are. -/
structure Writing where
  text : Json → String
  text_str : ∀ s, text (.str s) = s

/-- Only texts are written out. -/
def plainWriting : Writing where
  text j := match j with
    | .str s => s
    | _ => ""
  text_str _ := rfl

/-- The named members of a record. -/
abbrev Fields := Finmap (fun _ : String => Json)

namespace Fields

/-- The member at a key, null when there is none. -/
def get (f : Fields) (key : String) : Json := (f.lookup key).getD .null

/-- The member at a key if it counts as true, else the given value. -/
def getOr (f : Fields) (key : String) (value : Json) : Json :=
  if (f.get key).truthy then f.get key else value

/-- Members of `changes` override those of `f`. -/
def merge (f changes : Fields) : Fields := changes ∪ f

/-- Some member has one of the given keys. -/
def names (f : Fields) (keys : List String) : Bool := keys.any (fun k => (f.lookup k).isSome)

end Fields

/-- The text starts with the given one. -/
def starts (start text : String) : Bool := start.toList.isPrefixOf text.toList

end Motte.Foundation
