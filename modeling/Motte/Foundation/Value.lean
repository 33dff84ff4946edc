import Mathlib.Data.List.Sort
import Mathlib.Data.String.Basic

/-! JSON values as they are written and read back.

Unlike a `Json` document, a value keeps integers apart from floats and the members
of an object in the order in which they stand. A float is its 64 bits; the two
that are not numbers of JSON are told by their exponent. The canonical form of a
value has the members of every object in key order. -/
namespace Motte.Foundation

inductive Value where
  | null
  | bool (value : Bool)
  | int (value : Int)
  | float (bits : UInt64)
  | str (value : String)
  | arr (items : List Value)
  | obj (members : List (String × Value))

namespace Value

mutual
def decEq : (a b : Value) → Decidable (a = b)
  | .null, .null => isTrue rfl
  | .bool a, .bool b => decidable_of_iff (a = b) (by simp)
  | .int a, .int b => decidable_of_iff (a = b) (by simp)
  | .float a, .float b => decidable_of_iff (a = b) (by simp)
  | .str a, .str b => decidable_of_iff (a = b) (by simp)
  | .arr a, .arr b => match decEqItems a b with
    | isTrue h => isTrue (by rw [h])
    | isFalse h => isFalse (by simpa using h)
  | .obj a, .obj b => match decEqMembers a b with
    | isTrue h => isTrue (by rw [h])
    | isFalse h => isFalse (by simpa using h)
  | .null, .bool _ | .null, .int _ | .null, .float _ | .null, .str _ | .null, .arr _ | .null, .obj _ => isFalse nofun
  | .bool _, .null | .bool _, .int _ | .bool _, .float _ | .bool _, .str _ | .bool _, .arr _ | .bool _, .obj _ =>
    isFalse nofun
  | .int _, .null | .int _, .bool _ | .int _, .float _ | .int _, .str _ | .int _, .arr _ | .int _, .obj _ =>
    isFalse nofun
  | .float _, .null | .float _, .bool _ | .float _, .int _ | .float _, .str _ | .float _, .arr _ | .float _, .obj _ =>
    isFalse nofun
  | .str _, .null | .str _, .bool _ | .str _, .int _ | .str _, .float _ | .str _, .arr _ | .str _, .obj _ =>
    isFalse nofun
  | .arr _, .null | .arr _, .bool _ | .arr _, .int _ | .arr _, .float _ | .arr _, .str _ | .arr _, .obj _ =>
    isFalse nofun
  | .obj _, .null | .obj _, .bool _ | .obj _, .int _ | .obj _, .float _ | .obj _, .str _ | .obj _, .arr _ =>
    isFalse nofun

def decEqItems : (a b : List Value) → Decidable (a = b)
  | [], [] => isTrue rfl
  | [], _ :: _ | _ :: _, [] => isFalse nofun
  | x :: xs, y :: ys => match decEq x y, decEqItems xs ys with
    | isTrue h, isTrue h' => isTrue (by rw [h, h'])
    | isFalse h, _ => isFalse (fun he => h (List.cons.inj he).1)
    | _, isFalse h => isFalse (fun he => h (List.cons.inj he).2)

def decEqMembers : (a b : List (String × Value)) → Decidable (a = b)
  | [], [] => isTrue rfl
  | [], _ :: _ | _ :: _, [] => isFalse nofun
  | (k, x) :: xs, (l, y) :: ys => match decEq x y, decEqMembers xs ys with
    | isTrue h, isTrue h' => decidable_of_iff (k = l) (by simp [h, h'])
    | isFalse h, _ => isFalse (fun he => h (by simpa using (List.cons.inj he).1 : k = l ∧ x = y).2)
    | _, isFalse h => isFalse (fun he => h (List.cons.inj he).2)
end

instance : DecidableEq Value := decEq

/-! ### Reading -/

/-- The member of an object at a key. -/
def get? (v : Value) (key : String) : Option Value :=
  match v with
  | .obj members => members.lookup key
  | _ => none

def str? : Value → Option String
  | .str s => some s
  | _ => none

def int? : Value → Option Int
  | .int n => some n
  | _ => none

def items? : Value → Option (List Value)
  | .arr items => some items
  | _ => none

/-- A text that is not empty. -/
def text? (v : Value) : Option String := v.str?.filter (· ≠ "")

/-- The text at a key, if there is one and it is not empty. -/
def textAt? (v : Value) (key : String) : Option String := (v.get? key).bind text?

/-! ### Canonical form -/

/-- Members in key order. -/
def sortMembers (members : List (String × Value)) : List (String × Value) :=
  members.insertionSort (fun a b => a.1 ≤ b.1)

mutual
/-- The value with the members of every object in key order. -/
def canon : Value → Value
  | .arr items => .arr (canonItems items)
  | .obj members => .obj (sortMembers (canonMembers members))
  | v => v

def canonItems : List Value → List Value
  | [] => []
  | v :: rest => canon v :: canonItems rest

def canonMembers : List (String × Value) → List (String × Value)
  | [] => []
  | (k, v) :: rest => (k, canon v) :: canonMembers rest
end

theorem canonItems_eq (items : List Value) : canonItems items = items.map canon := by
  induction items with
  | nil => rfl
  | cons v rest ih => rw [canonItems, ih, List.map_cons]

theorem canonMembers_eq (members : List (String × Value)) :
    canonMembers members = members.map (fun m => (m.1, canon m.2)) := by
  induction members with
  | nil => rfl
  | cons m rest ih => rw [canonMembers, ih, List.map_cons]

theorem sortMembers_perm (members : List (String × Value)) : (sortMembers members).Perm members :=
  List.perm_insertionSort _ members

/-- Sorting by key and changing the values commute. -/
theorem sortMembers_map (f : Value → Value) (members : List (String × Value)) :
    sortMembers (members.map (fun m => (m.1, f m.2))) = (sortMembers members).map (fun m => (m.1, f m.2)) := by
  let r (a b : String × Value) : Prop := a.1 ≤ b.1
  exact (List.map_insertionSort r r (fun m => (m.1, f m.2)) members (fun _ _ _ _ => Iff.rfl)).symm

theorem sortMembers_idem (members : List (String × Value)) :
    sortMembers (sortMembers members) = sortMembers members := by
  have total : Std.Total (fun a b : String × Value => a.1 ≤ b.1) := ⟨fun a b => le_total a.1 b.1⟩
  have trans : IsTrans (String × Value) (fun a b => a.1 ≤ b.1) := ⟨fun a b c => le_trans⟩
  exact (List.pairwise_insertionSort _ members).insertionSort_eq

mutual
theorem canon_idem : ∀ v : Value, canon (canon v) = canon v
  | .null | .bool _ | .int _ | .float _ | .str _ => rfl
  | .arr items => by rw [canon, canon, canonItems_idem]
  | .obj members => by
    have hmembers := canonMembers_idem members
    rw [canonMembers_eq, canonMembers_eq] at hmembers
    rw [canon, canon, canonMembers_eq, canonMembers_eq, ← sortMembers_map, hmembers, sortMembers_idem]

theorem canonItems_idem : ∀ items : List Value, canonItems (canonItems items) = canonItems items
  | [] => rfl
  | v :: rest => by rw [canonItems, canonItems, canon_idem, canonItems_idem]

theorem canonMembers_idem : ∀ members : List (String × Value),
    canonMembers (canonMembers members) = canonMembers members
  | [] => rfl
  | (k, v) :: rest => by rw [canonMembers, canonMembers, canon_idem, canonMembers_idem]
end

/-! A member of an object whose keys are all different is found in any order. -/

theorem lookup_eq_some_iff {members : List (String × Value)} (nodup : (members.map Prod.fst).Nodup) {key : String}
    {v : Value} : members.lookup key = some v ↔ (key, v) ∈ members := by
  induction members with
  | nil => simp
  | cons m rest ih =>
    obtain ⟨k, w⟩ := m
    rw [List.map_cons, List.nodup_cons] at nodup
    rw [List.lookup_cons, List.mem_cons]
    by_cases hk : key = k
    · subst hk
      simp only [beq_self_eq_true, Option.some.injEq, Prod.mk.injEq, true_and]
      constructor
      · intro h
        exact .inl h.symm
      · rintro (h | h)
        · exact h.symm
        · exact absurd (List.mem_map_of_mem h) nodup.1
    · have hne : (key == k) = false := by simpa using hk
      simp only [hne, ih nodup.2, Prod.mk.injEq, hk, false_and, false_or]

/-- A member is found if no other has its key. -/
theorem lookup_of_unique {members : List (String × Value)} {key : String} {v : Value} (h : (key, v) ∈ members)
    (unique : ∀ m ∈ members, m.1 = key → m.2 = v) : members.lookup key = some v := by
  induction members with
  | nil => cases h
  | cons m rest ih =>
    obtain ⟨k, w⟩ := m
    rw [List.lookup_cons]
    by_cases hk : key = k
    · subst hk
      have hw : w = v := unique (key, w) (List.mem_cons_self ..) rfl
      rw [beq_self_eq_true, hw]
    · have hne : (key == k) = false := by simpa using hk
      have hrest : (key, v) ∈ rest := by
        rcases List.mem_cons.1 h with heq | hrest
        · exact absurd (Prod.mk.inj heq).1 hk
        · exact hrest
      rw [hne]
      exact ih hrest (fun m hm => unique m (List.mem_cons_of_mem _ hm))

theorem lookup_perm {a b : List (String × Value)} (h : a.Perm b) (nodup : (a.map Prod.fst).Nodup) (key : String) :
    a.lookup key = b.lookup key := by
  have nodup' : (b.map Prod.fst).Nodup := (h.map Prod.fst).nodup_iff.1 nodup
  ext v
  rw [lookup_eq_some_iff nodup, lookup_eq_some_iff nodup', h.mem_iff]

theorem lookup_map (f : Value → Value) (members : List (String × Value)) (key : String) :
    (members.map (fun m => (m.1, f m.2))).lookup key = (members.lookup key).map f := by
  induction members with
  | nil => rfl
  | cons m rest ih =>
    rw [List.map_cons, List.lookup_cons, List.lookup_cons, ih]
    split <;> rfl

/-- The canonical form has the same members, each in canonical form. -/
theorem get?_canon {members : List (String × Value)} (nodup : (members.map Prod.fst).Nodup) (key : String) :
    (canon (.obj members)).get? key = ((Value.obj members).get? key).map canon := by
  show (sortMembers (canonMembers members)).lookup key = (members.lookup key).map canon
  have keys : (canonMembers members).map Prod.fst = members.map Prod.fst := by
    rw [canonMembers_eq, List.map_map]
    rfl
  rw [← lookup_perm (sortMembers_perm (canonMembers members)).symm (keys ▸ nodup) key, canonMembers_eq, lookup_map]

theorem get?_canon_of_mem {members : List (String × Value)} (nodup : (members.map Prod.fst).Nodup) {key : String}
    {v : Value} (h : (key, v) ∈ members) : (canon (.obj members)).get? key = some v.canon := by
  rw [get?_canon nodup]
  show (members.lookup key).map canon = some v.canon
  rw [(lookup_eq_some_iff nodup).2 h, Option.map_some]

/-! ### Finite values -/

/-- Neither an infinity nor a NaN. -/
def finiteBits (bits : UInt64) : Bool := (bits >>> 52) &&& 0x7ff ≠ 0x7ff

mutual
def finite : Value → Bool
  | .float bits => finiteBits bits
  | .arr items => finiteItems items
  | .obj members => finiteMembers members
  | _ => true

def finiteItems : List Value → Bool
  | [] => true
  | v :: rest => finite v && finiteItems rest

def finiteMembers : List (String × Value) → Bool
  | [] => true
  | (_, v) :: rest => finite v && finiteMembers rest
end

theorem finiteItems_iff {items : List Value} : finiteItems items = true ↔ ∀ v ∈ items, finite v = true := by
  induction items with
  | nil => simp [finiteItems]
  | cons v rest ih => simp [finiteItems, ih]

theorem finiteMembers_iff {members : List (String × Value)} :
    finiteMembers members = true ↔ ∀ m ∈ members, finite m.2 = true := by
  induction members with
  | nil => simp [finiteMembers]
  | cons m rest ih => simp [finiteMembers, ih]

mutual
theorem finite_canon : ∀ v : Value, finite (canon v) = finite v
  | .null | .bool _ | .int _ | .float _ | .str _ => rfl
  | .arr items => by rw [canon, finite, finite, finiteItems_canon]
  | .obj members => by
    rw [canon, finite, finite, ← finiteMembers_canon members, Bool.eq_iff_iff, finiteMembers_iff, finiteMembers_iff]
    simp only [(sortMembers_perm _).mem_iff]

theorem finiteItems_canon : ∀ items : List Value, finiteItems (canonItems items) = finiteItems items
  | [] => rfl
  | v :: rest => by rw [canonItems, finiteItems, finiteItems, finite_canon, finiteItems_canon]

theorem finiteMembers_canon : ∀ members : List (String × Value),
    finiteMembers (canonMembers members) = finiteMembers members
  | [] => rfl
  | (k, v) :: rest => by rw [canonMembers, finiteMembers, finiteMembers, finite_canon, finiteMembers_canon]
end

/-- `_json_snapshot`: finite values in canonical form, nothing else. -/
def snapshot (v : Value) : Option Value := if v.finite then some v.canon else none

theorem snapshot_canon {v w : Value} (h : v.snapshot = some w) : w.snapshot = some w := by
  unfold snapshot at h ⊢
  split at h
  · rename_i hfin
    cases h
    rw [finite_canon, if_pos hfin, canon_idem]
  · cases h

end Value

/-! ### Texts -/

/-- The characters that `str.strip` takes away. -/
def isSpace (c : Char) : Bool :=
  c.toNat ∈ [9, 10, 11, 12, 13, 28, 29, 30, 31, 32, 133, 160, 5760, 8192, 8193, 8194, 8195, 8196, 8197, 8198, 8199,
    8200, 8201, 8202, 8232, 8233, 8239, 8287, 12288]

/-- The text is not empty once it is stripped. -/
def nonBlank (s : String) : Bool := !s.toList.all isSpace

end Motte.Foundation
