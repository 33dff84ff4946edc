import Motte.DirectLlm.JsonText
import Motte.Foundation.Delimited

/-! The canonical text of a JSON value.

What is parsed has no object with a key twice. For such values the canonical text shows
where it ends and what it is the text of, up to the order of keys and to the way numbers
were written; and the comparison of the scorer asks exactly this. -/
namespace Motte.DirectLlm
open Foundation
open FiniteDecimal (value_eq_zero)

/-! ### What is parsed -/

/-- No object within has a key twice. -/
inductive JsonValue.WellFormed : JsonValue → Prop
  | null : WellFormed .null
  | bool (b : Bool) : WellFormed (.bool b)
  | number (x : FiniteDecimal) : WellFormed (.number x)
  | string (s : List ℕ) : WellFormed (.string s)
  | array {items : List JsonValue} (h : ∀ v ∈ items, WellFormed v) : WellFormed (.array items)
  | object {members : List (List ℕ × JsonValue)} (keys : (members.map Prod.fst).Nodup)
      (h : ∀ row ∈ members, WellFormed row.2) : WellFormed (.object members)

def Frame.WellFormed : Frame → Prop
  | .array items => ∀ v ∈ items, v.WellFormed
  | .object members _ => ∀ row ∈ members, row.2.WellFormed

def Mode.WellFormed : Mode → Prop
  | .afterItem items => ∀ v ∈ items, v.WellFormed
  | .key members | .keyText members _ _ | .colon members _ | .afterMember members => ∀ row ∈ members, row.2.WellFormed
  | .word _ (.value v) | .done v => v.WellFormed
  | _ => True

/-- What was read so far is well formed. -/
structure Machine.WellFormed (m : Machine) : Prop where
  stack : ∀ frame ∈ m.stack, frame.WellFormed
  mode : m.mode.WellFormed

section
variable {u : Unicode} {limit : ℕ} {m m' : Machine} {stack : List Frame} {c : Char} {v : JsonValue}

theorem endValue_wellFormed (hstack : ∀ frame ∈ stack, frame.WellFormed) (hv : v.WellFormed) :
    (endValue stack v).WellFormed := by
  unfold endValue
  split
  · exact ⟨hstack, hv⟩
  · rename_i items stack
    refine ⟨fun frame hframe => hstack frame (.tail _ hframe), ?_⟩
    have hitems : ∀ v ∈ items, v.WellFormed := hstack _ (.head _)
    intro w hw
    obtain hw | hw := List.mem_append.1 hw
    · exact hitems w hw
    · rw [List.mem_singleton.1 hw]
      exact hv
  · rename_i members key stack
    refine ⟨fun frame hframe => hstack frame (.tail _ hframe), ?_⟩
    have hmembers : ∀ row ∈ members, row.2.WellFormed := hstack _ (.head _)
    intro row hrow
    obtain hrow | hrow := List.mem_append.1 hrow
    · exact hmembers row hrow
    · rw [List.mem_singleton.1 hrow]
      exact hv

theorem ite_ok {ε α : Type*} {p g : Prop} [Decidable p] {a b : Except ε α} {x : α} (h : (if p then a else b) = .ok x)
    (ha : a = .ok x → g) (hb : b = .ok x → g) : g := by
  by_cases hp : p
  · rw [if_pos hp] at h
    exact ha h
  · rw [if_neg hp] at h
    exact hb h

theorem beginValue_wellFormed (hstack : ∀ frame ∈ stack, frame.WellFormed) (h : beginValue limit stack c = .ok m) :
    m.WellFormed := by
  have hread : ∀ {mode : Mode}, mode.WellFormed → (.ok { stack, mode } : Except JsonFault Machine) = .ok m → m.WellFormed := by
    intro mode hmode hok
    cases hok
    exact ⟨hstack, hmode⟩
  refine ite_ok h (hread True.intro) fun h => ?_
  refine ite_ok h (fun h => ite_ok h (fun h => by cases h) (hread True.intro)) fun h => ?_
  refine ite_ok h (fun h => ite_ok h (fun h => by cases h) (hread True.intro)) fun h => ?_
  refine ite_ok h (hread .null) fun h => ite_ok h (hread (.bool _)) fun h => ite_ok h (hread (.bool _)) fun h => ?_
  refine ite_ok h (hread True.intro) fun h => ite_ok h (hread True.intro) fun h => ?_
  refine ite_ok h (hread True.intro) fun h => ite_ok h (hread True.intro) fun h => ?_
  exact ite_ok h (hread True.intro) fun h => by cases h

theorem numeralValue_wellFormed {read : List Char} (h : numeralValue u read = .ok v) : v.WellFormed := by
  unfold numeralValue at h
  split at h <;> cases h
  exact .number _

theorem stepPlain_wellFormed (hm : m.WellFormed) (h : stepPlain limit m c = .ok m') : m'.WellFormed := by
  obtain ⟨hstack, hmode⟩ := hm
  obtain ⟨stack, mode⟩ := m
  cases mode with
  | value =>
    simp only [stepPlain] at h
    split at h
    · cases h
      exact ⟨hstack, True.intro⟩
    · exact beginValue_wellFormed hstack h
  | firstItem =>
    simp only [stepPlain] at h
    split_ifs at h
    · cases h
      exact ⟨hstack, True.intro⟩
    · cases h
      exact endValue_wellFormed hstack (.array (fun v hv => by cases hv))
    · have hnone : (Frame.array []).WellFormed := fun v hv => by cases hv
      exact beginValue_wellFormed (List.forall_mem_cons.2 ⟨hnone, hstack⟩) h
  | afterItem items =>
    simp only [stepPlain] at h
    split_ifs at h <;> cases h
    · exact ⟨hstack, hmode⟩
    · exact ⟨List.forall_mem_cons.2 ⟨hmode, hstack⟩, True.intro⟩
    · exact endValue_wellFormed hstack (.array hmode)
  | firstKey =>
    simp only [stepPlain] at h
    split_ifs at h <;> cases h
    · exact ⟨hstack, True.intro⟩
    · exact endValue_wellFormed hstack (.object List.nodup_nil (fun row hrow => by cases hrow))
    · exact ⟨hstack, fun row hrow => by cases hrow⟩
  | key members =>
    simp only [stepPlain] at h
    split_ifs at h <;> cases h
    · exact ⟨hstack, hmode⟩
    · exact ⟨hstack, hmode⟩
  | keyText members read escape =>
    simp only [stepPlain] at h
    split at h <;> cases h
    · exact ⟨hstack, hmode⟩
    · exact ⟨hstack, hmode⟩
  | colon members key =>
    simp only [stepPlain] at h
    split_ifs at h <;> cases h
    · exact ⟨hstack, hmode⟩
    · exact ⟨List.forall_mem_cons.2 ⟨hmode, hstack⟩, True.intro⟩
  | afterMember members =>
    simp only [stepPlain] at h
    split_ifs at h
    · cases h
      exact ⟨hstack, hmode⟩
    · cases h
      exact ⟨hstack, hmode⟩
    · unfold endObject at h
      split at h <;> cases h
      rename_i hkeys
      exact endValue_wellFormed hstack (.object hkeys hmode)
  | text read escape =>
    simp only [stepPlain] at h
    split at h <;> cases h
    · exact ⟨hstack, True.intro⟩
    · exact endValue_wellFormed hstack (.string _)
  | number read part => cases h
  | word rest word =>
    cases rest with
    | nil => cases h
    | cons expected rest =>
      simp only [stepPlain] at h
      split_ifs at h
      · cases h
        cases word with
        | value v => exact ⟨hstack, hmode⟩
        | constant => exact ⟨hstack, True.intro⟩
      · cases word with
        | value v =>
          cases h
          exact endValue_wellFormed hstack hmode
        | constant => cases h
  | done v =>
    simp only [stepPlain] at h
    split at h <;> cases h
    exact ⟨hstack, hmode⟩

theorem stepJson_wellFormed (hm : m.WellFormed) (h : stepJson u limit m c = .ok m') : m'.WellFormed := by
  unfold stepJson at h
  split at h
  · split at h
    · cases h
      exact ⟨hm.stack, True.intro⟩
    · cases h
      exact ⟨hm.stack, True.intro⟩
    · cases h
    · split at h
      · cases h
      · rename_i v hvalue
        exact stepPlain_wellFormed (endValue_wellFormed hm.stack (numeralValue_wellFormed hvalue)) h
  · exact stepPlain_wellFormed hm h

theorem run_wellFormed {content : List Char} (hm : m.WellFormed) (h : content.foldlM (stepJson u limit) m = .ok m') :
    m'.WellFormed := by
  induction content generalizing m with
  | nil =>
    cases h
    exact hm
  | cons c content ih =>
    rw [List.foldlM_cons] at h
    cases hstep : stepJson u limit m c with
    | error e =>
      rw [hstep] at h
      cases h
    | ok next =>
      rw [hstep] at h
      exact ih (stepJson_wellFormed hm hstep) h

theorem endJson_wellFormed (hm : m.WellFormed) (h : endJson u m = .ok v) : v.WellFormed := by
  unfold endJson at h
  split at h
  · rename_i v' hmode
    cases h
    have hwell := hm.mode
    rw [hmode] at hwell
    exact hwell
  · split at h
    · split at h
      · cases h
      · rename_i v' hvalue
        split at h <;> cases h
        rename_i hmode
        have hwell := (endValue_wellFormed hm.stack (numeralValue_wellFormed hvalue)).mode
        rw [hmode] at hwell
        exact hwell
    · cases h
  · cases h

end

/-- The values that `_parse_json` gives. -/
def ParsedJson (u : Unicode) (limit : ℕ) : Type := { v : JsonValue // ∃ content, parseJson u limit content = .ok (.ok v) }

theorem ParsedJson.wellFormed {u : Unicode} {limit : ℕ} (v : ParsedJson u limit) : v.1.WellFormed := by
  obtain ⟨v, content, h⟩ := v
  unfold parseJson at h
  split at h
  · cases h
  · cases h
  · cases h
  · cases h
  · cases h
  · rename_i v' hloads
    split at h <;> cases h
    unfold loads at hloads
    cases hrun : content.foldlM (stepJson u limit) Machine.start with
    | error e =>
      rw [hrun] at hloads
      cases hloads
    | ok m =>
      rw [hrun] at hloads
      have hstart : Machine.start.WellFormed := ⟨(fun frame hframe => by cases hframe), True.intro⟩
      exact endJson_wellFormed (run_wellFormed hstart hrun) hloads

/-! ### The beginning of a text -/

inductive Kind where
  | null
  | bool (b : Bool)
  | number
  | string
  | array
  | object
deriving DecidableEq

def JsonValue.kind : JsonValue → Kind
  | .null => .null
  | .bool b => .bool b
  | .number _ => .number
  | .string _ => .string
  | .array _ => .array
  | .object _ => .object

/-- The kind that the first character of a text shows. -/
def kindOf (c : ℕ) : Kind :=
  if c = 110 then .null else if c = 116 then .bool true else if c = 102 then .bool false
  else if c = 34 then .string else if c = 91 then .array else if c = 123 then .object else .number

/-- The characters of a number's text. -/
def NumberPoint (c : ℕ) : Prop := c = 45 ∨ c = 46 ∨ 48 ≤ c ∧ c ≤ 57

instance : DecidablePred NumberPoint := fun c => inferInstanceAs (Decidable (c = 45 ∨ c = 46 ∨ 48 ≤ c ∧ c ≤ 57))

theorem marks_not_number : ¬ NumberPoint 44 ∧ ¬ NumberPoint 93 ∧ ¬ NumberPoint 125 := by decide

theorem NumberPoint.kind {c : ℕ} (h : NumberPoint c) : kindOf c = .number ∧ c ≠ 93 ∧ c ≠ 125 := by
  unfold NumberPoint at h
  unfold kindOf
  refine ⟨?_, by omega, by omega⟩
  repeat rw [if_neg (by omega)]

theorem decimalText_finite (x : FiniteDecimal) :
    decimalText (.finite x) = if x.isZero then ['0'] else x.plainText := rfl

theorem numberText_points (x : FiniteDecimal) : ∀ c ∈ points (decimalText (.finite x)), NumberPoint c := by
  intro c hc
  obtain ⟨d, hd, rfl⟩ := List.mem_map.1 hc
  have hplain : Plain d := by
    rw [decimalText_finite] at hd
    split at hd
    · rw [List.mem_singleton.1 hd]
      exact .inr (.inr ⟨0, by norm_num, rfl⟩)
    · exact plainText_plain x d hd
  unfold NumberPoint
  obtain rfl | rfl | ⟨n, hn, rfl⟩ := hplain
  · exact .inl rfl
  · exact .inr (.inl rfl)
  · have hvalue := (digitChar_ascii hn).1
    omega

theorem numberText_ne_nil (x : FiniteDecimal) : points (decimalText (.finite x)) ≠ [] := by
  intro hnil
  have hempty : decimalText (.finite x) = [] := List.map_eq_nil_iff.1 hnil
  rw [decimalText_finite] at hempty
  split at hempty
  · cases hempty
  · have hwhole := (List.append_eq_nil_iff.1 (List.append_eq_nil_iff.1 hempty).1).2
    exact places_ne_nil x (List.map_eq_nil_iff.1 hwhole)

/-- The first character tells the kind of the value, and closes nothing. -/
theorem canonicalJson_begins (v : JsonValue) :
    ∃ c rest, canonicalJson v = c :: rest ∧ kindOf c = v.kind ∧ c ≠ 93 ∧ c ≠ 125 := by
  cases v with
  | null => exact ⟨_, _, rfl, rfl, by decide, by decide⟩
  | bool b => cases b <;> exact ⟨_, _, rfl, rfl, by decide, by decide⟩
  | number x =>
    cases htext : points (decimalText (.finite x)) with
    | nil => exact absurd htext (numberText_ne_nil x)
    | cons c rest =>
      refine ⟨c, rest, htext, (numberText_points x c ?_).kind⟩
      rw [htext]
      exact .head _
  | string s => exact ⟨_, _, rfl, rfl, by decide, by decide⟩
  | array items => exact ⟨_, _, rfl, rfl, by decide, by decide⟩
  | object members => exact ⟨_, _, rfl, rfl, by decide, by decide⟩

theorem kind_of_text {a b : JsonValue} {r r' : List ℕ} (h : canonicalJson a ++ r = canonicalJson b ++ r') : a.kind = b.kind := by
  obtain ⟨c, rest, ha, hkind, -⟩ := canonicalJson_begins a
  obtain ⟨c', rest', hb, hkind', -⟩ := canonicalJson_begins b
  rw [ha, hb, List.cons_append, List.cons_append, List.cons.injEq] at h
  rw [← hkind, ← hkind', h.1]

/-! ### Strings -/

def hexValue (h : ℕ) : ℕ := if h < 58 then h - 48 else h - 87

/-- The character that is written at the beginning of a text, and what follows it. -/
def unescape : List ℕ → Option (ℕ × List ℕ)
  | 92 :: 34 :: rest => some (34, rest)
  | 92 :: 92 :: rest => some (92, rest)
  | 92 :: 110 :: rest => some (10, rest)
  | 92 :: 114 :: rest => some (13, rest)
  | 92 :: 116 :: rest => some (9, rest)
  | 92 :: 102 :: rest => some (12, rest)
  | 92 :: 98 :: rest => some (8, rest)
  | 92 :: 117 :: _ :: _ :: high :: low :: rest => some (16 * hexValue high + hexValue low, rest)
  | 34 :: _ => none
  | c :: rest => some (c, rest)
  | [] => none

theorem hexValue_hexText {n : ℕ} (h : n < 16) : hexValue (hexText n) = n := by
  unfold hexValue hexText
  split_ifs <;> omega

theorem unescape_escapeText (c : ℕ) (rest : List ℕ) : unescape (escapeText c ++ rest) = some (c, rest) := by
  by_cases hcontrol : c < 32
  · have hhex : 16 * hexValue (hexText (c / 16)) + hexValue (hexText (c % 16)) = c := by
      rw [hexValue_hexText (by omega), hexValue_hexText (by omega)]
      omega
    unfold escapeText
    split_ifs <;> first | (subst c; rfl) | skip
    exact congrArg (fun n => some (n, rest)) hhex
  · by_cases hquote : c = 34
    · subst hquote
      rfl
    · by_cases hslash : c = 92
      · subst hslash
        rfl
      · unfold escapeText
        rw [if_neg hquote, if_neg hslash, if_neg (by omega), if_neg (by omega), if_neg (by omega), if_neg (by omega),
          if_neg (by omega), if_neg hcontrol, List.singleton_append]
        unfold unescape
        split <;> simp_all

theorem quoted_cancel {s t r r' : List ℕ} (h : quoted s ++ r = quoted t ++ r') : s = t ∧ r = r' := by
  have hend : ∀ rest : List ℕ, unescape (34 :: rest) = none := fun rest => rfl
  unfold quoted at h
  simp only [List.cons_append, List.append_assoc, List.nil_append, List.cons.injEq, true_and] at h
  induction s generalizing t with
  | nil =>
    cases t with
    | nil => exact ⟨rfl, (List.cons.inj h).2⟩
    | cons d t =>
      have hread := congrArg unescape h
      rw [List.flatMap_cons, List.append_assoc, unescape_escapeText, List.flatMap_nil, List.nil_append, hend] at hread
      cases hread
  | cons c s ih =>
    cases t with
    | nil =>
      have hread := congrArg unescape h
      rw [List.flatMap_cons, List.append_assoc, unescape_escapeText, List.flatMap_nil, List.nil_append, hend] at hread
      cases hread
    | cons d t =>
      have hread := congrArg unescape h
      rw [List.flatMap_cons, List.append_assoc, unescape_escapeText, List.flatMap_cons, List.append_assoc,
        unescape_escapeText, Option.some.injEq, Prod.mk.injEq] at hread
      obtain ⟨hrest, hend'⟩ := ih hread.2
      exact ⟨by rw [hread.1, hrest], hend'⟩

/-! ### The end of a text -/

theorem itemTexts_eq (items : List JsonValue) : itemTexts items = items.map canonicalJson := by
  induction items with
  | nil => rfl
  | cons v items ih => rw [itemTexts, ih, List.map_cons]

theorem memberTexts_eq (members : List (List ℕ × JsonValue)) :
    memberTexts members = members.map (fun row => (row.1, canonicalJson row.2)) := by
  induction members with
  | nil => rfl
  | cons row members ih => rw [memberTexts, ih, List.map_cons]

theorem joined_eq (texts : List (List ℕ)) : joined texts = texts.headD [] ++ texts.tail.flatMap (44 :: ·) := by
  cases texts <;> rfl

theorem memberText_injective : Function.Injective memberText := by
  intro row row' h
  obtain ⟨hkey, hrest⟩ := quoted_cancel h
  exact Prod.ext hkey (List.cons.inj hrest).2

section
variable {a b : JsonValue} {xs ys : List JsonValue} {ms ns : List (List ℕ × JsonValue)} {r r' : List ℕ}

theorem array_cancel (h : ∀ x ∈ xs, ∀ y ∈ ys, Apart NumberPoint (canonicalJson x) (canonicalJson y))
    (heq : canonicalJson (.array xs) ++ r = canonicalJson (.array ys) ++ r') :
    xs.map canonicalJson = ys.map canonicalJson ∧ r = r' := by
  unfold canonicalJson at heq
  simp only [List.cons_append, List.cons.injEq, true_and, joined_eq, itemTexts_eq] at heq
  rw [List.append_assoc, List.append_assoc _ [93], List.singleton_append, List.singleton_append] at heq
  refine separated_cancel (by decide) marks_not_number.1 marks_not_number.2.1 (fun text htext => ?_) (fun x hx y hy => ?_) heq
  · have hvalue : ∃ v, canonicalJson v = text := by
      obtain htext | htext := List.mem_append.1 htext <;> obtain ⟨v, -, hv⟩ := List.mem_map.1 htext <;> exact ⟨v, hv⟩
    obtain ⟨v, rfl⟩ := hvalue
    obtain ⟨c, rest, htext, -, hclose, -⟩ := canonicalJson_begins v
    exact ⟨c, rest, htext, hclose⟩
  · obtain ⟨v, hv, rfl⟩ := List.mem_map.1 hx
    obtain ⟨w, hw, rfl⟩ := List.mem_map.1 hy
    exact h v hv w hw

/-- The keys of an object and the texts of their values, by key. -/
def sortedTexts (members : List (List ℕ × JsonValue)) : List (List ℕ × List ℕ) := sortedMembers (memberTexts members)

theorem mem_sortedTexts {row : List ℕ × List ℕ} : row ∈ sortedTexts ms ↔ ∃ v, (row.1, v) ∈ ms ∧ canonicalJson v = row.2 := by
  unfold sortedTexts sortedMembers
  rw [List.mem_insertionSort, memberTexts_eq, List.mem_map]
  constructor
  · rintro ⟨member, hmember, rfl⟩
    exact ⟨member.2, hmember, rfl⟩
  · rintro ⟨v, hv, htext⟩
    exact ⟨(row.1, v), hv, Prod.ext rfl htext⟩

theorem object_cancel (h : ∀ x ∈ ms, ∀ y ∈ ns, Apart NumberPoint (canonicalJson x.2) (canonicalJson y.2))
    (heq : canonicalJson (.object ms) ++ r = canonicalJson (.object ns) ++ r') :
    sortedTexts ms = sortedTexts ns ∧ r = r' := by
  unfold canonicalJson at heq
  simp only [List.cons_append, List.cons.injEq, true_and, joined_eq] at heq
  rw [List.append_assoc, List.append_assoc _ [125], List.singleton_append, List.singleton_append] at heq
  have hcancel : (sortedTexts ms).map memberText = (sortedTexts ns).map memberText ∧ r = r' := by
    refine separated_cancel (by decide) marks_not_number.1 marks_not_number.2.2 (fun text htext => ?_) (fun x hx y hy => ?_) heq
    · have hquoted : ∃ row, memberText row = text := by
        obtain htext | htext := List.mem_append.1 htext <;> obtain ⟨row, -, hrow⟩ := List.mem_map.1 htext <;> exact ⟨row, hrow⟩
      obtain ⟨row, rfl⟩ := hquoted
      exact ⟨34, _, rfl, by decide⟩
    · obtain ⟨row, hrow, rfl⟩ := List.mem_map.1 hx
      obtain ⟨row', hrow', rfl⟩ := List.mem_map.1 hy
      obtain ⟨v, hv, htext⟩ := mem_sortedTexts.1 hrow
      obtain ⟨w, hw, htext'⟩ := mem_sortedTexts.1 hrow'
      have hapart := h _ hv _ hw
      rw [htext, htext'] at hapart
      exact hapart.marked (fun r r' h => (quoted_cancel h).imp (congrArg quoted) (fun h => (List.cons.inj h).2))
  exact ⟨memberText_injective.list_map hcancel.1, hcancel.2⟩

theorem apart_of_cancel (h : ∀ {r r'}, canonicalJson a ++ r = canonicalJson b ++ r' → canonicalJson a = canonicalJson b) :
    Apart NumberPoint (canonicalJson a) (canonicalJson b) := by
  intro r r' hr hr' heq
  have hsame := h heq
  rw [hsame] at heq
  exact ⟨hsame, List.append_cancel_left heq⟩

/-- Two canonical texts are told apart whatever follows them. -/
theorem canonicalJson_apart (ha : a.WellFormed) (b : JsonValue) : Apart NumberPoint (canonicalJson a) (canonicalJson b) := by
  induction ha generalizing b with
  | null =>
    refine apart_of_cancel fun heq => ?_
    have hkind := kind_of_text heq
    cases b <;> cases hkind
    rfl
  | bool _ =>
    refine apart_of_cancel fun heq => ?_
    have hkind := kind_of_text heq
    cases b <;> cases hkind
    rfl
  | number x =>
    intro r r' hr hr' heq
    have hkind := kind_of_text heq
    cases b <;> cases hkind
    exact apart_of_all (numberText_points x) (numberText_points _) r r' hr hr' heq
  | string s =>
    refine apart_of_cancel fun heq => ?_
    have hkind := kind_of_text heq
    cases b <;> cases hkind
    exact congrArg quoted (quoted_cancel heq).1
  | array _ ih =>
    refine apart_of_cancel fun heq => ?_
    have hkind := kind_of_text heq
    cases b <;> cases hkind
    have hitems := (array_cancel (fun x hx y _ => ih x hx y) heq).1
    unfold canonicalJson
    rw [itemTexts_eq, itemTexts_eq, hitems]
  | object _ _ ih =>
    refine apart_of_cancel fun heq => ?_
    have hkind := kind_of_text heq
    cases b <;> cases hkind
    have hmembers := (object_cancel (fun x hx y _ => ih x hx y.2) heq).1
    unfold sortedTexts at hmembers
    unfold canonicalJson
    rw [hmembers]

/-! ### The comparison -/

theorem jsonEqual_kind (h : jsonEqual a b = true) : a.kind = b.kind := by
  cases a <;> cases b <;> first | rfl | cases h | skip
  have hb := of_decide_eq_true h
  rw [hb]

theorem decimalText_eq_iff {x y : FiniteDecimal} :
    decimalText (.finite x) = decimalText (.finite y) ↔ x.value = y.value := by
  have hzero : ∀ z : FiniteDecimal, z.isZero = true ↔ z.coefficient = 0 := fun z => decide_eq_true_iff
  -- A zero has the text of the zero that is written without sign and exponent.
  have hplain : ∀ z : FiniteDecimal, z.coefficient = 0 →
      decimalText (.finite z) = FiniteDecimal.plainText { negative := false, coefficient := 0, exponent := 0 } := by
    intro z hz
    rw [decimalText_finite, if_pos ((hzero z).2 hz)]
    decide
  have hvalue : FiniteDecimal.value { negative := false, coefficient := 0, exponent := 0 } = 0 := value_eq_zero.2 rfl
  have hother : ∀ z : FiniteDecimal, z.coefficient ≠ 0 → decimalText (.finite z) = z.plainText :=
    fun z hz => if_neg (fun h => hz ((hzero z).1 h))
  by_cases hx : x.coefficient = 0
  · by_cases hy : y.coefficient = 0
    · rw [hplain x hx, hplain y hy, value_eq_zero.2 hx, value_eq_zero.2 hy]
      simp
    · rw [hplain x hx, hother y hy, value_eq_zero.2 hx]
      constructor
      · intro h
        rw [← value_of_plainText h, hvalue]
      · intro h
        exact absurd (value_eq_zero.1 h.symm) hy
  · by_cases hy : y.coefficient = 0
    · rw [hother x hx, hplain y hy, value_eq_zero.2 hy]
      constructor
      · intro h
        rw [value_of_plainText h, hvalue]
      · intro h
        exact absurd (value_eq_zero.1 h) hx
    · rw [hother x hx, hother y hy, plainText_eq_iff hx hy]

theorem itemsEqual_iff (h : ∀ x ∈ xs, ∀ y ∈ ys, (jsonEqual x y = true ↔ canonicalJson x = canonicalJson y)) :
    itemsEqual xs ys = true ↔ xs.map canonicalJson = ys.map canonicalJson := by
  induction xs generalizing ys with
  | nil => cases ys <;> simp [itemsEqual]
  | cons x xs ih =>
    cases ys with
    | nil => simp [itemsEqual]
    | cons y ys =>
      rw [itemsEqual, Bool.and_eq_true, h x (.head _) y (.head _),
        ih (fun v hv w hw => h v (.tail _ hv) w (.tail _ hw)), List.map_cons, List.map_cons, List.cons.injEq]

theorem memberOf_eq_some (hkeys : (ms.map Prod.fst).Nodup) {key : List ℕ} {v : JsonValue} :
    memberOf key ms = some v ↔ (key, v) ∈ ms := by
  induction ms with
  | nil => simp [memberOf]
  | cons row ms ih =>
    obtain ⟨k, w⟩ := row
    rw [List.map_cons, List.nodup_cons] at hkeys
    unfold memberOf
    by_cases hk : k = key
    · subst hk
      rw [if_pos rfl, Option.some.injEq, List.mem_cons, Prod.mk.injEq]
      constructor
      · intro hv
        exact .inl ⟨rfl, hv.symm⟩
      · rintro (⟨-, hv⟩ | hv)
        · exact hv.symm
        · exact absurd (List.mem_map.2 ⟨_, hv, rfl⟩) hkeys.1
    · rw [if_neg hk, ih hkeys.2, List.mem_cons, Prod.mk.injEq]
      constructor
      · exact .inr
      · rintro (⟨hkey, -⟩ | hv)
        · exact absurd hkey.symm hk
        · exact hv

theorem membersEqual_iff (hns : (ns.map Prod.fst).Nodup) :
    membersEqual ms ns = true ↔ ∀ row ∈ ms, ∃ w, (row.1, w) ∈ ns ∧ jsonEqual row.2 w = true := by
  induction ms with
  | nil => simp [membersEqual]
  | cons row ms ih =>
    rw [membersEqual, Bool.and_eq_true, ih, List.forall_mem_cons]
    refine and_congr_left fun _ => ?_
    cases hmember : memberOf row.1 ns with
    | none =>
      constructor
      · intro h
        cases h
      · rintro ⟨w, hw, -⟩
        rw [(memberOf_eq_some hns).2 hw] at hmember
        cases hmember
    | some w =>
      have hw := (memberOf_eq_some hns).1 hmember
      constructor
      · intro h
        exact ⟨w, hw, h⟩
      · rintro ⟨w', hw', h⟩
        rw [(memberOf_eq_some hns).2 hw', Option.some.injEq] at hmember
        rw [← hmember]
        exact h

theorem sameKeys_iff : sameKeys ms ns = true ↔ ∀ key, key ∈ ms.map Prod.fst ↔ key ∈ ns.map Prod.fst := by
  unfold sameKeys
  rw [Bool.and_eq_true, List.all_eq_true, List.all_eq_true]
  constructor
  · rintro ⟨hleft, hright⟩ key
    constructor
    · intro hkey
      obtain ⟨row, hrow, rfl⟩ := List.mem_map.1 hkey
      exact of_decide_eq_true (hleft row hrow)
    · intro hkey
      obtain ⟨row, hrow, rfl⟩ := List.mem_map.1 hkey
      exact of_decide_eq_true (hright row hrow)
  · intro h
    exact ⟨fun row hrow => decide_eq_true ((h row.1).1 (List.mem_map_of_mem hrow)),
      fun row hrow => decide_eq_true ((h row.1).2 (List.mem_map_of_mem hrow))⟩

theorem sortedTexts_nodup (hkeys : (ms.map Prod.fst).Nodup) : ((sortedTexts ms).map Prod.fst).Nodup := by
  have hperm : (sortedTexts ms).Perm (memberTexts ms) := List.perm_insertionSort _ _
  rw [(hperm.map Prod.fst).nodup_iff, memberTexts_eq, List.map_map]
  exact hkeys

/-- Sorted by keys, the same members stand in the same order. -/
theorem sortedTexts_eq_iff (hms : (ms.map Prod.fst).Nodup) (hns : (ns.map Prod.fst).Nodup) :
    sortedTexts ms = sortedTexts ns ↔ ∀ row, row ∈ sortedTexts ms ↔ row ∈ sortedTexts ns := by
  constructor
  · intro h row
    rw [h]
  · intro h
    have hperm : (sortedTexts ms).Perm (sortedTexts ns) :=
      (List.perm_ext_iff_of_nodup (sortedTexts_nodup hms).of_map (sortedTexts_nodup hns).of_map).2 h
    have hsorted : ∀ l, (sortedMembers l).Pairwise (fun a b => a.1 ≤ b.1) := by
      intro l
      have htotal : Std.Total (fun a b : List ℕ × List ℕ => a.1 ≤ b.1) := ⟨fun a b => le_total a.1 b.1⟩
      have htrans : IsTrans (List ℕ × List ℕ) (fun a b => a.1 ≤ b.1) := ⟨fun a b c => le_trans⟩
      exact List.pairwise_insertionSort _ l
    refine hperm.eq_of_pairwise (fun row row' hrow hrow' hle hge => ?_) (hsorted _) (hsorted _)
    exact List.inj_on_of_nodup_map (sortedTexts_nodup hms) hrow ((h row').2 hrow') (le_antisymm hle hge)

theorem membersEqual_texts (hms : (ms.map Prod.fst).Nodup) (hns : (ns.map Prod.fst).Nodup)
    (h : ∀ x ∈ ms, ∀ y ∈ ns, (jsonEqual x.2 y.2 = true ↔ canonicalJson x.2 = canonicalJson y.2)) :
    (sameKeys ms ns && membersEqual ms ns) = true ↔ sortedTexts ms = sortedTexts ns := by
  rw [Bool.and_eq_true, sameKeys_iff, membersEqual_iff hns, sortedTexts_eq_iff hms hns]
  constructor
  · rintro ⟨hkeys, hmembers⟩ row
    rw [mem_sortedTexts, mem_sortedTexts]
    constructor
    · rintro ⟨v, hv, htext⟩
      obtain ⟨w, hw, hequal⟩ := hmembers _ hv
      exact ⟨w, hw, ((h _ hv _ hw).1 hequal).symm.trans htext⟩
    · rintro ⟨w, hw, htext⟩
      obtain ⟨member, hmember, hkey⟩ := List.mem_map.1 ((hkeys row.1).2 (List.mem_map.2 ⟨_, hw, rfl⟩))
      obtain ⟨w', hw', hequal⟩ := hmembers member hmember
      rw [hkey] at hw'
      have hsame := (memberOf_eq_some hns).2 hw
      rw [(memberOf_eq_some hns).2 hw', Option.some.injEq] at hsame
      subst hsame
      refine ⟨member.2, ?_, ((h _ hmember _ hw').1 hequal).trans htext⟩
      rw [← hkey]
      exact hmember
  · intro hrows
    have htexts : ∀ {k v}, (k, v) ∈ ms → ∃ w, (k, w) ∈ ns ∧ canonicalJson w = canonicalJson v :=
      fun {k v} hv => mem_sortedTexts.1 ((hrows (k, canonicalJson v)).1 (mem_sortedTexts.2 ⟨v, hv, rfl⟩))
    refine ⟨fun key => ⟨fun hkey => ?_, fun hkey => ?_⟩, fun row hrow => ?_⟩
    · obtain ⟨row, hrow, rfl⟩ := List.mem_map.1 hkey
      obtain ⟨w, hw, -⟩ := htexts hrow
      exact List.mem_map.2 ⟨_, hw, rfl⟩
    · obtain ⟨row, hrow, rfl⟩ := List.mem_map.1 hkey
      obtain ⟨v, hv, -⟩ := mem_sortedTexts.1 ((hrows (row.1, canonicalJson row.2)).2 (mem_sortedTexts.2 ⟨row.2, hrow, rfl⟩))
      exact List.mem_map.2 ⟨_, hv, rfl⟩
    · obtain ⟨w, hw, htext⟩ := htexts hrow
      exact ⟨w, hw, (h _ hrow _ hw).2 htext.symm⟩

/-- Well formed values are equal for the scorer exactly when they have one canonical text. -/
theorem jsonEqual_iff_canonical (ha : a.WellFormed) (hb : b.WellFormed) :
    jsonEqual a b = true ↔ canonicalJson a = canonicalJson b := by
  induction ha generalizing b with
  | null =>
    by_cases hkind : JsonValue.null.kind = b.kind
    · cases b <;> cases hkind
      exact iff_of_true rfl rfl
    · exact iff_of_false (fun h => hkind (jsonEqual_kind h)) (fun h => hkind (kind_of_text (congrArg (· ++ []) h)))
  | bool value =>
    by_cases hkind : (JsonValue.bool value).kind = b.kind
    · cases b <;> cases hkind
      exact iff_of_true (decide_eq_true rfl) rfl
    · exact iff_of_false (fun h => hkind (jsonEqual_kind h)) (fun h => hkind (kind_of_text (congrArg (· ++ []) h)))
  | number x =>
    by_cases hkind : (JsonValue.number x).kind = b.kind
    · cases b <;> cases hkind
      rename_i y
      have hpoints : canonicalJson (.number x) = canonicalJson (.number y) ↔ decimalText (.finite x) = decimalText (.finite y) :=
        (List.map_injective_iff.2 (fun c d h => Char.toNat_inj.1 h)).eq_iff
      rw [hpoints, decimalText_eq_iff]
      exact FiniteDecimal.equals_iff
    · exact iff_of_false (fun h => hkind (jsonEqual_kind h)) (fun h => hkind (kind_of_text (congrArg (· ++ []) h)))
  | string s =>
    by_cases hkind : (JsonValue.string s).kind = b.kind
    · cases b <;> cases hkind
      rename_i t
      constructor
      · intro h
        exact congrArg quoted (of_decide_eq_true h)
      · intro h
        exact decide_eq_true (quoted_cancel (congrArg (· ++ []) h)).1
    · exact iff_of_false (fun h => hkind (jsonEqual_kind h)) (fun h => hkind (kind_of_text (congrArg (· ++ []) h)))
  | @array items hitems ih =>
    by_cases hkind : (JsonValue.array items).kind = b.kind
    · cases b <;> cases hkind
      rename_i others
      cases hb with
      | array hothers =>
        rw [jsonEqual, itemsEqual_iff (fun x hx y hy => ih x hx (hothers y hy))]
        constructor
        · intro h
          unfold canonicalJson
          rw [itemTexts_eq, itemTexts_eq, h]
        · intro h
          exact (array_cancel (fun x hx y _ => canonicalJson_apart (hitems x hx) y) (congrArg (· ++ []) h)).1
    · exact iff_of_false (fun h => hkind (jsonEqual_kind h)) (fun h => hkind (kind_of_text (congrArg (· ++ []) h)))
  | @object members hkeys hmembers ih =>
    by_cases hkind : (JsonValue.object members).kind = b.kind
    · cases b <;> cases hkind
      rename_i others
      cases hb with
      | object hkeys' hothers =>
        rw [jsonEqual, membersEqual_texts hkeys hkeys' (fun x hx y hy => ih x hx (hothers y hy))]
        constructor
        · intro h
          unfold sortedTexts at h
          unfold canonicalJson
          rw [h]
        · intro h
          exact (object_cancel (fun x hx y _ => canonicalJson_apart (hmembers x hx) y.2) (congrArg (· ++ []) h)).1
    · exact iff_of_false (fun h => hkind (jsonEqual_kind h)) (fun h => hkind (kind_of_text (congrArg (· ++ []) h)))

theorem itemsEqual_forall₂ : itemsEqual xs ys = true ↔ List.Forall₂ (fun x y => jsonEqual x y = true) xs ys := by
  induction xs generalizing ys with
  | nil =>
    cases ys with
    | nil => exact iff_of_true rfl .nil
    | cons y ys => exact iff_of_false (fun h => by cases h) (fun h => by cases h)
  | cons x xs ih =>
    cases ys with
    | nil => exact iff_of_false (fun h => by cases h) (fun h => by cases h)
    | cons y ys => rw [itemsEqual, Bool.and_eq_true, ih, List.forall₂_cons]

/-- The order of the keys does not matter. -/
theorem members_reordered (hns : (ns.map Prod.fst).Nodup) {ms' : List (List ℕ × JsonValue)} (hperm : ms.Perm ms')
    (hpairs : List.Forall₂ (fun row row' => row.1 = row'.1 ∧ jsonEqual row.2 row'.2 = true) ms' ns) :
    jsonEqual (.object ms) (.object ns) = true := by
  have hkeys : ms'.map Prod.fst = ns.map Prod.fst := by
    clear hperm hns
    induction hpairs with
    | nil => rfl
    | cons hpair _ ih => rw [List.map_cons, List.map_cons, ih, hpair.1]
  have hmember : ∀ row ∈ ms', ∃ w, (row.1, w) ∈ ns ∧ jsonEqual row.2 w = true := by
    clear hperm hns hkeys
    induction hpairs with
    | nil => exact fun row hrow => by cases hrow
    | @cons row row' rows rows' hpair _ ih =>
      rw [List.forall_mem_cons]
      refine ⟨⟨row'.2, ?_, hpair.2⟩, fun other hother => ?_⟩
      · rw [hpair.1]
        exact .head _
      · obtain ⟨w, hw, hequal⟩ := ih other hother
        exact ⟨w, .tail _ hw, hequal⟩
  rw [jsonEqual, Bool.and_eq_true, sameKeys_iff, membersEqual_iff hns]
  refine ⟨fun key => ?_, fun row hrow => hmember row (hperm.mem_iff.1 hrow)⟩
  rw [← hkeys]
  exact (hperm.map Prod.fst).mem_iff

end

/-! ### Parsed values -/

/-- Parsed values are equal for the scorer exactly when they have one canonical text. So this is an
equivalence, which the order of keys and the spelling of numbers do not change, and under which
values of different kinds are never equal. -/
theorem json_equal_canonical (u : Unicode) (limit : ℕ) :
    (∀ a b : ParsedJson u limit, jsonEqual a.1 b.1 = true ↔ canonicalJson a.1 = canonicalJson b.1) ∧
    Equivalence (fun a b : ParsedJson u limit => jsonEqual a.1 b.1 = true) ∧
    (∀ (a b : ParsedJson u limit) xs ys, a.1 = .array xs → b.1 = .array ys →
      (jsonEqual a.1 b.1 = true ↔ List.Forall₂ (fun x y => jsonEqual x y = true) xs ys)) ∧
    (∀ (a b : ParsedJson u limit) ms ms' ns, a.1 = .object ms → b.1 = .object ns → ms.Perm ms' →
      List.Forall₂ (fun row row' => row.1 = row'.1 ∧ jsonEqual row.2 row'.2 = true) ms' ns → jsonEqual a.1 b.1 = true) ∧
    (∀ (a b : ParsedJson u limit) x y, a.1 = .number x → b.1 = .number y → (jsonEqual a.1 b.1 = true ↔ x.value = y.value)) ∧
    (∀ a b : ParsedJson u limit, jsonEqual a.1 b.1 = true → a.1.kind = b.1.kind) := by
  have hiff : ∀ a b : ParsedJson u limit, jsonEqual a.1 b.1 = true ↔ canonicalJson a.1 = canonicalJson b.1 :=
    fun a b => jsonEqual_iff_canonical a.wellFormed b.wellFormed
  refine ⟨hiff, ⟨fun a => (hiff a a).2 rfl, fun {a b} h => ?_, fun {a b c} h h' => ?_⟩, ?_, ?_, ?_, fun a b => jsonEqual_kind⟩
  · exact (hiff b a).2 ((hiff a b).1 h).symm
  · exact (hiff a c).2 (((hiff a b).1 h).trans ((hiff b c).1 h'))
  · intro a b xs ys ha hb
    rw [ha, hb, jsonEqual]
    exact itemsEqual_forall₂
  · intro a b ms ms' ns ha hb hperm hpairs
    have hkeys := b.wellFormed
    rw [hb] at hkeys
    cases hkeys with
    | object hkeys _ =>
      rw [ha, hb]
      exact members_reordered hkeys hperm hpairs
  · intro a b x y ha hb
    rw [ha, hb]
    exact FiniteDecimal.equals_iff

end Motte.DirectLlm
