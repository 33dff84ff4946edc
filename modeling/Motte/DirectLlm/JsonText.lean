import Motte.DirectLlm.Numeric

/-! JSON text.

A text is read character by character by a machine that keeps a stack of what is open. It
stops at the first thing that is wrong: text that is not JSON, an object with a key twice,
a constant that is no number, a number beyond the limits of decimals, or one level of nesting
too many. Strings are kept as their code points. -/
namespace Motte.DirectLlm
open Foundation

/-- What is parsed. -/
inductive JsonValue where
  | null
  | bool (b : Bool)
  | number (x : FiniteDecimal)
  | string (s : List ℕ)
  | array (items : List JsonValue)
  | object (members : List (List ℕ × JsonValue))

/-- What stops the reading. -/
inductive JsonFault where
  | decode
  | recursion
  | duplicateKey
  | nonFinite
  | decimal (exception : DecimalException)
deriving DecidableEq

/-! ### The machine -/

/-- What is open around the value that is read. -/
inductive Frame where
  | array (items : List JsonValue)
  | object (members : List (List ℕ × JsonValue)) (key : List ℕ)

/-- Where the reading is within a string. -/
inductive Escape where
  | plain
  | backslash
  | hex (count value : ℕ)
deriving DecidableEq

/-- How much of a numeral was read. -/
inductive Numeral where
  | minus
  | zero
  | whole
  | point
  | fraction
  | exponent
  | exponentSign
  | exponentDigits
deriving DecidableEq

/-- What a word stands for. -/
inductive Word where
  | value (v : JsonValue)
  | constant

inductive Mode where
  | value
  | firstItem
  | afterItem (items : List JsonValue)
  | firstKey
  | key (members : List (List ℕ × JsonValue))
  | keyText (members : List (List ℕ × JsonValue)) (read : List ℕ) (escape : Escape)
  | colon (members : List (List ℕ × JsonValue)) (key : List ℕ)
  | afterMember (members : List (List ℕ × JsonValue))
  | text (read : List ℕ) (escape : Escape)
  | number (read : List Char) (part : Numeral)
  | word (rest : List Char) (word : Word)
  | done (v : JsonValue)

structure Machine where
  stack : List Frame
  mode : Mode

def Machine.start : Machine := { stack := [], mode := .value }

/-- White space between tokens. -/
def isJsonSpace (c : Char) : Bool := c = ' ' || c = '\t' || c = '\n' || c = '\r'

/-- A value has ended, within what is open. -/
def endValue (stack : List Frame) (v : JsonValue) : Machine :=
  match stack with
  | [] => { stack := [], mode := .done v }
  | .array items :: stack => { stack, mode := .afterItem (items ++ [v]) }
  | .object members key :: stack => { stack, mode := .afterMember (members ++ [(key, v)]) }

/-! ### Strings -/

def hexDigit (c : Char) : Option ℕ :=
  if c.isDigit then some (c.toNat - 48)
  else if 'a' ≤ c ∧ c ≤ 'f' then some (c.toNat - 87)
  else if 'A' ≤ c ∧ c ≤ 'F' then some (c.toNat - 55)
  else none

/-- The character that a letter after a backslash stands for. -/
def escaped : Char → Option ℕ
  | '"' => some 34
  | '\\' => some 92
  | '/' => some 47
  | 'b' => some 8
  | 'f' => some 12
  | 'n' => some 10
  | 'r' => some 13
  | 't' => some 9
  | _ => none

/-- A code unit is joined to the one before it when the two are a surrogate pair. -/
def pushUnit (read : List ℕ) (unit : ℕ) : List ℕ :=
  match read.getLast? with
  | some high =>
    if 0xD800 ≤ high ∧ high < 0xDC00 ∧ 0xDC00 ≤ unit ∧ unit < 0xE000 then
      read.dropLast ++ [0x10000 + (high - 0xD800) * 1024 + (unit - 0xDC00)]
    else read ++ [unit]
  | none => read ++ [unit]

/-- The string goes on, or ends. -/
inductive StringStep where
  | more (read : List ℕ) (escape : Escape)
  | finished (read : List ℕ)

def stepString (read : List ℕ) (escape : Escape) (c : Char) : Except JsonFault StringStep :=
  match escape with
  | .plain =>
    if c = '"' then .ok (.finished read)
    else if c = '\\' then .ok (.more read .backslash)
    else if c.toNat < 32 then .error .decode
    else .ok (.more (read ++ [c.toNat]) .plain)
  | .backslash =>
    if c = 'u' then .ok (.more read (.hex 0 0))
    else match escaped c with
      | some point => .ok (.more (read ++ [point]) .plain)
      | none => .error .decode
  | .hex count value =>
    match hexDigit c with
    | none => .error .decode
    | some d =>
      if count = 3 then .ok (.more (pushUnit read (16 * value + d)) .plain)
      else .ok (.more read (.hex (count + 1) (16 * value + d)))

/-! ### Numbers -/

/-- The numeral goes on with a character, ends before it, or is none. -/
inductive NumeralStep where
  | more (part : Numeral)
  | ended
  | infinity
  | broken

def stepNumeral (part : Numeral) (c : Char) : NumeralStep :=
  match part with
  | .minus => if c = '0' then .more .zero else if c.isDigit then .more .whole else if c = 'I' then .infinity else .broken
  | .zero => if c = '.' then .more .point else if c = 'e' ∨ c = 'E' then .more .exponent else .ended
  | .whole =>
    if c.isDigit then .more .whole else if c = '.' then .more .point
    else if c = 'e' ∨ c = 'E' then .more .exponent else .ended
  | .point => if c.isDigit then .more .fraction else .broken
  | .fraction => if c.isDigit then .more .fraction else if c = 'e' ∨ c = 'E' then .more .exponent else .ended
  | .exponent => if c = '+' ∨ c = '-' then .more .exponentSign else if c.isDigit then .more .exponentDigits else .broken
  | .exponentSign => if c.isDigit then .more .exponentDigits else .broken
  | .exponentDigits => if c.isDigit then .more .exponentDigits else .ended

/-- The numeral may end here. -/
def Numeral.complete : Numeral → Bool
  | .zero | .whole | .fraction | .exponentDigits => true
  | _ => false

/-- `parse_int` and `parse_float`: a numeral names a finite number, if `Decimal` takes it. -/
def numeralValue (u : Unicode) (read : List Char) : Except JsonFault JsonValue :=
  match Decimal.ofText u read with
  | .ok (.finite x) => .ok (.number x)
  | .ok _ => .error .decode
  | .error e => .error (.decimal e)

/-! ### Steps -/

/-- The beginning of a value. -/
def beginValue (limit : ℕ) (stack : List Frame) (c : Char) : Except JsonFault Machine :=
  if c = '"' then .ok { stack, mode := .text [] .plain }
  else if c = '{' then
    if limit ≤ stack.length then .error .recursion else .ok { stack, mode := .firstKey }
  else if c = '[' then
    if limit ≤ stack.length then .error .recursion else .ok { stack, mode := .firstItem }
  else if c = 'n' then .ok { stack, mode := .word ['u', 'l', 'l'] (.value .null) }
  else if c = 't' then .ok { stack, mode := .word ['r', 'u', 'e'] (.value (.bool true)) }
  else if c = 'f' then .ok { stack, mode := .word ['a', 'l', 's', 'e'] (.value (.bool false)) }
  else if c = 'N' then .ok { stack, mode := .word ['a', 'N'] .constant }
  else if c = 'I' then .ok { stack, mode := .word ['n', 'f', 'i', 'n', 'i', 't', 'y'] .constant }
  else if c = '-' then .ok { stack, mode := .number [c] .minus }
  else if c = '0' then .ok { stack, mode := .number [c] .zero }
  else if c.isDigit then .ok { stack, mode := .number [c] .whole }
  else .error .decode

/-- `_json_object`: an object with a key twice is refused. -/
def endObject (stack : List Frame) (members : List (List ℕ × JsonValue)) : Except JsonFault Machine :=
  if (members.map Prod.fst).Nodup then .ok (endValue stack (.object members)) else .error .duplicateKey

/-- A step between tokens or within a string or a word. -/
def stepPlain (limit : ℕ) (m : Machine) (c : Char) : Except JsonFault Machine :=
  match m.mode with
  | .value => if isJsonSpace c then .ok m else beginValue limit m.stack c
  | .firstItem =>
    if isJsonSpace c then .ok m
    else if c = ']' then .ok (endValue m.stack (.array []))
    else beginValue limit (.array [] :: m.stack) c
  | .afterItem items =>
    if isJsonSpace c then .ok m
    else if c = ',' then .ok { stack := .array items :: m.stack, mode := .value }
    else if c = ']' then .ok (endValue m.stack (.array items))
    else .error .decode
  | .firstKey =>
    if isJsonSpace c then .ok m
    else if c = '}' then .ok (endValue m.stack (.object []))
    else if c = '"' then .ok { stack := m.stack, mode := .keyText [] [] .plain }
    else .error .decode
  | .key members =>
    if isJsonSpace c then .ok m
    else if c = '"' then .ok { stack := m.stack, mode := .keyText members [] .plain }
    else .error .decode
  | .keyText members read escape =>
    match stepString read escape c with
    | .error e => .error e
    | .ok (.more read escape) => .ok { stack := m.stack, mode := .keyText members read escape }
    | .ok (.finished read) => .ok { stack := m.stack, mode := .colon members read }
  | .colon members key =>
    if isJsonSpace c then .ok m
    else if c = ':' then .ok { stack := .object members key :: m.stack, mode := .value }
    else .error .decode
  | .afterMember members =>
    if isJsonSpace c then .ok m
    else if c = ',' then .ok { stack := m.stack, mode := .key members }
    else if c = '}' then endObject m.stack members
    else .error .decode
  | .text read escape =>
    match stepString read escape c with
    | .error e => .error e
    | .ok (.more read escape) => .ok { stack := m.stack, mode := .text read escape }
    | .ok (.finished read) => .ok (endValue m.stack (.string read))
  | .word [] _ => .error .decode
  | .word (expected :: rest) word =>
    if c ≠ expected then .error .decode
    else if rest ≠ [] then .ok { stack := m.stack, mode := .word rest word }
    else match word with
      | .value v => .ok (endValue m.stack v)
      | .constant => .error .nonFinite
  | .number _ _ => .error .decode
  | .done _ => if isJsonSpace c then .ok m else .error .decode

/-- One character of the text. A numeral ends with the character after it. -/
def stepJson (u : Unicode) (limit : ℕ) (m : Machine) (c : Char) : Except JsonFault Machine :=
  match m.mode with
  | .number read part =>
    match stepNumeral part c with
    | .more part => .ok { stack := m.stack, mode := .number (read ++ [c]) part }
    | .infinity => .ok { stack := m.stack, mode := .word ['n', 'f', 'i', 'n', 'i', 't', 'y'] .constant }
    | .broken => .error .decode
    | .ended =>
      match numeralValue u read with
      | .error e => .error e
      | .ok v => stepPlain limit (endValue m.stack v) c
  | _ => stepPlain limit m c

/-- The end of the text. -/
def endJson (u : Unicode) (m : Machine) : Except JsonFault JsonValue :=
  match m.mode with
  | .done v => .ok v
  | .number read part =>
    if part.complete then
      match numeralValue u read with
      | .error e => .error e
      | .ok v =>
        match (endValue m.stack v).mode with
        | .done v => .ok v
        | _ => .error .decode
    else .error .decode
  | _ => .error .decode

/-- `json.loads`, with the hooks of the scorer, where `limit` containers may be open at once. -/
def loads (u : Unicode) (limit : ℕ) (content : List Char) : Except JsonFault JsonValue := do
  endJson u (← content.foldlM (stepJson u limit) .start)

/-! ### Parsing and comparing -/

def maxJsonDepth : ℕ := 128

mutual
/-- `_within_json_depth`, of a value at a depth. -/
def JsonValue.within : JsonValue → ℕ → Bool
  | .array items, depth => depth ≤ maxJsonDepth && itemsWithin items (depth + 1)
  | .object members, depth => depth ≤ maxJsonDepth && membersWithin members (depth + 1)
  | _, depth => depth ≤ maxJsonDepth

def itemsWithin : List JsonValue → ℕ → Bool
  | [], _ => true
  | v :: items, depth => v.within depth && itemsWithin items depth

def membersWithin : List (List ℕ × JsonValue) → ℕ → Bool
  | [], _ => true
  | (_, v) :: members, depth => v.within depth && membersWithin members depth
end

/-- `_parse_json`: a value, a failure, or an exception that is not caught. -/
def parseJson (u : Unicode) (limit : ℕ) (content : List Char) : Except ScorerError (Except ParseFailure JsonValue) :=
  match loads u limit content with
  | .error .recursion => .ok (.error ⟨"max_depth_exceeded"⟩)
  | .error .duplicateKey => .ok (.error ⟨"duplicate_key"⟩)
  | .error .nonFinite => .ok (.error ⟨"non_finite_number"⟩)
  | .error .decode => .ok (.error ⟨"invalid_json"⟩)
  | .error (.decimal e) => .error (.decimal e)
  | .ok v => if v.within 1 then .ok (.ok v) else .ok (.error ⟨"max_depth_exceeded"⟩)

/-- The value of a key. -/
def memberOf (key : List ℕ) : List (List ℕ × JsonValue) → Option JsonValue
  | [] => none
  | (k, v) :: members => if k = key then some v else memberOf key members

def sameKeys (left right : List (List ℕ × JsonValue)) : Bool :=
  left.all (fun row => row.1 ∈ right.map Prod.fst) && right.all (fun row => row.1 ∈ left.map Prod.fst)

mutual
/-- `_json_equal` -/
def jsonEqual : JsonValue → JsonValue → Bool
  | .bool a, .bool b => a = b
  | .number x, .number y => x.equals y
  | .null, .null => true
  | .string s, .string t => s = t
  | .array xs, .array ys => itemsEqual xs ys
  | .object xs, .object ys => sameKeys xs ys && membersEqual xs ys
  | _, _ => false

def itemsEqual : List JsonValue → List JsonValue → Bool
  | [], [] => true
  | x :: xs, y :: ys => jsonEqual x y && itemsEqual xs ys
  | _, _ => false

/-- The members have equal values for their keys among the others. -/
def membersEqual : List (List ℕ × JsonValue) → List (List ℕ × JsonValue) → Bool
  | [], _ => true
  | (key, x) :: xs, ys =>
    (match memberOf key ys with
      | some y => jsonEqual x y
      | none => false) && membersEqual xs ys
end

/-! ### The canonical text -/

def hexText (n : ℕ) : ℕ := if n < 10 then 48 + n else 87 + n

/-- A character, as `json.dumps` writes it within a string. -/
def escapeText (c : ℕ) : List ℕ :=
  if c = 34 then [92, 34]
  else if c = 92 then [92, 92]
  else if c = 10 then [92, 110]
  else if c = 13 then [92, 114]
  else if c = 9 then [92, 116]
  else if c = 12 then [92, 102]
  else if c = 8 then [92, 98]
  else if c < 32 then [92, 117, 48, 48, hexText (c / 16), hexText (c % 16)]
  else [c]

/-- `json.dumps(s, ensure_ascii=False)` -/
def quoted (s : List ℕ) : List ℕ := 34 :: s.flatMap escapeText ++ [34]

def points (text : List Char) : List ℕ := text.map Char.toNat

/-- A key and the text of its value, as a member. -/
def memberText (row : List ℕ × List ℕ) : List ℕ := quoted row.1 ++ 58 :: row.2

/-- The members, by their keys. -/
def sortedMembers (rows : List (List ℕ × List ℕ)) : List (List ℕ × List ℕ) := rows.insertionSort (fun a b => a.1 ≤ b.1)

/-- Texts, with a comma before each but the first. -/
def joined : List (List ℕ) → List ℕ
  | [] => []
  | text :: texts => text ++ texts.flatMap (44 :: ·)

mutual
/-- `_canonical_json` -/
def canonicalJson : JsonValue → List ℕ
  | .null => points ['n', 'u', 'l', 'l']
  | .bool true => points ['t', 'r', 'u', 'e']
  | .bool false => points ['f', 'a', 'l', 's', 'e']
  | .number x => points (decimalText (.finite x))
  | .string s => quoted s
  | .array items => 91 :: joined (itemTexts items) ++ [93]
  | .object members => 123 :: joined ((sortedMembers (memberTexts members)).map memberText) ++ [125]

def itemTexts : List JsonValue → List (List ℕ)
  | [] => []
  | v :: items => canonicalJson v :: itemTexts items

def memberTexts : List (List ℕ × JsonValue) → List (List ℕ × List ℕ)
  | [] => []
  | (key, v) :: members => (key, canonicalJson v) :: memberTexts members
end

end Motte.DirectLlm
