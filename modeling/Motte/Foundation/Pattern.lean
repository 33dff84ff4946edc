import Mathlib.Data.List.Basic

/-! Patterns, matched with backtracking.

The ways in which a pattern matches at a place are listed in the order in which they are
tried, so the first of them is the match. A search goes on behind each match. -/
namespace Motte.Foundation

inductive Pattern where
  | empty
  | start
  | one (p : Char → Bool)
  | seq (first second : Pattern)
  | alt (first second : Pattern)
  | many (p : Char → Bool)
  | few (p : Char → Bool) (limit : ℕ)
  | group (inner : Pattern)
  | never (inner : Pattern)

namespace Pattern

/-- A place in a text: what is behind it is counted, what is before it is kept. -/
structure Place where
  pos : ℕ
  rest : List Char
  captured : Option (List Char) := none

/-- The places behind as many characters as can be taken, and behind fewer. -/
def takeMany (p : Char → Bool) (captured : Option (List Char)) : ℕ → List Char → List Place
  | pos, [] => [{ pos, rest := [], captured }]
  | pos, c :: rest =>
    if p c then takeMany p captured (pos + 1) rest ++ [{ pos, rest := c :: rest, captured }] else [{ pos, rest := c :: rest, captured }]

/-- The places behind no character, and behind more, up to a limit. -/
def takeFew (p : Char → Bool) (captured : Option (List Char)) : ℕ → ℕ → List Char → List Place
  | 0, pos, text => [{ pos, rest := text, captured }]
  | _ + 1, pos, [] => [{ pos, rest := [], captured }]
  | limit + 1, pos, c :: rest =>
    { pos, rest := c :: rest, captured } :: if p c then takeFew p captured limit (pos + 1) rest else []

/-- The places where a match that starts here can end. -/
def run : Pattern → Place → List Place
  | empty, s => [s]
  | start, s => if s.pos = 0 then [s] else []
  | one p, s =>
    match s.rest with
    | [] => []
    | c :: rest => if p c then [{ s with pos := s.pos + 1, rest }] else []
  | seq first second, s => (first.run s).flatMap second.run
  | alt first second, s => first.run s ++ second.run s
  | many p, s => takeMany p s.captured s.pos s.rest
  | few p limit, s => takeFew p s.captured limit s.pos s.rest
  | group inner, s => (inner.run s).map (fun t => { t with captured := some (s.rest.take (t.pos - s.pos)) })
  | never inner, s => if (inner.run s).isEmpty then [s] else []

/-- The matches of a pattern that matches no empty text, each with where it starts; `skip` characters belong to the last. -/
def findFrom (r : Pattern) : ℕ → ℕ → List Char → List (Place × Place)
  | _, _, [] => []
  | skip + 1, pos, _ :: rest => findFrom r skip (pos + 1) rest
  | 0, pos, c :: rest =>
    match (r.run { pos, rest := c :: rest }).head? with
    | none => findFrom r 0 (pos + 1) rest
    | some t => ({ pos, rest := c :: rest }, t) :: findFrom r (t.pos - pos - 1) (pos + 1) rest

/-- `pattern.finditer(text)` -/
def findIter (r : Pattern) (text : List Char) : List (Place × Place) := r.findFrom 0 0 text

/-- `pattern.findall(text)`, of a pattern with one group -/
def findAll (r : Pattern) (text : List Char) : List (List Char) := (r.findIter text).map (fun found => found.2.captured.getD [])

/-- `pattern.match(text, pos)` is a match. -/
def matchesAt (r : Pattern) (s : Place) : Bool := !(r.run s).isEmpty

/-! ### Writing patterns -/

def seqs (parts : List Pattern) : Pattern := parts.foldr seq empty

def alts : List Pattern → Pattern
  | [] => never empty
  | [r] => r
  | r :: rest => alt r (alts rest)

def char (c : Char) : Pattern := one (· = c)

def oneOf (chars : String) : Pattern := one (· ∈ chars.toList)

def word (text : String) : Pattern := seqs (text.toList.map char)

def maybe (r : Pattern) : Pattern := alt r empty

end Pattern

end Motte.Foundation
