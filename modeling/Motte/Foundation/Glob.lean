import Mathlib.Data.List.Basic

/-! Shell patterns.

A star stands for any text, a question mark for any character, and brackets for one of the
characters in them or, after an exclamation mark, for one that is not. A bracket that is
never closed stands for itself. -/
namespace Motte.Foundation

inductive Glob where
  | literal (c : Char)
  | any
  | star
  | oneOf (negated : Bool) (ranges : List (Char × Char))
deriving DecidableEq

namespace Glob

/-- The characters between brackets, as ranges; a hyphen at either end stands for itself. -/
def ranges : List Char → List (Char × Char)
  | a :: '-' :: b :: rest => (a, b) :: ranges rest
  | a :: rest => (a, a) :: ranges rest
  | [] => []

/-- What is between brackets and what follows them; the first character closes nothing. -/
def brackets (text : List Char) : Option (Bool × List Char × List Char) :=
  let negated := text.head? = some '!'
  match if negated then text.tail else text with
  | [] => none
  | first :: rest =>
    if ']' ∈ rest then some (negated, first :: rest.takeWhile (· ≠ ']'), (rest.dropWhile (· ≠ ']')).tail) else none

/-- The pieces of a pattern; the fuel is its length. -/
def pieces : ℕ → List Char → List Glob
  | 0, _ => []
  | _, [] => []
  | fuel + 1, c :: rest =>
    if c = '*' then .star :: pieces fuel rest
    else if c = '?' then .any :: pieces fuel rest
    else if c = '[' then
      match brackets rest with
      | some (negated, inside, after) => .oneOf negated (ranges inside) :: pieces fuel after
      | none => .literal '[' :: pieces fuel rest
    else .literal c :: pieces fuel rest

/-- A piece that stands for one character stands for this one. -/
def admits : Glob → Char → Bool
  | .literal c, d => c = d
  | .any, _ => true
  | .star, _ => false
  | .oneOf negated ranges, d => negated != ranges.any (fun range => range.1 ≤ d ∧ d ≤ range.2)

def covers : List Glob → List Char → Bool
  | [], text => text.isEmpty
  | .star :: rest, text => text.tails.any (covers rest)
  | piece :: rest, c :: text => piece.admits c && covers rest text
  | _ :: _, [] => false

end Glob

/-- `fnmatch.fnmatch(name, pattern)`, where case matters -/
def fnmatch (name pattern : String) : Bool := Glob.covers (Glob.pieces pattern.length pattern.toList) name.toList

example : fnmatch "build/out.log" "build/*.log" = true ∧ fnmatch "notes-[1" "*[!0-9]" = false ∧ fnmatch "a-c" "[a-]-[!]x]" = true := by decide +kernel

end Motte.Foundation
