import Motte.Foundation.Words

/-! Posix paths as text.

A path is a root and the names between its separators; empty names and single dots are not
kept. Nothing is looked up. -/
namespace Motte.Foundation.PosixPath

/-- What a path starts with when it is absolute; exactly two separators are a root of their own. -/
def root (path : List Char) : List (List Char) :=
  match path with
  | '/' :: '/' :: '/' :: _ => [['/']]
  | '/' :: '/' :: _ => [['/', '/']]
  | '/' :: _ => [['/']]
  | _ => []

/-- `PurePosixPath(path).parts` -/
def parts (path : List Char) : List (List Char) :=
  root path ++ (wordsOf (· = '/') path).filter (· ≠ ['.'])

/-- The names joined by separators. -/
def join (names : List (List Char)) : List Char := ['/'].intercalate names

end Motte.Foundation.PosixPath
