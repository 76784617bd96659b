import TradingRules.Text.Split

/-!
# Paths

A path is text with slashes between its components. Empty components and dots do not count, except
for a dot in front.
-/

namespace TradingRules.Path

open Text

def isAbsolute (path : String) : Bool :=
  path.toList.head? == some '/'

/-- A path inside a directory. An absolute one stays what it is. -/
def join (directory path : String) : String :=
  if isAbsolute path then path
  else if directory.isEmpty || directory.toList.getLast? == some '/' then directory ++ path
  else directory ++ "/" ++ path

/-- Whether the last of some components, given last first, counts. -/
def counts : List (List Char) → Bool
  | [] => false
  | [only] => !only.isEmpty
  | last :: _ => !last.isEmpty && last != ['.']

/-- The components without those at the end that do not count, last first. -/
def settle : List (List Char) → List (List Char)
  | [] => []
  | last :: before => if counts (last :: before) then last :: before else settle before

def ofComponents (absolute : Bool) (components : List (List Char)) : String :=
  let path := "/".intercalate (components.reverse.map String.ofList)
  if absolute && path.isEmpty then "/" else path

/-- The directory a path is in; the root and the empty path are in none. -/
def parent? (path : String) : Option String :=
  match settle (pieces '/' path.toList).reverse with
  | [] => none
  | _ :: before => some (ofComponents (isAbsolute path) (settle before))

/-- A path named in a file, relative to the directory of that file. -/
def besides (file path : String) : String :=
  match parent? file with
  | some directory => join directory path
  | none => path

end TradingRules.Path
