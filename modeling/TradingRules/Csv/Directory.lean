import TradingRules.Csv.Quotes
import TradingRules.Failure
import TradingRules.Files.Disk
import TradingRules.Files.Path

/-!
# Directories of quotes

A directory holds one file for each symbol, named for it. A symbol without a file has no quotes;
any other trouble with its file is reported.
-/

namespace TradingRules.Csv

variable {m : Type → Type} [Monad m]

def extension : String := ".csv"

def filePath (directory symbol : String) : String :=
  Path.join directory (symbol ++ extension)

/-- The asset of a symbol, given what reading its file gave. -/
def assetOf (path symbol : String) : Except DiskFault String → Except DataFault Asset
  | .error .notFound => .error (.noQuotes symbol)
  | .error fault => .error (.unreadable ("failed to read " ++ path ++ ": " ++ fault.message))
  | .ok text =>
    match readAsset symbol text with
    | .ok a => .ok a
    | .error fault => .error (.unreadable (fault.message path))

def loadAsset (disk : Disk m) (directory symbol : String) : m (Except DataFault Asset) := do
  let path := filePath directory symbol
  return assetOf path symbol (← disk.read path)

/-- The symbol that a file is named for. -/
def symbolOf? (file : String) : Option String :=
  let name := file.toList
  if extension.toList.isSuffixOf name then
    some (String.ofList (name.take (name.length - extension.length)))
  else none

/-- The symbols of some file names, sorted. -/
def symbolsOf (names : List String) : List String :=
  (names.filterMap symbolOf?).mergeSort (fun a b => decide (a ≤ b))

def listSymbols (disk : Disk m) (directory : String) : m (Except DataFault (List String)) := do
  match ← disk.list directory with
  | .ok names => return .ok (symbolsOf names)
  | .error fault =>
    return .error (.unreadable
      ("failed to read directory " ++ directory ++ ": " ++ fault.message))

end TradingRules.Csv
