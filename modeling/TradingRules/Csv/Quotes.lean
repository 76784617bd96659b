import TradingRules.Asset
import TradingRules.Csv.Record
import TradingRules.Decimal.Reader
import TradingRules.Timestamp.Reader

/-!
# Quotes in records

The first record is a heading, and all records have as many fields as it has. Each other record is
a quote: its time, four prices and a volume. The first record that is not, and in it the first
column that is not, decides the fault.
-/

namespace TradingRules.Csv

/-- Why a record is no quote. -/
inductive RowFault where
  /-- The number of the record, the heading being 0, its place and the numbers of fields. -/
  | fieldCount (record : Nat) (place : Place) (found expected : Nat)
  | timestamp (line : Nat) (text : String)
  | missing (line : Nat) (column : String)
  | invalid (line : Nat) (column : String) (cause : Decimal.NumberFault)
deriving DecidableEq, Repr

/-- The text of a fault in the file with the given path. -/
def RowFault.message (path : String) : RowFault → String
  | .fieldCount record place found expected =>
    path ++ ": CSV parse error: CSV error: record " ++ toString record ++ " (line: " ++
      toString place.line ++ ", byte: " ++ toString place.byte ++ "): found record with " ++
      toString found ++ " fields, but the previous record has " ++ toString expected ++ " fields"
  | .timestamp line text => "line " ++ toString line ++ ": invalid timestamp '" ++ text ++ "'"
  | .missing line column => "line " ++ toString line ++ ": missing " ++ column ++ " column"
  | .invalid line column cause =>
    "line " ++ toString line ++ ": invalid " ++ column ++ " value: " ++ cause.message

namespace Record

variable (r : Record)

/-- A column read by `read`, blanks around its text left out. -/
def column {α : Type} (read : String → Except Decimal.NumberFault α) (index : Nat)
    (name : String) : Except RowFault α :=
  match r.fields[index]? with
  | none => .error (.missing r.place.line name)
  | some s =>
    match read (Text.trimmed s) with
    | .ok x => .ok x
    | .error cause => .error (.invalid r.place.line name cause)

def time : Except RowFault Timestamp :=
  match r.fields[0]? with
  | none => .error (.missing r.place.line "timestamp")
  | some s =>
    match Timestamp.parse? s with
    | some t => .ok t
    | none => .error (.timestamp r.place.line s)

def price (index : Nat) (name : String) : Except RowFault Float :=
  r.column Decimal.readFloat index name

def quote : Except RowFault Quote := do
  let time ← r.time
  let opening ← r.price 1 "open"
  let high ← r.price 2 "high"
  let low ← r.price 3 "low"
  let close ← r.price 4 "close"
  let volume ← r.column Decimal.readInteger 5 "volume"
  return { time, opening, high, low, close, volume }

end Record

/-- The quotes of the records from a number on, each with `width` fields. -/
def quotesFrom (width : Nat) : (number : Nat) → List Record → Except RowFault (List Quote)
  | _, [] => .ok []
  | number, r :: rest =>
    if r.fields.length ≠ width then .error (.fieldCount number r.place r.fields.length width)
    else do
      let q ← r.quote
      return q :: (← quotesFrom width (number + 1) rest)

/-- The quotes below the heading. -/
def quotes : List Record → Except RowFault (List Quote)
  | [] => .ok []
  | heading :: rest => quotesFrom heading.fields.length 1 rest

/-- The asset in the text of a file. -/
def readAsset (symbol text : String) : Except RowFault Asset :=
  (quotes (records text)).map (Asset.ofQuotes symbol)

end TradingRules.Csv
