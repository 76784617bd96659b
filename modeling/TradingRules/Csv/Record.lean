/-!
# Records of fields

Text as records of fields with commas between them. A line feed or a carriage return ends a record,
and empty lines are no records. A field may be quoted, with quotes inside it doubled; a quote inside
a field that does not begin with one is a plain character. A byte order mark at the start does not
count as text.

Every record knows where it starts: right after the one character that ended the record before it,
or at the start of the text.
-/

namespace TradingRules.Csv

/-- A place in a text: bytes and line feeds before it. -/
structure Place where
  byte : Nat
  feeds : Nat
deriving DecidableEq, Repr

def Place.start : Place := ⟨0, 0⟩

def Place.advance (p : Place) (c : Char) : Place :=
  ⟨p.byte + c.utf8Size, if c = '\n' then p.feeds + 1 else p.feeds⟩

/-- Lines count from 1. -/
def Place.line (p : Place) : Nat := p.feeds + 1

structure Record where
  place : Place
  fields : List String
deriving DecidableEq, Repr

inductive Mode where
  | recordStart
  | fieldStart
  | plain
  | quoted
  /-- After a quote in a quoted field, which may end the field or be doubled. -/
  | quote
deriving DecidableEq, Repr

/-- The record being read: where it starts, its complete fields and the characters of the next one,
each last first. -/
structure Scan where
  place : Place
  mode : Mode
  fields : List String
  field : List Char

def isEnd (c : Char) : Bool := c = '\n' || c = '\r'

namespace Scan

def push (s : Scan) (c : Char) (mode : Mode) : Scan :=
  { s with mode := mode, field := c :: s.field }

def endField (s : Scan) : Scan :=
  { s with mode := .fieldStart, fields := String.ofList s.field.reverse :: s.fields, field := [] }

def record (s : Scan) : Record :=
  ⟨s.place, s.endField.fields.reverse⟩

/-- A field that is not inside quotes goes on with a character that ends neither it nor its
record. -/
def proceed (s : Scan) (c : Char) : Scan :=
  match s.mode with
  | .quote => if c = '"' then s.push c .quoted else s.push c .plain
  | .plain => s.push c .plain
  | _ => if c = '"' then { s with mode := .quoted } else s.push c .plain

end Scan

/-- The records of the rest of a text. `here` is the place of its first character. -/
def recordsFrom (here : Place) (s : Scan) : List Char → List Record
  | [] => if s.mode = .recordStart then [] else [s.record]
  | c :: rest =>
    let next := here.advance c
    if s.mode = .quoted then
      recordsFrom next (if c = '"' then { s with mode := .quote } else s.push c .quoted) rest
    else if isEnd c then
      if s.mode = .recordStart then recordsFrom next s rest
      else s.record :: recordsFrom next ⟨next, .recordStart, [], []⟩ rest
    else if c = ',' then recordsFrom next s.endField rest
    else recordsFrom next (s.proceed c) rest

/-- The records of a text, a byte order mark in front of them left out. -/
def records (text : String) : List Record :=
  let fresh : Scan := ⟨.start, .recordStart, [], []⟩
  match text.toList with
  | '\ufeff' :: rest => recordsFrom (Place.start.advance '\ufeff') fresh rest
  | cs => recordsFrom .start fresh cs

end TradingRules.Csv
