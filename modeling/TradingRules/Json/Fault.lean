/-!
# Faults of documents

Why a text is no document, and where in the text that shows. Lines count from one; a column counts
the bytes of its line that had been looked at.
-/

namespace TradingRules.Json

inductive SyntaxCause where
  /-- The text ends where a value should be, or within a word or a number. -/
  | cutValue
  | cutArray
  | cutObject
  | cutString
  | expectedColon
  | expectedItem
  | expectedMember
  | expectedWord
  | expectedValue
  | invalidEscape
  | invalidNumber
  | outOfRange
  | controlCharacter
  | keyNotString
  /-- One half of a pair of escapes where the other one should be. -/
  | loneHalf
  /-- The first half of a pair of escapes without a second one. -/
  | unpairedHalf
  | trailingComma
  | trailingText
  | tooDeep
deriving DecidableEq, Repr

def SyntaxCause.message : SyntaxCause → String
  | cutValue => "EOF while parsing a value"
  | cutArray => "EOF while parsing a list"
  | cutObject => "EOF while parsing an object"
  | cutString => "EOF while parsing a string"
  | expectedColon => "expected `:`"
  | expectedItem => "expected `,` or `]`"
  | expectedMember => "expected `,` or `\x7d`"
  | expectedWord => "expected ident"
  | expectedValue => "expected value"
  | invalidEscape => "invalid escape"
  | invalidNumber => "invalid number"
  | outOfRange => "number out of range"
  | controlCharacter => "control character (\\u0000-\\u001F) found while parsing a string"
  | keyNotString => "key must be a string"
  | loneHalf => "lone leading surrogate in hex escape"
  | unpairedHalf => "unexpected end of hex escape"
  | trailingComma => "trailing comma"
  | trailingText => "trailing characters"
  | tooDeep => "recursion limit exceeded"

structure SyntaxFault where
  cause : SyntaxCause
  line : Nat
  column : Nat
deriving DecidableEq, Repr

def SyntaxFault.message (f : SyntaxFault) : String :=
  f.cause.message ++ " at line " ++ toString f.line ++ " column " ++ toString f.column

end TradingRules.Json
