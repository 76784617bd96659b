import TradingRules.Named

/-!
# Command lines

The arguments of a command: its name and then its options, each with a value. A long option has its
value after an equals sign or in the next argument, a short one right behind its letter or in the
next argument. The value of an option is looked at when the next option begins or the line ends; an
option still without one then is a fault, and so is one given before.
-/

namespace TradingRules

/-- A command and what it works on. -/
inductive Command where
  | backtest (config : String) (symbol : Option String)
  | screen (config filter : String)
  | validate (strategy : String)
  | tabulate (config symbol method : String)
deriving DecidableEq, Repr

/-- Why a command line is no command. Asking for help is one reason. -/
inductive UsageFault where
  | helpRequested
  | nothingGiven
  | unknownCommand
  | unknownArgument
  | invalidValue
  | surplusValue
  | givenTwice
  | missingOption
deriving DecidableEq, Repr

namespace UsageFault

def message : UsageFault → String
  | helpRequested => "usage: backtest|screen|validate|export [options]"
  | nothingGiven => "a command is required"
  | unknownCommand => "unknown command"
  | unknownArgument => "unexpected argument"
  | invalidValue => "a value is required"
  | surplusValue => "unexpected value"
  | givenTwice => "an option cannot be used more than once"
  | missingOption => "a required option is missing"

def exitCode : UsageFault → Nat
  | helpRequested => 0
  | _ => 2

end UsageFault

namespace Arguments

inductive Verb where
  | backtest
  | screen
  | validate
  | tabulate
deriving DecidableEq, Repr

instance : Named Verb where
  all := [.backtest, .screen, .validate, .tabulate]
  name
    | .backtest => "backtest"
    | .screen => "screen"
    | .validate => "validate"
    | .tabulate => "export"

inductive Flag where
  | config
  | symbol
  | filter
  | strategy
  | method
deriving DecidableEq, Repr

namespace Flag

def long : Flag → String
  | config => "config"
  | symbol => "symbol"
  | filter => "filter"
  | strategy => "strategy"
  | method => "method"

def short : Flag → Option Char
  | config => some 'c'
  | symbol => none
  | filter => some 'f'
  | strategy => some 's'
  | method => some 'm'

/-- A path must have characters, a symbol need not. -/
def mayBeEmpty : Flag → Bool
  | symbol => true
  | _ => false

end Flag

def Verb.flags : Verb → List Flag
  | .backtest => [.config, .symbol]
  | .screen => [.config, .filter]
  | .validate => [.strategy]
  | .tabulate => [.config, .symbol, .method]

/-- The options read so far, and the one whose value is still to be looked at or to come. -/
structure Progress where
  given : List (Flag × String)
  pending : Option (Flag × Option String)

namespace Progress

def give (p : Progress) (flag : Flag) (value : String) : Except UsageFault Progress :=
  if (p.given.lookup flag).isSome then .error .givenTwice
  else if value.isEmpty && !flag.mayBeEmpty then .error .invalidValue
  else .ok { p with given := (flag, value) :: p.given }

/-- Looks at the value of the pending option. -/
def settle (p : Progress) : Except UsageFault Progress :=
  match p.pending with
  | none => .ok p
  | some (_, none) => .error .invalidValue
  | some (flag, some value) => ({ p with pending := none } : Progress).give flag value

/-- Begins an option whose value is in the same argument or to come. -/
def start (p : Progress) (flag : Flag) (value : Option String) : Except UsageFault Progress := do
  let p ← p.settle
  match value with
  | some value => p.give flag value
  | none => return { p with pending := some (flag, none) }

def help (p : Progress) : Except UsageFault Progress := do
  let _ ← p.settle
  .error .helpRequested

/-- An argument that begins with two hyphens, without them. -/
def long (verb : Verb) (p : Progress) (body : List Char) : Except UsageFault Progress :=
  let name := String.ofList (body.takeWhile (· ≠ '='))
  let value := match body.dropWhile (· ≠ '=') with
    | [] => none
    | _ :: rest => some (String.ofList rest)
  if name = "help" then if value.isSome then .error .surplusValue else p.help
  else
    match verb.flags.find? fun flag => flag.long == name with
    | some flag => p.start flag value
    | none => .error .unknownArgument

/-- An argument that begins with one hyphen: its letter and what is behind it. -/
def short (verb : Verb) (p : Progress) (letter : Char) (rest : List Char) :
    Except UsageFault Progress :=
  if letter = 'h' then p.help
  else
    match verb.flags.find? fun flag => flag.short == some letter with
    | none => .error .unknownArgument
    | some flag =>
      match rest with
      | [] => p.start flag none
      | '=' :: value => p.start flag (some (String.ofList value))
      | value => p.start flag (some (String.ofList value))

def step (verb : Verb) (p : Progress) (argument : String) : Except UsageFault Progress :=
  match argument.toList, p.pending with
  | '-' :: '-' :: body, _ => p.long verb body
  | '-' :: letter :: rest, _ => p.short verb letter rest
  | _, some (flag, none) => .ok { p with pending := some (flag, some argument) }
  | _, _ => .error .unknownArgument

end Progress

/-- The options of a command. Two hyphens alone end them, and nothing may follow. -/
def options (verb : Verb) (p : Progress) : List String → Except UsageFault Progress
  | [] => p.settle
  | argument :: rest =>
    if argument = "--" then if rest.isEmpty then p.settle else .error .unknownArgument
    else do options verb (← p.step verb argument) rest

def required (p : Progress) (flag : Flag) : Except UsageFault String :=
  match p.given.lookup flag with
  | some value => .ok value
  | none => .error .missingOption

def command (verb : Verb) (p : Progress) : Except UsageFault Command :=
  match verb with
  | .backtest => do return .backtest (← required p .config) (p.given.lookup .symbol)
  | .screen => do return .screen (← required p .config) (← required p .filter)
  | .validate => do return .validate (← required p .strategy)
  | .tabulate => do
    return .tabulate (← required p .config) (← required p .symbol) (← required p .method)

/-- The name that asks for help on the commands that follow it. -/
def helpName : String := "help"

def isCommandName (s : String) : Bool :=
  s = helpName || (Named.find? s : Option Verb).isSome

/-- A line without a command in front. -/
def withoutCommand (argument : String) (rest : List String) : UsageFault :=
  match argument.toList with
  | ['-', '-'] =>
    match rest with
    | [] => .nothingGiven
    | next :: _ => if isCommandName next then .unknownArgument else .unknownCommand
  | '-' :: '-' :: body =>
    if body = "help".toList then .helpRequested
    else if "help=".toList.isPrefixOf body then .surplusValue
    else .unknownArgument
  | '-' :: 'h' :: _ => .helpRequested
  | '-' :: _ :: _ => .unknownArgument
  | _ => .unknownCommand

/-- Help is there for one command at a time. -/
def helpOn : List String → UsageFault
  | [] => .helpRequested
  | [next] => if isCommandName next then .helpRequested else .unknownCommand
  | _ => .unknownCommand

def parse : List String → Except UsageFault Command
  | [] => .error .nothingGiven
  | first :: rest =>
    if first = helpName then .error (helpOn rest)
    else
      match (Named.find? first : Option Verb) with
      | some verb => do command verb (← options verb ⟨[], none⟩ rest)
      | none => .error (withoutCommand first rest)

end Arguments

end TradingRules
