import Lifeline.Source.Repair
import Lifeline.Text.Digits

/-! The command line: what is asked for, read from the arguments.

Options may stand before or after what they go with; two dashes end them. The layout option belongs
to every command and may be given once before the command and once after it. Options of one letter
can stand together after one dash; each of them ends the reading, so the first letter decides. -/

set_option autoImplicit false

namespace Lifeline.Cli

inductive Command where
  | tokens
  | parse (strict : Bool)
  | extract
  | repair (maxLines : Nat)
  | generate
  | export
  deriving DecidableEq, Repr

namespace Command

def ofName? : String → Option Command
  | "tokens" => some tokens
  | "parse" => some (parse false)
  | "extract" => some extract
  | "repair" => some (repair Repair.defaultMaxLines)
  | "generate" => some generate
  | "export" => some «export»
  | _ => none

end Command

structure Invocation where
  command : Command
  /-- A path; none and a single dash stand for the standard input. -/
  input : Option String
  pretty : Bool
  deriving DecidableEq, Repr

inductive Request where
  | run (invocation : Invocation)
  | version
  | help (full : Bool)
  | commandHelp (command : Command)
  | helpHelp
  | misuse
  deriving DecidableEq, Repr

/-- Whether an argument is an option by its form. A single dash is not. -/
def isOption (argument : String) : Bool :=
  match argument.toList with
  | '-' :: _ :: _ => true
  | _ => false

def letter? (argument : String) : Option Char :=
  match argument.toList with
  | '-' :: letter :: _ => if letter = '-' then none else some letter
  | _ => none

structure Given where
  command : Command
  input : Option String
  pretty : Bool
  limited : Bool

def Given.limit? (given : Given) (text : String) : Option Given := do
  match given.command with
  | .repair _ =>
    if given.limited then none
    else
      let maxLines ← Text.numberBelow? UInt64.size text.toList
      return { given with command := .repair maxLines, limited := true }
  | _ => none

def Given.take? (given : Given) (argument : String) : Option Given :=
  if given.input.isSome then none else some { given with input := some argument }

def takeAll? (given : Given) : List String → Option Given
  | [] => some given
  | argument :: rest => (given.take? argument).bind (takeAll? · rest)

def valueOf? (name argument : String) : Option String :=
  let start := (name ++ "=").toList
  if start.isPrefixOf argument.toList then
    some (String.ofList (argument.toList.drop start.length))
  else none

/-- Reads the arguments after a command; `outer` tells whether the layout option stood before it. -/
def ofCommand (outer : Bool) (given : Given) : List String → Request
  | [] => .run ⟨given.command, given.input, given.pretty || outer⟩
  | "--" :: rest =>
    match takeAll? given rest with
    | some given => .run ⟨given.command, given.input, given.pretty || outer⟩
    | none => .misuse
  | "--help" :: _ => .commandHelp given.command
  | "--pretty" :: rest =>
    if given.pretty then .misuse else ofCommand outer { given with pretty := true } rest
  | "--strict" :: rest =>
    match given.command with
    | .parse false => ofCommand outer { given with command := .parse true } rest
    | _ => .misuse
  | "--max-lines" :: value :: rest =>
    if isOption value then .misuse
    else match given.limit? value with
      | some given => ofCommand outer given rest
      | none => .misuse
  | argument :: rest =>
    if letter? argument = some 'h' then .commandHelp given.command
    else if isOption argument then
      match (valueOf? "--max-lines" argument).bind given.limit? with
      | some given => ofCommand outer given rest
      | none => .misuse
    else match given.take? argument with
      | some given => ofCommand outer given rest
      | none => .misuse

def ofArguments (pretty : Bool) : List String → Request
  | [] => .misuse
  | "--version" :: _ => .version
  | "--help" :: _ | ["help"] => .help true
  | ["help", "help"] => .helpHelp
  | ["help", name] =>
    match Command.ofName? name with
    | some command => .commandHelp command
    | none => .misuse
  | "--pretty" :: rest => if pretty then .misuse else ofArguments true rest
  | argument :: rest =>
    match letter? argument, Command.ofName? argument with
    | some 'V', _ => .version
    | some 'h', _ => .help false
    | _, some command => ofCommand pretty ⟨command, none, false, false⟩ rest
    | _, none => .misuse

end Lifeline.Cli
