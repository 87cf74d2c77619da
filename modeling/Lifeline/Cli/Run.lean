import Lifeline.Cli.Command
import Lifeline.Encoding.Extract
import Lifeline.Export.Document
import Lifeline.Json.Write

/-! What the commands do: from an input text to what is printed and how the program ends. -/

set_option autoImplicit false

namespace Lifeline.Cli

inductive InputError where
  | notFound
  | notText
  | system (message : String)
  deriving DecidableEq, Repr

def InputError.message : InputError → String
  | .notFound => "I/O error: No such file or directory (os error 2)"
  | .notText => "I/O error: stream did not contain valid UTF-8"
  | .system message => "I/O error: " ++ message

def decodeInput (bytes : ByteArray) : Except InputError String :=
  match String.fromUTF8? bytes with
  | some text => .ok text
  | none => .error .notText

inductive Failure where
  | input (error : InputError)
  | json
  | issues (count : Nat)
  deriving DecidableEq, Repr

namespace Failure

def message : Failure → String
  | input error => error.message
  | json => "JSON error"
  | issues count => toString count ++ " diagnostic(s) reported"

/-- Failures of the diagram have a status of their own. -/
def status : Failure → Nat
  | input _ | json => 1
  | issues _ => 3

end Failure

structure Ending where
  output : String
  failure : Option Failure

namespace Ending

def fail (failure : Failure) : Ending := ⟨"", some failure⟩

def print (text : String) : Ending := ⟨text ++ "\n", none⟩

def printJson (pretty : Bool) (json : Json) : Ending :=
  print (json.write (if pretty then .spread else .compact))

def status (ending : Ending) : Nat := (ending.failure.map Failure.status).getD 0

end Ending

/-- Runs a command on the text of its input. Exports carry the given time. -/
def Command.run (command : Command) (pretty : Bool) (time text : String) : Ending :=
  match command with
  | .tokens => .printJson pretty (tokenize text).toJson
  | .parse strict =>
    let analysis := analyze text
    { Ending.printJson pretty analysis.toJson with
      failure := if strict && analysis.hasIssues then some (.issues analysis.issues.length) else none }
  | .extract => .printJson pretty (Lifeline.extract text).toJson
  | .repair maxLines => .print (Lifeline.repair text maxLines).code
  | .generate =>
    match Storyboard.ofText? text with
    | some board => .print board.render
    | none => .fail .json
  | .export => .printJson pretty ((Export.ofBoard (.ofSource text) ⟨0, 0⟩).toJsonAt (some time))

def Invocation.run (invocation : Invocation) (time : String) (input : Except InputError String) :
    Ending :=
  match input with
  | .ok text => invocation.command.run invocation.pretty time text
  | .error error => .fail (.input error)

end Lifeline.Cli
