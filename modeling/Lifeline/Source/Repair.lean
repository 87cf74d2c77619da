import Lifeline.Text.Blank

/-! Repair of hand-written source before it is read.

Missing directives are added around the text, line endings and written-out line feeds become line
feeds, runs of blank lines shrink to one blank line, and a text with too many lines is cut. -/

set_option autoImplicit false

namespace Lifeline

structure Repaired where
  code : String
  truncated : Bool
  deriving DecidableEq, Repr

namespace Repair

def defaultMaxLines : Nat := 1000

/-- The same character for all letters that differ in case only. Besides its two ASCII forms, the
letter s has a long one. -/
def foldCase (c : Char) : Char := if c = 'ſ' then 's' else c.toLower

def hasPart (part : List Char) : List Char → Bool
  | [] => part.isEmpty
  | c :: rest => part.isPrefixOf (c :: rest) || hasPart part rest

def mentions (word text : List Char) : Bool := hasPart word (text.map foldCase)

def startDirective : List Char := "@startuml".toList

def endDirective : List Char := "@enduml".toList

def addStart (text : List Char) : List Char :=
  if mentions startDirective text then text else startDirective ++ '\n' :: text

def addEnd (text : List Char) : List Char :=
  if mentions endDirective text then text else text ++ '\n' :: endDirective

/-- Every line ending, and every backslash with an n after it, becomes one line feed. -/
def unifyLines : List Char → List Char
  | [] => []
  | '\r' :: '\n' :: rest => '\n' :: unifyLines rest
  | '\r' :: rest => '\n' :: unifyLines rest
  | '\\' :: 'n' :: rest => '\n' :: unifyLines rest
  | c :: rest => c :: unifyLines rest

/-- Drops each line feed that follows two others; `seen` of them stand before the text. -/
def squeeze (seen : Nat) : List Char → List Char
  | [] => []
  | c :: rest =>
    if c = '\n' then if seen < 2 then c :: squeeze (seen + 1) rest else squeeze seen rest
    else c :: squeeze 0 rest

def takeLines (count : Nat) (text : List Char) : List Char :=
  ['\n'].intercalate ((Text.split (· == '\n') text).take count)

def lineCount (text : List Char) : Nat := (Text.split (· == '\n') text).length

def limitLines (maxLines : Nat) (text : List Char) : Repaired :=
  -- With the last lines, the end of the diagram may have been cut off.
  if maxLines < lineCount text then ⟨String.ofList (addEnd (takeLines maxLines text)), true⟩
  else ⟨String.ofList text, false⟩

end Repair

open Repair in
def repair (source : String) (maxLines : Nat) : Repaired :=
  match Text.trim source.toList with
  | [] => ⟨String.ofList (startDirective ++ '\n' :: endDirective), false⟩
  | text => limitLines maxLines (squeeze 0 (unifyLines (addEnd (addStart text))))

def Repaired.changes (repaired : Repaired) (source : String) : Bool := repaired.code != source

end Lifeline
