import Lifeline.Token.Lexeme
import Lifeline.Token.Position
import Lifeline.Diagnostic

/-! From source text to placed tokens.

The tokens are the lexemes that are not blank, each with its place, and an end mark after the last.
The one thing that can be wrong with a source at this level is a string without its closing quote. -/

set_option autoImplicit false

namespace Lifeline

namespace Token

def locate (position : Position) : List Lexeme → List Token
  | [] => [endOfInput position.line position.column position.offset]
  | lexeme :: rest =>
    let following := locate (position.advance lexeme.text) rest
    match lexeme.kind with
    | none => following
    | some kind =>
      .new kind (String.ofList lexeme.text) position.line position.column position.offset :: following

/-- The report on a string that is read to the end of the source without meeting its closing quote. -/
def openString? (position : Position) (first : Char) (rest : List Char) : Option Diagnostic :=
  if first == '"' && (Lexeme.stringBody rest).1 == .unknown then
    some ⟨.lexical, "Unterminated string", position.line, position.column, position.offset, none⟩
  else none

def reports (lineStarts : Bool) (position : Position) : List Char → List Diagnostic
  | [] => []
  | first :: rest =>
    let (kind, extra) := Lexeme.measure lineStarts first rest
    (openString? position first rest).toList ++
      reports (Lexeme.linesUp lineStarts kind) (position.advance (first :: rest.take extra))
        (rest.drop extra)
termination_by text => text.length

end Token

structure Tokens where
  tokens : List Token
  issues : List Diagnostic

def tokenize (source : String) : Tokens where
  tokens := Token.locate .start (Token.lexemes true source.toList)
  issues := Token.reports true .start source.toList

end Lifeline
