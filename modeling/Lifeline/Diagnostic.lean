import Lifeline.Token.Basic

/-! Positioned reports of what is wrong with a source. None of them stops an analysis. -/

set_option autoImplicit false

namespace Lifeline

inductive Diagnostic.Kind where
  | lexical | syntactic | internal
  deriving DecidableEq, Repr

def Diagnostic.Kind.word : Diagnostic.Kind → String
  | .lexical => "lexical"
  | .syntactic => "syntax"
  | .internal => "internal"

structure Diagnostic where
  kind : Diagnostic.Kind
  message : String
  line : Nat
  column : Nat
  /-- The byte offset of the place. -/
  position : Nat
  token : Option Token
  deriving DecidableEq, Repr

namespace Diagnostic

def syntaxAt (message : String) (token : Token) : Diagnostic :=
  ⟨.syntactic, message, token.line, token.column, token.offset, some token⟩

def internal (message : String) : Diagnostic :=
  ⟨.internal, message, 0, 0, 0, none⟩

def display (diagnostic : Diagnostic) : String :=
  diagnostic.message ++ " at " ++ toString diagnostic.line ++ ":" ++ toString diagnostic.column

end Diagnostic

end Lifeline
