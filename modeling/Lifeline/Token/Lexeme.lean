import Lifeline.Token.Vocabulary

/-! Lexemes: the consecutive pieces that a text falls into.

Every character of a text belongs to exactly one lexeme. Which lexeme starts at a character depends
on what follows it and on one bit of context: whether the line holds a token already, since an
apostrophe opens a comment only where it does not. A lexeme without a kind is blank. -/

set_option autoImplicit false

namespace Lifeline.Token

structure Lexeme where
  kind : Option Kind
  text : List Char
  deriving DecidableEq, Repr

namespace Lexeme

def isSpace (c : Char) : Bool := c == ' ' || c == '\t' || c == '\r'

def isArrowTail (c : Char) : Bool := c == '-' || c == '>' || c == '<' || c == '\\'

def commentBody : List Char → Nat
  | [] => 0
  | '\'' :: '/' :: _ => 2
  | _ :: rest => commentBody rest + 1

/-- The number of further digits of a number, counting a point that has a digit on both sides. -/
def numberBody (rest : List Char) : Nat :=
  let whole := (rest.takeWhile Char.isDigit).length
  match rest.drop whole with
  | '.' :: digit :: more =>
    if digit.isDigit then whole + 2 + (more.takeWhile Char.isDigit).length else whole
  | _ => whole

/-- An arrow when the whole run of arrow characters is one; otherwise its first character alone. -/
def arrowBody (first : Char) (rest : List Char) : Kind × Nat :=
  let tail := rest.takeWhile isArrowTail
  if (arrowClass? (String.ofList (first :: tail))).isSome then (.arrow, tail.length) else (.unknown, 0)

def wordBody (other : Kind) (isMember : Char → Bool) (first : Char) (rest : List Char) : Kind × Nat :=
  let tail := rest.takeWhile isMember
  let word := String.ofList ((first :: tail).map Char.toLower)
  ((keyword? word).getD other, tail.length)

def stringBody (rest : List Char) : Kind × Nat :=
  let inner := rest.takeWhile (· != '"')
  if inner.length < rest.length then (.string, inner.length + 1) else (.unknown, inner.length)

def measure (lineStarts : Bool) (first : Char) (rest : List Char) : Option Kind × Nat :=
  let token (body : Kind × Nat) : Option Kind × Nat := (some body.1, body.2)
  match first with
  | ' ' | '\t' | '\r' => (none, 0)
  | '\n' => (some .newline, 0)
  | ':' => (some .colon, 0)
  | ';' => (some .semicolon, 0)
  | ',' => (some .comma, 0)
  | '(' => (some .lParen, 0)
  | ')' => (some .rParen, 0)
  | '[' => (some .lBracket, 0)
  | ']' => (some .rBracket, 0)
  | '/' =>
    match rest with
    | '\'' :: body => (some .comment, commentBody body + 1)
    | '-' :: _ => token (arrowBody first rest)
    | _ => (some .unknown, 0)
  | '-' | '<' => token (arrowBody first rest)
  | '"' => token (stringBody rest)
  | '@' => token (wordBody .unknown (fun c => c.isAlpha || c.isDigit) first rest)
  | _ =>
    if first == '\'' && lineStarts then (some .comment, (rest.takeWhile (· != '\n')).length)
    else if isIdentifierStart first then token (wordBody .identifier isIdentifierChar first rest)
    else if first.isDigit then (some .identifier, numberBody rest)
    else (some .unknown, 0)

/-- Whether the line is still without a token after a lexeme of this kind. -/
def linesUp (lineStarts : Bool) : Option Kind → Bool
  | none => lineStarts
  | some kind => kind == .newline

end Lexeme

def lexemes (lineStarts : Bool) : List Char → List Lexeme
  | [] => []
  | first :: rest =>
    let (kind, extra) := Lexeme.measure lineStarts first rest
    ⟨kind, first :: rest.take extra⟩ :: lexemes (Lexeme.linesUp lineStarts kind) (rest.drop extra)
termination_by text => text.length

theorem flatten_lexemes (lineStarts : Bool) (text : List Char) :
    ((lexemes lineStarts text).map Lexeme.text).flatten = text := by
  fun_induction lexemes lineStarts text with
  | case1 => rfl
  | case2 lineStarts first rest kind extra _ ih => simp [ih]

end Lifeline.Token
