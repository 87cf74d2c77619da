import Lifeline.Text.Blank
import Lifeline.Text.Quoted

/-! Tokens of diagram source.

A token is a piece of the source with its place: the line and column where it starts, counted from
one, and its offset in bytes, counted from zero. -/

set_option autoImplicit false

namespace Lifeline

inductive Role where
  | participant | actor | boundary | control | entity | database | collections | queue
  deriving DecidableEq, Repr

def Role.word : Role → String
  | .participant => "participant"
  | .actor => "actor"
  | .boundary => "boundary"
  | .control => "control"
  | .entity => "entity"
  | .database => "database"
  | .collections => "collections"
  | .queue => "queue"

def Role.all : List Role :=
  [.participant, .actor, .boundary, .control, .entity, .database, .collections, .queue]

/-- The blocks that a keyword opens and `end` closes. The last three are read but not kept. -/
inductive Block where
  | alt | loop | par | opt | breakOut | critical | group
  deriving DecidableEq, Repr

namespace Token

inductive Kind where
  | startUml | endUml
  | participant (role : Role)
  | title | note | autonumber | activate | deactivate | skinparam
  | opener (block : Block)
  | elseMark | alsoMark | endMark
  | colon | semicolon | comma | lParen | rParen | lBracket | rBracket
  | arrow | string | identifier | comment | newline | unknown | eof
  deriving DecidableEq, Repr

namespace Kind

def isParticipant : Kind → Bool
  | participant _ => true
  | _ => false

def isBlockStart : Kind → Bool
  | opener _ => true
  | _ => false

def isBlockBoundary : Kind → Bool
  | opener _ | elseMark | alsoMark | endMark => true
  | _ => false

def isSeparator : Kind → Bool
  | newline | comment => true
  | _ => false

def isName : Kind → Bool
  | identifier | string => true
  | _ => false

def all : List Kind :=
  [startUml, endUml] ++ Role.all.map participant ++
    [title, note, autonumber, activate, deactivate, skinparam, opener .alt, elseMark, alsoMark,
     endMark, opener .loop, opener .par, opener .opt, opener .breakOut, opener .critical,
     opener .group, colon, semicolon, comma, lParen, rParen, lBracket, rBracket, arrow, string,
     identifier, comment, newline, unknown, eof]

def name : Kind → String
  | startUml => "StartUml"
  | endUml => "EndUml"
  | participant .participant => "Participant"
  | participant .actor => "Actor"
  | participant .boundary => "Boundary"
  | participant .control => "Control"
  | participant .entity => "Entity"
  | participant .database => "Database"
  | participant .collections => "Collections"
  | participant .queue => "Queue"
  | title => "Title"
  | note => "Note"
  | autonumber => "Autonumber"
  | activate => "Activate"
  | deactivate => "Deactivate"
  | skinparam => "Skinparam"
  | opener .alt => "Alt"
  | opener .loop => "Loop"
  | opener .par => "Par"
  | opener .opt => "Opt"
  | opener .breakOut => "Break"
  | opener .critical => "Critical"
  | opener .group => "Group"
  | elseMark => "Else"
  | alsoMark => "Also"
  | endMark => "End"
  | colon => "Colon"
  | semicolon => "Semicolon"
  | comma => "Comma"
  | lParen => "LParen"
  | rParen => "RParen"
  | lBracket => "LBracket"
  | rBracket => "RBracket"
  | arrow => "Arrow"
  | string => "String"
  | identifier => "Identifier"
  | comment => "Comment"
  | newline => "Newline"
  | unknown => "Unknown"
  | eof => "Eof"

def label : Kind → String
  | startUml => "START_UML"
  | endUml => "END_UML"
  | lParen => "L_PAREN"
  | rParen => "R_PAREN"
  | lBracket => "L_BRACKET"
  | rBracket => "R_BRACKET"
  | kind => String.ofList (kind.name.toList.map Char.toUpper)

def ofLabel? (text : String) : Option Kind :=
  all.find? (·.label == text)

end Kind

end Token

structure Token where
  kind : Token.Kind
  text : String
  line : Nat
  column : Nat
  offset : Nat
  /-- In bytes. Nothing ties it to the text, unless the token is made by `Token.new`. -/
  length : Nat
  deriving DecidableEq, Repr

namespace Token

def new (kind : Kind) (text : String) (line column offset : Nat) : Token :=
  ⟨kind, text, line, column, offset, text.utf8ByteSize⟩

@[simp] theorem kind_new (kind : Kind) (text : String) (line column offset : Nat) :
    (new kind text line column offset).kind = kind := rfl

@[simp] theorem text_new (kind : Kind) (text : String) (line column offset : Nat) :
    (new kind text line column offset).text = text := rfl

@[simp] theorem offset_new (kind : Kind) (text : String) (line column offset : Nat) :
    (new kind text line column offset).offset = offset := rfl

def stop (token : Token) : Nat := token.offset + token.length

def unquote (text : List Char) : List Char :=
  let inner := if text.head? = some '"' then text.tail else text
  if inner.getLast? = some '"' then inner.dropLast else inner

/-- What a token stands for: the text, or for a string what is between its quotes. -/
def value (token : Token) : String :=
  match token.kind with
  | .string => String.ofList (unquote token.text.toList)
  | _ => token.text

def display (token : Token) : String :=
  "Token(" ++ token.kind.name ++ ", " ++ Text.quoted token.text ++ ", " ++ toString token.line ++
    ":" ++ toString token.column ++ ")"

def endOfInput (line column offset : Nat) : Token :=
  .new .eof "" line column offset

end Token

end Lifeline
