import Lifeline.Token.Basic

/-! The fixed spellings of the language: keywords, arrows and the characters of names. -/

set_option autoImplicit false

namespace Lifeline.Token

/-- Keywords in lower case. Source may write them in any case. -/
def keywords : List (String × Kind) :=
  [("@startuml", .startUml), ("@enduml", .endUml),
   ("participant", .participant .participant), ("actor", .participant .actor),
   ("boundary", .participant .boundary), ("control", .participant .control),
   ("entity", .participant .entity), ("database", .participant .database),
   ("collections", .participant .collections), ("queue", .participant .queue),
   ("title", .title), ("note", .note), ("autonumber", .autonumber), ("activate", .activate),
   ("deactivate", .deactivate), ("skinparam", .skinparam),
   ("alt", .opener .alt), ("else", .elseMark), ("also", .alsoMark), ("end", .endMark),
   ("loop", .opener .loop), ("par", .opener .par), ("opt", .opener .opt),
   ("break", .opener .breakOut), ("critical", .opener .critical), ("group", .opener .group)]

def keyword? (word : String) : Option Kind :=
  keywords.lookup word

inductive ArrowClass where
  | sync | async | reply | reverse | lost | found
  deriving DecidableEq, Repr

def ArrowClass.word : ArrowClass → String
  | .sync => "sync"
  | .async => "async"
  | .reply => "return"
  | .reverse => "reverse"
  | .lost => "lost"
  | .found => "found"

def arrows : List (String × ArrowClass) :=
  [("->", .sync), ("->>", .sync), ("-->", .async), ("-->>", .async), ("<<-", .reply),
   ("<<--", .reply), ("<-", .reverse), ("<--", .reverse), ("-\\", .lost), ("--\\", .lost),
   ("/-", .found), ("/--", .found)]

def arrowClass? (text : String) : Option ArrowClass :=
  arrows.lookup text

def isJapanese (c : Char) : Bool :=
  let code := c.toNat
  (0x3040 ≤ code && code ≤ 0x30FF) || (0x4E00 ≤ code && code ≤ 0x9FAF)

def isIdentifierStart (c : Char) : Bool :=
  c.isAlpha || c == '_' || isJapanese c

def isIdentifierChar (c : Char) : Bool :=
  c.isAlpha || c.isDigit || c == '_' || isJapanese c

theorem isIdentifierChar_of_start {c : Char} (start : isIdentifierStart c = true) :
    isIdentifierChar c = true := by
  simp only [isIdentifierStart, isIdentifierChar, Bool.or_eq_true] at start ⊢
  rcases start with (letter | underscore) | japanese
  · exact .inl (.inl (.inl letter))
  · exact .inl (.inr underscore)
  · exact .inr japanese

end Lifeline.Token
