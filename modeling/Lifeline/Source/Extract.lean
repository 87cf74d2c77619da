import Lifeline.Text.Lines
import Lifeline.Text.Word
import Lifeline.Storyboard.Projection

/-! Actors and messages found line by line, without regard to the grammar.

A line declares an actor where `actor "Name"` stands in it, and carries a message where
`A -> B : text` does; the leftmost place counts, and all else is passed over. -/

set_option autoImplicit false

namespace Lifeline

structure ExtractedMessage where
  source : String
  target : String
  text : String
  deriving DecidableEq, Repr

structure Extracted where
  actors : Roster
  messages : List ExtractedMessage
  nicknames : Nicknames

namespace Extract

open Text (after? skipBlanks)

def afterBlanks? : List Char → Option (List Char)
  | [] => none
  | c :: rest => if Text.isBlank c then some (skipBlanks rest) else none

def word? (text : List Char) : Option (List Char × List Char) :=
  let word := text.takeWhile Text.isWord
  if word.isEmpty then none else some (word, text.dropWhile Text.isWord)

def nickname? (text : List Char) : Option (List Char) := do
  let text ← afterBlanks? text
  let text ← afterBlanks? (← after? ['a', 's'] text)
  return (← word? text).1

def actor? (text : List Char) : Option (String × Option String) := do
  let text ← afterBlanks? (← after? "actor".toList text)
  let text ← after? ['"'] text
  let name := text.takeWhile (· != '"')
  if name.isEmpty then none
  else
    let text ← after? ['"'] (text.dropWhile (· != '"'))
    return (String.ofList name, (nickname? text).map String.ofList)

/-- A message at the start of a text. Something has to follow its colon, if only a blank. -/
def message? (text : List Char) : Option ExtractedMessage := do
  let (source, text) ← word? text
  let text ← after? ['-', '>'] (skipBlanks text)
  let (target, text) ← word? (skipBlanks text)
  let text ← after? [':'] (skipBlanks text)
  if text.isEmpty then none
  else return ⟨String.ofList source, String.ofList target, String.ofList (Text.trim text)⟩

def leftmost? {α : Type} (search : List Char → Option α) : List Char → Option α
  | [] => search []
  | c :: rest => (search (c :: rest)).or (leftmost? search rest)

end Extract

namespace Extracted

def empty : Extracted := ⟨.empty, [], []⟩

def isEmpty (extracted : Extracted) : Bool :=
  extracted.actors.names.isEmpty && extracted.messages.isEmpty

/-- Takes over what a line holds. The ends of a message can be nicknames declared before. -/
def addLine (extracted : Extracted) (line : List Char) : Extracted :=
  match Extract.leftmost? Extract.actor? line with
  | some (name, nickname) =>
    { extracted with
      actors := extracted.actors.insert name
      nicknames := (nickname.map (·, name)).toList ++ extracted.nicknames }
  | none =>
    match Extract.leftmost? Extract.message? line with
    | some message =>
      let source := extracted.nicknames.resolve message.source
      let target := extracted.nicknames.resolve message.target
      { extracted with
        actors := (extracted.actors.insert source).insert target
        messages := extracted.messages ++ [⟨source, target, message.text⟩] }
    | none => extracted

def document (extracted : Extracted) : Document :=
  let participants := extracted.actors.names.map fun name =>
    Statement.participant .actor name none .none
  let messages := extracted.messages.map fun message =>
    Statement.message message.source message.target message.text "->" false false .none
  ⟨[⟨participants ++ messages, .none, true⟩], .none⟩

end Extracted

def extract (source : String) : Extracted :=
  (Text.lines source.toList).foldl Extracted.addLine .empty

end Lifeline
