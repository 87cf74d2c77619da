import Lifeline.Storyboard.Basic
import Lifeline.Storyboard.Alias
import Lifeline.Text.Lines

/-! Source text for a storyboard.

Actors are declared with their names in quotes, and all references use their identifiers. Free text
is written so that it cannot be taken for anything else: on one line, its quotes as apostrophes, and
with nothing in it that opens a comment. -/

set_option autoImplicit false

namespace Lifeline

namespace Render

def withoutQuotes (text : List Char) : List Char :=
  text.map fun c => if c = '"' then '\'' else c

def withoutComments : List Char → List Char
  | [] => []
  | '/' :: '\'' :: rest => '/' :: ' ' :: '\'' :: withoutComments rest
  | c :: rest => c :: withoutComments rest

def inert (text : List Char) : List Char :=
  withoutComments (withoutQuotes (Text.collapse text))

/-- The body line of a note: an apostrophe at its start would open a comment. -/
def noteLine (line : List Char) : List Char :=
  match inert line with
  | '\'' :: rest => '\u2019' :: rest
  | line => line

structure Line where
  depth : Nat
  text : String
  deriving DecidableEq, Repr

def Line.write (line : Line) : String :=
  String.ofList (List.replicate (2 * line.depth) ' ') ++ line.text ++ "\n"

def labelled (keyword label : String) : String :=
  let label := inert label.toList
  if label.isEmpty then keyword else keyword ++ " " ++ String.ofList label

inductive Placement where
  | near (words : String) (names : List String)
  | plain (words : String)
  deriving DecidableEq, Repr

def placements : List String := ["left of ", "right of ", "over "]

def Placement.ofPosition (position : String) : Placement :=
  let position := Text.trim position.toList
  let lower := position.map Char.toLower
  match placements.find? fun words => words.toList.isPrefixOf lower with
  | some words =>
    let names := Text.split (· == ',') (position.drop words.length)
    .near words (names.map fun name => String.ofList (Text.trim name))
  | none => .plain (String.ofList lower)

def Placement.names : Placement → List String
  | .near _ names => names
  | .plain _ => []

def Placement.write (aliases : Aliases) : Placement → String
  | .near words names => words ++ ", ".intercalate (names.map aliases.get)
  | .plain words => words

mutual

/-- The names that an action mentions, in the order in which its text does. -/
def mentions : Action → List String
  | .message source target _ => [source, target]
  | .activation actor => [actor]
  | .deactivation actor => [actor]
  | .note position _ => (Placement.ofPosition position).names
  | .alt _ whenTrue whenFalse _ => mentionsAll whenTrue ++ mentionsAll whenFalse
  | .loop _ actions => mentionsAll actions
  | .par branches => mentionsBranches branches
  | .opt _ actions => mentionsAll actions

def mentionsAll : List Action → List String
  | [] => []
  | action :: rest => mentions action ++ mentionsAll rest

def mentionsBranches : List (List Action) → List String
  | [] => []
  | branch :: rest => mentionsAll branch ++ mentionsBranches rest

end

def messageLine (source target : String) (text : List Char) : String :=
  let arrow := source ++ " -> " ++ target
  let text := inert text
  if text.isEmpty then arrow else arrow ++ " : " ++ String.ofList text

def noteLines (depth : Nat) (position : String) (text : List Char) : List Line :=
  let head := if position.isEmpty then "note" else "note " ++ position
  if text.contains '\n' then
    ⟨depth, head⟩ :: (Text.lines text).map (fun line => ⟨depth + 1, String.ofList (noteLine line)⟩) ++
      [⟨depth, "end note"⟩]
  else [⟨depth, head ++ " : " ++ String.ofList (inert text)⟩]

def isBlankLabel (label : String) : Bool := (Text.trim label.toList).isEmpty

mutual

def actionLines (aliases : Aliases) (depth : Nat) : Action → List Line
  | .message source target text =>
    [⟨depth, messageLine (aliases.get source) (aliases.get target) text.toList⟩]
  | .activation actor => [⟨depth, "activate " ++ aliases.get actor⟩]
  | .deactivation actor => [⟨depth, "deactivate " ++ aliases.get actor⟩]
  | .note position text =>
    noteLines depth ((Placement.ofPosition position).write aliases) text.toList
  | .alt condition whenTrue whenFalse otherwise =>
    ⟨depth, labelled "alt" condition⟩ :: actionsLines aliases (depth + 1) whenTrue ++
      elseLines aliases depth otherwise whenFalse ++ [⟨depth, "end"⟩]
  | .loop condition actions =>
    ⟨depth, labelled "loop" condition⟩ :: actionsLines aliases (depth + 1) actions ++
      [⟨depth, "end"⟩]
  | .opt condition actions =>
    ⟨depth, labelled "opt" condition⟩ :: actionsLines aliases (depth + 1) actions ++
      [⟨depth, "end"⟩]
  | .par branches => ⟨depth, "par"⟩ :: branchLines aliases depth branches ++ [⟨depth, "end"⟩]

def actionsLines (aliases : Aliases) (depth : Nat) : List Action → List Line
  | [] => []
  | action :: rest => actionLines aliases depth action ++ actionsLines aliases depth rest

/-- The false branch of an alternative. An unlabelled one that holds nothing but an alternative goes
on as further branches, if that one has a second branch itself; without one it would be taken for
the second branch of the outer one. -/
def elseLines (aliases : Aliases) (depth : Nat) (label : String) : List Action → List Line
  | [] => if isBlankLabel label then [] else [⟨depth, labelled "else" label⟩]
  | action :: rest =>
    match action, rest with
    | .alt condition whenTrue whenFalse otherwise, [] =>
      if isBlankLabel label && (!whenFalse.isEmpty || !isBlankLabel otherwise) then
        ⟨depth, labelled "else" condition⟩ :: actionsLines aliases (depth + 1) whenTrue ++
          elseLines aliases depth otherwise whenFalse
      else
        ⟨depth, labelled "else" label⟩ ::
          actionLines aliases (depth + 1) (.alt condition whenTrue whenFalse otherwise)
    | action, rest =>
      ⟨depth, labelled "else" label⟩ :: actionLines aliases (depth + 1) action ++
        actionsLines aliases (depth + 1) rest

def branchLines (aliases : Aliases) (depth : Nat) : List (List Action) → List Line
  | [] => []
  | branch :: rest => actionsLines aliases (depth + 1) branch ++ laterBranchLines aliases depth rest

def laterBranchLines (aliases : Aliases) (depth : Nat) : List (List Action) → List Line
  | [] => []
  | branch :: rest =>
    ⟨depth, "else"⟩ :: actionsLines aliases (depth + 1) branch ++ laterBranchLines aliases depth rest

end

def titleLines (title : Option String) : List Line :=
  match inert ((title.getD "").toList) with
  | [] => []
  | text => [⟨0, "title " ++ String.ofList text⟩]

def actorLine (aliases : Aliases) (name : String) : Line :=
  let shown := withoutQuotes (Text.collapse name.toList)
  ⟨0, "actor \"" ++ String.ofList shown ++ "\" as " ++ aliases.get name⟩

def gapLines (board : Storyboard) : List Line :=
  if board.actors.names.isEmpty || board.actions.isEmpty then [] else [⟨0, ""⟩]

end Render

namespace Storyboard

def aliases (board : Storyboard) : Aliases :=
  .ofNames (board.actors.names ++ Render.mentionsAll board.actions)

def lines (board : Storyboard) : List Render.Line :=
  ⟨0, "@startuml"⟩ :: Render.titleLines board.title ++
    board.actors.names.map (Render.actorLine board.aliases) ++ Render.gapLines board ++
    Render.actionsLines board.aliases 0 board.actions

def render (board : Storyboard) : String :=
  String.join (board.lines.map Render.Line.write) ++ "@enduml"

end Storyboard

end Lifeline
