import Lifeline.Storyboard.Basic
import Lifeline.Token.Vocabulary
import Lifeline.Diagram.Walk

/-! From documents to storyboards.

Nicknames are replaced by the names that they stand for, wherever in the document they are declared;
the last declaration counts. An alternative with more than two branches nests its later branches in
the false branch. -/

set_option autoImplicit false

namespace Lifeline

structure Projection where
  actors : Roster
  actions : List Action
  title : Option String
  deriving DecidableEq

/-- What nicknames stand for, newest declaration first. -/
abbrev Nicknames := List (String × String)

def Nicknames.resolve (nicknames : Nicknames) (name : String) : String :=
  (nicknames.lookup name).getD name

def Nicknames.resolveAll (nicknames : Nicknames) (names : String) : String :=
  let pieces := Text.split (· == ',') names.toList
  ", ".intercalate (pieces.map fun piece => nicknames.resolve (String.ofList (Text.trim piece)))

def notePosition (nicknames : Nicknames) (side : NoteSide) : Option String → String
  | none => side.word
  | some target =>
    match side with
    | .over => "over " ++ nicknames.resolveAll target
    | side => side.word ++ " of " ++ nicknames.resolveAll target

mutual

def Statement.action? (nicknames : Nicknames) : Statement → Option Action
  | .message source target text arrow _ _ _ =>
    let (source, target) := (nicknames.resolve source, nicknames.resolve target)
    if Token.arrowClass? arrow = some .reverse then some (.message target source text)
    else some (.message source target text)
  | .activation target _ => some (.activation (nicknames.resolve target))
  | .deactivation target _ => some (.deactivation (nicknames.resolve target))
  | .note text target side _ => some (.note (notePosition nicknames side target) text)
  | .alternative _ branches _ => alternativeAction? nicknames branches
  | .loop condition statements _ => some (.loop condition (actionsOf nicknames statements))
  | .optional condition statements _ => some (.opt condition (actionsOf nicknames statements))
  | .parallel branches _ => some (.par (branchActions nicknames branches))
  | .participant .. | .title .. | .autonumber .. | .error .. => none

def actionsOf (nicknames : Nicknames) : List Statement → List Action
  | [] => []
  | statement :: rest => (statement.action? nicknames).toList ++ actionsOf nicknames rest

/-- Two branches become the true and the false one; a third and later ones nest. -/
def alternativeAction? (nicknames : Nicknames) : List Branch → Option Action
  | [] => none
  | .mk condition statements _ :: rest =>
    match rest with
    | [] => some (.alt condition (actionsOf nicknames statements) [] "")
    | [.mk otherwise statements' _] =>
      some (.alt condition (actionsOf nicknames statements) (actionsOf nicknames statements') otherwise)
    | second :: third :: more =>
      some (.alt condition (actionsOf nicknames statements)
        (alternativeAction? nicknames (second :: third :: more)).toList "")

def branchActions (nicknames : Nicknames) : List Branch → List (List Action)
  | [] => []
  | .mk _ statements _ :: rest => actionsOf nicknames statements :: branchActions nicknames rest

end

namespace Document

def nicknames (document : Document) : Nicknames :=
  (document.nodes.filterMap fun node =>
    match node.statement with
    | some (.participant _ name (some nickname) _) => some (nickname, name)
    | _ => none).reverse

def declared (document : Document) : List String :=
  document.nodes.filterMap fun node =>
    match node.statement with
    | some (.participant _ name _ _) => some name
    | _ => none

def endpoints (document : Document) : List String :=
  document.nodes.flatMap fun node =>
    match node.statement with
    | some (.message source target ..) => [source, target]
    | _ => []

def titles (document : Document) : List String :=
  document.nodes.filterMap fun node =>
    match node.statement with
    | some (.title text _) => some text
    | _ => none

/-- What a document shows. Declared actors come before those that only messages name. -/
def project (document : Document) : Projection :=
  let nicknames := document.nicknames
  { actors := .ofList (document.declared ++ document.endpoints.map nicknames.resolve)
    actions := actionsOf nicknames document.statements
    title := document.titles.getLast? }

end Document

/-- Replaces all of a storyboard but its mode. -/
def Projection.onto (projection : Projection) (board : Storyboard) : Storyboard :=
  { board with
    actors := projection.actors
    actions := projection.actions
    title := projection.title }

end Lifeline
