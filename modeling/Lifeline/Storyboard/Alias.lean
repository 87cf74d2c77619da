import Lifeline.Token.Vocabulary

/-! Identifiers for names.

Generated text refers to an actor by an identifier that resembles its name. Names that resemble the
same identifier are told apart by a number, in the order in which the text mentions them. -/

set_option autoImplicit false

namespace Lifeline

/-- The identifier that a name resembles: characters that cannot be part of one become underscores,
and one is added before a first character that cannot be first and after a keyword. -/
def identifierLike (name : String) : String :=
  let kept := (Text.trim name.toList).map fun c => if Token.isIdentifierChar c then c else '_'
  let started := if kept.head?.any Token.isIdentifierStart then kept else '_' :: kept
  let base := String.ofList started
  if (Token.keyword? (Text.asciiLower base)).isSome then base.push '_' else base

def numbered (base : String) (count : Nat) : String :=
  if count = 0 then base else base ++ "_" ++ toString (count + 1)

/-- The first identifier to try that is not taken. Each one that is taken is struck off, so the
search ends. -/
def firstFree (base : String) (taken : List String) (count : Nat) : String :=
  if taken.contains (numbered base count) then
    firstFree base (taken.erase (numbered base count)) (count + 1)
  else numbered base count
termination_by taken.length
decreasing_by
  rename_i found
  have found : numbered base count ∈ taken := by simpa using found
  rw [List.length_erase_of_mem found]
  exact Nat.sub_lt (List.length_pos_of_mem found) Nat.one_pos

abbrev Aliases := List (String × String)

namespace Aliases

def assign (aliases : Aliases) (name : String) : Aliases :=
  match aliases.lookup name with
  | some _ => aliases
  | none => (name, firstFree (identifierLike name) (aliases.map Prod.snd) 0) :: aliases

def ofNames (names : List String) : Aliases := names.foldl assign []

def get (aliases : Aliases) (name : String) : String := (aliases.lookup name).getD name

end Aliases

end Lifeline
