import Lifeline.Proofs.Diagram.Alike
import Lifeline.Proofs.Diagram.Leaf

/-! Single statements that read alike.

From streams that read alike every reading gives the same statement, up to its place, the same report,
and leaves streams that read alike. -/

set_option autoImplicit false

namespace Lifeline.Leaf

open Lifeline.Stream (agrees_peek atEnd_eq atKind_eq atWord_eq name?_cases alike_skipLine alike_restOfLine
  alike_drop_of_atKind alike_drop_of_atWord)

structure Alike (first second : Leaf) : Prop where
  statement : first.statement.map Statement.bare = second.statement.map Statement.bare
  issue : first.issue.map Diagnostic.content = second.issue.map Diagnostic.content
  left : first.left.Alike false second.left

variable {first second : Stream} {keyword keyword' : Token}

theorem alike_fail (message : String) (alike : first.Alike false second) :
    (fail message first).Alike (fail message second) :=
  ⟨rfl, rfl, alike_skipLine alike⟩

theorem alike_nickname (alike : first.Alike false second) :
    (nickname first).1 = (nickname second).1 ∧
      (nickname first).2.1.map Diagnostic.content = (nickname second).2.1.map Diagnostic.content ∧
      (nickname first).2.2.Alike false (nickname second).2.2 := by
  unfold nickname
  rw [← atWord_eq alike]
  split
  · rename_i next
    have later := alike_drop_of_atWord alike next
    dsimp only
    obtain ⟨none, none'⟩ | ⟨token, left, token', left', found, found', value, left_alike⟩ :=
      name?_cases later
    · rw [none, none']
      exact ⟨rfl, rfl, later⟩
    · rw [found, found']
      exact ⟨congrArg some value, rfl, left_alike⟩
  · exact ⟨rfl, rfl, alike⟩

theorem alike_participant (role : Role) (alike : first.Alike false second) :
    (participant role keyword first).Alike (participant role keyword' second) := by
  unfold participant
  obtain ⟨none, none'⟩ | ⟨token, left, token', left', found, found', value, left_alike⟩ :=
    name?_cases alike
  · rw [none, none']
    exact alike_fail _ alike
  · rw [found, found']
    obtain ⟨short, issue, rest⟩ := alike_nickname left_alike
    refine ⟨?_, issue, alike_skipLine rest⟩
    dsimp only [Option.map, Statement.bare]
    rw [value, short]

theorem alike_message {sender sender' : Token} (agrees : sender.Agrees sender')
    (alike : first.Alike false second) :
    (message sender first).Alike (message sender' second) := by
  unfold message
  rw [← agrees.1, ← atKind_eq alike]
  split
  · rename_i name
    have solid := Token.Kind.isSeparator_eq_false (by rfl) (by rfl) name
    split
    · rename_i next
      have later := alike_drop_of_atKind alike rfl next
      have arrow : first.peek.text = second.peek.text :=
        (agrees_peek alike).2 (by rw [eq_of_beq next]; rfl)
      dsimp only
      obtain ⟨none, none'⟩ | ⟨token, left, token', left', found, found', value, left_alike⟩ :=
        name?_cases later
      · rw [none, none']
        exact alike_fail _ later
      · rw [found, found', ← arrow]
        dsimp only
        rw [← atKind_eq left_alike]
        split
        · rename_i colon
          obtain ⟨text, rest⟩ := alike_restOfLine (alike_drop_of_atKind left_alike rfl colon)
          refine ⟨?_, rfl, rest⟩
          dsimp only [Option.map, Statement.bare]
          rw [agrees.value solid, value, text]
        · refine ⟨?_, rfl, left_alike⟩
          dsimp only [Option.map, Statement.bare]
          rw [agrees.value solid, value]
    · exact alike_fail _ alike
  · exact ⟨rfl, rfl, Stream.alike_synchronize alike⟩

theorem alike_title (alike : first.Alike false second) :
    (title keyword first).Alike (title keyword' second) := by
  obtain ⟨text, rest⟩ := alike_restOfLine alike
  exact ⟨congrArg (fun text => some (Statement.title text .none)) text, rfl, rest⟩

theorem alike_autonumber (alike : first.Alike false second) :
    (autonumber keyword first).Alike (autonumber keyword' second) := by
  unfold autonumber
  dsimp only
  rw [← atKind_eq alike]
  split
  · rename_i next
    have text : first.peek.text = second.peek.text :=
      (agrees_peek alike).2 (by rw [eq_of_beq next]; rfl)
    rw [← text]
    refine ⟨rfl, rfl, alike_skipLine ?_⟩
    split
    · exact alike_drop_of_atKind alike rfl next
    · exact alike
  · exact ⟨rfl, rfl, alike_skipLine alike⟩

theorem alike_onName (missing : String) (statement : String → Span → Statement)
    (bare : ∀ target span, (statement target span).bare = statement target .none)
    (alike : first.Alike false second) :
    (onName missing statement keyword first).Alike (onName missing statement keyword' second) := by
  unfold onName
  obtain ⟨none, none'⟩ | ⟨token, left, token', left', found, found', value, left_alike⟩ :=
    name?_cases alike
  · rw [none, none']
    exact alike_fail _ alike
  · rw [found, found']
    refine ⟨?_, rfl, left_alike⟩
    rw [Option.map_some, Option.map_some, bare, bare, value]

/-! ## Notes -/

theorem exists_further {comma name : Token} {rest : List Token}
    (ahead : first.ahead = comma :: name :: rest) (further : Further comma name)
    (alike : Token.Alike false first.ahead second.ahead) :
    ∃ comma' name' rest', second.ahead = comma' :: name' :: rest' ∧ Further comma' name' ∧
      name.value = name'.value ∧ Token.Alike false rest rest' := by
  have rests : comma.kind.rests = false := by rw [further.1]; rfl
  have rests' := Token.Kind.rests_eq_false (by rfl) (by rfl) further.2
  have solid := Token.Kind.isSeparator_eq_false (by rfl) (by rfl) further.2
  rw [ahead] at alike
  generalize second.ahead = tokens' at alike
  cases alike with
  | @both _ _ comma' _ _ agrees _ later =>
    rw [rests] at later
    cases later with
    | @both _ _ name' _ rest' agrees' _ later =>
      rw [rests'] at later
      exact ⟨comma', name', rest', rfl, ⟨agrees.1 ▸ further.1, agrees'.1 ▸ further.2⟩,
        agrees'.value solid, later⟩

theorem alike_furtherNames (alike : first.Alike false second) :
    (furtherNames first).1.map Token.value = (furtherNames second).1.map Token.value ∧
      (furtherNames first).2.Alike false (furtherNames second).2 := by
  induction first using furtherNames.induct generalizing second with
  | case1 first listed names left result ih =>
    obtain ⟨comma, name, rest, ahead, further, -⟩ := further_of_listed listed
    obtain ⟨comma', name', rest', ahead', further', value, later⟩ :=
      exists_further ahead further alike.ahead
    have behind : (first.drop 2).Alike false (second.drop 2) := by
      refine alike.follow (Stream.follows_drop _ _) (Stream.follows_drop _ _) ?_
      rwa [Stream.ahead_drop, Stream.ahead_drop, ahead, ahead']
    obtain ⟨values, left⟩ := ih behind
    rw [furtherNames_of_further ahead further, furtherNames_of_further ahead' further',
      List.map_cons, List.map_cons, value, values]
    exact ⟨rfl, left⟩
  | case2 first stops =>
    -- If one stream goes on with no further name, neither does the other.
    have none : ∀ comma name rest, first.ahead = comma :: name :: rest → ¬Further comma name := by
      intro comma name rest ahead further
      rw [Stream.atKind_of_ahead ahead, Stream.peekAt_one ahead, further.1] at stops
      exact stops (by simpa using further.2)
    rw [furtherNames_eq_nil none, furtherNames_eq_nil]
    · exact ⟨rfl, alike⟩
    · intro comma' name' rest' ahead' further
      obtain ⟨comma, name, rest, ahead, further', -⟩ :=
        exists_further ahead' further alike.ahead.symm
      exact none comma name rest ahead further'

theorem alike_targets (alike : first.Alike false second) :
    (targets first).1 = (targets second).1 ∧ (targets first).2.Alike false (targets second).2 := by
  unfold targets
  obtain ⟨none, none'⟩ | ⟨token, left, token', left', found, found', value, left_alike⟩ :=
    name?_cases alike
  · rw [none, none']
    exact ⟨rfl, alike⟩
  · rw [found, found']
    obtain ⟨values, rest⟩ := alike_furtherNames left_alike
    dsimp only
    rw [List.map_cons, List.map_cons, value, values]
    exact ⟨rfl, rest⟩

theorem alike_placement (alike : first.Alike false second) :
    (placement first).1 = (placement second).1 ∧
      (placement first).2.Alike false (placement second).2 := by
  unfold placement
  rw [← atWord_eq alike, ← atWord_eq alike, ← atWord_eq alike]
  split
  · rename_i side
    have later : (first.drop 1).Alike false (second.drop 1) := by
      rcases Bool.or_eq_true_iff.1 side with left | right
      · exact alike_drop_of_atWord alike left
      · exact alike_drop_of_atWord alike right
    have behind : (if (first.drop 1).atWord "of" then (first.drop 1).drop 1
        else first.drop 1).Alike false (if (second.drop 1).atWord "of" then (second.drop 1).drop 1
        else second.drop 1) := by
      rw [← atWord_eq later]
      split
      · rename_i next
        exact alike_drop_of_atWord later next
      · exact later
    obtain ⟨target, rest⟩ := alike_targets behind
    dsimp only
    exact ⟨congrArg (fun target => some (_, target)) target, rest⟩
  · split
    · rename_i above
      obtain ⟨target_eq, rest⟩ := alike_targets (alike_drop_of_atWord alike above)
      generalize targets (first.drop 1) = one at *
      generalize targets (second.drop 1) = other at *
      obtain ⟨_ | target, left⟩ := one <;> obtain ⟨_ | target', left'⟩ := other <;>
        cases target_eq <;> exact ⟨rfl, rest⟩
    · exact ⟨rfl, alike⟩

/-- The token behind an `end` is looked at, but not for its place. -/
theorem atEndNote_eq (alike : first.Alike false second) : atEndNote first = atEndNote second := by
  unfold atEndNote
  by_cases mark : first.atKind .endMark = true
  · have inside : first.peek.kind ≠ .eof := by
      rw [eq_of_beq mark]
      decide
    rw [Stream.peekAt_one_eq inside, Stream.peekAt_one_eq ((agrees_peek alike).1 ▸ inside),
      (agrees_peek (alike_drop_of_atKind alike rfl mark)).1, atKind_eq alike]
  · rw [← atKind_eq alike, Bool.eq_false_iff.2 mark, Bool.false_and, Bool.false_and]

theorem alike_drop_of_atEndNote (alike : first.Alike false second) (closes : atEndNote first = true) :
    (first.drop 2).Alike false (second.drop 2) := by
  obtain ⟨mark, note⟩ := Bool.and_eq_true_iff.1 closes
  have inside : first.peek.kind ≠ .eof := by
    rw [eq_of_beq mark]
    decide
  rw [Stream.peekAt_one_eq inside] at note
  rw [← Stream.drop_drop _ 1 1, ← Stream.drop_drop _ 1 1]
  exact alike_drop_of_atKind (alike_drop_of_atKind alike rfl mark) (by rfl) note

theorem alike_noteBody {free : Bool} (alike : first.Alike free second) :
    (noteBody first).1 = (noteBody second).1 ∧
      (noteBody first).2.Alike false (noteBody second).2 := by
  fun_induction noteBody first generalizing second free with
  | case1 first line =>
    rename_i ends
    have passed : line.Alike false second.skipSeparators := Stream.alike_skipSeparators alike
    rw [atEnd_eq passed, atKind_eq passed] at ends
    rw [noteBody_of_ends ends]
    exact ⟨rfl, passed⟩
  | case2 first line inside =>
    rename_i closes
    have passed : line.Alike false second.skipSeparators := Stream.alike_skipSeparators alike
    rw [atEnd_eq passed, atKind_eq passed] at inside
    rw [noteBody_of_atEndNote inside (atEndNote_eq passed ▸ closes)]
    exact ⟨rfl, alike_drop_of_atEndNote passed closes⟩
  | case3 first line inside opens lines left result =>
    rename_i ih
    have passed : line.Alike false second.skipSeparators := Stream.alike_skipSeparators alike
    obtain ⟨text, rest⟩ := alike_restOfLine passed
    rw [atEnd_eq passed, atKind_eq passed] at inside
    rw [atEndNote_eq passed] at opens
    obtain ⟨same, left⟩ := ih rest
    rw [result] at same left
    rw [noteBody_of_line inside opens, text]
    exact ⟨congrArg (Option.map (second.skipSeparators.restOfLine.1 :: ·)) same, left⟩

theorem alike_note (alike : first.Alike false second) :
    (note keyword first).Alike (note keyword' second) := by
  obtain ⟨placed, rest⟩ := alike_placement alike
  unfold note
  generalize placement first = one at *
  generalize placement second = other at *
  obtain ⟨_ | ⟨side, target⟩, first⟩ := one <;> obtain ⟨_ | ⟨side', target'⟩, second⟩ := other <;>
    cases placed
  · exact alike_fail _ rest
  · dsimp only at rest ⊢
    rw [← atKind_eq rest, ← (agrees_peek rest).1]
    split
    · rename_i colon
      obtain ⟨text, left⟩ := alike_restOfLine (alike_drop_of_atKind rest rfl colon)
      refine ⟨?_, rfl, left⟩
      dsimp only [Option.map, Statement.bare]
      rw [text]
    · split
      · obtain ⟨lines, left⟩ := alike_noteBody rest
        generalize noteBody first = one at *
        generalize noteBody second = other at *
        obtain ⟨_ | lines, first⟩ := one <;> obtain ⟨_ | lines', second⟩ := other <;> cases lines
        · exact alike_fail _ left
        · exact ⟨rfl, rfl, left⟩
      · exact alike_fail _ rest

end Lifeline.Leaf
