import Lifeline.Diagram.Leaf
import Lifeline.Proofs.Diagram.Bare
import Lifeline.Proofs.Diagram.Stream

/-! Tokens that read alike.

Two runs of tokens read alike if they have the same kinds and texts, and blanks in the same places of
each line. Comments may say something else. After the end of a line, or of a diagram, the reader passes
over separators before it looks at anything, so any number of them can stand there. -/

set_option autoImplicit false

namespace Lifeline

def Diagnostic.content (issue : Diagnostic) : Diagnostic.Kind × String := (issue.kind, issue.message)

namespace Token

/-- Whether two tokens say the same. Of separators only the kind counts. -/
def Agrees (first second : Token) : Prop :=
  first.kind = second.kind ∧ (first.kind.isSeparator = false → first.text = second.text)

/-- Whether the next token stands on the same line and not right at an offset. -/
def apart (offset : Nat) (tokens : List Token) : Bool :=
  tokens.head?.any fun token => !token.kind.isSeparator && decide (offset < token.offset)

/-- Tokens after which all separators are passed over. -/
def Kind.rests (kind : Kind) : Bool := kind == .newline || kind == .endUml

theorem Kind.rests_eq_false {kinds : Kind → Bool} (newline : kinds .newline = false)
    (endUml : kinds .endUml = false) {kind : Kind} (goesOn : kinds kind = true) :
    kind.rests = false := by
  cases kind with
  | newline => exact absurd goesOn (newline ▸ Bool.false_ne_true)
  | endUml => exact absurd goesOn (endUml ▸ Bool.false_ne_true)
  | _ => rfl

theorem Kind.isSeparator_eq_false {kinds : Kind → Bool} (newline : kinds .newline = false)
    (comment : kinds .comment = false) {kind : Kind} (goesOn : kinds kind = true) :
    kind.isSeparator = false := by
  cases kind with
  | newline => exact absurd goesOn (newline ▸ Bool.false_ne_true)
  | comment => exact absurd goesOn (comment ▸ Bool.false_ne_true)
  | _ => rfl

theorem Kind.rests_of_isSeparator {kind : Kind} (solid : kind.isSeparator = false)
    (other : kind ≠ .endUml) : kind.rests = false := by
  cases kind with
  | newline => cases solid
  | endUml => exact absurd rfl other
  | _ => rfl

/-- Whether two runs of tokens read alike; `free` tells whether separators may differ at the start. -/
inductive Alike : Bool → List Token → List Token → Prop where
  | nil {free : Bool} : Alike free [] []
  | both {free : Bool} {first second : Token} {rest rest' : List Token} : first.Agrees second →
      (first.kind.rests = false → apart first.stop rest = apart second.stop rest') →
      Alike first.kind.rests rest rest' → Alike free (first :: rest) (second :: rest')
  | left {token : Token} {rest rest' : List Token} : token.kind.isSeparator = true →
      Alike true rest rest' → Alike true (token :: rest) rest'
  | right {token : Token} {rest rest' : List Token} : token.kind.isSeparator = true →
      Alike true rest rest' → Alike true rest (token :: rest')

variable {free : Bool} {first second : Token} {tokens tokens' rest rest' : List Token}

theorem Agrees.value (agrees : first.Agrees second) (solid : first.kind.isSeparator = false) :
    first.value = second.value := by
  rw [Token.value, Token.value, agrees.1, agrees.2 solid]

theorem Agrees.isSeparator (agrees : first.Agrees second) :
    second.kind.isSeparator = first.kind.isSeparator := by
  rw [agrees.1]

namespace Alike

theorem loosen (alike : Alike free tokens tokens') : Alike true tokens tokens' := by
  cases alike with
  | nil => exact .nil
  | both agrees gap later => exact .both agrees gap later
  | left separator later => exact .left separator later
  | right separator later => exact .right separator later

theorem symm (alike : Alike free tokens tokens') : Alike free tokens' tokens := by
  induction alike with
  | nil => exact .nil
  | @both _ first second _ _ agrees gap _ ih =>
    have kind := agrees.1
    refine .both ⟨kind.symm, fun solid => (agrees.2 (kind ▸ solid)).symm⟩ (fun rests => ?_) (kind ▸ ih)
    exact (gap (kind ▸ rests)).symm
  | left separator _ ih => exact .right separator ih
  | right separator _ ih => exact .left separator ih

theorem cases_head (alike : Alike false tokens tokens') :
    tokens = [] ∧ tokens' = [] ∨ ∃ first rest second rest', tokens = first :: rest ∧
      tokens' = second :: rest' ∧ first.Agrees second ∧
      (first.kind.rests = false → apart first.stop rest = apart second.stop rest') ∧
      Alike first.kind.rests rest rest' := by
  cases alike with
  | nil => exact .inl ⟨rfl, rfl⟩
  | both agrees gap later => exact .inr ⟨_, _, _, _, rfl, rfl, agrees, gap, later⟩

theorem dropSeparators (alike : Alike free tokens tokens') :
    Alike false (tokens.dropWhile (·.kind.isSeparator)) (tokens'.dropWhile (·.kind.isSeparator)) := by
  induction alike with
  | nil => exact .nil
  | @both _ first second _ _ agrees gap later ih =>
    simp only [List.dropWhile_cons, agrees.isSeparator]
    split
    · exact ih
    · exact .both agrees gap later
  | left separator _ ih => simpa only [List.dropWhile_cons, if_pos separator] using ih
  | right separator _ ih => simpa only [List.dropWhile_cons, if_pos separator] using ih

section Run

variable {kinds : Kind → Bool}

theorem dropWhile (newline : kinds .newline = false) (endUml : kinds .endUml = false)
    (alike : Alike false tokens tokens') :
    Alike false (tokens.dropWhile (kinds ·.kind)) (tokens'.dropWhile (kinds ·.kind)) := by
  generalize tight : false = free at alike
  induction alike with
  | nil => exact .nil
  | @both _ first second _ _ agrees gap later ih =>
    simp only [List.dropWhile_cons, ← agrees.1]
    split
    · rename_i goesOn
      have rests := Kind.rests_eq_false newline endUml goesOn
      rw [rests] at ih
      exact tight ▸ ih rfl
    · exact .both agrees gap later
  | left => cases tight
  | right => cases tight

theorem length_takeWhile (newline : kinds .newline = false) (endUml : kinds .endUml = false)
    (alike : Alike false tokens tokens') :
    (tokens.takeWhile (kinds ·.kind)).length = (tokens'.takeWhile (kinds ·.kind)).length := by
  generalize tight : false = free at alike
  induction alike with
  | nil => rfl
  | @both _ first second _ _ agrees gap later ih =>
    simp only [List.takeWhile_cons, ← agrees.1]
    split
    · rename_i goesOn
      exact congrArg (· + 1) (ih (Kind.rests_eq_false newline endUml goesOn).symm)
    · rfl
  | left => cases tight
  | right => cases tight

theorem joinFrom_eq (newline : kinds .newline = false) (comment : kinds .comment = false)
    (endUml : kinds .endUml = false) (alike : Alike false tokens tokens') {offset offset' : Nat}
    (gap : apart offset tokens = apart offset' tokens') :
    Stream.joinFrom offset (tokens.takeWhile (kinds ·.kind)) =
      Stream.joinFrom offset' (tokens'.takeWhile (kinds ·.kind)) := by
  generalize tight : false = free at alike
  induction alike generalizing offset offset' with
  | nil => rfl
  | @both _ first second _ _ agrees gap' later ih =>
    simp only [List.takeWhile_cons, ← agrees.1]
    split
    · rename_i goesOn
      have rests := Kind.rests_eq_false newline endUml goesOn
      have solid := Kind.isSeparator_eq_false newline comment goesOn
      have blank : (offset < first.offset) ↔ (offset' < second.offset) := by
        simpa [apart, solid, agrees.isSeparator] using gap
      rw [Stream.joinFrom, Stream.joinFrom, agrees.2 solid, ih (gap' rests) rests.symm]
      simp only [blank]
    · rfl
  | left => cases tight
  | right => cases tight

theorem join_cons_eq (kinds : Kind → Bool) (newline : kinds .newline = false)
    (comment : kinds .comment = false) (endUml : kinds .endUml = false) (agrees : first.Agrees second)
    (solid : first.kind.isSeparator = false) (gap : apart first.stop rest = apart second.stop rest')
    (later : Alike false rest rest') :
    Stream.join (first :: rest.takeWhile (kinds ·.kind)) =
      Stream.join (second :: rest'.takeWhile (kinds ·.kind)) := by
  have more := later.joinFrom_eq newline comment endUml gap
  have length := later.length_takeWhile newline endUml
  -- A single token stands for itself, without its quotes if it is a string.
  cases one : rest.takeWhile (kinds ·.kind) with
  | nil =>
    rw [one, List.length_nil, eq_comm, List.length_eq_zero_iff] at length
    rw [length]
    exact agrees.value solid
  | cons next run =>
    cases other : rest'.takeWhile (kinds ·.kind) with
    | nil => rw [one, other] at length; cases length
    | cons next' run' =>
      rw [one, other] at more
      rw [Stream.join, Stream.join, agrees.2 solid, more] <;> exact nofun

theorem join_eq (newline : kinds .newline = false) (comment : kinds .comment = false)
    (endUml : kinds .endUml = false) (alike : Alike false tokens tokens') :
    Stream.join (tokens.takeWhile (kinds ·.kind)) =
      Stream.join (tokens'.takeWhile (kinds ·.kind)) := by
  obtain ⟨rfl, rfl⟩ | ⟨first, rest, second, rest', rfl, rfl, agrees, gap, later⟩ := alike.cases_head
  · rfl
  simp only [List.takeWhile_cons, ← agrees.1]
  split
  · rename_i goesOn
    have rests := Kind.rests_eq_false newline endUml goesOn
    exact join_cons_eq kinds newline comment endUml agrees
      (Kind.isSeparator_eq_false newline comment goesOn) (gap rests) (rests ▸ later)
  · rfl

end Run

end Alike

end Token

/-! ## Streams -/

namespace Stream

open Token (Kind Kinds)

structure Alike (free : Bool) (first second : Stream) : Prop where
  ahead : Token.Alike free first.ahead second.ahead
  eof : first.eof.Agrees second.eof

namespace Alike

variable {free : Bool} {first second left left' : Stream}

theorem loosen (alike : first.Alike free second) : first.Alike true second :=
  { alike with ahead := alike.ahead.loosen }

theorem follow (alike : first.Alike free second) (follows : left.Follows first)
    (follows' : left'.Follows second) {free' : Bool}
    (ahead : Token.Alike free' left.ahead left'.ahead) : left.Alike free' left' where
  ahead := ahead
  eof := by
    rw [follows.eof_eq, follows'.eof_eq]
    exact alike.eof

end Alike

variable {free : Bool} {first second : Stream} {kinds : Kinds}

theorem alike_skip (newline : kinds .newline = false) (endUml : kinds .endUml = false)
    (alike : Alike false first second) : Alike false (first.skip kinds) (second.skip kinds) := by
  refine alike.follow (follows_skip _ _) (follows_skip _ _) ?_
  rw [ahead_skip_eq, ahead_skip_eq]
  exact alike.ahead.dropWhile newline endUml

theorem join_run_eq (newline : kinds .newline = false) (comment : kinds .comment = false)
    (endUml : kinds .endUml = false) (alike : Alike false first second) :
    join (first.run kinds) = join (second.run kinds) := by
  rw [run_eq_takeWhile, run_eq_takeWhile]
  exact alike.ahead.join_eq newline comment endUml

theorem alike_skipSeparators (alike : Alike free first second) :
    Alike false (first.skip separators) (second.skip separators) := by
  refine alike.follow (follows_skip _ _) (follows_skip _ _) ?_
  rw [ahead_skip_eq, ahead_skip_eq]
  exact alike.ahead.dropSeparators

theorem alike_skipLine (alike : Alike false first second) :
    Alike false first.skipLine second.skipLine :=
  alike_skip rfl rfl alike

theorem alike_synchronize (alike : Alike false first second) :
    Alike false first.synchronize second.synchronize :=
  alike_skip rfl rfl alike

theorem alike_restOfLine (alike : Alike false first second) :
    first.restOfLine.1 = second.restOfLine.1 ∧
      Alike false first.restOfLine.2 second.restOfLine.2 :=
  ⟨join_run_eq rfl rfl rfl alike, alike_skip rfl rfl alike⟩

theorem alike_label (alike : Alike false first second) :
    first.label.1 = second.label.1 ∧ Alike false first.label.2 second.label.2 :=
  ⟨join_run_eq rfl rfl rfl alike, alike_skip rfl rfl alike⟩

theorem agrees_peek (alike : Alike false first second) : first.peek.Agrees second.peek := by
  obtain ⟨nothing, nothing'⟩ | ⟨_, _, _, _, ahead, ahead', agrees, -, -⟩ := alike.ahead.cases_head
  · rw [peek_eq, peek_eq, nothing, nothing']
    exact alike.eof
  · rw [peek_of_ahead ahead, peek_of_ahead ahead']
    exact agrees

theorem alike_drop_one (alike : Alike false first second) (rests : first.peek.kind.rests = false) :
    Alike false (first.drop 1) (second.drop 1) := by
  refine alike.follow (follows_drop _ _) (follows_drop _ _) ?_
  obtain ⟨nothing, nothing'⟩ | ⟨_, _, _, _, ahead, ahead', -, -, later⟩ := alike.ahead.cases_head
  · rw [ahead_drop, ahead_drop, nothing, nothing']
    exact .nil
  · rw [peek_of_ahead ahead] at rests
    rwa [ahead_drop_one ahead, ahead_drop_one ahead', ← rests]

theorem atEnd_eq (alike : Alike false first second) : first.atEnd = second.atEnd := by
  rw [atEnd, atEnd, (agrees_peek alike).1]

theorem atKind_eq (alike : Alike false first second) (kind : Kind) :
    first.atKind kind = second.atKind kind := by
  rw [atKind, atKind, (agrees_peek alike).1]

theorem atWord_eq (alike : Alike false first second) (word : String) :
    first.atWord word = second.atWord word := by
  have agrees := agrees_peek alike
  rw [atWord, atWord, agrees.1]
  by_cases identifier : second.peek.kind = .identifier
  · rw [agrees.2 (by rw [agrees.1, identifier]; rfl)]
  · rw [beq_eq_false_iff_ne.2 identifier, Bool.false_and, Bool.false_and]

/-- After a kind of token that lines go on with, streams that were alike still are. -/
theorem alike_drop_of_atKind (alike : Alike false first second) {kind : Kind}
    (rests : kind.rests = false) (next : first.atKind kind = true) :
    Alike false (first.drop 1) (second.drop 1) := by
  refine alike_drop_one alike ?_
  rw [eq_of_beq next]
  exact rests

theorem alike_drop_of_atWord (alike : Alike false first second) {word : String}
    (next : first.atWord word = true) : Alike false (first.drop 1) (second.drop 1) := by
  refine alike_drop_one alike ?_
  rw [eq_of_beq (Bool.and_eq_true_iff.1 next).1]
  rfl

theorem name?_cases (alike : Alike false first second) :
    first.name? = none ∧ second.name? = none ∨ ∃ token left token' left',
      first.name? = some (token, left) ∧ second.name? = some (token', left') ∧
        token.value = token'.value ∧ Alike false left left' := by
  obtain ⟨nothing, nothing'⟩ | ⟨token, rest, token', rest', ahead, ahead', agrees, -, -⟩ :=
    alike.ahead.cases_head
  · exact .inl ⟨name?_of_nil nothing, name?_of_nil nothing'⟩
  · by_cases name : token.kind.isName = true
    · have solid := Kind.isSeparator_eq_false (by rfl) (by rfl) name
      have rests := Kind.rests_eq_false (by rfl) (by rfl) name
      refine .inr ⟨token, first.drop 1, token', second.drop 1, name?_of_ahead ahead name,
        name?_of_ahead ahead' (agrees.1 ▸ name), agrees.value solid, ?_⟩
      refine alike_drop_one alike ?_
      rwa [peek_of_ahead ahead]
    · have other : token.kind.isName = false := by simpa using name
      exact .inl ⟨name?_of_not_isName ahead other, name?_of_not_isName ahead' (agrees.1 ▸ other)⟩

end Stream

end Lifeline
