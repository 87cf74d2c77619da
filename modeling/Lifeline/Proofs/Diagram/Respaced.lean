import Lifeline.Diagram.Stream
import Lifeline.Proofs.Diagram.Leaf
import Lifeline.Proofs.Token.Cuts

/-! What consecutive tokens are joined to.

Between two tokens of a source there is nothing or there are blanks, and joining the tokens writes one
space wherever there are blanks. So the joined text is the piece of the source that the tokens stand in,
with each of its gaps narrowed to a space. A string on its own is written without its quotes. -/

set_option autoImplicit false

namespace Lifeline

open Token (Lexeme placed spelled)

/-- Whether a text is a piece of a source, from the first of some tokens to the last, with one space for
the blanks of every gap between two of them. -/
inductive Respaced : List Token → List Char → List Char → Prop where
  | one (token : Token) : Respaced [token] token.text.toList token.text.toList
  | cons (token : Token) {next : Token} {rest : List Token} (gap : List Char)
      {slice text : List Char} : (∀ c ∈ gap, Lexeme.isSpace c = true) →
      next.offset = token.stop + Text.byteSize gap → Respaced (next :: rest) slice text →
      Respaced (token :: next :: rest) (token.text.toList ++ gap ++ slice)
        (token.text.toList ++ (if gap = [] then [] else [' ']) ++ text)

/-- Whether a text is what a run of tokens says: nothing for no tokens, the inside of a string for a string
alone, and otherwise the piece of the source from the first token to the last, each gap one space. -/
def Says (source : List Char) (run : List Token) (text : String) : Prop :=
  (run = [] ∧ text = "") ∨
  (∃ token, run = [token] ∧ token.kind = .string ∧
    token.text.toList = '"' :: (text.toList ++ ['"'])) ∨
  ((∀ token, run = [token] → token.kind ≠ .string) ∧
    ∃ before slice after, source = before ++ slice ++ after ∧ Respaced run slice text.toList ∧
      (∀ first ∈ run.head?, first.offset = Text.byteSize before) ∧
      ∀ last ∈ run.getLast?, last.stop = Text.byteSize (before ++ slice))

theorem toList_joinFrom (token next : Token) (rest : List Token) {gap : List Char}
    (offset : next.offset = token.stop + Text.byteSize gap) :
    (token.text ++ Stream.joinFrom token.stop (next :: rest)).toList =
      token.text.toList ++ (if gap = [] then [] else [' ']) ++
        (next.text ++ Stream.joinFrom next.stop rest).toList := by
  have narrow : (if token.stop < next.offset then " " else "").toList =
      if gap = [] then [] else [' '] := by
    by_cases nothing : gap = []
    · rw [if_pos nothing, if_neg]
      · rfl
      · rw [offset, nothing]
        exact Nat.lt_irrefl _
    · have positive := Text.byteSize_pos nothing
      rw [if_neg nothing, if_pos (by omega)]
      rfl
  rw [Stream.joinFrom, String.toList_append, String.toList_append, String.toList_append, narrow]
  simp only [String.toList_append, List.append_assoc]

variable {position : Position} {found : List Lexeme} {token : Token} {rest after : List Token}

theorem respaced_placed
    (blank : ∀ lexeme ∈ found, lexeme.kind = none → ∀ c ∈ lexeme.text, Lexeme.isSpace c = true)
    (split : placed position found = token :: rest ++ after) :
    ∃ lead slice tail, spelled found = lead ++ slice ++ tail ∧
      (∀ c ∈ lead, Lexeme.isSpace c = true) ∧
      token.offset = position.offset + Text.byteSize lead ∧
      (∀ last ∈ (token :: rest).getLast?,
        last.stop = position.offset + Text.byteSize (lead ++ slice)) ∧
      Respaced (token :: rest) slice (token.text ++ Stream.joinFrom token.stop rest).toList := by
  induction found generalizing position token rest with
  | nil => cases split
  | cons lexeme found ih =>
    obtain ⟨here, later⟩ := List.forall_mem_cons.1 blank
    rcases lexeme with ⟨_ | kind, text⟩
    · -- A blank makes the lead longer.
      obtain ⟨lead, slice, tail, spells, spaces, offset, stop, respaced⟩ := ih later split
      refine ⟨text ++ lead, slice, tail, ?_, ?_, ?_, ?_, respaced⟩
      · rw [Token.spelled_cons, spells]
        simp only [List.append_assoc]
      · exact List.forall_mem_append.2 ⟨here rfl, spaces⟩
      · rw [offset, Position.offset_advance, Text.byteSize_append, Nat.add_assoc]
      · intro last member
        rw [stop last member, Position.offset_advance]
        simp only [Text.byteSize_append, Nat.add_assoc]
    · rw [Token.placed_token, List.cons_append, List.cons.injEq] at split
      obtain ⟨rfl, split⟩ := split
      have stop := Token.stop_eq kind text position
      cases rest with
      | nil =>
        refine ⟨[], text, spelled found, rfl, by simp, rfl, ?_, ?_⟩
        · intro last member
          rw [List.getLast?_singleton, Option.mem_some_iff] at member
          rw [← member, stop, Position.offset_advance]
          rfl
        · have one := Respaced.one
            (.new kind (String.ofList text) position.line position.column position.offset)
          simpa [Stream.joinFrom] using one
      | cons next rest =>
        obtain ⟨gap, slice, tail, spells, spaces, offset, ends, respaced⟩ := ih later split
        rw [← stop] at offset
        refine ⟨[], text ++ gap ++ slice, tail, ?_, by simp, rfl, ?_, ?_⟩
        · rw [Token.spelled_cons, spells]
          simp only [List.nil_append, List.append_assoc]
        · intro last member
          rw [List.getLast?_cons_cons] at member
          rw [ends last member, Position.offset_advance]
          simp only [List.nil_append, Text.byteSize_append]
          omega
        · rw [toList_joinFrom _ _ _ offset]
          have cons := Respaced.cons _ gap spaces offset respaced
          simpa using cons

theorem Token.Lexeme.Measured.quotes {lineStarts : Bool} {c : Char} {rest : List Char} {count : Nat}
    (measured : Measured lineStarts c rest (some .string) count) :
    ∃ inner, c :: rest.take count = '"' :: (inner ++ ['"']) := by
  cases measured.formed (by decide) with
  | string closed =>
    refine ⟨rest.takeWhile (· != '"'), ?_⟩
    have whole := List.takeWhile_append_dropWhile (p := (· != '"')) (l := rest)
    cases ends : rest.dropWhile (· != '"') with
    | nil =>
      rw [ends, List.append_nil] at whole
      rw [whole] at closed
      exact absurd closed (Nat.lt_irrefl _)
    | cons d tail =>
      have quote := List.head?_dropWhile_not (· != '"') rest
      rw [ends] at quote
      obtain rfl : d = '"' := by simpa using quote
      rw [ends] at whole
      have cut := congrArg (List.take ((rest.takeWhile (· != '"')).length + 1)) whole.symm
      rw [List.take_length_add_append] at cut
      exact congrArg ('"' :: ·) cut

theorem quoted_join {source : String}
    (member : token ∈ placed .start (Token.lexemes true source.toList))
    (string : token.kind = .string) :
    token.text.toList = '"' :: ((Stream.join [token]).toList ++ ['"']) := by
  obtain ⟨lexeme, inside, kind, text⟩ := Token.mem_placed member
  obtain ⟨starts, c, tail, count, measured, same⟩ := Token.measured_of_mem inside
  rw [kind, string] at measured
  obtain ⟨inner, quotes⟩ := measured.quotes
  have quoted : token.text.toList = '"' :: (inner ++ ['"']) := by rw [← text, same, quotes]
  rw [Stream.join, Token.value, string]
  dsimp only
  rw [quoted, Leaf.unquote_quoted, String.toList_ofList]

theorem join_eq_joinFrom (other : ∀ only, token :: rest = [only] → only.kind ≠ .string) :
    Stream.join (token :: rest) = token.text ++ Stream.joinFrom token.stop rest := by
  cases rest with
  | nil =>
    rw [Stream.join, Token.value, Stream.joinFrom, String.append_empty]
    split
    · rename_i kind
      exact absurd kind (other token rfl)
    · rfl
  | cons next rest => rfl

/-- What a run of a source's tokens is joined to is what it says. -/
theorem said_join {source : String} {run : List Token}
    (within : run <:+: placed .start (Token.lexemes true source.toList)) :
    Says source.toList run (Stream.join run) := by
  cases run with
  | nil => exact .inl ⟨rfl, rfl⟩
  | cons token rest =>
    right
    by_cases string : ∃ only, token :: rest = [only] ∧ only.kind = .string
    · obtain ⟨only, alone, string⟩ := string
      rw [alone] at within ⊢
      exact .inl ⟨only, rfl, string, quoted_join (within.subset (List.mem_singleton_self only)) string⟩
    · right
      have other : ∀ only, token :: rest = [only] → only.kind ≠ .string :=
        fun only alone kind => string ⟨only, alone, kind⟩
      obtain ⟨before, after, split⟩ := within
      rw [List.append_assoc] at split
      -- The run is that of the lexemes from the first token's on.
      obtain ⟨first, lexeme, more, cut, -, token', later⟩ := Token.exists_cut split.symm
      have split' : placed (Position.start.advance (spelled first)) (lexeme :: more) =
          token :: rest ++ after := by
        rw [Position.advance_append] at later
        rw [placed, token', later]
        rfl
      have blank : ∀ other ∈ lexeme :: more, other.kind = none →
          ∀ c ∈ other.text, Lexeme.isSpace c = true := by
        intro other member
        apply Token.isSpace_of_blank other
        rw [cut]
        exact List.mem_append_right _ member
      obtain ⟨lead, slice, tail, spells, -, offset, stop, respaced⟩ := respaced_placed blank split'
      refine ⟨other, spelled first ++ lead, slice, tail, ?_, ?_, ?_, ?_⟩
      · rw [← Token.spelled_lexemes true source.toList, cut, Token.spelled_append, spells]
        simp only [List.append_assoc]
      · rw [join_eq_joinFrom other]
        exact respaced
      · intro head same
        obtain rfl := Option.some.inj same
        rw [offset, Position.offset_advance, Text.byteSize_append, Position.start, Nat.zero_add]
      · intro last member
        rw [stop last member, Position.offset_advance, Position.start]
        simp only [Text.byteSize_append]
        omega

end Lifeline
