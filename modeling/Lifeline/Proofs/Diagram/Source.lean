import Lifeline.Diagram.Analysis
import Lifeline.Proofs.Diagram.Reading
import Lifeline.Proofs.Token.Tiling

/-! Sources that are one diagram.

A source that opens a diagram, goes on with text that reads as statements, and closes the diagram,
is a document of these statements, and nothing is wrong with it. -/

set_option autoImplicit false

namespace Lifeline

open Token (Lexed)

/-- The tokens of a text, without the end mark. -/
def Token.ofText (text : List Char) : List Token := placed .start (lexemes true text)

theorem ahead_ofTokens (source : String) :
    (Stream.ofTokens (tokenize source).tokens).ahead =
      Token.placed .start (Token.lexemes true source.toList) := by
  have inner : ∀ token ∈ Token.placed .start (Token.lexemes true source.toList),
      (token.kind != .eof) = true := by
    intro token member
    simpa using (Token.text_ne_of_mem member).2
  rw [Stream.ahead_ofTokens_eq, Token.tokens_tokenize, List.takeWhile_append_of_pos inner]
  simp [Token.endOfInput]

theorem eof_ofTokens (source : String) : ∃ line column offset,
    (Stream.ofTokens (tokenize source).tokens).eof = .endOfInput line column offset := by
  have inner : ∀ token ∈ Token.placed .start (Token.lexemes true source.toList),
      ¬(token.kind == .eof) = true := by
    intro token member
    simpa using (Token.text_ne_of_mem member).2
  rw [Stream.eof_ofTokens_eq, Token.tokens_tokenize, List.find?_append,
    List.find?_eq_none.2 inner]
  exact ⟨_, _, _, rfl⟩

theorem issues_tokenize_eq (source : String) :
    (tokenize source).issues = (Token.ofText source.toList).filterMap Token.unterminated? := by
  rw [Token.issues_tokenize, (Token.openString_last .start true source.toList).1.symm]
  rfl

theorem lexed_ofTokens (source : String) :
    Lexed true source.toList (Stream.ofTokens (tokenize source).tokens).ahead :=
  ⟨.start, ahead_ofTokens source⟩

theorem issues_tokenize_of_last {source : String} {last : Token} (endUml : last.kind = .endUml)
    (ends : [last] <:+ (Stream.ofTokens (tokenize source).tokens).ahead) :
    (tokenize source).issues = [] := by
  obtain ⟨before, same⟩ := ends
  rw [ahead_ofTokens] at same
  have closed : ¬last.OpensString := fun opens => absurd (opens.1.symm.trans endUml) (by decide)
  rw [Token.issues_tokenize, ← same, List.getLast?_concat, Option.bind_some,
    Token.unterminated?, if_neg closed]
  rfl

namespace Parsing

theorem run_start (parsing : Parsing) (outside : parsing.diagram = none) {tail : List Char}
    (lexed : Lexed true ("@startuml".toList ++ '\n' :: tail) parsing.stream.ahead) :
    ∃ stream opened, (Lexed true tail stream.ahead ∧ stream.Within parsing.stream) ∧
      parsing.run =
        ({ parsing with stream := stream, diagram := some opened } : Parsing).run := by
  obtain ⟨opened, more, ahead, start, -, later⟩ := lexed.uncons
    (Token.lexemes_directive "startuml".toList (by decide) rfl true (by simp))
  rw [← Stream.ahead_drop_one ahead] at later
  have first : parsing.run =
      ({ parsing with stream := parsing.stream.drop 1, diagram := some opened } : Parsing).run := by
    rw [run_cons ahead (by rw [start]; rfl), step, outside]
    dsimp only
    rw [Parsing.outside, if_pos start]
  obtain ⟨stream, ⟨later', within⟩, second⟩ := run_lineFeed
    { parsing with stream := parsing.stream.drop 1, diagram := some opened } later
  exact ⟨stream, opened, ⟨later', within.trans (Stream.within_drop _ 1)⟩, first.trans second⟩

theorem run_finish (parsing : Parsing) {opened : Token} (inside : parsing.diagram = some opened)
    (closed : parsing.frames = [])
    (lexed : Lexed true "@enduml".toList parsing.stream.ahead) :
    ∃ last stream span, last.kind = .endUml ∧ parsing.stream.ahead = [last] ∧
      parsing.run =
        { parsing with
          stream := stream
          diagram := none
          frames := []
          statements := []
          diagrams := ⟨parsing.statements.reverse, span, true⟩ :: parsing.diagrams } := by
  have closing : Lexed true ('@' :: ("enduml".toList ++ [])) parsing.stream.ahead := lexed
  obtain ⟨last, more, ahead, endUml, -, later⟩ := closing.uncons
    (Token.lexemes_directive "enduml".toList (by decide) rfl true (by simp))
  obtain rfl := later.nil
  have left := Stream.ahead_drop_one ahead
  refine ⟨last, parsing.stream.drop 1,
    (Span.ofToken opened).upTo (parsing.stream.drop 1).reached, endUml, ahead, ?_⟩
  have finished : parsing.step last =
      { parsing with
        stream := parsing.stream.drop 1
        diagram := none
        frames := []
        statements := []
        diagrams :=
          ⟨parsing.statements.reverse,
            (Span.ofToken opened).upTo (parsing.stream.drop 1).reached, true⟩ ::
            parsing.diagrams } := by
    rw [step_inside inside, Parsing.inside, endUml]
    dsimp only [advance]
    rw [finish, closed, endUml]
    rfl
  rw [run_cons ahead (by rw [endUml]; rfl), finished, run_nil left]

end Parsing

theorem document_of_reads {text : List Char} {means : List Statement → Prop}
    (reads : Parsing.Reads text means) {source : String}
    (whole : source.toList = "@startuml".toList ++ '\n' :: (text ++ "@enduml".toList)) :
    ∃ statements span, means statements ∧ (analyze source).issues = [] ∧
      (Document.ofSource source).diagrams = [⟨statements, span, true⟩] := by
  have lexed := lexed_ofTokens source
  rw [whole] at lexed
  generalize from_eq : Stream.ofTokens (tokenize source).tokens = stream at lexed
  obtain ⟨first, opened, ⟨lexed, within⟩, start⟩ := Parsing.run_start (.start stream) rfl lexed
  obtain ⟨second, statements, ⟨lexed, within'⟩, meant, read⟩ := reads
    ⟨first, some opened, [], [], [], []⟩ _ rfl lexed
  obtain ⟨last, third, span, endUml, ahead, finish⟩ := Parsing.run_finish
    ⟨second, some opened, [], statements.reverse ++ [], [], []⟩ rfl rfl lexed
  -- The first line, the statements and the last line, one run after the other.
  have run := start.trans (read.trans finish)
  have ends : [last] <:+ (Stream.ofTokens (tokenize source).tokens).ahead := by
    rw [from_eq, ← ahead]
    exact within'.trans within
  refine ⟨statements, span, meant, ?_, ?_⟩
  · rw [analyze, parse, issues_tokenize_of_last endUml ends, from_eq]
    dsimp only
    rw [run]
    rfl
  · rw [Document.ofSource, parse, from_eq]
    dsimp only
    rw [run, List.append_nil, List.reverse_reverse]
    rfl

end Lifeline
