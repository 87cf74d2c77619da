import Lifeline.Proofs.Source.Directives
import Lifeline.Proofs.Token.Position

/-! Sources joined by a line feed.

The scanner carries along whether the line holds a token already, and looks ahead in many places. At a
line feed both are forgotten. So two texts with a line feed between them fall into the tokens of the one
and those of the other, which only stand further down, unless the first ends within a string or a block
comment; and then they never do. -/

set_option autoImplicit false

namespace Lifeline

open Token (Lexeme lexemes locate placed spelled)
open Token.Lexeme (commentBody)

/-! ## Further down -/

/-- The same place behind some lines more, which have so many bytes. -/
def Position.shift (position : Position) (lines bytes : Nat) : Position :=
  ⟨position.line + lines, position.column, position.offset + bytes⟩

def Token.shift (token : Token) (lines bytes : Nat) : Token :=
  { token with line := token.line + lines, offset := token.offset + bytes }

def Diagnostic.shift (issue : Diagnostic) (lines bytes : Nat) : Diagnostic :=
  { issue with
    line := issue.line + lines
    position := issue.position + bytes
    token := issue.token.map (·.shift lines bytes) }

theorem Position.next_shift (position : Position) (lines bytes : Nat) (c : Char) :
    (position.shift lines bytes).next c = (position.next c).shift lines bytes := by
  unfold next shift
  split <;> simp [Nat.add_right_comm]

theorem Position.advance_shift (position : Position) (lines bytes : Nat) (text : List Char) :
    (position.shift lines bytes).advance text = (position.advance text).shift lines bytes := by
  induction text generalizing position with
  | nil => rfl
  | cons c text ih => simp [next_shift, ih]

theorem Position.advance_line (text : List Char) :
    start.advance (text ++ ['\n']) = start.shift (text.count '\n' + 1) (Text.byteSize text + 1) := by
  have behind := behind_start.advance text
  rw [List.nil_append] at behind
  rw [advance_append, advance_cons, advance_nil, next, if_pos rfl, behind.line, behind.offset]
  have size : '\n'.utf8Size = 1 := rfl
  simp [start, shift, Nat.add_assoc, size]

namespace Token

theorem locate_shift (position : Position) (lines bytes : Nat) (lexemes : List Lexeme) :
    locate (position.shift lines bytes) lexemes =
      (locate position lexemes).map (·.shift lines bytes) := by
  induction lexemes generalizing position with
  | nil => rfl
  | cons lexeme rest ih =>
    rcases lexeme with ⟨_ | kind, text⟩
    · simp [locate, Position.advance_shift, ih]
    · simp [locate, Position.advance_shift, ih]
      rfl

theorem locate_append (position : Position) (first rest : List Lexeme) :
    locate position (first ++ rest) =
      placed position first ++ locate (position.advance (spelled first)) rest := by
  simp [locate_eq_placed, placed_append, spelled, Position.advance_append]

theorem unterminated?_shift (token : Token) (lines bytes : Nat) :
    unterminated? (token.shift lines bytes) =
      (unterminated? token).map (·.shift lines bytes) := by
  by_cases opens : token.OpensString
  · have opens' : (token.shift lines bytes).OpensString := opens
    rw [unterminated?, unterminated?, if_pos opens, if_pos opens']
    rfl
  · have opens' : ¬(token.shift lines bytes).OpensString := opens
    rw [unterminated?, unterminated?, if_neg opens, if_neg opens']
    rfl

/-! ## Tokens without their ends -/

/-- Whether a token lacks its end: a string its closing quote, or a block comment its end mark. -/
def LacksEnd (token : Token) : Prop :=
  token.OpensString ∨ token.kind = .comment ∧ ¬Repair.Closed token.text.toList

instance (token : Token) : Decidable token.LacksEnd := inferInstanceAs (Decidable (_ ∨ _))

namespace Lexeme

def LacksEnd (lexeme : Lexeme) : Prop :=
  lexeme.text.head? = some '"' ∧ lexeme.kind = some .unknown ∨
    lexeme.kind = some .comment ∧ ¬Repair.Closed lexeme.text

theorem lexemes_append_of_ends {lineStarts : Bool} {text : List Char}
    (ends : ∀ lexeme ∈ lexemes lineStarts text, ¬lexeme.LacksEnd) (rest : List Char) :
    lexemes lineStarts (text ++ '\n' :: rest) =
      lexemes lineStarts text ++ ⟨some .newline, ['\n']⟩ :: lexemes true rest := by
  apply Repair.lexemes_append_lineFeed
  · exact fun lexeme member string => ends lexeme member (.inl string)
  · intro lexeme member comment
    by_contra unclosed
    exact ends lexeme member (.inr ⟨comment, unclosed⟩)

theorem commentBody_eq_length_or (text : List Char) :
    commentBody text = text.length ∨ ['\'', '/'] <:+: text.take (commentBody text) := by
  fun_induction commentBody text with
  | case1 => exact .inl rfl
  | case2 rest => exact .inr (List.infix_rfl)
  | case3 c rest apart ih =>
    rcases ih with whole | inside
    · exact .inl (congrArg (· + 1) whole)
    · exact .inr (List.infix_cons inside)

theorem drop_eq_nil_of_lacksEnd {lineStarts : Bool} {c : Char} {rest : List Char} {token : Token}
    (kind : (measure lineStarts c rest).1 = some token.kind)
    (text : token.text.toList = c :: rest.take (measure lineStarts c rest).2)
    (lacks : token.LacksEnd) : rest.drop (measure lineStarts c rest).2 = [] := by
  have measured := measured_measure lineStarts c rest
  rcases lacks with ⟨unknown, quote⟩ | ⟨comment, unclosed⟩
  · rw [kind, unknown] at measured
    rw [text] at quote
    exact drop_eq_nil_of_opens measured (Option.some.inj quote)
  · rw [kind, comment] at measured
    rcases measured.comment_opens rfl with ⟨rfl, opens⟩ | ⟨rfl, -⟩
    · obtain ⟨body, rfl⟩ := List.head?_eq_some_iff.1 opens
      have count : (measure lineStarts '/' ('\'' :: body)).2 = commentBody body + 1 := rfl
      rw [count] at text ⊢
      rcases commentBody_eq_length_or body with whole | inside
      · simp [whole]
      · -- With its end mark inside, the comment would be closed.
        refine absurd (fun _ => ?_) unclosed
        rw [text]
        exact inside
    · refine absurd (fun opens => ?_) unclosed
      rw [text] at opens
      cases (List.cons_prefix_cons.1 opens).1

end Lexeme

theorem ends_lexemes {source : String}
    (ends : ∀ token ∈ (tokenize source).tokens, ¬token.LacksEnd) :
    ∀ lexeme ∈ lexemes true source.toList, ¬lexeme.LacksEnd := by
  intro lexeme member lacks
  obtain ⟨kind, solid⟩ : ∃ kind, lexeme.kind = some kind :=
    lacks.elim (fun string => ⟨_, string.2⟩) fun comment => ⟨_, comment.1⟩
  obtain ⟨token, inside, rfl, same⟩ := Lexeme.exists_mem_placed member solid .start
  refine ends token ?_ ?_
  · rw [tokens_tokenize]
    exact List.mem_append_left _ inside
  · rw [Lexeme.LacksEnd, solid, ← same, Option.some.injEq, Option.some.injEq] at lacks
    exact lacks.imp_left And.symm

theorem eof_of_lacksEnd {lineStarts : Bool} {text : List Char} {position : Position}
    {before after : List Token} {token : Token}
    (split : locate position (lexemes lineStarts text) = before ++ token :: after)
    (lacks : token.LacksEnd) : ∀ next ∈ after, next.kind = .eof := by
  fun_induction lexemes lineStarts text generalizing position before with
  | case1 lineStarts =>
    -- The end mark stands alone, so nothing can be behind one of the tokens.
    cases before with
    | nil => simp [(List.cons.inj split).2.symm]
    | cons first before => simp [locate] at split
  | case2 lineStarts c rest kind count same ih =>
    cases kind with
    | none => exact ih split
    | some kind =>
      cases before with
      | nil =>
        obtain ⟨first, later⟩ := List.cons.inj split
        have kind' : (Lexeme.measure lineStarts c rest).1 = some token.kind := by
          rw [same, ← first]
          rfl
        have text' : token.text.toList = c :: rest.take (Lexeme.measure lineStarts c rest).2 := by
          rw [same, ← first]
          exact String.toList_ofList
        have none := Lexeme.drop_eq_nil_of_lacksEnd kind' text' lacks
        rw [same] at none
        rw [none, lexemes] at later
        rw [← later]
        exact List.forall_mem_singleton.2 rfl
      | cons first before => exact ih (List.cons.inj split).2

end Token

/-! ## Joined texts -/

theorem lexemes_joined {first : String}
    (ends : ∀ token ∈ (tokenize first).tokens, ¬token.LacksEnd) (rest : List Char) :
    lexemes true (first.toList ++ '\n' :: rest) =
      lexemes true first.toList ++ ⟨some .newline, ['\n']⟩ :: lexemes true rest :=
  Lexeme.lexemes_append_of_ends (Token.ends_lexemes ends) rest

theorem tokens_joined {first : String}
    (ends : ∀ token ∈ (tokenize first).tokens, ¬token.LacksEnd) (second : String) :
    (tokenize (first ++ "\n" ++ second)).tokens =
      placed .start (lexemes true first.toList) ++
        .new .newline "\n" (Position.start.advance first.toList).line
          (Position.start.advance first.toList).column
          (Position.start.advance first.toList).offset ::
        (tokenize second).tokens.map
          (·.shift (first.toList.count '\n' + 1) (first.utf8ByteSize + 1)) := by
  have text : (first ++ "\n" ++ second).toList = first.toList ++ '\n' :: second.toList := by simp
  have further : (Position.start.advance first.toList).advance ['\n'] =
      Position.start.shift (first.toList.count '\n' + 1) (first.utf8ByteSize + 1) := by
    rw [← Position.advance_append, Position.advance_line, Token.utf8ByteSize_eq]
  have second_eq := Token.locate_shift .start (first.toList.count '\n' + 1) (first.utf8ByteSize + 1)
    (lexemes true second.toList)
  rw [← further] at second_eq
  unfold tokenize
  dsimp only
  rw [text, lexemes_joined ends, Token.locate_append, Token.spelled_lexemes, ← second_eq]
  rfl

/-- Joined by a line feed, two texts fall into the tokens of the first, the line feed where its end mark
stood, and the tokens of the second as many lines and bytes further down, with the same columns; what is
wrong with them is what is wrong with the second. This holds if all strings and comments of the first have
their ends, and only then. -/
theorem tokenize_append_line (first second : String) :
    (∀ token ∈ (tokenize first).tokens, ¬token.LacksEnd) ↔
      ∃ inner stop, (tokenize first).tokens = inner ++ [stop] ∧ stop.kind = .eof ∧
        (tokenize (first ++ "\n" ++ second)).tokens =
          inner ++ .new .newline "\n" stop.line stop.column stop.offset ::
            (tokenize second).tokens.map
              (·.shift (first.toList.count '\n' + 1) (first.utf8ByteSize + 1)) ∧
        (tokenize (first ++ "\n" ++ second)).issues =
          (tokenize second).issues.map
            (·.shift (first.toList.count '\n' + 1) (first.utf8ByteSize + 1)) := by
  constructor
  · intro ends
    have tokens := Token.tokens_tokenize first
    have joined := tokens_joined ends second
    refine ⟨_, _, tokens, rfl, joined, ?_⟩
    -- Nothing is wrong with the tokens of the first text, nor with the line feed.
    have silent : (placed .start (lexemes true first.toList)).filterMap Token.unterminated? = [] := by
      rw [List.filterMap_eq_nil_iff]
      intro token member
      have closed := ends token (tokens ▸ List.mem_append_left _ member)
      rw [Token.unterminated?, if_neg fun opens => closed (.inl opens)]
    have issues (source : String) : (tokenize source).issues =
        (tokenize source).tokens.filterMap Token.unterminated? := by
      rw [issues_tokenize_eq, Token.tokens_tokenize, List.filterMap_append, Token.ofText,
        List.self_eq_append_right]
      rfl
    rw [issues, issues, joined, List.filterMap_append, silent, List.nil_append,
      List.filterMap_cons_none rfl, List.filterMap_map, List.map_filterMap]
    exact congrArg (List.filterMap · _) (funext fun token => Token.unterminated?_shift token _ _)
  · rintro ⟨inner, stop, tokens, eof, joined, -⟩ token member lacks
    rw [tokens, List.mem_append, List.mem_singleton] at member
    rcases member with inside | rfl
    · -- The line feed would have to be an end mark.
      obtain ⟨before, after, rfl⟩ := List.append_of_mem inside
      rw [List.append_assoc, List.cons_append] at joined
      have mark := Token.eof_of_lacksEnd joined lacks _ (List.mem_append_right _ List.mem_cons_self)
      cases mark
    · rcases lacks with ⟨unknown, -⟩ | ⟨comment, -⟩
      · cases eof.symm.trans unknown
      · cases eof.symm.trans comment

/-- A quote in a line comment opens nothing, and a string may go over several lines. -/
theorem tokenize_append_line_quotes :
    (∀ token ∈ (tokenize "' 5\"\nA -> B : \"x\ny\" /' z '/").tokens, ¬token.LacksEnd) ∧
      ∃ inner stop, (tokenize "' 5\"\nA -> B : \"x\ny\" /' z '/").tokens = inner ++ [stop] ∧
        stop.kind = .eof ∧
        (tokenize ("' 5\"\nA -> B : \"x\ny\" /' z '/" ++ "\n" ++ "' w\n\"v")).tokens =
          inner ++ .new .newline "\n" stop.line stop.column stop.offset ::
            (tokenize "' w\n\"v").tokens.map (·.shift (2 + 1) (27 + 1)) ∧
        (tokenize ("' 5\"\nA -> B : \"x\ny\" /' z '/" ++ "\n" ++ "' w\n\"v")).issues =
          (tokenize "' w\n\"v").issues.map (·.shift (2 + 1) (27 + 1)) := by
  have ends : ∀ token ∈ (tokenize "' 5\"\nA -> B : \"x\ny\" /' z '/").tokens, ¬token.LacksEnd := by
    decide +kernel
  exact ⟨ends, (tokenize_append_line _ "' w\n\"v").1 ends⟩

end Lifeline
