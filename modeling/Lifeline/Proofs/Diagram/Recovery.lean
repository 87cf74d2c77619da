import Lifeline.Proofs.Diagram.AlikeReading
import Lifeline.Proofs.Diagram.Beneath
import Lifeline.Proofs.Diagram.Line
import Lifeline.Proofs.Source.Directives

/-! Lines that cost only themselves.

Whatever is wrong with the lines of a text that holds no block and no note, the lines after them are
read as they are without it. What the text adds to a diagram comes first, and so do the reports. -/

set_option autoImplicit false

namespace Lifeline

open Token (Kind Lexeme lexemes placed)

def enclosed (text : String) : String := "@startuml\n" ++ text ++ "\n@enduml"

def complaints (source : String) : List (Diagnostic.Kind × String) :=
  (parse (tokenize source).tokens).issues.map Diagnostic.content

namespace Parsing

variable {parsing : Parsing}

def opening (opened : Token) (stream : Stream) : Parsing := ⟨stream, some opened, [], [], [], []⟩

def Begun (parsing : Parsing) : Prop := parsing.diagram = none → parsing.diagrams ≠ []

theorem Begun.step (begun : parsing.Begun) (token : Token) : (parsing.step token).Begun := by
  cases inside : parsing.diagram with
  | none =>
    rw [step_outside inside, outside]
    split
    · intro outside
      cases outside
    · exact begun
  | some opened =>
    rw [step_inside inside]
    by_cases endUml : token.kind = .endUml
    · rw [Parsing.inside, endUml]
      exact fun _ => List.cons_ne_nil _ _
    · intro outside
      rw [diagram_inside endUml] at outside
      cases inside.symm.trans outside

theorem Begun.run (begun : parsing.Begun) : parsing.run.Begun :=
  run_keeps (fun _ begun => begun) (fun _ token _ begun _ => begun.step token) begun

theorem Begun.complete (begun : parsing.Begun) : parsing.complete.diagrams ≠ [] := by
  unfold Parsing.complete
  split
  · rename_i outside
    exact begun outside
  · exact List.cons_ne_nil _ _

end Parsing

/-- A text that opens nothing that goes on after it: no block, note or diagram, string or comment. -/
structure Contained (text : String) : Prop where
  plain : ∀ token ∈ (tokenize text).tokens, token.kind.isBlockBoundary = false ∧
    token.kind ≠ .note ∧ token.kind ≠ .startUml ∧ token.kind ≠ .endUml
  strings : (tokenize text).issues = []
  comments : ∀ token ∈ (tokenize text).tokens,
    token.kind = .comment → Repair.Closed token.text.toList

namespace Contained

variable {text : String}

theorem staysInLine (contained : Contained text) (position : Position) :
    ∀ token ∈ placed position (lexemes true text.toList), Parsing.staysInLine token.kind = true := by
  intro token member
  obtain ⟨lexeme, inside, kind, -⟩ := Token.mem_placed member
  obtain ⟨token', member', same, -⟩ := Lexeme.exists_mem_placed inside kind .start
  obtain ⟨boundary, note, -, endUml⟩ := contained.plain token' (by
    rw [Token.tokens_tokenize]
    exact List.mem_append_left _ member')
  rw [same] at boundary note endUml
  simp [Parsing.staysInLine, boundary, note, endUml]

theorem lexemes_append (contained : Contained text) (tail : List Char) :
    lexemes true (text.toList ++ '\n' :: tail) =
      lexemes true text.toList ++ ⟨some .newline, ['\n']⟩ :: lexemes true tail := by
  have within {token : Token} (member : token ∈ placed .start (lexemes true text.toList)) :
      token ∈ (tokenize text).tokens := by
    rw [Token.tokens_tokenize]
    exact List.mem_append_left _ member
  refine Repair.lexemes_append_lineFeed ?_ ?_ tail
  · rintro lexeme member ⟨quote, unknown⟩
    obtain ⟨token, inside, kind, same⟩ := Lexeme.exists_mem_placed member unknown .start
    have silent := contained.strings
    rw [issues_tokenize_eq, List.filterMap_eq_nil_iff] at silent
    have closed := silent token inside
    rw [Token.unterminated?, if_pos ⟨kind, same ▸ quote⟩] at closed
    cases closed
  · exact Lexeme.forall_mem_of_placed fun token (member : token ∈ placed .start _) comment =>
      contained.comments token (within member) comment

/-- What the text adds to a diagram comes from the text alone, and what follows is read on top of it. -/
theorem exists_onto (contained : Contained text) (opened : Token) (position : Position) (reached : Nat) :
    ∃ position' statements issues, ∀ (tail : List Char) (stream : Stream),
      stream.reached = reached →
      stream.ahead = placed position (lexemes true (text.toList ++ '\n' :: tail)) →
      ∃ left : Stream, left.ahead = placed position' (lexemes true tail) ∧ left.eof = stream.eof ∧
        (Parsing.opening opened stream).run =
          (Parsing.opening opened left).run.onto statements issues := by
  let last := position.advance (Token.spelled (lexemes true text.toList))
  let newline : Token := .new .newline (String.ofList ['\n']) last.line last.column last.offset
  let tokens := placed position (lexemes true text.toList) ++ [newline]
  have solid : ∀ token ∈ tokens, token.kind ≠ .eof :=
    List.forall_mem_append.2 ⟨fun token member => (Token.text_ne_of_mem member).2,
      List.forall_mem_singleton.2 (by simp [newline])⟩
  obtain ⟨lines, ahead, same⟩ := Stream.exists_stream solid reached
  have stays : ∀ token ∈ lines.ahead, Parsing.staysInLine token.kind = true := by
    rw [ahead]
    exact List.forall_mem_append.2
      ⟨contained.staysInLine position, List.forall_mem_singleton.2 rfl⟩
  have ends : lines.HasLine := ⟨_, newline, rfl, ahead⟩
  obtain ⟨statements, issues, adds⟩ := Parsing.exists_adds lines stays (.inr ends)
  refine ⟨last.advance ['\n'], statements, issues, fun tail stream reached_eq stream_ahead => ?_⟩
  have split : stream.ahead = lines.ahead ++ placed (last.advance ['\n']) (lexemes true tail) := by
    rw [stream_ahead, ahead, contained.lexemes_append, Token.placed_append, Token.placed_token,
      List.append_assoc]
    rfl
  refine ⟨stream.drop lines.ahead.length, ?_, Stream.eof_drop _ _, ?_⟩
  · rw [Stream.ahead_drop, split, List.drop_left]
  · rw [adds (.opening opened stream) rfl ⟨_, split.symm⟩ (same.trans reached_eq.symm),
      Parsing.onto_run, Parsing.onto]
    simp only [Parsing.opening, List.append_nil]
    rfl

end Contained

theorem toList_enclosed (text : String) : (enclosed text).toList =
    Repair.startDirective ++ '\n' :: (text.toList ++ '\n' :: Repair.endDirective) := by
  have start : "@startuml\n".toList = Repair.startDirective ++ ['\n'] := by decide
  have stop : "\n@enduml".toList = '\n' :: Repair.endDirective := by decide
  rw [enclosed, String.toList_append, String.toList_append, start, stop, List.append_assoc,
    List.append_assoc]
  rfl

/-- The first line of an enclosed text is read the same, and ends in the same place, whatever the
text. -/
theorem exists_run_enclosed : ∃ opened position reached, ∀ text : String, ∃ stream : Stream,
    (stream.ahead = placed position (lexemes true (text.toList ++ '\n' :: Repair.endDirective)) ∧
      stream.reached = reached ∧ stream.eof.text = "") ∧
      (Parsing.start (.ofTokens (tokenize (enclosed text)).tokens)).run =
        (Parsing.opening opened stream).run := by
  let second := Position.start.advance Repair.startDirective
  let opened : Token := .new .startUml (String.ofList Repair.startDirective) 1 1 0
  let newline : Token :=
    .new .newline (String.ofList ['\n']) second.line second.column second.offset
  refine ⟨opened, second.advance ['\n'], newline.stop, fun text => ?_⟩
  obtain ⟨line, column, offset, eof⟩ := eof_ofTokens (enclosed text)
  have ahead := ahead_ofTokens (enclosed text)
  rw [toList_enclosed, Repair.lexemes_startDirective, Token.placed_token, Token.placed_token] at ahead
  generalize Stream.ofTokens (tokenize (enclosed text)).tokens = stream at *
  have first : (Parsing.start stream).run = (Parsing.opening opened (stream.drop 1)).run := by
    rw [Parsing.run_cons ahead rfl, Parsing.step_outside rfl]
    rfl
  have left : (Parsing.opening opened (stream.drop 1)).stream.ahead = newline :: _ :=
    Stream.ahead_drop_one ahead
  refine ⟨(stream.drop 1).drop 1, ⟨Stream.ahead_drop_one left, Stream.reached_drop_one left, ?_⟩, ?_⟩
  · rw [Stream.eof_drop, Stream.eof_drop, eof]
    rfl
  · rw [first, Parsing.run_separator left rfl]
    rfl

theorem parse_of_run {source : String} {parsing : Parsing}
    (run : (Parsing.start (.ofTokens (tokenize source).tokens)).run = parsing) :
    (Document.ofSource source).bare.diagrams = (parsing.complete.diagrams.map Diagram.bare).reverse ∧
      complaints source = (parsing.complete.issues.map Diagnostic.content).reverse := by
  subst run
  rw [← List.map_reverse, ← List.map_reverse]
  exact ⟨rfl, rfl⟩

theorem Diagram.bare_onto (below : List Statement) (diagram : Diagram) :
    (diagram.onto below).bare =
      { diagram.bare with
        statements := bareStatements below.reverse ++ diagram.bare.statements } := by
  simp only [onto, bare, bareStatements_eq_map, List.map_append]

theorem parse_of_onto {source : String} {parsing : Parsing} {below : List Statement}
    {older : List Diagnostic}
    (run : (Parsing.start (.ofTokens (tokenize source).tokens)).run = parsing.run.onto below older)
    {later : List Diagram} {diagram : Diagram}
    (ends : parsing.run.complete.diagrams = later ++ [diagram]) :
    (Document.ofSource source).bare.diagrams =
        { diagram.bare with
          statements := bareStatements below.reverse ++ diagram.bare.statements } ::
          (later.map Diagram.bare).reverse ∧
      complaints source = (older.map Diagnostic.content).reverse ++
        (parsing.run.complete.issues.map Diagnostic.content).reverse := by
  obtain ⟨document, complaints⟩ := parse_of_run run
  rw [document, complaints, ← Parsing.onto_complete, Parsing.onto, ends]
  dsimp only
  rw [List.modifyLast_concat, List.map_append, List.map_append, List.reverse_append,
    List.reverse_append, List.map_singleton, Diagram.bare_onto]
  exact ⟨rfl, rfl⟩

theorem exists_complete_opening (opened : Token) {position : Position} {stream : Stream}
    (ahead : stream.ahead = placed position (lexemes true Repair.endDirective)) :
    ∃ span, (Parsing.opening opened stream).run.complete.diagrams = [] ++ [⟨[], span, true⟩] ∧
      (Parsing.opening opened stream).run.complete.issues = [] := by
  obtain ⟨last, left, span, -, -, finish⟩ := Parsing.run_finish (.opening opened stream) rfl rfl
    ⟨position, ahead⟩
  rw [finish]
  exact ⟨span, rfl, rfl⟩

theorem alike_complete_opening (opened : Token) {found : List Lexeme}
    (filled : Lexeme.Filled found) {position position' : Position}
    {stream stream' : Stream} (ahead : stream.ahead = placed position found)
    (ahead' : stream'.ahead = placed position' found) (ends : stream.eof.text = stream'.eof.text) :
    (Parsing.opening opened stream).run.complete.Alike false
      (Parsing.opening opened stream').run.complete := by
  have tokens := (Lexeme.alike_refl true found).placed filled filled position position'
  rw [← ahead, ← ahead'] at tokens
  have alike : stream.Alike true stream' :=
    ⟨tokens, stream.kind_eof.trans stream'.kind_eof.symm, fun _ => ends⟩
  exact Parsing.alike_complete (Parsing.alike_run ⟨alike, rfl, .nil, rfl, rfl, rfl⟩)

/-- Lines that hold no block and no note cost only themselves, whatever is wrong with them: the lines
after them are read as they are alone, the statements of the first diagram stand behind theirs, and
the reports behind theirs. -/
theorem enclosed_append (first second : String) (contained : Contained first) :
    ∃ statements diagram later,
      (Document.ofSource (enclosed first)).bare.diagrams = [⟨statements, .none, true⟩] ∧
      (Document.ofSource (enclosed second)).bare.diagrams = diagram :: later ∧
      (Document.ofSource (enclosed (first ++ "\n" ++ second))).bare.diagrams =
        { diagram with statements := statements ++ diagram.statements } :: later ∧
      complaints (enclosed (first ++ "\n" ++ second)) =
        complaints (enclosed first) ++ complaints (enclosed second) := by
  obtain ⟨opened, position, reached, opens⟩ := exists_run_enclosed
  obtain ⟨position', statements, issues, adds⟩ := contained.exists_onto opened position reached
  -- Behind the first text alone there is the last line only.
  obtain ⟨stream₁, ⟨ahead₁, reached₁, -⟩, run₁⟩ := opens first
  obtain ⟨left₁, last, -, onto₁⟩ := adds _ stream₁ reached₁ ahead₁
  obtain ⟨span, ends₁, silent⟩ := exists_complete_opening opened last
  obtain ⟨document₁, complaints₁⟩ := parse_of_onto (run₁.trans onto₁) ends₁
  -- The second text alone is read as it is on top of the first, up to its place.
  obtain ⟨stream₂, ⟨ahead₂, -, end₂⟩, run₂⟩ := opens second
  obtain ⟨stream₃, ⟨ahead₃, reached₃, end₃⟩, run₃⟩ := opens (first ++ "\n" ++ second)
  have joined : (first ++ "\n" ++ second).toList ++ '\n' :: Repair.endDirective =
      first.toList ++ '\n' :: (second.toList ++ '\n' :: Repair.endDirective) := by simp
  rw [joined] at ahead₃
  obtain ⟨left₃, behind, eof, onto₃⟩ := adds _ stream₃ reached₃ ahead₃
  rw [onto₃] at run₃
  have same := alike_complete_opening opened (Lexeme.filled_lexemes true _) ahead₂ behind
    (end₂.trans (eof ▸ end₃).symm)
  obtain ⟨document₂, complaints₂⟩ := parse_of_run run₂
  rw [same.diagrams] at document₂
  rw [same.issues] at complaints₂
  have begun : (Parsing.opening opened left₃).Begun := nofun
  obtain ⟨later, diagram, ends₃⟩ := (List.eq_nil_or_concat _).resolve_left begun.run.complete
  rw [List.concat_eq_append] at ends₃
  obtain ⟨document₃, complaints₃⟩ := parse_of_onto run₃ ends₃
  refine ⟨bareStatements statements.reverse, diagram.bare, (later.map Diagram.bare).reverse, ?_, ?_,
    document₃, ?_⟩
  · rw [document₁]
    simp [Diagram.bare, bareStatements]
  · rw [document₂, ends₃]
    simp
  · rw [complaints₁, complaints₂, complaints₃, silent]
    simp

/-- Lines with all that can be wrong with one, before lines of which one is wrong as well. -/
theorem enclosed_append_broken :
    Contained "A ->\nparticipant\n) activate" ∧
    ∃ statements diagram later,
      (Document.ofSource (enclosed "A ->\nparticipant\n) activate")).bare.diagrams =
        [⟨statements, .none, true⟩] ∧
      (Document.ofSource (enclosed "A -> B : hi\nB ->")).bare.diagrams = diagram :: later ∧
      (Document.ofSource (enclosed ("A ->\nparticipant\n) activate" ++ "\n" ++
        "A -> B : hi\nB ->"))).bare.diagrams =
        { diagram with statements := statements ++ diagram.statements } :: later ∧
      complaints (enclosed ("A ->\nparticipant\n) activate" ++ "\n" ++ "A -> B : hi\nB ->")) =
        complaints (enclosed "A ->\nparticipant\n) activate") ++
          complaints (enclosed "A -> B : hi\nB ->") := by
  have contained : Contained "A ->\nparticipant\n) activate" :=
    ⟨by decide +kernel, by decide +kernel, by decide +kernel⟩
  exact ⟨contained, enclosed_append _ _ contained⟩

end Lifeline
