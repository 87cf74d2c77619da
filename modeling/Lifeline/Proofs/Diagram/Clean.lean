import Lifeline.Proofs.Diagram.Source

/-! Sources with which nothing is wrong.

What has been reported stays reported. So a source that ends without reports has made none on the way:
separators apart, its first token opens a diagram and its last one closes a diagram. -/

set_option autoImplicit false

namespace Lifeline

def Token.solid (tokens : List Token) : List Token := tokens.filter (!·.kind.isSeparator)

namespace Token

theorem solid_cons {token : Token} (other : token.kind.isSeparator = false) (rest : List Token) :
    solid (token :: rest) = token :: solid rest :=
  List.filter_cons_of_pos (by rw [other]; rfl)

theorem solid_dropWhile (tokens : List Token) :
    solid (tokens.dropWhile (·.kind.isSeparator)) = solid tokens := by
  induction tokens with
  | nil => rfl
  | cons token rest ih =>
    rw [List.dropWhile_cons]
    split
    · rename_i separator
      rw [ih, solid, solid, List.filter_cons_of_neg (by simpa using separator)]
    · rfl

theorem getLast?_solid {tokens rest : List Token} (ends : rest <:+ tokens) (some : solid rest ≠ []) :
    (solid tokens).getLast? = (solid rest).getLast? := by
  obtain ⟨before, rfl⟩ := ends
  have last : (solid rest).getLast?.isSome = true := List.getLast?_isSome.2 some
  rw [solid, List.filter_append, List.getLast?_append]
  exact Option.or_of_isSome last

end Token

namespace Parsing

variable {parsing : Parsing} {token opened : Token}

/-! ## What is reported stays reported -/

theorem issues_abandon (current : Token) (reached : Nat) (frames : List Frame)
    (statements : List Statement) (issues : List Diagnostic) :
    issues <:+ (abandon current reached frames statements issues).2 := by
  induction frames generalizing statements issues with
  | nil => exact List.suffix_rfl
  | cons frame frames ih => exact (List.suffix_cons _ _).trans (ih _ _)

theorem issues_finish (parsing : Parsing) (opened current : Token) (reached : Nat) :
    parsing.issues <:+ (parsing.finish opened current reached).issues := by
  have reported := issues_abandon current reached parsing.frames parsing.statements parsing.issues
  unfold finish
  dsimp only
  split
  · exact reported
  · exact reported.trans (List.suffix_cons _ _)

theorem issues_accept (parsing : Parsing) (leaf : Leaf) :
    parsing.issues <:+ (parsing.accept leaf).issues :=
  List.suffix_append _ _

theorem issues_inside (parsing : Parsing) (opened token : Token) (reached : Nat) :
    parsing.issues <:+ (parsing.inside opened token reached).issues := by
  unfold inside
  split
  · exact issues_finish _ _ _ _
  · unfold push
    dsimp only
    split
    · exact List.suffix_cons _ _
    · exact List.suffix_rfl
  · exact List.suffix_rfl
  · split
    · exact List.suffix_rfl
    · exact issues_accept _ _
  · exact issues_accept _ _

theorem issues_outside (parsing : Parsing) (token : Token) :
    parsing.issues <:+ (parsing.outside token).issues := by
  unfold outside
  split
  · exact List.suffix_rfl
  · exact List.suffix_cons _ _

theorem issues_step (parsing : Parsing) (token : Token) :
    parsing.issues <:+ (parsing.step token).issues := by
  cases inside : parsing.diagram with
  | none => exact step_outside inside token ▸ issues_outside parsing.advance token
  | some opened => exact step_inside inside token ▸ issues_inside parsing.advance opened token _

theorem issues_run (parsing : Parsing) : parsing.issues <:+ parsing.run.issues := by
  let Keeps (later : Parsing) : Prop := parsing.issues <:+ later.issues
  have steps (later : Parsing) (token : Token) (rest : List Token) (kept : Keeps later)
      (_ : later.stream.ahead = token :: rest) : Keeps (later.step token) :=
    kept.trans (issues_step later token)
  exact run_keeps (fun _ kept => kept) steps List.suffix_rfl

theorem issues_complete (parsing : Parsing) : parsing.issues <:+ parsing.complete.issues := by
  unfold complete
  split
  · exact List.suffix_rfl
  · exact issues_finish _ _ _ _

/-! ## How tokens start and end -/

theorem diagram_inside (other : token.kind ≠ .endUml) (reached : Nat) :
    (parsing.inside opened token reached).diagram = parsing.diagram := by
  unfold inside
  split
  · exact absurd ‹_› other
  · rfl
  · rfl
  · split <;> rfl
  · rfl

theorem stream_inside_of_endUml (endUml : token.kind = .endUml) (reached : Nat) :
    (parsing.inside opened token reached).stream = parsing.stream := by
  rw [inside, endUml]
  rfl

theorem stream_outside (parsing : Parsing) (token : Token) :
    (parsing.outside token).stream = parsing.stream := by
  unfold outside
  split <;> rfl

open Token (solid)

/-- What can be said of the tokens that are left when nothing is reported in the end. -/
structure Frames (parsing : Parsing) : Prop where
  opens : parsing.diagram = none → ∀ first ∈ (solid parsing.stream.ahead).head?, first.kind = .startUml
  goesOn : parsing.diagram.isSome = true → solid parsing.stream.ahead ≠ []
  closes : ∀ last ∈ (solid parsing.stream.ahead).getLast?, last.kind = .endUml

theorem frames_of_skipSeparators (frames : parsing.skipSeparators.Frames) : parsing.Frames := by
  have same : solid parsing.skipSeparators.stream.ahead = solid parsing.stream.ahead := by
    rw [skipSeparators, Stream.ahead_skipSeparators, Token.solid_dropWhile]
  obtain ⟨opens, goesOn, closes⟩ := frames
  rw [same] at opens goesOn closes
  exact ⟨opens, goesOn, closes⟩

theorem frames_of_nil (nothing : parsing.stream.ahead = [])
    (clean : parsing.complete.issues = []) : parsing.Frames := by
  have none : solid parsing.stream.ahead = [] := by rw [nothing]; rfl
  refine ⟨fun _ => by simp [none], fun inside => ?_, by simp [none]⟩
  obtain ⟨opened, inside⟩ := Option.isSome_iff_exists.1 inside
  rw [complete, inside] at clean
  simp [finish, Stream.kind_peek_of_nil nothing] at clean

/-- A step that reports nothing reads the start or the end of a diagram, or something inside one. -/
theorem frames_of_step {rest : List Token} (ahead : parsing.stream.ahead = token :: rest)
    (statement : token.kind.isSeparator = false) (silent : (parsing.step token).issues = [])
    (frames : (parsing.step token).Frames) : parsing.Frames := by
  have left : parsing.advance.stream.ahead = rest := Stream.ahead_drop_one ahead
  have whole : solid parsing.stream.ahead = token :: solid rest := by
    rw [ahead, Token.solid_cons statement]
  -- With tokens behind it, the last token is the last of them.
  have last_eq {behind : List Token} (ends : behind <:+ rest) (some : solid behind ≠ []) :
      (solid parsing.stream.ahead).getLast? = (solid behind).getLast? := by
    rw [ahead]
    exact Token.getLast?_solid (ends.trans (List.suffix_cons token rest)) some
  cases inside : parsing.diagram with
  | none =>
    rw [step_outside inside] at silent frames
    have startUml : token.kind = .startUml := by
      by_contra other
      rw [outside, if_neg other] at silent
      cases silent
    obtain ⟨-, goesOn, closes⟩ := frames
    rw [stream_outside, left] at goesOn closes
    have some := goesOn (by rw [outside, if_pos startUml]; rfl)
    refine ⟨fun _ => ?_, fun none => ?_, ?_⟩
    · rw [whole]
      rintro _ ⟨⟩
      exact startUml
    · rw [inside] at none
      cases none
    · rwa [last_eq List.suffix_rfl some]
  | some opened =>
    rw [step_inside inside] at frames
    refine ⟨fun none => ?_, fun _ => by simp [whole], ?_⟩
    · rw [inside] at none
      cases none
    by_cases endUml : token.kind = .endUml
    · obtain ⟨-, -, closes⟩ := frames
      rw [stream_inside_of_endUml endUml, left] at closes
      by_cases some : solid rest = []
      · rw [whole, some]
        rintro _ ⟨⟩
        exact endUml
      · rwa [last_eq List.suffix_rfl some]
    · have open' : (parsing.advance.inside opened token parsing.stream.reached).diagram.isSome := by
        rw [diagram_inside endUml, advance, inside]
        rfl
      have within := (follows_inside parsing.advance opened token parsing.stream.reached).within
      rw [Stream.Within, left] at within
      rw [last_eq within (frames.goesOn open')]
      exact frames.closes

/-- The induction is on the rounds that are left. What each one says of the tokens behind it tells
enough of those before it. -/
theorem frames_of_run (clean : parsing.run.complete.issues = []) : parsing.Frames := by
  induction parsing using run_induct with
  | done parsing nothing =>
    rw [run_of_nil nothing] at clean
    exact frames_of_skipSeparators (frames_of_nil nothing clean)
  | round parsing token rest ahead ih =>
    rw [run_of_cons ahead] at clean
    have statement : token.kind.isSeparator = false :=
      parsing.stream.head?_skip Stream.separators token (congrArg List.head? ahead)
    have silent := (issues_run (parsing.skipSeparators.step token)).trans (issues_complete _)
    rw [clean, List.suffix_nil] at silent
    exact frames_of_skipSeparators (frames_of_step ahead statement silent (ih clean))

end Parsing

open Token (solid)

structure Token.Framed (tokens : List Token) : Prop where
  opens : ∀ first ∈ (solid tokens).head?, first.kind = .startUml
  closes : ∀ last ∈ (solid tokens).getLast?, last.kind = .endUml
  silent : ∀ token ∈ tokens, ¬token.OpensString

/-- If nothing is wrong with a source, it starts with a diagram and ends with one. -/
theorem framed_of_clean {source : String} (clean : (analyze source).issues = []) :
    Token.Framed (Token.ofText source.toList) := by
  obtain ⟨lexical, syntactic⟩ := List.append_eq_nil_iff.1 clean
  have frames : (Parsing.start (.ofTokens (tokenize source).tokens)).Frames :=
    Parsing.frames_of_run (List.reverse_eq_nil_iff.1 syntactic)
  obtain ⟨opens, -, closes⟩ := frames
  rw [Parsing.start, ahead_ofTokens] at opens closes
  refine ⟨opens rfl, closes, fun token member opened => ?_⟩
  rw [issues_tokenize_eq, List.filterMap_eq_nil_iff] at lexical
  have silent := lexical token member
  rw [Token.unterminated?, if_pos opened] at silent
  cases silent

end Lifeline
