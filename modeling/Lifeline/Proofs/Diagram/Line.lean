import Lifeline.Proofs.Diagram.Lookahead

/-! What a line leaves to the lines after it.

A run of lines without blocks and notes is read the same whatever comes behind it, and the reading
goes on with the first token behind. -/

set_option autoImplicit false

namespace Lifeline

namespace Stream

open Token (Kind)

variable {stream first second left left' : Stream} {token : Token} {mark : Kind}
  {tail tail' : List Token}

/-- Whether the tokens ahead are whole lines, one at least. -/
def HasLine (stream : Stream) : Prop :=
  ∃ lines newline, newline.kind = .newline ∧ stream.ahead = lines ++ [newline]

theorem HasLine.within (lines : stream.HasLine) (within : left.Within stream)
    (some : left.ahead ≠ []) : left.HasLine := by
  obtain ⟨all, newline, kind, ahead⟩ := lines
  rw [Within, ahead, List.suffix_concat_iff] at within
  obtain ⟨more, ahead', -⟩ := within.resolve_left some
  exact ⟨more, newline, kind, ahead'⟩

theorem HasLine.drop_one (lines : stream.HasLine) (inside : stream.peek.kind ≠ .newline) :
    (stream.drop 1).HasLine := by
  refine lines.within (within_drop stream 1) fun nothing => ?_
  obtain ⟨all, newline, kind, ahead⟩ := lines
  cases all with
  | nil => exact inside (peek_of_ahead ahead ▸ kind)
  | cons token more =>
    rw [ahead_drop_one ahead] at nothing
    simp at nothing

/-- Streams that start with the same lines agree up to the end of these. -/
theorem HasLine.agree (lines : first.HasLine) (ahead : second.ahead = first.ahead ++ tail)
    (reached : first.reached = second.reached) :
    first.Agree .newline [first.eof] (tail ++ [second.eof]) second := by
  obtain ⟨all, newline, kind, first_ahead⟩ := lines
  refine ⟨rfl, reached, all, newline, kind, ?_, ?_⟩
  · rw [shown, first_ahead, List.append_assoc, List.singleton_append]
  · rw [shown, ahead, first_ahead]
    simp

theorem Agree.hasLine {eof eof' : Token}
    (agree : first.Agree .newline [eof] (tail ++ [eof']) second) :
    first.HasLine ∧ second.ahead = first.ahead ++ tail := by
  obtain ⟨-, -, same, newline, kind, shown, shown'⟩ := agree
  have whole : first.ahead ++ [first.eof] = same ++ [newline] ++ [eof] := by
    rw [List.append_assoc]
    exact shown
  have whole' : second.ahead ++ [second.eof] = same ++ [newline] ++ tail ++ [eof'] := by
    rw [List.append_assoc, List.append_assoc]
    exact shown'
  have ahead := List.append_inj_left' whole rfl
  have ahead' := List.append_inj_left' whole' rfl
  exact ⟨⟨same, newline, kind, ahead⟩, ahead ▸ ahead'⟩

end Stream

/-! ## Lines -/

namespace Parsing

open Token (Kind)

theorem startsLeaf_of_staysInLine {kind : Kind} (stays : staysInLine kind = true)
    (solid : kind.isSeparator = false) : startsLeaf kind = true := by
  rw [staysInLine, Bool.and_eq_true] at stays
  rw [startsLeaf, stays.1, solid]
  rfl

/-- Whether all tokens of a stream together add some statements and reports, newest first, to any
diagram whose machine has come as far and has these tokens ahead, whatever comes behind them. -/
def Adds (stream : Stream) (statements : List Statement) (issues : List Diagnostic) : Prop :=
  ∀ parsing : Parsing, parsing.diagram.isSome = true → stream.ahead <+: parsing.stream.ahead →
    stream.reached = parsing.stream.reached →
    parsing.run =
      ({ parsing with
          stream := parsing.stream.drop stream.ahead.length
          statements := statements ++ parsing.statements
          issues := issues ++ parsing.issues } : Parsing).run

variable {stream : Stream} {token : Token} {rest : List Token}

theorem adds_nil (nothing : stream.ahead = []) : Adds stream [] [] := by
  intro parsing _ _ _
  rw [nothing]
  rfl

theorem adds_separator (ahead : stream.ahead = token :: rest)
    (separator : token.kind.isSeparator = true) {statements : List Statement}
    {issues : List Diagnostic} (adds : Adds (stream.drop 1) statements issues) :
    Adds stream statements issues := by
  intro parsing inside prefixed reached
  obtain ⟨tail, ahead'⟩ := prefixed
  rw [ahead, List.cons_append] at ahead'
  have behind : (stream.drop 1).ahead = rest := Stream.ahead_drop_one ahead
  have behind' : parsing.advance.stream.ahead = rest ++ tail := Stream.ahead_drop_one ahead'.symm
  have later := adds parsing.advance inside (by rw [behind, behind']; exact List.prefix_append _ _)
    ((Stream.reached_drop_one ahead).trans (Stream.reached_drop_one ahead'.symm).symm)
  rw [run_separator ahead'.symm separator, later]
  simp only [advance, Stream.drop_drop, behind, ahead, List.length_cons, Nat.add_comm 1]

theorem adds_leaf (ahead : stream.ahead = token :: rest) (lines : (stream.drop 1).HasLine)
    (stays : staysInLine token.kind = true) (solid : token.kind.isSeparator = false)
    {statements : List Statement} {issues : List Diagnostic}
    (adds : Adds (leaf token (stream.drop 1)).left statements issues) :
    Adds stream (statements ++ (leaf token (stream.drop 1)).statement.toList)
      (issues ++ (leaf token (stream.drop 1)).issue.toList) := by
  intro parsing inside prefixed reached
  obtain ⟨tail, ahead'⟩ := prefixed
  obtain ⟨opened, opens⟩ := Option.isSome_iff_exists.1 inside
  have first := ahead'.symm
  rw [ahead, List.cons_append] at first
  have behind : parsing.advance.stream.ahead = (stream.drop 1).ahead ++ tail := by
    rw [Stream.ahead_drop_one ahead]
    exact Stream.ahead_drop_one first
  have agree := agree_leaf_of_staysInLine stays (lines.agree behind
    ((Stream.reached_drop_one ahead).trans (Stream.reached_drop_one first).symm))
  obtain ⟨-, left⟩ := agree.left.hasLine
  let accepted := parsing.advance.accept (leaf token parsing.advance.stream)
  have later := adds accepted inside ⟨tail, left.symm⟩ agree.left.reached
  -- Both ways the machine stands where the lines end.
  have same : accepted.stream.drop (leaf token (stream.drop 1)).left.ahead.length =
      parsing.stream.drop stream.ahead.length := by
    have follows : accepted.stream.Follows parsing.stream :=
      (follows_leaf token parsing.advance.stream).trans (Stream.follows_drop _ 1)
    refine ((Stream.follows_drop _ _).trans follows).ext (Stream.follows_drop _ _) ?_
    rw [Stream.ahead_drop, Stream.ahead_drop, ← ahead', List.drop_left]
    exact congrArg (fun ahead => (List.drop _ ahead).length) left |>.trans (by rw [List.drop_left])
  rw [run_cons first solid, step_inside opens,
    inside_of_startsLeaf _ _ _ (startsLeaf_of_staysInLine stays solid), later, same]
  simp only [accepted, accept, advance, agree.statement, agree.issue, List.append_assoc]

/-- What whole lines add to a diagram depends on nothing but the lines: neither on what was read before
them nor on what comes behind. -/
theorem exists_adds (stream : Stream) (stays : ∀ token ∈ stream.ahead, staysInLine token.kind = true)
    (lines : stream.ahead = [] ∨ stream.HasLine) : ∃ statements issues, Adds stream statements issues := by
  -- Every token that is read leaves fewer ahead.
  induction count : stream.ahead.length using Nat.strong_induction_on generalizing stream with
  | h count ih =>
    subst count
    cases ahead : stream.ahead with
    | nil => exact ⟨_, _, adds_nil ahead⟩
    | cons token rest =>
      have lines : stream.HasLine := lines.resolve_left (by simp [ahead])
      have next : (stream.drop 1).ahead = rest := Stream.ahead_drop_one ahead
      have shorter : (stream.drop 1).ahead.length < stream.ahead.length := by simp [ahead, next]
      have within := Stream.within_drop stream 1
      by_cases separator : token.kind.isSeparator = true
      · have behind : (stream.drop 1).ahead = [] ∨ (stream.drop 1).HasLine :=
          or_iff_not_imp_left.2 (lines.within within)
        obtain ⟨statements, issues, adds⟩ := ih _ shorter (stream.drop 1)
          (fun token member => stays token (within.subset member)) behind rfl
        exact ⟨_, _, adds_separator ahead separator adds⟩
      · have solid := Bool.eq_false_iff.2 separator
        have inside := stays token (ahead ▸ List.mem_cons_self)
        have behind : (stream.drop 1).HasLine := lines.drop_one fun newline => by
          rw [Stream.peek_of_ahead ahead] at newline
          rw [newline] at separator
          exact separator rfl
        have follows := (follows_leaf token (stream.drop 1)).within
        have agree := behind.agree (List.append_nil _).symm rfl
        obtain ⟨statements, issues, adds⟩ := ih _
          (Nat.lt_of_le_of_lt follows.length_le shorter) (leaf token (stream.drop 1)).left
          (fun token member => stays token ((follows.trans within).subset member))
          (.inr (agree_leaf_of_staysInLine inside agree).left.hasLine.1) rfl
        exact ⟨_, _, adds_leaf ahead behind inside solid adds⟩

end Parsing

end Lifeline
