import Lifeline.Diagram.Walk
import Lifeline.Proofs.Diagram.Note
import Lifeline.Proofs.Token.Clear

/-! What reading puts into a document.

Of a source without quotes and block comments, every name in the document is a word or a number, and
every free text can be written where it stood and is read again as it is. This holds for what each
statement reads, is kept by every step of the reading, and so holds at its end. -/

set_option autoImplicit false

namespace Lifeline

open Token (EndsClear IsName)

/-! ## Statements as they are read -/

def IsRow (target : String) : Prop :=
  ∃ names, names ≠ [] ∧ target = ", ".intercalate names ∧ ∀ name ∈ names, IsName name

/-- Whether a note can stand there: nothing stands over no one. -/
def NoteSide.Targets (side : NoteSide) : Option String → Prop
  | none => side ≠ .over
  | some target => IsRow target

/-- Whether a note can have this text: the rest of a line, or lines that do not end it. -/
def IsNoteText (text : String) : Prop :=
  Harmless text.toList ∨ ∃ lines, text = "\n".intercalate lines ∧
    ∀ line ∈ lines, line ≠ "" ∧ Leaf.BodyLine line.toList

/-- Whether a node holds what reading a clear source puts into it. -/
def Node.Settled (node : Node) : Prop :=
  match node.statement with
  | some (.participant _ name _ _) => IsName name
  | some (.message source target text _ _ _ _) =>
    (IsName source ∧ IsName target) ∧ Harmless text.toList
  | some (.activation target _) | some (.deactivation target _) => IsName target
  | some (.note text target side _) => IsNoteText text ∧ side.Targets target
  | some (.title text _) => Harmless text.toList
  | some (.alternative _ branches _) => ∀ branch ∈ branches, Labels branch.condition.toList
  | some (.loop condition _ _) | some (.optional condition _ _) => Labels condition.toList
  | some (.parallel branches _) => branches ≠ []
  | some (.autonumber ..) | some (.error ..) | none => True

def Settled (statements : List Statement) : Prop :=
  ∀ statement ∈ statements, ∀ node ∈ statement.nodes, node.Settled

theorem Settled.nil : Settled [] := fun _ none => by cases none

theorem Settled.cons {statement : Statement} {rest : List Statement}
    (first : ∀ node ∈ statement.nodes, node.Settled) (later : Settled rest) :
    Settled (statement :: rest) := List.forall_mem_cons.2 ⟨first, later⟩

theorem Settled.append {first second : List Statement} (one : Settled first)
    (two : Settled second) : Settled (first ++ second) := List.forall_mem_append.2 ⟨one, two⟩

theorem Settled.reverse {statements : List Statement} (settled : Settled statements) :
    Settled statements.reverse := fun statement member =>
  settled statement (List.mem_reverse.1 member)

theorem settled_nodes {statements : List Statement} (settled : Settled statements) :
    ∀ node ∈ nodesOfStatements statements, node.Settled := by
  induction statements with
  | nil => simp [nodesOfStatements]
  | cons statement rest ih =>
    intro node member
    rw [nodesOfStatements, List.mem_append] at member
    exact member.elim (settled statement List.mem_cons_self node)
      (ih (fun other inside => settled other (List.mem_cons_of_mem statement inside)) node)

/-! ## Streams of clear sources -/

namespace Stream

def Clear (stream : Stream) : Prop := EndsClear stream.ahead

variable {stream left : Stream}

theorem Clear.within (clear : stream.Clear) (within : left.Within stream) : left.Clear :=
  clear.suffix within

theorem Clear.drop (clear : stream.Clear) (count : Nat) : (stream.drop count).Clear :=
  clear.within (within_drop stream count)

theorem Clear.name? (clear : stream.Clear) {token : Token}
    (found : stream.name? = some (token, left)) : IsName token.value ∧ left.Clear := by
  obtain ⟨rfl, name, rest, ahead⟩ := name?_eq_some found
  exact ⟨clear.isName (ahead ▸ List.mem_cons_self) name, clear.drop 1⟩

theorem Clear.restOfLine (clear : stream.Clear) : Harmless stream.restOfLine.1.toList := by
  obtain ⟨text, inert, joined, -, stays⟩ :=
    EndsClear.join_run clear (p := fun kind => !endsLine kind) rfl rfl rfl rfl
  rw [stream.restOfLine_join, joined, String.toList_ofList]
  exact ⟨inert, fun member => by cases stays _ member⟩

theorem Clear.label (clear : stream.Clear) : Labels stream.label.1.toList := by
  obtain ⟨text, inert, joined, -, stays⟩ := EndsClear.join_run clear
    (p := fun kind => !endsLine kind && !kind.isBlockBoundary && kind != .startUml) rfl rfl rfl rfl
  rw [show stream.label.1 = String.ofList text from stream.label_join.trans joined,
    String.toList_ofList]
  refine { toInert := inert, endUml := ?_, boundary := ?_, startUml := ?_ }
  · exact fun member => by cases stays _ member
  · intro kind member
    have stays := stays kind member
    simp only [Bool.and_eq_true, Bool.not_eq_true'] at stays
    exact stays.1.2
  · exact fun member => by cases stays _ member

end Stream

/-! ## The lines of a note -/

theorem head?_join {token : Token} (noString : token.kind ≠ .string) (nonempty : token.text ≠ "")
    (more : List Token) :
    (Stream.join (token :: more)).toList.head? = token.text.toList.head? := by
  obtain ⟨c, rest, same⟩ := List.exists_cons_of_ne_nil (String.toList_eq_nil_iff.not.2 nonempty)
  have value : token.value = token.text := by
    unfold Token.value
    split
    · rename_i string
      exact absurd string noString
    · rfl
  cases more with
  | nil => rw [Stream.join, value]
  | cons next more =>
    have joined : Stream.join (token :: next :: more) =
        token.text ++ Stream.joinFrom token.stop (next :: more) := rfl
    rw [joined, String.toList_append, same, List.cons_append]
    rfl

theorem bodyLine_join {token : Token} {rest : List Token} (clear : EndsClear (token :: rest))
    (goesOn : Stream.endsLine token.kind = false)
    (apostrophe : token.text.toList.head? ≠ some '\'')
    (noEnd : ¬(token.kind = .endMark ∧ rest.head?.any (·.kind == .note) = true)) :
    Stream.join (token :: rest.takeWhile (!Stream.endsLine ·.kind)) ≠ "" ∧
      Leaf.BodyLine (Stream.join (token :: rest.takeWhile (!Stream.endsLine ·.kind))).toList := by
  have run : (token :: rest).takeWhile (!Stream.endsLine ·.kind) =
      token :: rest.takeWhile (!Stream.endsLine ·.kind) :=
    List.takeWhile_cons_of_pos (by simp [goesOn])
  obtain ⟨text, inert, joined, read, stays⟩ :=
    clear.join_run (p := fun kind => !Stream.endsLine kind) rfl rfl rfl rfl
  rw [run, List.map_cons] at read
  rw [run] at joined
  have noString : token.kind ≠ .string :=
    (inert.plain.mem_kinds (read ▸ List.mem_cons_self)).2.2.1
  have head := head?_join noString (clear.text_ne List.mem_cons_self).1
    (rest.takeWhile (!Stream.endsLine ·.kind))
  rw [joined, String.toList_ofList] at head
  rw [joined, String.toList_ofList]
  refine ⟨fun empty => ?_, { toInert := inert, endUml := ?_, apostrophe := ?_, noEnd := ?_ }⟩
  · rw [← String.toList_eq_nil_iff, String.toList_ofList] at empty
    rw [empty, Token.kinds_nil] at read
    cases read
  · exact fun member => by cases stays _ member
  · rwa [head]
  · -- The line ends the note only if its first two tokens do, and the second is the next token.
    rw [read, List.cons_prefix_cons]
    rintro ⟨endMark, note⟩
    refine noEnd ⟨endMark.symm, ?_⟩
    cases rest with
    | nil => simp at note
    | cons next rest =>
      rw [List.takeWhile_cons] at note
      split at note
      · rw [List.map_cons, List.cons_prefix_cons] at note
        simp [← note.1]
      · simp at note

/-- After separators, a line of a note does not start with an apostrophe. -/
theorem apostrophe_of_separators {stream : Stream} (clear : stream.Clear) {token : Token}
    {rest : List Token} (ahead : stream.skipSeparators.ahead = token :: rest)
    (goesOn : Stream.endsLine token.kind = false)
    (ends : ∀ first ∈ stream.ahead.head?, Stream.endsLine first.kind = true) :
    token.text.toList.head? ≠ some '\'' := by
  have cut : stream.ahead = stream.ahead.takeWhile (·.kind.isSeparator) ++ token :: rest := by
    rw [← ahead, Stream.ahead_skipSeparators]
    exact List.takeWhile_append_dropWhile.symm
  have chain := EndsClear.chain clear
  rw [cut] at ends chain
  -- Without separators the line would have to begin with what ends one.
  cases last : (stream.ahead.takeWhile (·.kind.isSeparator)).getLast? with
  | none =>
    rw [List.getLast?_eq_none_iff.1 last, List.nil_append] at ends
    rw [ends token rfl] at goesOn
    cases goesOn
  | some previous =>
    have separator : previous.kind.isSeparator = true :=
      List.mem_takeWhile_imp (p := fun token => Token.Kind.isSeparator (Token.kind token))
        (List.mem_of_getLast? last)
    have noComment : token.kind ≠ .comment := by
      intro comment
      rw [comment] at goesOn
      cases goesOn
    exact (List.isChain_append.1 chain).2.2 previous last token rfl separator noComment

theorem noteBody_settled {stream : Stream} (clear : stream.Clear)
    (ends : ∀ token ∈ stream.ahead.head?, Stream.endsLine token.kind = true) :
    ∀ lines ∈ (Leaf.noteBody stream).1, ∀ line ∈ lines, line ≠ "" ∧ Leaf.BodyLine line.toList := by
  fun_induction Leaf.noteBody stream with
  | case1 => simp
  | case2 => simp
  | case3 stream first inside opens lines left result ih =>
    obtain ⟨token, rest, ahead, goesOn⟩ := Leaf.exists_line inside
    have later : first.Clear := clear.within (Stream.within_skip _ _)
    have line : EndsClear (token :: rest) := ahead ▸ later
    have apostrophe := apostrophe_of_separators clear ahead goesOn ends
    have noEnd : ¬(token.kind = .endMark ∧ rest.head?.any (·.kind == .note) = true) := by
      rintro ⟨mark, note⟩
      obtain ⟨next, head, isNote⟩ := (Option.any_eq_true _ _).1 note
      obtain ⟨more, rfl⟩ := List.head?_eq_some_iff.1 head
      refine opens ?_
      rw [Leaf.atEndNote, Stream.atKind_of_ahead ahead, Stream.peekAt_one ahead, mark]
      exact isNote
    rw [result] at ih
    -- What a line leaves starts with what ended it, which the next line needs to know.
    have next : ∀ token ∈ first.restOfLine.2.ahead.head?, Stream.endsLine token.kind = true := by
      intro token head
      have stopped := first.head?_skip Stream.inLine token head
      simpa [Stream.inLine] using stopped
    have text : first.restOfLine.1 =
        Stream.join (token :: rest.takeWhile (!Stream.endsLine ·.kind)) := by
      rw [first.restOfLine_join, ahead, List.takeWhile_cons_of_pos (by simp [goesOn])]
    rintro _ more
    obtain ⟨further, rfl, rfl⟩ := Option.map_eq_some_iff.1 more
    refine List.forall_mem_cons.2 ⟨text ▸ bodyLine_join line goesOn apostrophe noEnd, ?_⟩
    exact ih (later.within (Stream.within_skip _ _)) next further rfl

/-! ## Single statements -/

namespace Leaf

def Settled (leaf : Leaf) : Prop :=
  ∀ statement ∈ leaf.statement, ∀ node ∈ statement.nodes, node.Settled

theorem settled_none (issue : Option Diagnostic) (left : Stream) : Settled ⟨none, issue, left⟩ :=
  fun _ none => by cases none

theorem settled_single {statement : Statement}
    (single : statement.nodes = [⟨statement.kind, some statement⟩])
    (settled : Node.Settled ⟨statement.kind, some statement⟩) (issue : Option Diagnostic)
    (left : Stream) : Settled ⟨some statement, issue, left⟩ := by
  rintro _ ⟨⟩ node member
  rw [single, List.mem_singleton] at member
  exact member ▸ settled

variable {stream : Stream}

theorem settled_participant (clear : stream.Clear) (role : Role) (keyword : Token) :
    (participant role keyword stream).Settled := by
  unfold participant
  split
  · exact settled_none _ _
  · rename_i found
    refine settled_single rfl ?_ _ _
    exact (clear.name? found).1

theorem settled_message (clear : stream.Clear) {sender : Token}
    (named : sender.kind.isName = true → IsName sender.value) :
    (message sender stream).Settled := by
  unfold message
  split
  · rename_i name
    split
    · dsimp only
      split
      · exact settled_none _ _
      · rename_i found
        obtain ⟨receiver, clear⟩ := (clear.drop 1).name? found
        refine settled_single rfl ?_ _ _
        refine ⟨⟨named name, receiver⟩, ?_⟩
        split
        · exact (clear.drop 1).restOfLine
        · -- Without a colon there is no text, which is harmless as well.
          exact labels_nil.toHarmless
    · exact settled_none _ _
  · exact settled_none _ _

theorem settled_title (clear : stream.Clear) (keyword : Token) :
    (title keyword stream).Settled := by
  refine settled_single rfl ?_ _ _
  exact clear.restOfLine

theorem settled_onName (clear : stream.Clear) (missing : String)
    (statement : String → Span → Statement)
    (settled : ∀ target, IsName target → ∀ span left,
      Settled ⟨some (statement target span), none, left⟩) (keyword : Token) :
    (onName missing statement keyword stream).Settled := by
  unfold onName
  split
  · exact settled_none _ _
  · rename_i found
    exact settled _ (clear.name? found).1 _ _

theorem isRow_targets (clear : stream.Clear) : ∀ target ∈ (targets stream).1, IsRow target := by
  unfold targets
  split
  · simp
  · rename_i first left found
    obtain ⟨name, clear⟩ := clear.name? found
    rintro _ ⟨⟩
    refine ⟨_, by simp, rfl, ?_⟩
    rw [List.map_cons]
    refine List.forall_mem_cons.2 ⟨name, fun further member => ?_⟩
    obtain ⟨token, inside, rfl⟩ := List.mem_map.1 member
    obtain ⟨ahead, named⟩ := mem_furtherNames inside
    exact EndsClear.isName clear ahead named

theorem settled_placement (clear : stream.Clear) :
    ∀ placed ∈ (placement stream).1, placed.1.Targets placed.2 := by
  unfold placement
  split
  · dsimp only
    rintro _ ⟨⟩
    generalize shape : (if (stream.drop 1).atWord "of" then (stream.drop 1).drop 1
      else stream.drop 1) = behind
    have clear : behind.Clear := by
      rw [← shape]
      exact (clear.drop 1).within (Stream.follows_dropIf _ _ _).within
    have row := isRow_targets clear
    cases target : (targets behind).1 with
    | none =>
      show (if stream.atWord "left" then NoteSide.left else NoteSide.right) ≠ .over
      split <;> decide
    | some target' => exact row target' target
  · split
    · have row := isRow_targets (clear.drop 1)
      split
      · rename_i target left same
        rintro _ ⟨⟩
        exact row target (same ▸ rfl)
      · simp
    · rintro _ ⟨⟩
      exact NoteSide.noConfusion

theorem settled_note (clear : stream.Clear) (keyword : Token) : (note keyword stream).Settled := by
  have within := (follows_placement stream).within
  have placed := settled_placement clear
  unfold note
  split
  · exact settled_none _ _
  · rename_i side target left same
    rw [same] at within placed
    have clear : left.Clear := clear.within within
    have targets : side.Targets target := placed _ rfl
    split
    · refine settled_single rfl ?_ _ _
      exact ⟨.inl (clear.drop 1).restOfLine, targets⟩
    · split
      · -- The lines of a note start behind the end of its first line.
        rename_i ends
        have body := noteBody_settled clear fun token head => by
          obtain ⟨rest, same⟩ := List.head?_eq_some_iff.1 head
          rwa [Stream.peek_of_ahead same] at ends
        split
        · exact settled_none _ _
        · rename_i lines last same
          rw [same] at body
          refine settled_single rfl ?_ _ _
          exact ⟨.inr ⟨lines, rfl, body lines rfl⟩, targets⟩
      · exact settled_none _ _

end Leaf

end Lifeline
