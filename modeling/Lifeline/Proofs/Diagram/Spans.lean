import Lifeline.Proofs.Diagram.InOrder
import Lifeline.Proofs.Diagram.Source

/-! The ranges of a document are in order.

What an open diagram holds lies in rows: the statements before each open block end before it starts,
its branches before its last mark, and the statements of the innermost block where the reading has come
to. Every step keeps it so, whatever is wrong with the source. -/

set_option autoImplicit false

namespace Lifeline

open Outline (Row)
open Lifeline.Span (StartsAt startsAt_upTo)

variable {fits : Token → Prop}

/-! ## Blocks -/

namespace Frame

/-- Whether what an open block holds, and what stands before it, lies in rows up to an offset. -/
structure InOrder (fits : Token → Prop) (low high : Nat) (frame : Frame) : Prop where
  opener : fits frame.opener
  mark : fits frame.mark
  opener_le : frame.opener.offset ≤ frame.mark.offset
  stop_le : frame.opener.stop ≤ high ∧ frame.mark.stop ≤ high
  low_le : low ≤ frame.opener.offset
  before : Row (StartsAt fits) low frame.opener.offset (frame.before.reverse.map Statement.outline)
  branches : Row (StartsAt fits) frame.opener.offset frame.mark.offset
    (frame.branches.reverse.map Branch.outline)

variable {low high reached : Nat} {frame : Frame} {inner : List Statement}

theorem InOrder.mono (inOrder : frame.InOrder fits low high) (higher : high ≤ reached) :
    frame.InOrder fits low reached :=
  { inOrder with
    stop_le := ⟨Nat.le_trans inOrder.stop_le.1 higher, Nat.le_trans inOrder.stop_le.2 higher⟩ }

theorem InOrder.allBranches (inOrder : frame.InOrder fits low high)
    (body : Row (StartsAt fits) frame.mark.offset high (inner.reverse.map Statement.outline)) :
    Row (StartsAt fits) frame.opener.offset high
      ((frame.allBranches inner high).map Branch.outline) := by
  have stop : ((Span.ofToken frame.mark).upTo high).stop = high := Nat.max_eq_left inOrder.stop_le.2
  have ordered : (frame.branch inner high).outline.Ordered (StartsAt fits) := by
    rw [branch, Branch.outline, outlinesOf_eq_map]
    exact body.node (Nat.le_refl _) (Nat.le_of_eq stop.symm) (startsAt_upTo inOrder.mark _)
  rw [Frame.allBranches, List.reverse_cons, List.map_append]
  exact inOrder.branches.concat inOrder.opener_le ordered (Nat.le_refl _) (Nat.le_of_eq stop)
    (Nat.le_trans frame.mark.offset_le_stop inOrder.stop_le.2)

theorem InOrder.close (inOrder : frame.InOrder fits low high)
    (body : Row (StartsAt fits) frame.mark.offset high (inner.reverse.map Statement.outline))
    (higher : high ≤ reached) :
    (frame.close inner high reached).outline.Ordered (StartsAt fits) ∧
      (frame.close inner high reached).outline.span.start = frame.opener.offset ∧
      (frame.close inner high reached).outline.span.stop = reached := by
  have stop : ((Span.ofToken frame.opener).upTo reached).stop = reached :=
    Nat.max_eq_left (Nat.le_trans inOrder.stop_le.1 higher)
  have stops : high ≤ ((Span.ofToken frame.opener).upTo reached).stop := by rwa [stop]
  have fit := startsAt_upTo inOrder.opener reached
  have branches := (inOrder.allBranches body).node (Nat.le_refl _) stops fit
  have statements := body.node inOrder.opener_le stops fit
  unfold Frame.close
  cases frame.block with
  | alt | par =>
    dsimp only
    rw [Statement.outline, outlinesOfBranches_eq_map]
    exact ⟨branches, rfl, stop⟩
  | loop | opt =>
    dsimp only
    rw [Statement.outline, outlinesOf_eq_map]
    exact ⟨statements, rfl, stop⟩
  | breakOut | critical | group =>
    have none : Row (StartsAt fits) high high [] := .nil
    exact ⟨none.node (Nat.le_trans frame.opener.offset_le_stop inOrder.stop_le.1) stops fit, rfl, stop⟩

end Frame

/-- Whether open blocks lie one within the other, from an offset up to another; what the innermost one
holds starts at a third. -/
inductive Nested (fits : Token → Prop) (low high : Nat) : List Frame → Nat → Prop where
  | nil : Nested fits low high [] low
  | cons {frame : Frame} {frames : List Frame} {floor : Nat} : Nested fits low high frames floor →
      frame.InOrder fits floor high → Nested fits low high (frame :: frames) frame.mark.offset

namespace Nested

variable {low high reached floor : Nat} {frames : List Frame}

theorem mono (nested : Nested fits low high frames floor) (higher : high ≤ reached) :
    Nested fits low reached frames floor := by
  induction nested with
  | nil => exact .nil
  | cons _ inOrder ih => exact .cons ih (inOrder.mono higher)

theorem floor_le (nested : Nested fits low high frames floor) (bounds : low ≤ high) :
    floor ≤ high := by
  cases nested with
  | nil => exact bounds
  | @cons frame _ _ _ inOrder => exact Nat.le_trans frame.mark.offset_le_stop inOrder.stop_le.2

end Nested

/-! ## The machine -/

namespace Parsing

structure Holds (fits : Token → Prop) (low high : Nat) (parsing : Parsing) (opened : Token) :
    Prop where
  fit : fits opened
  stop_le : opened.stop ≤ high
  diagrams : Row (StartsAt fits) low opened.offset (parsing.diagrams.reverse.map Diagram.outline)
  statements : ∃ floor, Nested fits opened.offset high parsing.frames floor ∧
    Row (StartsAt fits) floor high (parsing.statements.reverse.map Statement.outline)

/-- Whether all that has been read lies in rows up to where the reading is. -/
structure InOrder (fits : Token → Prop) (low : Nat) (parsing : Parsing) : Prop where
  stream : parsing.stream.InOrder fits
  inside : ∀ opened, parsing.diagram = some opened →
    parsing.Holds fits low parsing.stream.reached opened
  outside : parsing.diagram = none → parsing.frames = [] ∧ parsing.statements = [] ∧
    Row (StartsAt fits) low parsing.stream.reached (parsing.diagrams.reverse.map Diagram.outline)

variable {low high reached : Nat} {parsing : Parsing} {opened token : Token}

theorem Holds.offset_le (holds : parsing.Holds fits low high opened) : opened.offset ≤ high :=
  Nat.le_trans opened.offset_le_stop holds.stop_le

theorem Holds.mono (holds : parsing.Holds fits low high opened) (higher : high ≤ reached) :
    parsing.Holds fits low reached opened where
  fit := holds.fit
  stop_le := Nat.le_trans holds.stop_le higher
  diagrams := holds.diagrams
  statements := by
    obtain ⟨floor, nested, row⟩ := holds.statements
    exact ⟨floor, nested.mono higher, row.mono higher⟩

theorem Holds.accept (holds : parsing.Holds fits low high opened) {leaf : Leaf} {stream : Stream}
    (fit : fits token) (behind : high ≤ token.offset) (read : leaf.ReachesFrom token stream)
    (inOrder : stream.InOrder fits) (reached_eq : stream.reached = token.stop)
    (follows : leaf.left.Follows stream) :
    (parsing.accept leaf).Holds fits low leaf.left.reached opened := by
  obtain ⟨-, further⟩ := inOrder.follows follows
  have higher : high ≤ leaf.left.reached :=
    Nat.le_trans behind (Nat.le_trans token.offset_le_stop (reached_eq ▸ further))
  have later := holds.mono higher
  refine { later with statements := ?_ }
  obtain ⟨floor, nested, row⟩ := holds.statements
  refine ⟨floor, nested.mono higher, ?_⟩
  rw [Parsing.accept]
  cases given : leaf.statement with
  | none => exact row.mono higher
  | some statement =>
    obtain ⟨middle, before, after, outline⟩ := read statement given
    obtain ⟨inOrder', reached'⟩ := inOrder.follows before
    obtain ⟨-, reached''⟩ := inOrder'.follows after
    have stop : (Leaf.spanFrom token middle).stop ≤ leaf.left.reached :=
      Nat.max_le.2 ⟨reached'', Nat.le_trans (Nat.le_of_eq reached_eq.symm) further⟩
    have ordered : statement.outline.Ordered (StartsAt fits) := by
      rw [outline]
      exact .node (startsAt_upTo fit _) nofun .nil nofun
    simp only [Option.toList_some, List.singleton_append, List.reverse_cons, List.map_append,
      List.map_cons, List.map_nil]
    exact row.concat (nested.floor_le holds.offset_le) ordered (by rwa [outline])
      (by rwa [outline]) higher

theorem Holds.push (holds : parsing.Holds fits low high opened) (fit : fits token)
    (behind : high ≤ token.offset) (further : token.stop ≤ reached) (block : Block) :
    (parsing.push block token).Holds fits low reached opened := by
  have higher : high ≤ reached :=
    Nat.le_trans behind (Nat.le_trans token.offset_le_stop further)
  have later := holds.mono higher
  refine { later with statements := ?_ }
  obtain ⟨floor, nested, row⟩ := holds.statements
  refine ⟨token.offset, .cons (nested.mono higher) ?_, .nil⟩
  exact
    { opener := fit
      mark := fit
      opener_le := Nat.le_refl _
      stop_le := ⟨further, further⟩
      low_le := Nat.le_trans (nested.floor_le holds.offset_le) behind
      before := row.mono behind
      branches := .nil }

theorem Holds.split (holds : parsing.Holds fits low high opened) {frame : Frame}
    {frames : List Frame} (open_frames : parsing.frames = frame :: frames) (fit : fits token)
    (behind : high ≤ token.offset) (further : token.stop ≤ reached) :
    (parsing.split frame frames token high).Holds fits low reached opened := by
  have higher : high ≤ reached :=
    Nat.le_trans behind (Nat.le_trans token.offset_le_stop further)
  have later := holds.mono higher
  refine { later with statements := ?_ }
  obtain ⟨floor, nested, row⟩ := holds.statements
  rw [open_frames] at nested
  cases nested with
  | cons outer inOrder =>
    refine ⟨token.offset, .cons (outer.mono higher) ?_, .nil⟩
    have opener_le : frame.opener.offset ≤ token.offset :=
      Nat.le_trans frame.opener.offset_le_stop (Nat.le_trans inOrder.stop_le.1 behind)
    exact
      { opener := inOrder.opener
        mark := fit
        opener_le := opener_le
        stop_le := ⟨Nat.le_trans inOrder.stop_le.1 higher, further⟩
        low_le := inOrder.low_le
        before := inOrder.before
        branches := (inOrder.allBranches row).mono behind }

theorem Holds.pop (holds : parsing.Holds fits low high opened) {frame : Frame}
    {frames : List Frame} (open_frames : parsing.frames = frame :: frames)
    (higher : high ≤ parsing.stream.reached) :
    (parsing.pop frame frames high).Holds fits low parsing.stream.reached opened := by
  have later := holds.mono higher
  refine { later with statements := ?_ }
  obtain ⟨floor, nested, row⟩ := holds.statements
  rw [open_frames] at nested
  cases nested with
  | @cons _ _ floor outer inOrder =>
    obtain ⟨ordered, start, stop⟩ := inOrder.close row higher
    refine ⟨floor, outer.mono higher, ?_⟩
    rw [Parsing.pop, List.reverse_cons, List.map_append]
    refine inOrder.before.concat inOrder.low_le ordered (Nat.le_of_eq start.symm) (Nat.le_of_eq stop) ?_
    exact Nat.le_trans frame.opener.offset_le_stop (Nat.le_trans inOrder.stop_le.1 higher)

theorem row_abandon (current : Token) {frames : List Frame} {floor : Nat}
    (nested : Nested fits low high frames floor) {statements : List Statement}
    (row : Row (StartsAt fits) floor high (statements.reverse.map Statement.outline))
    (issues : List Diagnostic) :
    Row (StartsAt fits) low high
      ((abandon current high frames statements issues).1.reverse.map Statement.outline) := by
  -- From the inside out, every block becomes the last statement of the one around it.
  induction nested generalizing statements issues with
  | nil => exact row
  | @cons frame frames floor outer inOrder ih =>
    obtain ⟨ordered, start, stop⟩ := inOrder.close row (Nat.le_refl high)
    refine ih ?_ _
    rw [List.reverse_cons, List.map_append]
    refine inOrder.before.concat inOrder.low_le ordered (Nat.le_of_eq start.symm) (Nat.le_of_eq stop) ?_
    exact Nat.le_trans frame.opener.offset_le_stop inOrder.stop_le.1

theorem Holds.finish (holds : parsing.Holds fits low high opened) (lowest : low ≤ opened.offset)
    (inOrder : parsing.stream.InOrder fits) (higher : high ≤ parsing.stream.reached)
    (current : Token) : (parsing.finish opened current high).InOrder fits low := by
  obtain ⟨floor, nested, row⟩ := holds.statements
  have statements := row_abandon current nested row parsing.issues
  have stop : ((Span.ofToken opened).upTo parsing.stream.reached).stop = parsing.stream.reached :=
    Nat.max_eq_left (Nat.le_trans holds.stop_le higher)
  refine ⟨inOrder, nofun, fun _ => ⟨rfl, rfl, ?_⟩⟩
  rw [Parsing.finish, List.reverse_cons, List.map_append]
  refine holds.diagrams.concat lowest ?_ (Nat.le_refl _) (Nat.le_of_eq stop)
    (Nat.le_trans holds.offset_le higher)
  rw [Diagram.outline, outlinesOf_eq_map]
  exact statements.node (Nat.le_refl _) (Nat.le_trans higher (Nat.le_of_eq stop.symm))
    (startsAt_upTo holds.fit _)

theorem Holds.inside (holds : parsing.Holds fits low high opened) (lowest : low ≤ opened.offset)
    (fit : fits token) (behind : high ≤ token.offset) (inOrder : parsing.stream.InOrder fits)
    (reached_eq : parsing.stream.reached = token.stop) (diagram : parsing.diagram = some opened) :
    (parsing.inside opened token high).InOrder fits low := by
  have higher : high ≤ parsing.stream.reached :=
    reached_eq ▸ Nat.le_trans behind token.offset_le_stop
  -- A step that leaves the diagram open keeps it as the one that is held.
  have goesOn {next : Parsing} (same : next.diagram = some opened) (ordered : next.stream.InOrder fits)
      (held : next.Holds fits low next.stream.reached opened) : next.InOrder fits low := by
    refine ⟨ordered, fun other found => ?_, fun none => ?_⟩
    · cases same.symm.trans found
      exact held
    · rw [same] at none
      cases none
  have labelled := inOrder.follows (Stream.follows_skip parsing.stream Stream.labelled)
  have further := Nat.le_trans (Nat.le_of_eq reached_eq.symm) labelled.2
  have follows := follows_leaf token parsing.stream
  have leaf : (parsing.accept (leaf token parsing.stream)).InOrder fits low :=
    goesOn diagram (inOrder.follows follows).1
      (holds.accept fit behind (reachesFrom_leaf token parsing.stream) inOrder reached_eq follows)
  unfold Parsing.inside
  split
  · exact holds.finish lowest inOrder higher token
  · exact goesOn diagram labelled.1 (holds.push fit behind further _)
  · rename_i open_frames
    exact goesOn diagram inOrder (holds.pop open_frames higher)
  · rename_i open_frames _ _ _
    split
    · exact goesOn diagram labelled.1 (holds.split open_frames fit behind further)
    · exact leaf
  · exact leaf

theorem InOrder.step (inOrder : parsing.InOrder fits low)
    (lowest : ∀ token, fits token → low ≤ token.offset) {rest : List Token}
    (ahead : parsing.stream.ahead = token :: rest) : (parsing.step token).InOrder fits low := by
  have member : token ∈ parsing.stream.ahead := ahead ▸ List.mem_cons_self
  have fit := inOrder.stream.fit token member
  have behind := inOrder.stream.behind token member
  have next := inOrder.stream.drop_one
  have reached_eq := Stream.reached_drop_one ahead
  cases diagram : parsing.diagram with
  | some opened =>
    rw [step_inside diagram]
    have holds := inOrder.inside opened diagram
    have held : parsing.advance.Holds fits low parsing.stream.reached opened :=
      ⟨holds.fit, holds.stop_le, holds.diagrams, holds.statements⟩
    exact held.inside (lowest opened holds.fit) fit behind next.1 reached_eq diagram
  | none =>
    obtain ⟨frames, statements, row⟩ := inOrder.outside diagram
    rw [step_outside diagram, Parsing.outside]
    split
    · refine ⟨next.1, fun opened same => ?_, fun none => by cases none⟩
      cases same
      refine ⟨fit, Nat.le_of_eq reached_eq.symm, row.mono behind, token.offset, ?_, ?_⟩
      · rw [advance, frames]
        exact .nil
      · rw [advance, statements]
        exact .nil
    · refine ⟨next.1, fun opened same => ?_, fun _ => ⟨frames, statements, row.mono next.2⟩⟩
      cases diagram.symm.trans same

theorem InOrder.skipSeparators (inOrder : parsing.InOrder fits low) :
    parsing.skipSeparators.InOrder fits low := by
  obtain ⟨ordered, further⟩ := inOrder.stream.follows (Stream.follows_skip parsing.stream _)
  refine ⟨ordered, fun opened diagram => ?_, fun diagram => ?_⟩
  · have holds := (inOrder.inside opened diagram).mono further
    exact ⟨holds.fit, holds.stop_le, holds.diagrams, holds.statements⟩
  · obtain ⟨frames, statements, row⟩ := inOrder.outside diagram
    exact ⟨frames, statements, row.mono further⟩

theorem InOrder.run (inOrder : parsing.InOrder fits low)
    (lowest : ∀ token, fits token → low ≤ token.offset) : parsing.run.InOrder fits low :=
  run_keeps (fun _ => InOrder.skipSeparators)
    (fun _ _ _ inOrder ahead => inOrder.step lowest ahead) inOrder

theorem InOrder.complete (inOrder : parsing.InOrder fits low)
    (lowest : ∀ token, fits token → low ≤ token.offset) : parsing.complete.InOrder fits low := by
  unfold Parsing.complete
  split
  · exact inOrder
  · rename_i opened diagram
    have holds := inOrder.inside opened diagram
    exact holds.finish (lowest opened holds.fit) inOrder.stream (Nat.le_refl _) _

theorem diagram_complete (parsing : Parsing) : parsing.complete.diagram = none := by
  unfold Parsing.complete
  split
  · assumption
  · rfl

end Parsing

/-! ## Sources -/

/-- The tokens of a source stand in order, its end mark included, and none reaches beyond it. -/
theorem Token.ordered_tokenize (source : String) :
    ((tokenize source).tokens.Pairwise fun first second => first.stop ≤ second.offset) ∧
      ∀ token ∈ (tokenize source).tokens, token.stop ≤ source.utf8ByteSize := by
  have tiles := tiles_placed source.toList
  have inside : ∀ token ∈ placed .start (lexemes true source.toList),
      token.stop ≤ source.utf8ByteSize := by
    intro token member
    obtain ⟨before, after, same, size⟩ := tiles.slice token member
    rw [utf8ByteSize_eq, same, Text.byteSize_append, Text.byteSize_append, stop,
      tiles.length token member, ← size, utf8ByteSize_eq token.text]
    omega
  have mark : (Position.start.advance source.toList).offset = source.utf8ByteSize := by
    rw [Position.offset_advance, utf8ByteSize_eq]
    exact Nat.zero_add _
  rw [tokens_tokenize]
  refine ⟨List.pairwise_append.2 ⟨tiles.ordered, .cons (by simp) .nil, ?_⟩,
    List.forall_mem_append.2 ⟨inside, List.forall_mem_singleton.2 (Nat.le_of_eq mark)⟩⟩
  intro token member last ends
  rw [List.mem_singleton.1 ends]
  exact Nat.le_trans (inside token member) (Nat.le_of_eq mark.symm)

theorem Stream.ahead_append_eof (source : String) :
    (ofTokens (tokenize source).tokens).ahead ++ [(ofTokens (tokenize source).tokens).eof] =
      (tokenize source).tokens := by
  have inner : ∀ token ∈ Token.placed .start (Token.lexemes true source.toList),
      ¬(token.kind == .eof) = true := by
    intro token member
    simpa using (Token.text_ne_of_mem member).2
  rw [ahead_ofTokens, eof_ofTokens_eq, Token.tokens_tokenize, List.find?_append,
    List.find?_eq_none.2 inner]
  rfl

section Sorted

variable {stream left : Stream}
  (sorted : (stream.ahead ++ [stream.eof]).Pairwise fun first second => first.stop ≤ second.offset)

theorem Stream.peek_mem (stream : Stream) : stream.peek ∈ stream.ahead ++ [stream.eof] := by
  rw [peek_eq]
  cases stream.ahead <;> exact List.mem_cons_self

include sorted

theorem Stream.peek_le : ∀ token ∈ stream.ahead ++ [stream.eof], stream.peek.offset ≤ token.offset := by
  rw [peek_eq]
  cases ahead : stream.ahead with
  | nil => exact List.forall_mem_singleton.2 (Nat.le_refl _)
  | cons next rest =>
    rw [ahead, List.cons_append, List.pairwise_cons] at sorted
    refine List.forall_mem_cons.2 ⟨Nat.le_refl _, fun token member => ?_⟩
    exact Nat.le_trans next.offset_le_stop (sorted.1 token member)

theorem Stream.InOrder.reached_le (inOrder : left.InOrder (· ∈ stream.ahead ++ [stream.eof])) :
    left.reached ≤ stream.eof.stop := by
  rcases inOrder.come with nothing | ⟨token, member, same⟩
  · exact Nat.le_trans (Nat.le_of_eq nothing) (Nat.zero_le _)
  · rw [same]
    rcases List.mem_append.1 member with inner | mark
    · have before := (List.pairwise_append.1 sorted).2.2 token inner _ List.mem_cons_self
      exact Nat.le_trans before stream.eof.offset_le_stop
    · rw [List.mem_singleton.1 mark]

theorem Parsing.InOrder.start (nothing : stream.reached = 0) (low : Nat) :
    (Parsing.start stream).InOrder (· ∈ stream.ahead ++ [stream.eof]) low where
  stream := {
    fit := fun _ member => List.mem_append_left _ member
    ahead := (List.pairwise_append.1 sorted).1
    behind := fun _ _ => Nat.le_trans (Nat.le_of_eq nothing) (Nat.zero_le _)
    come := .inl nothing }
  inside opened some := by cases some
  outside _ := ⟨rfl, rfl, .nil⟩

end Sorted

/-- The ranges of a document make up a forest in order, whatever its source. No range ends before it
starts or reaches beyond the source, every one starts where a token does, what a node holds lies within
its range, and of nodes beside one another each ends before the next ones start. -/
theorem ordered_outline (source : String) :
    (Document.ofSource source).outline.Ordered fun span =>
      (span.start ≤ span.stop ∧ ∃ token ∈ (tokenize source).tokens,
          span.line = token.line ∧ span.column = token.column ∧ span.start = token.offset) ∧
        span.stop ≤ source.utf8ByteSize := by
  obtain ⟨sorted, bounded⟩ := Token.ordered_tokenize source
  have whole := Stream.ahead_append_eof source
  have nothing : (Stream.ofTokens (tokenize source).tokens).reached = 0 := rfl
  rw [Document.ofSource, parse]
  generalize Stream.ofTokens (tokenize source).tokens = stream at *
  have mark : (Parsing.start stream).run.complete.stream.peek = stream.eof := by
    rw [Parsing.stream_complete, Parsing.peek_run]
    rfl
  dsimp only
  rw [← whole, mark]
  rw [← whole] at sorted bounded
  -- From nothing that has been read, to the end of the last diagram.
  have lowest := Stream.peek_le sorted
  have starts := Parsing.InOrder.start sorted nothing stream.peek.offset
  have ends := (starts.run lowest).complete lowest
  obtain ⟨-, -, diagrams⟩ := ends.outside (Parsing.diagram_complete _)
  have reached := ends.stream.reached_le sorted
  have last : stream.eof ∈ stream.ahead ++ [stream.eof] :=
    List.mem_append_right _ List.mem_cons_self
  have stops : max stream.eof.stop stream.peek.stop ≤ source.utf8ByteSize :=
    Nat.max_le.2 ⟨bounded _ last, bounded _ stream.peek_mem⟩
  have forest := diagrams.node (Nat.le_refl _) (Nat.le_trans reached (Nat.le_max_left _ _))
    (startsAt_upTo stream.peek_mem stream.eof.stop)
  exact forest.bounded stops

end Lifeline
