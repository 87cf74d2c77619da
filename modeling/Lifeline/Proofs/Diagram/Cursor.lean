import Lifeline.Proofs.Diagram.Lookahead
import Mathlib.Data.List.Chain
import Mathlib.Data.List.Perm.Subperm

/-! Where a reading stands among its tokens, whatever the tokens are.

Every reading moves the cursor on, no further than to the first end mark, and a run takes its rounds at
growing cursors until it stands there. -/

set_option autoImplicit false

namespace Lifeline

/-- Whether the places where a token stops, as an offset and as a column, are counted in 64 bits. -/
structure Token.Fits (token : Token) : Prop where
  offset : token.offset + token.length < UInt64.size
  column : token.column + token.text.length < UInt64.size

instance (token : Token) : Decidable token.Fits :=
  decidable_of_iff
    (token.offset + token.length < UInt64.size ∧ token.column + token.text.length < UInt64.size)
    ⟨fun both => ⟨both.1, both.2⟩, fun fits => ⟨fits.offset, fits.column⟩⟩

namespace Stream

variable {tokens : List Token} {stream left : Stream} {count : Nat}

/-! ## Cursors -/

/-- The place of the first end mark among tokens, or their number if there is none. -/
def endPlace (tokens : List Token) : Nat := tokens.findIdx (·.kind == .eof)

theorem length_ahead_ofTokens (tokens : List Token) :
    (ofTokens tokens).ahead.length = endPlace tokens := by
  rw [ahead_ofTokens_eq, List.takeWhile_eq_take_findIdx_not,
    List.length_take_of_le List.findIdx_le_length]
  simp only [bne, Bool.not_not, endPlace]

theorem tokens_advance (stream : Stream) :
    stream.advance.tokens = stream.tokens ∧ stream.advance.beyond = stream.beyond := by
  unfold advance
  split <;> exact ⟨rfl, rfl⟩

theorem tokens_drop (stream : Stream) (count : Nat) :
    (stream.drop count).tokens = stream.tokens ∧ (stream.drop count).beyond = stream.beyond := by
  induction count generalizing stream with
  | zero => exact ⟨rfl, rfl⟩
  | succ count ih =>
    obtain ⟨tokens, beyond⟩ := ih stream.advance
    exact ⟨tokens.trans stream.tokens_advance.1, beyond.trans stream.tokens_advance.2⟩

theorem Follows.cursor_eq (follows : left.Follows stream) :
    left.cursor = stream.cursor + (stream.ahead.length - left.ahead.length) := by
  have moved := cursor_drop stream (Nat.sub_le stream.ahead.length left.ahead.length)
  rwa [← follows.eq_drop] at moved

theorem Follows.cursor_le (follows : left.Follows stream) : stream.cursor ≤ left.cursor := by
  rw [follows.cursor_eq]
  exact Nat.le_add_right _ _

theorem Follows.peekAt_eq (follows : stream.Follows (ofTokens tokens)) (count : Nat) :
    stream.peekAt count = tokens[stream.cursor + count]?.getD (endAfter tokens.getLast?) := by
  obtain ⟨read, rfl⟩ := follows
  obtain ⟨same, beyond⟩ := (ofTokens tokens).tokens_drop read
  rw [peekAt, same, beyond]
  rfl

theorem Follows.run_eq_extract (follows : stream.Follows (ofTokens tokens)) (kinds : Token.Kinds) :
    stream.run kinds = tokens.extract stream.cursor (stream.skip kinds).cursor := by
  obtain ⟨read, rfl⟩ := follows
  rw [run, (tokens_drop _ read).1]
  rfl

theorem Follows.cursor_le_endPlace (follows : stream.Follows (ofTokens tokens)) :
    stream.cursor ≤ endPlace tokens := by
  have moved := follows.cursor_eq
  rw [length_ahead_ofTokens] at moved
  have start : (ofTokens tokens).cursor = 0 := rfl
  omega

theorem Follows.cursor_le_length (follows : stream.Follows (ofTokens tokens)) :
    stream.cursor ≤ tokens.length :=
  follows.cursor_le_endPlace.trans List.findIdx_le_length

theorem Follows.cursor_eq_endPlace (follows : stream.Follows (ofTokens tokens))
    (nothing : stream.ahead = []) : stream.cursor = endPlace tokens := by
  rw [follows.cursor_eq, nothing, length_ahead_ofTokens, List.length_nil, Nat.sub_zero]
  exact Nat.zero_add _

/-! ## Tokens that are seen -/

theorem fits_endAfter (fits : ∀ token ∈ tokens, token.Fits) :
    (endAfter tokens.getLast?).Fits := by
  unfold endAfter
  split
  · exact ⟨by decide, by decide⟩
  · rename_i last found
    have behind := fits last (List.mem_of_getLast? found)
    split
    · exact behind
    · exact ⟨behind.offset, behind.column⟩

/-- Whatever a reading sees is one of the tokens or an end mark just behind them. -/
theorem Follows.fits_peekAt (follows : stream.Follows (ofTokens tokens))
    (fits : ∀ token ∈ tokens, token.Fits) (count : Nat) : (stream.peekAt count).Fits := by
  rw [follows.peekAt_eq]
  cases found : tokens[stream.cursor + count]? with
  | none => exact fits_endAfter fits
  | some token => exact fits token (List.mem_of_getElem? found)

end Stream

namespace Parsing

open Lifeline.Stream (endPlace)

variable {tokens : List Token} {parsing final : Parsing} {cursors : List Nat}

/-! ## Runs -/

/-- A run in rounds, with the cursor at which each starts. In the last round there are only separators
left. -/
inductive Runs : List Nat → Parsing → Parsing → Prop where
  | done {parsing : Parsing} : parsing.skipSeparators.stream.atEnd = true →
      Runs [parsing.stream.cursor] parsing parsing.skipSeparators
  | round {cursors : List Nat} {parsing final : Parsing} :
      parsing.skipSeparators.stream.atEnd = false →
      Runs cursors (parsing.skipSeparators.step parsing.skipSeparators.stream.peek) final →
      Runs (parsing.stream.cursor :: cursors) parsing final

theorem exists_runs (parsing : Parsing) :
    ∃ cursors, Runs (parsing.stream.cursor :: cursors) parsing parsing.run := by
  fun_induction Parsing.run parsing with
  | case1 parsing next atEnd => exact ⟨[], .done atEnd⟩
  | case2 parsing next inside ih =>
    obtain ⟨cursors, runs⟩ := ih
    exact ⟨_, .round (Bool.eq_false_iff.2 inside) runs⟩

theorem cursor_step_lt (inside : parsing.skipSeparators.stream.atEnd = false) (token : Token) :
    parsing.stream.cursor < (parsing.skipSeparators.step token).stream.cursor := by
  have solid : parsing.skipSeparators.stream.peek.kind ≠ .eof := beq_eq_false_iff_ne.1 inside
  have skipped : parsing.stream.cursor ≤ parsing.skipSeparators.stream.cursor :=
    (Stream.follows_skip parsing.stream _).cursor_le
  have behind := (follows_step parsing.skipSeparators token).cursor_le
  rw [Stream.drop_one_eq solid] at behind
  exact Nat.lt_of_le_of_lt skipped behind

namespace Runs

theorem follows (runs : Runs cursors parsing final) : final.stream.Follows parsing.stream := by
  induction runs with
  | done => exact Stream.follows_skip _ _
  | round _ _ ih =>
    exact ih.trans ((follows_step _ _).trans ((Stream.follows_drop _ 1).trans
      (Stream.follows_skip _ _)))

theorem ahead_final (runs : Runs cursors parsing final) : final.stream.ahead = [] := by
  induction runs with
  | done atEnd => exact Stream.atEnd_iff.1 atEnd
  | round _ _ ih => exact ih

theorem isChain (runs : Runs cursors parsing final) : cursors.IsChain (· < ·) := by
  induction runs with
  | done => exact .singleton _
  | @round cursors parsing final inside later ih =>
    cases later with
    | done => exact .cons_cons (cursor_step_lt inside _) ih
    | round => exact .cons_cons (cursor_step_lt inside _) ih

theorem cursor_le (runs : Runs cursors parsing final) :
    ∀ cursor ∈ cursors, cursor ≤ final.stream.cursor := by
  induction runs with
  | done =>
    intro cursor member
    rw [List.mem_singleton.1 member]
    exact (Stream.follows_skip _ _).cursor_le
  | round inside later ih =>
    exact List.forall_mem_cons.2 ⟨(Runs.round inside later).follows.cursor_le, ih⟩

/-- A run takes at most one round for each token, and one more. -/
theorem length_le (runs : Runs cursors parsing final)
    (follows : final.stream.Follows (.ofTokens tokens)) : cursors.length ≤ tokens.length + 1 := by
  have distinct : cursors.Nodup := runs.isChain.pairwise.imp Nat.ne_of_lt
  have bounded : cursors ⊆ List.range (tokens.length + 1) := by
    intro cursor member
    have inside := (runs.cursor_le cursor member).trans follows.cursor_le_length
    exact List.mem_range.2 (Nat.lt_succ_of_le inside)
  simpa using (List.subperm_of_subset distinct bounded).length_le

end Runs

end Parsing

/-! ## What comes after an end mark -/

theorem parse_append_of_mem {tokens : List Token} {mark : Token} (member : mark ∈ tokens)
    (ends : mark.kind = .eof) (rest : List Token) : parse (tokens ++ rest) = parse tokens := by
  obtain ⟨before, after, rfl⟩ := List.append_of_mem member
  have found : ((before ++ mark :: after).find? (·.kind == .eof)).isSome = true := by
    rw [List.find?_isSome]
    exact ⟨mark, member, beq_iff_eq.2 ends⟩
  obtain ⟨first, same⟩ := Option.isSome_iff_exists.1 found
  refine parse_eq_of_agree (Stream.agree_eof rfl ?_ ?_)
  · simp only [Stream.ahead_ofTokens_eq, List.append_assoc, List.cons_append, List.takeWhile_append]
    simp [ends]
  · rw [Stream.eof_ofTokens_eq, Stream.eof_ofTokens_eq, List.find?_append, same]
    rfl

theorem parse_append_endAfter {tokens : List Token} (solid : ∀ token ∈ tokens, token.kind ≠ .eof) :
    parse (tokens ++ [Stream.endAfter tokens.getLast?]) = parse tokens := by
  have ends := Stream.kind_endAfter tokens.getLast?
  have inner : ∀ token ∈ tokens, (token.kind != .eof) = true := fun token member => by
    simpa using solid token member
  have none : tokens.find? (·.kind == .eof) = .none :=
    List.find?_eq_none.2 fun token member => by simpa using solid token member
  refine parse_eq_of_agree (Stream.agree_eof rfl ?_ ?_)
  · rw [Stream.ahead_ofTokens_eq, Stream.ahead_ofTokens_eq, List.takeWhile_append_of_pos inner,
      List.takeWhile_eq_self_iff.2 inner]
    simp [ends]
  · rw [Stream.eof_ofTokens_eq, Stream.eof_ofTokens_eq, List.find?_append, none]
    simp [ends]

/-- Whether an end mark stands among the tokens or not, one behind them changes nothing. -/
theorem parse_append_mark (tokens : List Token) :
    parse (tokens ++
      [match tokens.getLast? with
        | some last => .new .eof "" last.line (last.column + last.text.length) last.stop
        | none => .new .eof "" 1 1 0]) = parse tokens := by
  by_cases marked : ∃ mark ∈ tokens, mark.kind = .eof
  · obtain ⟨mark, member, ends⟩ := marked
    exact parse_append_of_mem member ends _
  · have solid : ∀ token ∈ tokens, token.kind ≠ .eof := fun token member ends =>
      marked ⟨token, member, ends⟩
    have behind := parse_append_endAfter solid
    cases found : tokens.getLast? with
    | none =>
      rw [found] at behind
      exact behind
    | some last =>
      have other := solid last (List.mem_of_getLast? found)
      rw [found, Stream.endAfter, if_neg other] at behind
      exact behind

open Lifeline.Stream in
/-- Tokens whose ends can be counted are read to the first end mark and no further. The rounds of the
run start at growing cursors; every reading on the way takes slices of the tokens, moves the cursor on
and sees nothing but tokens whose ends can be counted. What comes after an end mark changes nothing, and
without one the tokens end as if one followed them. -/
theorem parse_reads_to_end (tokens : List Token) (fits : ∀ token ∈ tokens, token.Fits) :
    (∃ cursors final, Parsing.Runs (0 :: cursors) (.start (ofTokens tokens)) final ∧
      ((0 :: cursors).Pairwise (· < ·) ∧ (∀ cursor ∈ cursors, cursor ≤ tokens.length) ∧
        cursors.length ≤ tokens.length) ∧
      final.stream.cursor = endPlace tokens ∧
      (parse tokens).document.diagrams = final.complete.diagrams.reverse ∧
      (parse tokens).issues = final.complete.issues.reverse) ∧
    (∀ stream : Stream, stream.Follows (ofTokens tokens) →
      (∀ count, (stream.peekAt count).Fits) ∧
      (∀ kinds, stream.run kinds = tokens.extract stream.cursor (stream.skip kinds).cursor ∧
        stream.cursor ≤ (stream.skip kinds).cursor ∧
        (stream.skip kinds).cursor ≤ tokens.length) ∧
      ∀ token, stream.cursor ≤ (Parsing.leaf token stream).left.cursor ∧
        (Parsing.leaf token stream).left.cursor ≤ tokens.length) ∧
    (∀ mark rest, mark.kind = .eof → (∀ token ∈ mark :: rest, token.Fits) →
      parse (tokens ++ mark :: rest) = parse (tokens ++ [mark])) ∧
    parse (tokens ++
      [match tokens.getLast? with
        | some last => .new .eof "" last.line (last.column + last.text.length) last.stop
        | none => .new .eof "" 1 1 0]) = parse tokens := by
  refine ⟨?_, fun stream follows => ?_, fun mark rest ends _ => ?_, parse_append_mark tokens⟩
  · obtain ⟨cursors, runs⟩ := Parsing.exists_runs (.start (ofTokens tokens))
    have follows := runs.follows
    have rounds := runs.length_le follows
    refine ⟨cursors, _, runs, ⟨runs.isChain.pairwise, ?_, Nat.le_of_succ_le_succ rounds⟩,
      follows.cursor_eq_endPlace runs.ahead_final, rfl, rfl⟩
    intro cursor member
    exact (runs.cursor_le cursor (List.mem_cons_of_mem _ member)).trans follows.cursor_le_length
  · have within {left : Stream} (passed : left.Follows stream) :
        stream.cursor ≤ left.cursor ∧ left.cursor ≤ tokens.length :=
      ⟨passed.cursor_le, (passed.trans follows).cursor_le_length⟩
    exact ⟨follows.fits_peekAt fits,
      fun kinds => ⟨follows.run_eq_extract kinds, within (follows_skip stream kinds)⟩,
      fun token => within (Parsing.follows_leaf token stream)⟩
  · have cut := parse_append_of_mem (List.mem_append_right tokens (List.mem_singleton_self mark)) ends
    rw [← cut rest, List.append_assoc, List.singleton_append]

/-- A loop that an end mark cuts off, before tokens that would close it. -/
theorem parse_reads_to_end_inside :
    let mark : Token := .new .eof "odd" 7 7 70
    let tokens : List Token := [.new .startUml "@startuml" 1 1 0, .new .newline "\n" 1 10 9,
      .new (.opener .loop) "loop" 2 1 10]
    let closing : List Token := [.new .endMark "end" 3 1 15, .new .endUml "@enduml" 4 1 19]
    (∀ token ∈ tokens, token.Fits) ∧ (∀ token ∈ mark :: closing, token.Fits) ∧
      (Stream.ofTokens tokens).Follows (.ofTokens tokens) ∧
      (Parsing.leaf mark (.ofTokens tokens)).left.cursor ≤ tokens.length ∧
      parse (tokens ++ mark :: closing) = parse (tokens ++ [mark]) := by
  intro mark tokens closing
  have fits : ∀ token ∈ tokens, token.Fits := by decide
  have fits' : ∀ token ∈ mark :: closing, token.Fits := by decide
  obtain ⟨-, readings, cut, -⟩ := parse_reads_to_end tokens fits
  have stands := Stream.Follows.refl (.ofTokens tokens)
  exact ⟨fits, fits', stands, ((readings _ stands).2.2 mark).2, cut mark closing rfl fits'⟩

end Lifeline
