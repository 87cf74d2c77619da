import Lifeline.Diagram.Stream
import Mathlib.Data.List.TakeWhile

/-! What a stream reads, by the tokens ahead of it.

Ahead are the tokens from the cursor up to the next end mark. What is read from a stream depends on
them, on that end mark and on where the last token that was read stops: not on the cursor, nor on
what comes behind the end mark. -/

set_option autoImplicit false

namespace Lifeline.Stream

open Token (Kind Kinds)

variable {stream left left' : Stream} {token : Token} {first rest : List Token}

/-! ## Ahead of the cursor -/

/-- The tokens not yet read, up to the end mark. -/
def ahead (stream : Stream) : List Token :=
  (stream.tokens.drop stream.cursor).takeWhile (·.kind != .eof)

def eof (stream : Stream) : Token :=
  ((stream.tokens.drop stream.cursor).find? (·.kind == .eof)).getD stream.beyond

theorem ahead_ofTokens_eq (tokens : List Token) :
    (ofTokens tokens).ahead = tokens.takeWhile (·.kind != .eof) := rfl

theorem eof_ofTokens_eq (tokens : List Token) : (ofTokens tokens).eof =
    (tokens.find? (·.kind == .eof)).getD (endAfter tokens.getLast?) := rfl

theorem kind_eof (stream : Stream) : stream.eof.kind = .eof := by
  unfold eof
  cases found : (stream.tokens.drop stream.cursor).find? (·.kind == .eof) with
  | none => exact stream.ends
  | some mark =>
    have marked := List.find?_some found
    exact eq_of_beq marked

theorem kind_ne_eof (member : token ∈ stream.ahead) : token.kind ≠ .eof := by
  simpa using List.mem_takeWhile_imp member

/-- Any tokens but end marks can be ahead, at any offset. -/
theorem exists_stream {tokens : List Token} (solid : ∀ token ∈ tokens, token.kind ≠ .eof)
    (reached : Nat) : ∃ stream : Stream, stream.ahead = tokens ∧ stream.reached = reached := by
  let before : Token := .new .newline "" 1 1 reached
  refine ⟨{ ofTokens (before :: tokens) with cursor := 1 }, ?_, rfl⟩
  have whole : tokens.takeWhile (·.kind != .eof) = tokens :=
    List.takeWhile_eq_self_iff.2 fun token member => by simpa using solid token member
  exact whole

/-- Either an end mark comes next and nothing is ahead, or the next token is the first one ahead. -/
theorem ahead_cases (stream : Stream) :
    stream.peek.kind = .eof ∧ stream.ahead = [] ∧ stream.eof = stream.peek ∨
      stream.peek.kind ≠ .eof ∧ stream.ahead = stream.peek :: stream.advance.ahead ∧
        stream.eof = stream.advance.eof := by
  by_cases atEnd : stream.peek.kind = .eof
  · refine .inl ⟨atEnd, ?_⟩
    rcases Nat.lt_or_ge stream.cursor stream.tokens.length with inside | behind
    · have next : stream.peek = stream.tokens[stream.cursor] := by
        rw [peek, peekAt, Nat.add_zero, List.getElem?_eq_getElem inside, Option.getD_some]
      rw [ahead, eof, List.drop_eq_getElem_cons inside, ← next]
      simp [atEnd]
    · rw [ahead, eof, peek, peekAt, Nat.add_zero, List.getElem?_eq_none behind,
        List.drop_eq_nil_of_le behind]
      exact ⟨rfl, rfl⟩
  · have inside := stream.cursor_lt atEnd
    have next : stream.peek = stream.tokens[stream.cursor] := by
      rw [peek, peekAt, Nat.add_zero, List.getElem?_eq_getElem inside, Option.getD_some]
    refine .inr ⟨atEnd, ?_⟩
    rw [ahead, eof, List.drop_eq_getElem_cons inside, ← next, advance_eq atEnd]
    simp [ahead, eof, atEnd]

theorem peek_eq (stream : Stream) : stream.peek = stream.ahead.headD stream.eof := by
  obtain ⟨-, nothing, same⟩ | ⟨-, ahead, -⟩ := stream.ahead_cases
  · rw [nothing, same, List.headD_nil]
  · rw [ahead, List.headD_cons]

theorem peek_of_ahead (ahead : stream.ahead = token :: rest) : stream.peek = token := by
  rw [peek_eq, ahead, List.headD_cons]

theorem atEnd_iff : stream.atEnd = true ↔ stream.ahead = [] := by
  obtain ⟨atEnd, nothing, -⟩ | ⟨inside, ahead, -⟩ := stream.ahead_cases
  · simp [Stream.atEnd, atEnd, nothing]
  · simp [Stream.atEnd, inside, ahead]

theorem kind_peek_of_nil (nothing : stream.ahead = []) : stream.peek.kind = .eof :=
  beq_iff_eq.1 (atEnd_iff.2 nothing)

theorem atEnd_of_ahead (ahead : stream.ahead = token :: rest) : stream.atEnd = false :=
  Bool.eq_false_iff.2 fun atEnd => by
    rw [atEnd_iff, ahead] at atEnd
    cases atEnd

theorem exists_ahead (inside : stream.peek.kind ≠ .eof) : ∃ rest, stream.ahead = stream.peek :: rest :=
  match stream.ahead_cases with
  | .inl atEnd => absurd atEnd.1 inside
  | .inr next => ⟨_, next.2.1⟩

theorem drop_of_nil (nothing : stream.ahead = []) (count : Nat) : stream.drop count = stream := by
  induction count with
  | zero => rfl
  | succ count ih => rw [drop, advance, if_pos (atEnd_iff.2 nothing), ih]

theorem ahead_drop (stream : Stream) (count : Nat) :
    (stream.drop count).ahead = stream.ahead.drop count := by
  induction count generalizing stream with
  | zero => rfl
  | succ count ih =>
    rw [drop, ih]
    obtain ⟨-, nothing, -⟩ | ⟨-, ahead, -⟩ := stream.ahead_cases
    · rw [advance, if_pos (atEnd_iff.2 nothing), nothing, List.drop_nil, List.drop_nil]
    · rw [ahead, List.drop_succ_cons]

@[simp] theorem eof_drop (stream : Stream) (count : Nat) : (stream.drop count).eof = stream.eof := by
  induction count generalizing stream with
  | zero => rfl
  | succ count ih =>
    rw [drop, ih]
    obtain ⟨-, nothing, -⟩ | ⟨-, -, same⟩ := stream.ahead_cases
    · rw [advance, if_pos (atEnd_iff.2 nothing)]
    · exact same.symm

theorem Follows.eof_eq (follows : left.Follows stream) : left.eof = stream.eof := by
  obtain ⟨count, rfl⟩ := follows
  exact eof_drop _ _

/-- What is left of a stream is known by how many tokens are ahead. -/
theorem Follows.eq_drop (follows : left.Follows stream) :
    left = stream.drop (stream.ahead.length - left.ahead.length) := by
  obtain ⟨count, rfl⟩ := follows
  rw [ahead_drop, List.length_drop]
  rcases Nat.le_total count stream.ahead.length with within | beyond
  · rw [Nat.sub_sub_self within]
  · have nothing : (stream.drop stream.ahead.length).ahead = [] := by
      rw [ahead_drop, List.drop_length]
    have read := drop_drop stream stream.ahead.length (count - stream.ahead.length)
    rw [drop_of_nil nothing, Nat.add_sub_cancel' beyond] at read
    rw [Nat.sub_eq_zero_of_le beyond, Nat.sub_zero, ← read]

theorem Follows.ext (follows : left.Follows stream) (follows' : left'.Follows stream)
    (same : left.ahead.length = left'.ahead.length) : left = left' := by
  rw [follows.eq_drop, follows'.eq_drop, same]

theorem reached_advance (inside : stream.peek.kind ≠ .eof) :
    stream.advance.reached = stream.peek.stop := by
  rw [advance_eq inside]
  rfl

theorem reached_drop (stream : Stream) (count : Nat) :
    (stream.drop count).reached =
      ((stream.ahead.take count).getLast?.map Token.stop).getD stream.reached := by
  induction count generalizing stream with
  | zero => rfl
  | succ count ih =>
    rw [drop, ih]
    obtain ⟨-, nothing, -⟩ | ⟨inside, ahead, -⟩ := stream.ahead_cases
    · rw [advance, if_pos (atEnd_iff.2 nothing), nothing, List.take_nil, List.take_nil]
    · rw [ahead, List.take_succ_cons, List.getLast?_cons, reached_advance inside]
      cases (stream.advance.ahead.take count).getLast? <;> rfl

theorem ahead_drop_one (ahead : stream.ahead = token :: rest) : (stream.drop 1).ahead = rest := by
  rw [ahead_drop, ahead, List.drop_succ_cons, List.drop_zero]

theorem reached_drop_one (ahead : stream.ahead = token :: rest) :
    (stream.drop 1).reached = token.stop := by
  rw [reached_drop, ahead]
  rfl

theorem peekAt_one_eq (inside : stream.peek.kind ≠ .eof) :
    stream.peekAt 1 = (stream.drop 1).peek := by
  rw [drop_one_eq inside]
  rfl

theorem peekAt_one (ahead : stream.ahead = token :: rest) :
    stream.peekAt 1 = rest.headD stream.eof := by
  have inside : stream.peek.kind ≠ .eof := by
    rw [peek_of_ahead ahead]
    exact kind_ne_eof (ahead ▸ List.mem_cons_self)
  rw [peekAt_one_eq inside, peek_eq, ahead_drop_one ahead, eof_drop]

/-! ## Runs of tokens -/

theorem skip_eq_drop (stream : Stream) (kinds : Kinds) :
    stream.skip kinds = stream.drop (stream.ahead.takeWhile (kinds ·.kind)).length := by
  induction stream using skip_induct kinds with
  | goesOn stream next ih =>
    obtain ⟨atEnd, -, -⟩ | ⟨-, ahead, -⟩ := stream.ahead_cases
    · exact absurd atEnd (kinds.ne_eof next)
    · rw [ahead, List.takeWhile_cons, if_pos next, List.length_cons, skip_of_goesOn next, ih]
      rfl
  | stops stream ends =>
    rw [skip_of_stops ends]
    obtain ⟨-, nothing, -⟩ | ⟨-, ahead, -⟩ := stream.ahead_cases
    · rw [nothing]
      rfl
    · rw [ahead, List.takeWhile_cons, if_neg ends]
      rfl

theorem cursor_drop (stream : Stream) {count : Nat} (within : count ≤ stream.ahead.length) :
    (stream.drop count).cursor = stream.cursor + count := by
  induction count generalizing stream with
  | zero => rfl
  | succ count ih =>
    obtain ⟨-, nothing, -⟩ | ⟨inside, ahead, -⟩ := stream.ahead_cases
    · rw [nothing] at within
      cases within
    · rw [ahead] at within
      rw [drop, ih _ (Nat.le_of_succ_le_succ within), advance_eq inside]
      simp only [Nat.add_assoc, Nat.add_comm 1]

theorem run_eq_takeWhile (stream : Stream) (kinds : Kinds) :
    stream.run kinds = stream.ahead.takeWhile (kinds ·.kind) := by
  have prefixed : stream.ahead.takeWhile (kinds ·.kind) <+: stream.tokens.drop stream.cursor :=
    (List.takeWhile_prefix _).trans (List.takeWhile_prefix _)
  rw [run, skip_eq_drop, cursor_drop stream (List.takeWhile_prefix _).length_le,
    List.extract_eq_take_drop, Nat.add_sub_cancel_left]
  exact (List.prefix_iff_eq_take.1 prefixed).symm

theorem run_of_goesOn {kinds : Kinds} (goesOn : kinds stream.peek.kind = true) :
    stream.run kinds = stream.peek :: (stream.drop 1).run kinds := by
  obtain ⟨atEnd, -, -⟩ | ⟨-, ahead, -⟩ := stream.ahead_cases
  · exact absurd atEnd (kinds.ne_eof goesOn)
  · rw [run_eq_takeWhile, run_eq_takeWhile, ahead, List.takeWhile_cons, if_pos goesOn]
    rfl

theorem run_of_stops {kinds : Kinds} (stops : ¬kinds stream.peek.kind = true) :
    stream.run kinds = [] := by
  rw [run_eq_takeWhile]
  obtain ⟨-, nothing, -⟩ | ⟨-, ahead, -⟩ := stream.ahead_cases
  · rw [nothing, List.takeWhile_nil]
  · rw [ahead, List.takeWhile_cons, if_neg stops]

theorem name?_of_ahead (ahead : stream.ahead = token :: rest) (name : token.kind.isName = true) :
    stream.name? = some (token, stream.drop 1) := by
  rw [name?, peek_of_ahead ahead, if_pos name]

theorem name?_of_not_isName (ahead : stream.ahead = token :: rest)
    (noName : token.kind.isName = false) : stream.name? = none := by
  rw [name?, peek_of_ahead ahead, noName, if_neg Bool.false_ne_true]

theorem name?_of_nil (nothing : stream.ahead = []) : stream.name? = none := by
  rw [name?, kind_peek_of_nil nothing, if_neg (by decide)]

theorem name?_eq_some (found : stream.name? = some (token, left)) :
    left = stream.drop 1 ∧ token.kind.isName = true ∧ ∃ rest, stream.ahead = token :: rest := by
  unfold name? at found
  split at found
  · rename_i name
    cases found
    refine ⟨rfl, name, exists_ahead fun eof => ?_⟩
    rw [eof] at name
    cases name
  · cases found

theorem atKind_of_ahead (ahead : stream.ahead = token :: rest) (kind : Kind) :
    stream.atKind kind = (token.kind == kind) := by
  rw [atKind, peek_of_ahead ahead]

theorem atWord_of_ahead (ahead : stream.ahead = token :: rest) (word : String) :
    stream.atWord word = (token.kind == .identifier && Text.asciiLower token.text == word) := by
  rw [atWord, peek_of_ahead ahead]

theorem run_eq {kinds : Kinds} (ahead : stream.ahead = first ++ rest)
    (all : ∀ kind ∈ first.map Token.kind, kinds kind = true)
    (ends : ∀ token ∈ rest.head?, kinds token.kind = false) : stream.run kinds = first := by
  have inside : ∀ token ∈ first, kinds token.kind = true := fun token member =>
    all token.kind (List.mem_map_of_mem member)
  have none : rest.takeWhile (kinds ·.kind) = [] := by
    cases rest with
    | nil => rfl
    | cons token rest => simp [ends token rfl]
  rw [run_eq_takeWhile, ahead, List.takeWhile_append_of_pos inside, none, List.append_nil]

theorem ahead_skip_eq (stream : Stream) (kinds : Kinds) :
    (stream.skip kinds).ahead = stream.ahead.dropWhile (kinds ·.kind) := by
  rw [skip_eq_drop, ahead_drop, List.dropWhile_eq_drop_findIdx_not,
    List.takeWhile_eq_take_findIdx_not, List.length_take_of_le List.findIdx_le_length]

theorem ahead_skipSeparators (stream : Stream) :
    stream.skipSeparators.ahead = stream.ahead.dropWhile (·.kind.isSeparator) :=
  ahead_skip_eq _ _

theorem ahead_skip {kinds : Kinds} (ahead : stream.ahead = first ++ rest)
    (all : ∀ kind ∈ first.map Token.kind, kinds kind = true)
    (ends : ∀ token ∈ rest.head?, kinds token.kind = false) : (stream.skip kinds).ahead = rest := by
  rw [skip_eq_drop, ← run_eq_takeWhile, run_eq ahead all ends, ahead_drop, ahead]
  exact List.drop_left

theorem head?_skip (stream : Stream) (kinds : Kinds) :
    ∀ token ∈ (stream.skip kinds).ahead.head?, kinds token.kind = false := by
  intro token head
  obtain ⟨rest, ahead⟩ := List.head?_eq_some_iff.1 (Option.mem_def.1 head)
  exact peek_of_ahead ahead ▸ stream.kinds_peek_skip kinds

theorem skip_eq_self {kinds : Kinds}
    (ends : ∀ token ∈ stream.ahead.head?, kinds token.kind = false) :
    stream.skip kinds = stream := by
  rw [skip_eq_drop, ← run_eq_takeWhile, run_eq (List.nil_append _).symm (by simp) ends]
  rfl

theorem restOfLine_join (stream : Stream) :
    stream.restOfLine.1 = join (stream.ahead.takeWhile (!endsLine ·.kind)) :=
  congrArg join (run_eq_takeWhile _ _)

theorem label_join (stream : Stream) :
    stream.label.1 = join (stream.ahead.takeWhile (isLabelled ·.kind)) :=
  congrArg join (run_eq_takeWhile _ _)

theorem restOfLine_eq (ahead : stream.ahead = first ++ rest)
    (all : ∀ kind ∈ first.map Token.kind, endsLine kind = false)
    (ends : ∀ token ∈ rest.head?, endsLine token.kind = true) :
    stream.restOfLine.1 = join first ∧ stream.restOfLine.2.ahead = rest := by
  have all' : ∀ kind ∈ first.map Token.kind, inLine kind = true := by
    intro kind member
    simp [inLine, all kind member]
  have ends' : ∀ token ∈ rest.head?, inLine token.kind = false := by
    intro token head
    simp [inLine, ends token head]
  exact ⟨congrArg join (run_eq ahead all' ends'), ahead_skip ahead all' ends'⟩

theorem label_eq (ahead : stream.ahead = first ++ rest)
    (all : ∀ kind ∈ first.map Token.kind, isLabelled kind = true)
    (ends : ∀ token ∈ rest.head?, isLabelled token.kind = false) :
    stream.label.1 = join first ∧ stream.label.2.ahead = rest :=
  ⟨congrArg join (run_eq ahead all ends), ahead_skip ahead all ends⟩

theorem skipSeparators_cons (ahead : stream.ahead = token :: rest)
    (separator : token.kind.isSeparator = true) :
    stream.skipSeparators = (stream.drop 1).skipSeparators :=
  skip_of_goesOn (by rw [peek_of_ahead ahead]; exact separator)

/-! ## What goes on in a stream -/

def Within (left stream : Stream) : Prop := left.ahead <:+ stream.ahead

theorem Within.refl (stream : Stream) : stream.Within stream := List.suffix_refl _

theorem Within.trans {first second third : Stream} (one : first.Within second)
    (two : second.Within third) : first.Within third :=
  List.IsSuffix.trans one two

theorem Follows.within (follows : left.Follows stream) : left.Within stream := by
  obtain ⟨count, rfl⟩ := follows
  rw [Within, ahead_drop]
  exact List.drop_suffix _ _

theorem within_drop (stream : Stream) (count : Nat) : (stream.drop count).Within stream :=
  (follows_drop stream count).within

theorem within_skip (stream : Stream) (kinds : Kinds) : (stream.skip kinds).Within stream :=
  (follows_skip stream kinds).within

theorem Within.length_le (within : left.Within stream) : left.ahead.length ≤ stream.ahead.length :=
  List.IsSuffix.length_le within

end Lifeline.Stream
