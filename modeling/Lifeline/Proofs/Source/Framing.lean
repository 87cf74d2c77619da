import Lifeline.Proofs.Diagram.Clean
import Lifeline.Proofs.Diagram.Spans
import Lifeline.Proofs.Source.Joined
import Lifeline.Proofs.Source.Tidy

/-! Diagrams in repaired sources.

Repair looks for directives in the characters of a source, and the reader in its tokens. The two agree
where a directive that is mentioned is a token of its own among the lines that are kept, and where no
string and no comment goes on over the end that is added. -/

set_option autoImplicit false

namespace Lifeline

open Token (Kind Lexeme lexemes lexemes_cons lexemes_lineFeed placed)
open Token.Lexeme (commentBody commentBody_eq_length_or measure measured_measure stringBody)

namespace Repair

variable {text tail first rest : List Char} {lineStarts : Bool} {maxLines count : Nat}

/-! ## The end of a diagram behind a text -/

theorem unifyLines_append_lineFeed (noReturn : text.getLast? ≠ some '\r') (rest : List Char) :
    unifyLines (text ++ '\n' :: rest) = unifyLines text ++ '\n' :: unifyLines rest := by
  fun_induction unifyLines text with
  | case1 => rfl
  | case2 text ih => exact congrArg ('\n' :: ·) (ih (by cases text <;> simp_all))
  | case3 text apart ih =>
    cases text with
    | nil => exact absurd rfl noReturn
    | cons c text =>
      have later := ih (by simpa using noReturn)
      rw [List.cons_append, List.cons_append, unifyLines, ← List.cons_append, later]
      · rfl
      · rintro more same
        exact apart text (by rw [(List.cons.inj same).1])
  | case4 text ih => exact congrArg ('\n' :: ·) (ih (by cases text <;> simp_all))
  | case5 c text _ isReturn noEscape ih =>
    have later := ih (by cases text <;> simp_all)
    rw [List.cons_append, unifyLines_cons isReturn, later]
    · rfl
    · rintro rfl starts
      cases text with
      | nil => cases starts
      | cons d text => exact noEscape text rfl (by rw [Option.some.inj starts])

theorem squeeze_endDirective (seen : Nat) : squeeze seen endDirective = endDirective := rfl

theorem squeeze_append_endDirective (seen : Nat) (text : List Char) :
    squeeze seen (text ++ '\n' :: endDirective) = squeeze seen text ++ '\n' :: endDirective ∨
      (squeeze seen (text ++ '\n' :: endDirective) = squeeze seen text ++ endDirective ∧
        (List.replicate seen '\n' ++ squeeze seen text).getLast? = some '\n') := by
  fun_induction squeeze seen text with
  | case1 seen =>
    rw [List.nil_append, squeeze, if_pos rfl, squeeze_endDirective, squeeze_endDirective]
    split
    · exact .inl rfl
    · exact .inr ⟨rfl, by simp [List.getLast?_replicate]; omega⟩
  | case2 seen text few ih =>
    rw [List.replicate_succ', ← List.append_cons] at ih
    rw [List.cons_append, squeeze, if_pos rfl, if_pos few]
    exact ih.imp (congrArg ('\n' :: ·)) fun both => ⟨congrArg ('\n' :: ·) both.1, both.2⟩
  | case3 seen text many ih =>
    rw [List.cons_append, squeeze, if_pos rfl, if_neg many]
    exact ih
  | case4 seen c text noFeed ih =>
    rw [List.cons_append, squeeze_cons noFeed]
    refine ih.imp (congrArg (c :: ·)) fun both => ⟨congrArg (c :: ·) both.1, ?_⟩
    have last : (squeeze 0 text).getLast? = some '\n' := both.2
    simp [List.getLast?_append, List.getLast?_cons, last]

/-- The end that is added stands on a line of its own, and of the lines before it none is lost but an
empty one. -/
theorem smooth_append_endDirective (noReturn : text.getLast? ≠ some '\r') :
    ∃ inner, smooth 0 (text ++ '\n' :: endDirective) = inner ++ '\n' :: endDirective ∧
      (smooth 0 text = inner ∨ smooth 0 text = inner ++ ['\n']) := by
  have unified : unifyLines endDirective = endDirective := rfl
  unfold smooth
  rw [unifyLines_append_lineFeed noReturn, unified]
  rcases squeeze_append_endDirective 0 (unifyLines text) with same | ⟨same, last⟩
  · exact ⟨_, same, .inl rfl⟩
  · -- Then the text ends in an empty line, which the end takes the place of.
    obtain ⟨inner, ends⟩ := List.getLast?_eq_some_iff.1 last
    refine ⟨inner, ?_, .inr ends⟩
    rw [same, show squeeze 0 (unifyLines text) = _ from ends, List.append_assoc]
    rfl

/-! ## The lines that are kept -/

theorem takeLines_append_lineFeed (within : count ≤ lineCount first) (rest : List Char) :
    takeLines count (first ++ '\n' :: rest) = takeLines count first := by
  rw [takeLines, split_append_lineFeed, List.take_append_of_le_length within, ← takeLines]

theorem exists_takeLines_cons (positive : 0 < count) (noFeed : '\n' ∉ first) (rest : List Char) :
    ∃ more, takeLines count (first ++ '\n' :: rest) = first ++ more ∧ ∀ c ∈ more.head?, c = '\n' := by
  obtain ⟨count, rfl⟩ := Nat.exists_eq_succ_of_ne_zero positive.ne'
  have without : ∀ c ∈ first, (c == '\n') = false := fun c member =>
    beq_eq_false_iff_ne.2 fun feed => noFeed (feed ▸ member)
  rw [takeLines, Text.split_append_cons without rfl, List.take_succ_cons]
  cases (Text.split (· == '\n') rest).take count with
  | nil => exact ⟨[], by simp⟩
  | cons piece pieces =>
    refine ⟨'\n' :: ['\n'].intercalate (piece :: pieces), ?_, by simp⟩
    simp [List.intercalate_cons_cons]

def keptLines (source : String) (maxLines : Nat) : String :=
  String.ofList (takeLines maxLines (smooth 0 (addStart (Text.trim source.toList))))

/-- Whether a text is what is left of kept lines when they are closed: nothing is put behind them if they
mention an end, and a line with an end if they mention none. -/
def Completes (kept code : List Char) : Prop :=
  if mentions endDirective kept then code = kept
  else ∃ inner, code = inner ++ '\n' :: endDirective ∧ (kept = inner ∨ kept = inner ++ ['\n'])

theorem completes_addEnd (kept : List Char) : Completes kept (addEnd kept) := by
  unfold Completes addEnd
  split
  · rfl
  · exact ⟨kept, rfl, .inl rfl⟩

theorem completes_limitLines (noReturn : text.getLast? ≠ some '\r') (maxLines : Nat) :
    Completes (takeLines maxLines (smooth 0 text))
      (limitLines maxLines (smooth 0 (addEnd text))).code.toList := by
  have cut := completes_addEnd (takeLines maxLines (smooth 0 text))
  have mentioned := mentions_smooth (.inr rfl) 0 text
  unfold addEnd
  split
  · rename_i ends
    rcases limitLines_cases maxLines (smooth 0 text) with ⟨fits, same⟩ | ⟨-, same⟩ <;>
      rw [same, String.toList_ofList]
    · rw [takeLines_of_le fits, Completes, mentioned, if_pos ends]
    · exact cut
  · rename_i open'
    obtain ⟨inner, whole, same⟩ := smooth_append_endDirective noReturn
    have lines : lineCount (inner ++ '\n' :: endDirective) = lineCount inner + 1 :=
      lineCount_append_cons inner endDirective
    have fewer : lineCount (smooth 0 text) ≤ lineCount inner + 1 := by
      rcases same with same | same <;> rw [same]
      · exact Nat.le_succ _
      · exact (lineCount_append_cons inner []).le
    rw [whole]
    rcases limitLines_cases maxLines (inner ++ '\n' :: endDirective) with
      ⟨fits, limited⟩ | ⟨cutOff, limited⟩ <;> rw [limited, String.toList_ofList]
    · rw [takeLines_of_le (by omega), Completes, mentioned, if_neg open']
      exact ⟨inner, rfl, same⟩
    · have within : maxLines ≤ lineCount inner := by omega
      -- The cut comes before the end that is added, so the same lines are left with and without it.
      have same' : takeLines maxLines (smooth 0 text) = takeLines maxLines inner := by
        rcases same with same | same <;> rw [same]
        exact takeLines_append_lineFeed within []
      rw [takeLines_append_lineFeed within, ← same']
      exact cut

theorem completes_repair (source : String) (positive : 0 < maxLines) :
    Completes (keptLines source maxLines).toList (repair source maxLines).code.toList := by
  rw [keptLines, String.toList_ofList]
  rcases repair_cases source maxLines with ⟨empty, same⟩ | ⟨solid, same⟩ <;> rw [same]
  · have started : smooth 0 (addStart []) = startDirective ++ ['\n'] := rfl
    have silent : mentions endDirective startDirective = false ∧
        mentions endDirective (startDirective ++ ['\n']) = false := by decide
    rw [empty, started, String.toList_ofList]
    by_cases one : maxLines = 1
    · subst one
      rw [takeLines_append_lineFeed (by decide), takeLines_of_le (by decide), Completes, silent.1]
      exact ⟨startDirective, rfl, .inl rfl⟩
    · have two : lineCount (startDirective ++ ['\n']) = 2 := by decide
      rw [takeLines_of_le (by omega), Completes, silent.2]
      exact ⟨startDirective, rfl, .inr rfl⟩
  · refine completes_limitLines ?_ maxLines
    have last := Text.getLast?_trim source.toList
    generalize Text.trim source.toList = text at *
    have noReturn : text.getLast? ≠ some '\r' := fun ret => absurd (last '\r' ret) (by decide)
    unfold addStart
    split
    · exact noReturn
    · rw [List.append_cons, List.getLast?_append_of_ne_nil _ solid]
      exact noReturn

end Repair

namespace Token.Lexeme

variable {c : Char} {text rest tail : List Char} {lineStarts : Bool}

/-! ## Lexemes without their ends -/

theorem stringBody_of_not_mem (noQuote : '"' ∉ text) : stringBody text = (.unknown, text.length) := by
  have whole : text.takeWhile (· != '"') = text := by
    rw [List.takeWhile_eq_self_iff]
    exact fun c member => bne_iff_ne.2 fun same => noQuote (same ▸ member)
  rw [stringBody, whole, if_neg (Nat.lt_irrefl _)]

theorem commentBody_of_unclosed (open' : ¬['\'', '/'] <:+: text) : commentBody text = text.length :=
  (commentBody_eq_length_or text).resolve_right fun inside =>
    open' (inside.trans (List.take_prefix _ text).isInfix)

/-- Whether a character opens a string or a comment that the text behind it does not close. -/
def Opens (c : Char) (rest : List Char) : Prop :=
  c = '"' ∧ '"' ∉ rest ∨ c = '/' ∧ rest.head? = some '\'' ∧ ¬['\'', '/'] <:+: rest.tail

theorem opens_of_lacksEnd {kind : Option Kind} {count : Nat}
    (measured : measure lineStarts c rest = (kind, count))
    (lacks : LacksEnd ⟨kind, c :: rest.take count⟩) : Opens c rest := by
  obtain rfl : (measure lineStarts c rest).1 = kind := congrArg Prod.fst measured
  obtain rfl : (measure lineStarts c rest).2 = count := congrArg Prod.snd measured
  rcases lacks with ⟨quote, unknown⟩ | ⟨comment, unclosed⟩
  · obtain rfl : c = '"' := Option.some.inj quote
    refine .inl ⟨rfl, fun member => ?_⟩
    obtain ⟨inner, after, rfl, noQuote⟩ := List.eq_append_cons_of_mem member
    change some (stringBody (inner ++ '"' :: after)).1 = _ at unknown
    rw [stringBody_append noQuote] at unknown
    cases unknown
  · rcases (measured_measure lineStarts c rest).comment_opens comment with ⟨rfl, opens⟩ | ⟨rfl, -⟩
    · refine .inr ⟨rfl, opens, fun inside => unclosed fun _ => ?_⟩
      obtain ⟨body, rfl⟩ := List.head?_eq_some_iff.1 opens
      change ['\'', '/'] <:+: body.take (commentBody body)
      rcases commentBody_eq_length_or body with all | marked
      · rwa [all, List.take_length]
      · exact marked
    · refine absurd (fun opens => ?_) unclosed
      cases (List.cons_prefix_cons.1 opens).1

namespace Opens

theorem append (opens : Opens c rest) (noQuote : '"' ∉ tail) (noMark : '\'' ∉ tail) :
    Opens c (rest ++ '\n' :: tail) := by
  rcases opens with ⟨rfl, without⟩ | ⟨rfl, first, without⟩
  · exact .inl ⟨rfl, by simp [without, noQuote]⟩
  · obtain ⟨body, rfl⟩ := List.head?_eq_some_iff.1 first
    refine .inr ⟨rfl, rfl, fun within => ?_⟩
    rcases Text.infix_append_cons (c := '\n') (by decide) body within with inside | behind
    · exact without inside
    · exact noMark (behind.subset List.mem_cons_self)

def whole (c : Char) (rest : List Char) : Lexeme :=
  ⟨some (if c = '"' then .unknown else .comment), c :: rest⟩

theorem lacksEnd_whole (opens : Opens c rest) : (whole c rest).LacksEnd := by
  rcases opens with ⟨rfl, -⟩ | ⟨rfl, first, without⟩
  · exact .inl ⟨rfl, rfl⟩
  · obtain ⟨body, rfl⟩ := List.head?_eq_some_iff.1 first
    exact .inr ⟨rfl, fun closed => without (closed ⟨body, rfl⟩)⟩

theorem lexemes_eq (opens : Opens c rest) (lineStarts : Bool) :
    lexemes lineStarts (c :: rest) = [whole c rest] := by
  have measured : measure lineStarts c rest = ((whole c rest).kind, rest.length) := by
    rcases opens with ⟨rfl, without⟩ | ⟨rfl, first, without⟩
    · change (some (stringBody rest).1, (stringBody rest).2) = _
      rw [stringBody_of_not_mem without]
      rfl
    · obtain ⟨body, rfl⟩ := List.head?_eq_some_iff.1 first
      have length : commentBody body = body.length := commentBody_of_unclosed without
      change (some Kind.comment, commentBody body + 1) = _
      rw [length]
      rfl
  rw [lexemes_cons, measured, List.take_length, List.drop_length, lexemes]
  rfl

end Opens

theorem measure_append_of_ends {kind : Option Kind} {count : Nat}
    (measured : measure lineStarts c rest = (kind, count))
    (ends : ¬LacksEnd ⟨kind, c :: rest.take count⟩) (tail : List Char) :
    measure lineStarts c (rest ++ '\n' :: tail) = (kind, count) := by
  rw [LacksEnd, not_or, not_and, not_and_not_right] at ends
  rw [← measured]
  apply Repair.measure_append_lineFeed
  · rw [measured]
    exact fun quote => ends.1 (congrArg some quote)
  · rw [measured]
    exact ends.2

theorem lexemes_append_open (opened : ∃ lexeme ∈ lexemes lineStarts text, lexeme.LacksEnd)
    (noQuote : '"' ∉ tail) (noMark : '\'' ∉ tail) :
    (lexemes lineStarts (text ++ '\n' :: tail)).map kind = (lexemes lineStarts text).map kind ∧
      ∃ lexeme ∈ lexemes lineStarts (text ++ '\n' :: tail), lexeme.LacksEnd := by
  fun_induction lexemes lineStarts text with
  | case1 lineStarts =>
    obtain ⟨lexeme, member, -⟩ := opened
    cases member
  | case2 lineStarts c rest kind count same ih =>
    have measured := measured_measure lineStarts c rest
    rw [same] at measured
    by_cases lacks : LacksEnd ⟨kind, c :: rest.take count⟩
    · have opens : Opens c rest := opens_of_lacksEnd same lacks
      have longer := opens.append noQuote noMark
      have now := opens.lexemes_eq lineStarts
      rw [lexemes_cons, same] at now
      rw [List.cons_append, longer.lexemes_eq, now]
      exact ⟨rfl, _, List.mem_cons_self, longer.lacksEnd_whole⟩
    · have stays := measure_append_of_ends same lacks tail
      obtain ⟨lexeme, member, open'⟩ := opened
      rcases List.mem_cons.1 member with rfl | later
      · exact absurd open' lacks
      obtain ⟨kinds, found, inside, open'⟩ := ih ⟨lexeme, later, open'⟩
      rw [List.cons_append, lexemes_cons, stays,
        List.drop_append_of_le_length measured.count_le, List.map_cons, List.map_cons, kinds]
      exact ⟨rfl, found, List.mem_cons_of_mem _ inside, open'⟩

end Token.Lexeme

/-! ## Diagrams that are found -/

namespace Parsing

variable {parsing : Parsing} {token : Token}

/-- Whether a reading has found a diagram, is within one, or still has the start of one before it. -/
def Finds (parsing : Parsing) : Prop :=
  parsing.diagrams ≠ [] ∨ parsing.diagram.isSome = true ∨
    ∃ token ∈ parsing.stream.ahead, token.kind = .startUml

theorem diagrams_finish (parsing : Parsing) (opened current : Token) (reached : Nat) :
    (parsing.finish opened current reached).diagrams ≠ [] := by
  simp [finish]

theorem Finds.skipSeparators (finds : parsing.Finds) : parsing.skipSeparators.Finds := by
  refine finds.imp_right (Or.imp_right ?_)
  rintro ⟨token, member, starts⟩
  refine ⟨token, ?_, starts⟩
  change token ∈ parsing.stream.skipSeparators.ahead
  rw [Stream.ahead_skipSeparators]
  rw [← List.takeWhile_append_dropWhile (p := (·.kind.isSeparator)) (l := parsing.stream.ahead),
    List.mem_append] at member
  refine member.resolve_left fun passed => ?_
  have separator := List.mem_takeWhile_imp passed
  rw [starts] at separator
  cases separator

theorem Finds.step {rest : List Token} (finds : parsing.Finds)
    (ahead : parsing.stream.ahead = token :: rest) : (parsing.step token).Finds := by
  cases inside : parsing.diagram with
  | none =>
    rw [step_outside inside, outside]
    split
    · exact .inr (.inl rfl)
    · -- Any other token is left out, and the start of a diagram is still to come.
      rename_i other
      refine finds.imp_right fun later => .inr ?_
      rw [inside, ahead] at later
      obtain ⟨start, member, starts⟩ := later.resolve_left Bool.false_ne_true
      rcases List.mem_cons.1 member with rfl | behind
      · exact absurd starts other
      · exact ⟨start, (Stream.ahead_drop_one ahead).symm ▸ behind, starts⟩
  | some opened =>
    rw [step_inside inside]
    by_cases endUml : token.kind = .endUml
    · rw [Parsing.inside, endUml]
      exact .inl (diagrams_finish _ _ _ _)
    · refine .inr (.inl ?_)
      rw [diagram_inside endUml, advance, inside]
      rfl

theorem Finds.complete (finds : parsing.Finds) (nothing : parsing.stream.ahead = []) :
    parsing.complete.diagrams ≠ [] := by
  rw [Finds, nothing] at finds
  unfold Parsing.complete
  split
  · rename_i none
    simpa [none] using finds
  · exact diagrams_finish _ _ _ _

theorem Finds.diagrams_ne_nil (finds : parsing.Finds) : parsing.run.complete.diagrams ≠ [] := by
  have kept : parsing.run.Finds :=
    run_keeps (fun _ finds => finds.skipSeparators) (fun _ _ _ finds ahead => finds.step ahead) finds
  exact kept.complete parsing.stream_run.2

end Parsing

namespace Repair

variable {text tail : List Char} {maxLines : Nat}

def kinds (code : String) : List Kind := (tokenize code).tokens.map Token.kind

/-- Whether a token starts a diagram and a later one ends it. -/
def HoldsDiagram (code : String) : Prop := [Kind.startUml, Kind.endUml].Sublist (kinds code)

instance (code : String) : Decidable (HoldsDiagram code) :=
  inferInstanceAs (Decidable (List.Sublist _ _))

/-- The byte offsets at which a text spells a word, whatever the case in the text. -/
def mentionPlaces (word : List Char) (offset : Nat) : List Char → List Nat
  | [] => []
  | c :: rest =>
    let later := mentionPlaces word (offset + c.utf8Size) rest
    if word.isPrefixOf ((c :: rest).map foldCase) then offset :: later else later

/-- Whether every mention of a directive in a text is a token that is the directive. -/
def Genuine (kind : Kind) (word : List Char) (text : String) : Prop :=
  ∀ place ∈ mentionPlaces word 0 text.toList,
    ∃ token ∈ (tokenize text).tokens, token.kind = kind ∧ token.offset = place

/-- Lines that say what they seem to say of directives: none is mentioned that is not there, a start is
mentioned before an end, and where no end is mentioned, one that is put behind the lines is read. -/
structure Candid (kept : String) : Prop where
  start : Genuine .startUml startDirective kept
  stop : Genuine .endUml endDirective kept
  ordered : mentions endDirective kept.toList = true →
    ∃ first ∈ mentionPlaces startDirective 0 kept.toList,
      ∃ last ∈ mentionPlaces endDirective 0 kept.toList, first < last
  closed : mentions endDirective kept.toList = false →
    ∀ token ∈ (tokenize kept).tokens, ¬token.LacksEnd

instance (kind : Kind) (word : List Char) (text : String) : Decidable (Genuine kind word text) :=
  inferInstanceAs (Decidable (∀ _ ∈ _, _))

theorem mentionPlaces_ne_nil {word : List Char} (some : word ≠ []) (offset : Nat) (text : List Char) :
    mentionPlaces word offset text ≠ [] ↔ mentions word text = true := by
  induction text generalizing offset with
  | nil => simpa [mentionPlaces, mentions, hasPart] using some
  | cons c rest ih =>
    have later := ih (offset + c.utf8Size)
    rw [mentions] at later
    rw [mentionPlaces, mentions, List.map_cons, hasPart, Bool.or_eq_true, ← later]
    split
    · rename_i here
      exact iff_of_true (List.cons_ne_nil _ _) (.inl here)
    · rename_i elsewhere
      exact ⟨.inr, fun either => either.resolve_left elsewhere⟩

theorem Genuine.mem_kinds {kind : Kind} {word : List Char} {text : String}
    (genuine : Genuine kind word text) (some : word ≠ [])
    (mentioned : mentions word text.toList = true) : kind ∈ kinds text := by
  obtain ⟨place, member⟩ := List.exists_mem_of_ne_nil _ ((mentionPlaces_ne_nil some 0 _).2 mentioned)
  obtain ⟨token, inside, same, -⟩ := genuine place member
  exact List.mem_map.2 ⟨token, inside, same⟩

theorem pair_sublist {text : String} {first last : Token} (member : first ∈ (tokenize text).tokens)
    (member' : last ∈ (tokenize text).tokens) (before : first.offset < last.offset) :
    [first, last].Sublist (tokenize text).tokens := by
  have ordered := (Token.ordered_tokenize text).1
  obtain ⟨earlier, later, same⟩ := List.append_of_mem member
  rw [same] at member' ordered ⊢
  rcases List.mem_append.1 member' with inside | inside
  · have above := (List.pairwise_append.1 ordered).2.2 last inside first List.mem_cons_self
    have within := last.offset_le_stop
    omega
  · rcases List.mem_cons.1 inside with rfl | behind
    · exact absurd before (Nat.lt_irrefl _)
    · exact ((List.singleton_sublist.2 behind).cons_cons first).trans (List.sublist_append_right _ _)

theorem Candid.holdsDiagram {kept : String} (candid : Candid kept)
    (mentioned : mentions endDirective kept.toList = true) : HoldsDiagram kept := by
  obtain ⟨place, member, place', member', before⟩ := candid.ordered mentioned
  obtain ⟨first, inside, kind, rfl⟩ := candid.start place member
  obtain ⟨last, inside', kind', rfl⟩ := candid.stop place' member'
  have both := (pair_sublist inside inside' before).map Token.kind
  rw [List.map_cons, List.map_cons, kind, kind'] at both
  exact both

theorem kinds_ofList (text : List Char) :
    kinds (String.ofList text) = (lexemes true text).filterMap Lexeme.kind ++ [.eof] := by
  rw [kinds, Token.tokens_tokenize, String.toList_ofList, List.map_append, Token.map_kind_placed]
  rfl

theorem diagrams_ne_nil {code : String} (starts : Kind.startUml ∈ kinds code) :
    (Document.ofSource code).diagrams ≠ [] := by
  have finds : (Parsing.start (.ofTokens (tokenize code).tokens)).Finds := by
    refine .inr (.inr ?_)
    rw [Parsing.start, ahead_ofTokens]
    rw [kinds, Token.tokens_tokenize, List.map_append, List.mem_append] at starts
    obtain ⟨token, member, kind⟩ := List.mem_map.1 (starts.resolve_right (by simp [Token.endOfInput]))
    exact ⟨token, member, kind⟩
  exact fun none => finds.diagrams_ne_nil (List.reverse_eq_nil_iff.1 none)

/-! ## Behind the lines that are kept -/

theorem kinds_append_of_ends (ends : ∀ lexeme ∈ lexemes true text, ¬lexeme.LacksEnd)
    (tail : List Char) :
    kinds (String.ofList (text ++ '\n' :: tail)) =
      (lexemes true text).filterMap Lexeme.kind ++ .newline :: kinds (String.ofList tail) := by
  rw [kinds_ofList, kinds_ofList, Lexeme.lexemes_append_of_ends ends]
  simp

theorem kinds_append_of_open (opened : ∃ lexeme ∈ lexemes true text, lexeme.LacksEnd)
    (noQuote : '"' ∉ tail) (noMark : '\'' ∉ tail) :
    kinds (String.ofList (text ++ '\n' :: tail)) = kinds (String.ofList text) := by
  have same := congrArg (List.filterMap id) (Lexeme.lexemes_append_open opened noQuote noMark).1
  rw [List.filterMap_map, List.filterMap_map] at same
  rw [kinds_ofList, kinds_ofList]
  exact congrArg (· ++ [Kind.eof]) same

theorem startUml_append_iff (noQuote : '"' ∉ tail) (noMark : '\'' ∉ tail)
    (silent : Kind.startUml ∉ kinds (String.ofList tail)) :
    Kind.startUml ∈ kinds (String.ofList (text ++ '\n' :: tail)) ↔
      Kind.startUml ∈ kinds (String.ofList text) := by
  by_cases opened : ∃ lexeme ∈ lexemes true text, lexeme.LacksEnd
  · rw [kinds_append_of_open opened noQuote noMark]
  · have ends : ∀ lexeme ∈ lexemes true text, ¬lexeme.LacksEnd := by simpa using opened
    rw [kinds_append_of_ends ends, kinds_ofList text]
    simp [silent]

theorem holdsDiagram_append (starts : Kind.startUml ∈ kinds (String.ofList text))
    (ends : ∀ lexeme ∈ lexemes true text, ¬lexeme.LacksEnd) :
    HoldsDiagram (String.ofList (text ++ '\n' :: endDirective)) := by
  have last : kinds (String.ofList endDirective) = [.endUml, .eof] := by
    rw [kinds_ofList, lexemes_endDirective]
    rfl
  rw [kinds_ofList, List.mem_append] at starts
  have first := List.singleton_sublist.2 (starts.resolve_right (by simp))
  rw [HoldsDiagram, kinds_append_of_ends ends, last]
  exact first.append (.cons _ (.cons_cons _ (.cons _ .slnil)))

theorem startUml_keptLines {source : String} (positive : 0 < maxLines)
    (none : mentions startDirective (Text.trim source.toList) = false) :
    Kind.startUml ∈ kinds (keptLines source maxLines) := by
  have started : smooth 0 (addStart (Text.trim source.toList)) =
      startDirective ++ '\n' :: smooth 1 (Text.trim source.toList) := by
    rw [addStart, if_neg (by simp [none])]
    rfl
  obtain ⟨more, taken, ends⟩ : ∃ more,
      takeLines maxLines (startDirective ++ '\n' :: smooth 1 (Text.trim source.toList)) =
        startDirective ++ more ∧ ∀ c ∈ more.head?, c = '\n' :=
    exists_takeLines_cons positive (by decide) _
  have lexed := @Token.lexemes_directive "startuml".toList (by decide) .startUml rfl true more
    fun c head => by rw [ends c head]; rfl
  rw [keptLines, started, taken, kinds_ofList]
  change Kind.startUml ∈ (lexemes true ('@' :: ("startuml".toList ++ more))).filterMap Lexeme.kind ++ _
  rw [lexed]
  exact List.mem_cons_self

namespace Completes

variable {kept code : List Char}

theorem startUml_iff (completes : Completes kept code) :
    Kind.startUml ∈ kinds (String.ofList code) ↔ Kind.startUml ∈ kinds (String.ofList kept) := by
  have noStart : Kind.startUml ∉ kinds (String.ofList endDirective) ∧
      Kind.startUml ∉ kinds (String.ofList []) := by decide +kernel
  unfold Completes at completes
  split at completes
  · rw [completes]
  · obtain ⟨inner, rfl, rfl | rfl⟩ := completes
    · exact startUml_append_iff (by decide) (by decide) noStart.1
    · rw [startUml_append_iff (by decide) (by decide) noStart.1,
        startUml_append_iff (by simp) (by simp) noStart.2]

theorem holdsDiagram (completes : Completes kept code)
    (starts : Kind.startUml ∈ kinds (String.ofList code)) (candid : Candid (String.ofList kept)) :
    HoldsDiagram (String.ofList code) := by
  have ended := candid.holdsDiagram
  have closed := candid.closed
  rw [String.toList_ofList] at ended closed
  unfold Completes at completes
  split at completes
  · rename_i mentioned
    rw [completes]
    exact ended mentioned
  · rename_i silent
    have ends := Token.ends_lexemes (closed (by simpa using silent))
    rw [String.toList_ofList] at ends
    obtain ⟨inner, rfl, same⟩ := completes
    rw [startUml_append_iff (by decide) (by decide) (by decide +kernel)] at starts
    refine holdsDiagram_append starts fun lexeme member lacks => ?_
    rcases same with rfl | rfl
    · exact ends lexeme member lacks
    · -- What is open before an empty line is open behind it.
      obtain ⟨other, inside, open'⟩ := (Lexeme.lexemes_append_open ⟨lexeme, member, lacks⟩
        List.not_mem_nil List.not_mem_nil).2
      exact ends other inside open'

end Completes

/-- Repair gives a source with a whole diagram, also where it cuts lines off, if no start is cut off with
them and the lines that are kept are candid about their directives. -/
theorem holdsDiagram_repair (source : String) (positive : 0 < maxLines)
    (kept : mentions startDirective (Text.trim source.toList) = true →
      mentions startDirective (keptLines source maxLines).toList = true)
    (candid : Candid (keptLines source maxLines)) :
    HoldsDiagram (repair source maxLines).code ∧
      (Document.ofSource (repair source maxLines).code).diagrams ≠ [] := by
  have completes := completes_repair source positive
  have starts : Kind.startUml ∈ kinds (keptLines source maxLines) := by
    by_cases mentioned : mentions startDirective (Text.trim source.toList) = true
    · exact candid.start.mem_kinds (by decide) (kept mentioned)
    · exact startUml_keptLines positive (by simpa using mentioned)
  have started := completes.startUml_iff
  have ended := completes.holdsDiagram
  rw [String.ofList_toList, String.ofList_toList] at started ended
  have found := started.2 starts
  exact ⟨ended found candid, diagrams_ne_nil found⟩

def cutShort : String := "@startuml\nnote over A : \"x\ny\"\nA -> B\n@enduml"

theorem candid_cutShort : Candid (keptLines cutShort 3) where
  start := by decide +kernel
  stop := by decide +kernel
  ordered := by decide +kernel
  closed := by decide +kernel

theorem holdsDiagram_repair_cutShort :
    0 < 3 ∧ mentions startDirective (keptLines cutShort 3).toList = true ∧
      Candid (keptLines cutShort 3) ∧ (repair cutShort 3).truncated = true ∧
      HoldsDiagram (repair cutShort 3).code ∧
      (Document.ofSource (repair cutShort 3).code).diagrams ≠ [] := by
  have starts : mentions startDirective (keptLines cutShort 3).toList = true := by decide +kernel
  exact ⟨by decide, starts, candid_cutShort, by decide +kernel,
    holdsDiagram_repair cutShort (by decide) (fun _ => starts) candid_cutShort⟩

/-- A mention is not enough: of the start in a comment, of either directive in a longer word, or of the
end before the start. Neither is an end behind a string that is open or in a comment that is cut, nor a
start that is cut off. -/
theorem not_holdsDiagram :
    (Document.ofSource (repair "' @startuml\nA -> B : hi" 10).code).diagrams = [] ∧
      ¬HoldsDiagram (repair "' @startuml\nA -> B : hi" 10).code ∧
      ¬HoldsDiagram (repair "A -> B : mail@startumls" 10).code ∧
      ¬HoldsDiagram (repair "A -> B : mail@enduml2" 10).code ∧
      ¬HoldsDiagram (repair "@enduml\n@startuml" 10).code ∧
      ¬HoldsDiagram (repair "title \"one" 10).code ∧
      ¬HoldsDiagram (repair "@startuml\n/' one\ntwo '/\nA -> B\n@enduml" 2).code ∧
      ¬HoldsDiagram (repair "A -> B\nB -> A\n@startuml\n@enduml" 2).code := by
  decide +kernel

end Repair

end Lifeline
