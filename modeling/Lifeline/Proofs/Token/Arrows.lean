import Lifeline.Proofs.Token.Clear
import Lifeline.Proofs.Token.Cuts

/-! Arrows in runs of arrow characters.

At a character of such a run the scanner tries all that is left of the run. If that is no arrow it takes
the one character and tries again behind it, so that of every run the longest end that is an arrow becomes
one. A slash before the run is tried with it, unless the slash belongs to something else. Main statement:
this is what becomes of every run outside comments and strings, and no arrow has more of its run behind
it. -/

set_option autoImplicit false

namespace Lifeline

namespace Token

open Lexeme (isArrowTail EndsArrow Measured measure)

variable {lineStarts : Bool}

/-- The last place between lexemes up to some place in a text: either the two are the same, or a lexeme
starts at the one that reaches beyond the other. -/
theorem exists_stop (lineStarts : Bool) (before after : List Char) :
    ∃ found starts tail, lexemes lineStarts (before ++ after) = found ++ lexemes starts (tail ++ after) ∧
      before = spelled found ++ tail ∧
      (tail = [] ∨ ∃ c more, tail = c :: more ∧ more.length < (measure starts c (more ++ after)).2) := by
  generalize whole : before ++ after = text
  fun_induction lexemes lineStarts text generalizing before with
  | case1 lineStarts =>
    obtain ⟨rfl, rfl⟩ := List.append_eq_nil_iff.1 whole
    exact ⟨[], lineStarts, [], by simp [lexemes], rfl, .inl rfl⟩
  | case2 lineStarts c rest kind count same ih =>
    have cut : lexemes lineStarts (c :: rest) = ⟨kind, c :: rest.take count⟩ ::
        lexemes (Lexeme.linesUp lineStarts kind) (rest.drop count) := by
      rw [lexemes_cons, same]
    rw [← cut]
    cases before with
    | nil => exact ⟨[], lineStarts, [], by rw [← whole]; rfl, rfl, .inl rfl⟩
    | cons d before =>
      rw [List.cons_append, List.cons.injEq] at whole
      obtain ⟨rfl, rfl⟩ := whole
      by_cases within : count ≤ before.length
      · obtain ⟨found, starts, tail, split, spells, ends⟩ := ih (before.drop count)
          (List.drop_append_of_le_length within).symm
        refine ⟨_ :: found, starts, tail, by rw [cut, split]; rfl, ?_, ends⟩
        rw [spelled_cons, List.append_assoc, ← spells, List.take_append_of_le_length within]
        simp
      · refine ⟨[], lineStarts, d :: before, rfl, rfl, .inr ⟨d, before, rfl, ?_⟩⟩
        rw [same]
        omega

/-! ## Runs -/

def IsArrow (text : List Char) : Prop := (arrowClass? (String.ofList text)).isSome = true

instance (text : List Char) : Decidable (IsArrow text) := inferInstanceAs (Decidable (_ = true))

theorem IsArrow.listed {text : List Char} (isArrow : IsArrow text) :
    text ∈ arrows.map fun known => known.1.toList := by
  obtain ⟨kind, found⟩ := Option.isSome_iff_exists.1 isArrow
  obtain ⟨before, after, same, -⟩ := List.lookup_eq_some_iff.1 found
  refine List.mem_map.2 ⟨(String.ofList text, kind), by simp [same], String.toList_ofList⟩

theorem IsArrow.head {c : Char} {rest : List Char} (isArrow : IsArrow (c :: rest)) :
    c = '-' ∨ c = '<' ∨ c = '/' ∧ rest.head? = some '-' := by
  have listed := isArrow.listed
  simp [arrows] at listed
  grind

/-- The lexemes of a run of arrow characters: one by one, until what is left is an arrow. -/
def runLexemes : List Char → List Lexeme
  | [] => []
  | c :: rest =>
    if IsArrow (c :: rest) then [⟨some .arrow, c :: rest⟩]
    else ⟨some .unknown, [c]⟩ :: runLexemes rest

theorem measure_arrowTail {c : Char} (tail : isArrowTail c = true) (rest : List Char) :
    measure lineStarts c rest =
      if IsArrow (c :: rest.takeWhile isArrowTail) then
        (some .arrow, (rest.takeWhile isArrowTail).length)
      else (some .unknown, 0) := by
  have tried : (some (Lexeme.arrowBody c rest).1, (Lexeme.arrowBody c rest).2) =
      if IsArrow (c :: rest.takeWhile isArrowTail) then
        (some .arrow, (rest.takeWhile isArrowTail).length)
      else (some .unknown, 0) := by
    unfold Lexeme.arrowBody
    dsimp only
    rw [apply_ite (fun body : Kind × Nat => (some body.1, body.2))]
    rfl
  have lone (other : ¬IsArrow (c :: rest.takeWhile isArrowTail)) :
      (if IsArrow (c :: rest.takeWhile isArrowTail) then
        (some Kind.arrow, (rest.takeWhile isArrowTail).length)
      else (some .unknown, 0)) = (some .unknown, 0) := if_neg other
  rcases isArrowTail_cases tail with rfl | rfl | rfl | rfl
  · exact tried
  · rw [lone fun isArrow => absurd isArrow.head (by simp)]
    rfl
  · exact tried
  · rw [lone fun isArrow => absurd isArrow.head (by simp)]
    rfl

theorem lexemes_run {run after : List Char} (nonempty : run ≠ [])
    (members : ∀ c ∈ run, isArrowTail c = true) (ends : EndsArrow after) :
    lexemes lineStarts (run ++ after) = runLexemes run ++ lexemes false after := by
  induction run generalizing lineStarts with
  | nil => exact absurd rfl nonempty
  | cons c rest ih =>
    obtain ⟨tail, later⟩ := List.forall_mem_cons.1 members
    have whole : (rest ++ after).takeWhile isArrowTail = rest := by
      rw [Lexeme.takeWhile_append_of_head rest ends, List.takeWhile_eq_self_iff]
      exact later
    rw [List.cons_append, lexemes_cons, measure_arrowTail tail, whole, runLexemes]
    split
    · rw [List.take_left, List.drop_left]
      rfl
    · -- The character alone is passed over, and no line starts behind it.
      have next : lexemes false (rest ++ after) = runLexemes rest ++ lexemes false after := by
        cases rest with
        | nil => rfl
        | cons d rest => exact ih (List.cons_ne_nil d rest) later
      rw [List.take_zero, List.drop_zero, List.cons_append, ← next]
      rfl

/-- Whether an end of a run is the longest one that is an arrow; it is empty if there is none. -/
structure LongestArrow (run arrow : List Char) : Prop where
  isArrow : arrow = [] ∨ IsArrow arrow
  longest : ∀ suffix, suffix <:+ run → IsArrow suffix → suffix <:+ arrow

theorem exists_longestArrow (run : List Char) : ∃ lead arrow, run = lead ++ arrow ∧
    LongestArrow run arrow ∧
    runLexemes run = lead.map (⟨some .unknown, [·]⟩) ++
      if arrow = [] then [] else [⟨some .arrow, arrow⟩] := by
  induction run with
  | nil =>
    refine ⟨[], [], rfl, ⟨.inl rfl, ?_⟩, rfl⟩
    intro suffix within isArrow
    exact within
  | cons c rest ih =>
    by_cases whole : IsArrow (c :: rest)
    · refine ⟨[], c :: rest, rfl, ⟨.inr whole, fun suffix within _ => within⟩, ?_⟩
      simp [runLexemes, whole]
    · obtain ⟨lead, arrow, rfl, ⟨isArrow, longest⟩, same⟩ := ih
      refine ⟨c :: lead, arrow, rfl, ⟨isArrow, ?_⟩, ?_⟩
      · -- The whole run is no arrow, so an end that is one is an end of the rest.
        intro suffix within found
        rcases List.suffix_cons_iff.1 within with rfl | later
        · exact absurd found whole
        · exact longest suffix later found
      · rw [runLexemes, if_neg whole, same]
        rfl

theorem lexemes_slash {run after : List Char} (isArrow : IsArrow ('/' :: run))
    (members : ∀ c ∈ run, isArrowTail c = true) (ends : EndsArrow after) :
    lexemes lineStarts ('/' :: (run ++ after)) = ⟨some .arrow, '/' :: run⟩ :: lexemes false after := by
  have dash : run.head? = some '-' := by simpa using isArrow.head
  obtain ⟨rest, rfl⟩ := List.head?_eq_some_iff.1 dash
  have whole : ('-' :: rest ++ after).takeWhile isArrowTail = '-' :: rest := by
    rw [Lexeme.takeWhile_append_of_head _ ends, List.takeWhile_eq_self_iff]
    exact members
  have tried : Lexeme.arrowBody '/' ('-' :: rest ++ after) = (.arrow, ('-' :: rest).length) := by
    unfold Lexeme.arrowBody
    dsimp only
    rw [whole]
    exact if_pos isArrow
  have measured : measure lineStarts '/' ('-' :: rest ++ after) =
      (some .arrow, ('-' :: rest).length) :=
    congrArg (fun body : Kind × Nat => (some body.1, body.2)) tried
  rw [lexemes_cons, measured]
  dsimp only
  rw [List.take_left, List.drop_left]
  rfl

theorem Lexeme.Measured.of_reaches {c d : Char} {more rest : List Char} {kind : Option Kind}
    {count : Nat} (measured : Measured lineStarts c (more ++ d :: rest) kind count)
    (reaches : more.length < count) (tail : isArrowTail d = true) :
    kind = some .comment ∨ kind = some .string ∨ kind = some .unknown ∧ c = '"' ∨
      kind = some .arrow ∧ IsArrow (c :: (more ++ d :: rest).takeWhile isArrowTail) ∧
        more.length < ((more ++ d :: rest).takeWhile isArrowTail).length := by
  have inside : d ∈ (more ++ d :: rest).take count := by
    rw [List.take_append, List.mem_append]
    right
    obtain ⟨further, same⟩ := Nat.exists_eq_add_of_lt reaches
    rw [show count - more.length = further + 1 by omega]
    exact List.mem_cons_self
  have name (member : isNameChar d = true) : False := by
    rcases isArrowTail_cases tail with rfl | rfl | rfl | rfl <;> exact absurd member (by decide)
  generalize more ++ d :: rest = text at measured inside ⊢
  cases measured with
  | space | lineFeed | mark | lone => cases reaches
  | blockComment | lineComment => exact .inl rfl
  | string => exact .inr (.inl rfl)
  | openString => exact .inr (.inr (.inl ⟨rfl, rfl⟩))
  | arrow isArrow => exact .inr (.inr (.inr ⟨rfl, isArrow, reaches⟩))
  | directive =>
    have member := mem_take_takeWhile inside
    exact (name (isNameChar_of_isIdentifierChar (by simp [isIdentifierChar, member]))).elim
  | word => exact (name (isNameChar_of_isIdentifierChar (mem_take_takeWhile inside))).elim
  | number => exact (name (isNameChar_of_isDigit (mem_numberBody inside))).elim

theorem Lexeme.Measured.arrow_ends {c : Char} {rest : List Char} {count : Nat}
    (measured : Measured lineStarts c rest (some .arrow) count) : EndsArrow (rest.drop count) := by
  cases measured.formed (by decide)
  intro d first
  have stopped := List.head?_dropWhile_not isArrowTail rest
  rw [← drop_takeWhile, Option.mem_def.1 first] at stopped
  exact stopped

/-! ## Tokens -/

def Between (source : String) (first last : Nat) (pieces : List Token) : Prop :=
  ∃ earlier later, (tokenize source).tokens = earlier ++ pieces ++ later ∧
    (∀ token ∈ earlier, token.stop ≤ first) ∧ ∀ token ∈ later, last ≤ token.offset

section Cut

variable {source : String}

theorem between_of_cut {found pieces rest : List Lexeme}
    (split : lexemes true source.toList = found ++ (pieces ++ rest)) :
    Between source (Text.byteSize (spelled found)) (Text.byteSize (spelled found ++ spelled pieces))
      (placed (Position.start.advance (spelled found)) pieces) := by
  obtain ⟨stop, -, offset, tokens⟩ := tokens_of_cut split
  rw [placed_append, List.append_assoc, ← List.append_assoc] at tokens
  refine ⟨_, _, tokens, ?_, ?_⟩
  · intro token member
    simpa [Position.start] using stop_le_of_mem member
  · intro token member
    have whole : source.toList = spelled found ++ (spelled pieces ++ spelled rest) := by
      rw [← spelled_append, ← spelled_append, ← split, spelled_lexemes]
    rcases List.mem_append.1 member with inside | last
    · have behind := offset_le_of_mem inside
      rw [Position.offset_advance, Position.offset_advance] at behind
      simpa [Position.start] using behind
    · rw [List.mem_singleton.1 last, offset, whole]
      simp only [Text.byteSize_append]
      omega

theorem exists_token_of_cut {found rest : List Lexeme} {kind : Kind} {text : List Char}
    (split : lexemes true source.toList = found ++ ⟨some kind, text⟩ :: rest) :
    ∃ token ∈ (tokenize source).tokens, token.spelling = (kind, text) ∧
      token.offset = Text.byteSize (spelled found) ∧
      token.stop = Text.byteSize (spelled found ++ text) := by
  obtain ⟨stop, -, -, tokens⟩ := tokens_of_cut split
  rw [placed_token] at tokens
  refine ⟨_, by rw [tokens]; exact List.mem_append_right _ List.mem_cons_self, ?_, ?_, ?_⟩
  · simp [spelling]
  · simp [Position.offset_advance, Position.start]
  · rw [stop_eq]
    simp [Position.offset_advance, Position.start]

theorem exists_cut_at {token : Token} {before after : List Char}
    (member : token ∈ (tokenize source).tokens) (whole : source.toList = before ++ after)
    (nonempty : after ≠ []) (stands : token.offset = Text.byteSize before) :
    ∃ found starts, spelled found = before ∧
      lexemes true source.toList = found ++ lexemes starts after ∧
      (lexemes starts after).head? = some ⟨some token.kind, token.text.toList⟩ := by
  rw [tokens_tokenize, List.mem_append, List.mem_singleton] at member
  rcases member with inside | rfl
  · obtain ⟨found, rest, cut, offset⟩ := exists_cut_of_mem inside
    obtain ⟨spells, starts, again⟩ := exists_lexemes cut
    have size : Text.byteSize (spelled found) = Text.byteSize before := by
      simpa [Position.start, offset] using stands
    obtain ⟨same, later⟩ := Text.eq_of_byteSize (spells.symm.trans whole) size
    rw [later] at again
    refine ⟨found, starts, same, by rw [cut, again], by rw [← again]; rfl⟩
  · -- The end mark stands behind every character.
    obtain ⟨c, rest, rfl⟩ := List.exists_cons_of_ne_nil nonempty
    have positive := c.utf8Size_pos
    have size : Text.byteSize source.toList = Text.byteSize before := by
      simpa [endOfInput, Position.offset_advance, Position.start] using stands
    rw [whole, Text.byteSize_append, Text.byteSize_cons] at size
    omega

end Cut

/-- A run of arrow characters in a text that no character beside it makes longer. -/
structure ArrowRun (text before run after : List Char) : Prop where
  split : text = before ++ (run ++ after)
  nonempty : run ≠ []
  members : ∀ c ∈ run, isArrowTail c = true
  opens : ∀ c ∈ before.getLast?, isArrowTail c = false
  ends : EndsArrow after

def Encloses (token : Token) : Prop :=
  token.kind = .comment ∨ token.kind = .string ∨ token.OpensString

instance (token : Token) : Decidable token.Encloses := inferInstanceAs (Decidable (_ ∨ _ ∨ _))

/-- Whether a run goes with the slash behind a text: a token of the source starts there, and the two make
an arrow. -/
def JoinsSlash (source : String) (start run : List Char) : Prop :=
  (∃ token ∈ (tokenize source).tokens, token.offset = Text.byteSize start) ∧ IsArrow ('/' :: run)

namespace ArrowRun

variable {source : String} {before run after : List Char}

theorem between_slash (arrowRun : ArrowRun source.toList before run after) {start : List Char}
    (slash : before = start ++ ['/']) (joins : JoinsSlash source start run) :
    ∃ piece, Between source (Text.byteSize start) (Text.byteSize (before ++ run)) [piece] ∧
      piece.spelling = (.arrow, '/' :: run) := by
  obtain ⟨⟨token, member, stands⟩, isArrow⟩ := joins
  have whole : source.toList = start ++ '/' :: (run ++ after) := by
    rw [arrowRun.split, slash]
    simp
  obtain ⟨found, starts, rfl, cut, -⟩ := exists_cut_at member whole (List.cons_ne_nil _ _) stands
  rw [lexemes_slash isArrow arrowRun.members arrowRun.ends] at cut
  have between := between_of_cut (cut.trans (congrArg _ List.singleton_append.symm))
  have reach : before ++ run = spelled found ++ spelled [⟨some .arrow, '/' :: run⟩] := by
    simp [slash]
  rw [← reach] at between
  exact ⟨_, between, by simp [spelling]⟩

theorem exists_token_of_reaches (arrowRun : ArrowRun source.toList before run after)
    {found rest : List Lexeme} {c : Char} {more : List Char} {kind : Kind} {count : Nat}
    (spells : before = spelled found ++ c :: more)
    (split : lexemes true source.toList =
      found ++ ⟨some kind, c :: (more ++ (run ++ after)).take count⟩ :: rest)
    (reaches : more.length < count) :
    ∃ token ∈ (tokenize source).tokens, token.kind = kind ∧ token.text.toList.head? = some c ∧
      token.offset = Text.byteSize (spelled found) ∧ Text.byteSize before < token.stop := by
  obtain ⟨token, member, spelling, offset, stop⟩ := exists_token_of_cut split
  obtain ⟨rfl, text⟩ := Prod.mk.inj spelling
  refine ⟨token, member, rfl, by rw [text]; rfl, offset, ?_⟩
  obtain ⟨d, later, rfl⟩ := List.exists_cons_of_ne_nil arrowRun.nonempty
  obtain ⟨further, same⟩ := Nat.exists_eq_add_of_lt reaches
  have positive := d.utf8Size_pos
  rw [stop, spells, same, Nat.add_assoc, List.take_append, List.take_of_length_le (by omega),
    Nat.add_sub_cancel_left, List.cons_append, List.take_succ_cons]
  simp only [Text.byteSize_append, Text.byteSize_cons]
  omega

theorem slash_of_isArrow (arrowRun : ArrowRun source.toList before run after) {start more : List Char}
    {c : Char} (spells : before = start ++ c :: more)
    (isArrow : IsArrow (c :: (more ++ (run ++ after)).takeWhile isArrowTail))
    (inside : more.length < ((more ++ (run ++ after)).takeWhile isArrowTail).length) :
    before = start ++ ['/'] ∧ IsArrow ('/' :: run) := by
  have members : ∀ e ∈ more, isArrowTail e = true := by
    intro e member
    have first := List.prefix_of_prefix_length_le (List.prefix_append more (run ++ after))
      (List.takeWhile_prefix isArrowTail) (Nat.le_of_lt inside)
    exact List.mem_takeWhile_imp (first.subset member)
  obtain rfl : more = [] := by
    cases List.eq_nil_or_concat more with
    | inl empty => exact empty
    | inr last =>
      obtain ⟨most, e, rfl⟩ := last
      have final : before.getLast? = some e := by
        rw [spells, List.concat_eq_append, ← List.cons_append, ← List.append_assoc]
        exact List.getLast?_concat
      have opens := arrowRun.opens e final
      exact absurd (members e (by simp)) (by simp [opens])
  have opens := arrowRun.opens c (by simp [spells])
  have whole : (run ++ after).takeWhile isArrowTail = run := by
    rw [Lexeme.takeWhile_append_of_head _ arrowRun.ends, List.takeWhile_eq_self_iff]
    exact arrowRun.members
  replace isArrow : IsArrow (c :: run) := whole ▸ isArrow
  rcases isArrow.head with rfl | rfl | ⟨rfl, -⟩
  · exact absurd opens (by decide)
  · exact absurd opens (by decide)
  · exact ⟨spells, isArrow⟩

/-- A lexeme that goes on into a run from before it has the run inside it, or is an arrow with a slash. -/
theorem of_reaches (arrowRun : ArrowRun source.toList before run after) {found rest : List Lexeme}
    {starts : Bool} {c : Char} {more : List Char} {kind : Option Kind} {count : Nat}
    (spells : before = spelled found ++ c :: more)
    (split : lexemes true source.toList =
      found ++ ⟨kind, c :: (more ++ (run ++ after)).take count⟩ :: rest)
    (measured : Lexeme.Measured starts c (more ++ (run ++ after)) kind count)
    (reaches : more.length < count) :
    (∃ token ∈ (tokenize source).tokens, token.Encloses ∧ Text.byteSize before < token.stop ∧
      token.offset < Text.byteSize (before ++ run)) ∨
    ∃ start, before = start ++ ['/'] ∧ JoinsSlash source start run := by
  have enclosed (own : Kind) (same : kind = some own)
      (free : own = .comment ∨ own = .string ∨ own = .unknown ∧ c = '"') :
      ∃ token ∈ (tokenize source).tokens, token.Encloses ∧ Text.byteSize before < token.stop ∧
        token.offset < Text.byteSize (before ++ run) := by
    obtain ⟨token, member, rfl, first, offset, stop⟩ :=
      arrowRun.exists_token_of_reaches spells (same ▸ split) reaches
    refine ⟨token, member, ?_, stop, ?_⟩
    · rcases free with comment | string | ⟨unknown, rfl⟩
      · exact .inl comment
      · exact .inr (.inl string)
      · exact .inr (.inr ⟨unknown, first⟩)
    · have positive := c.utf8Size_pos
      rw [offset, spells]
      simp only [Text.byteSize_append, Text.byteSize_cons]
      omega
  obtain ⟨d, later, begins⟩ := List.exists_cons_of_ne_nil arrowRun.nonempty
  have tail : isArrowTail d = true := arrowRun.members d (by simp [begins])
  have behind : run ++ after = d :: (later ++ after) := by rw [begins, List.cons_append]
  rcases (behind ▸ measured).of_reaches reaches tail with comment | string | ⟨unknown, quote⟩ |
    ⟨arrow, isArrow, inside⟩
  · exact .inl (enclosed _ comment (.inl rfl))
  · exact .inl (enclosed _ string (.inr (.inl rfl)))
  · exact .inl (enclosed _ unknown (.inr (.inr ⟨rfl, quote⟩)))
  · right
    rw [← behind] at isArrow inside
    obtain ⟨slash, joined⟩ := arrowRun.slash_of_isArrow spells isArrow inside
    obtain ⟨token, member, -, -, offset, -⟩ :=
      arrowRun.exists_token_of_reaches spells (arrow ▸ split) reaches
    exact ⟨spelled found, slash, ⟨token, member, offset⟩, joined⟩

theorem exists_cut (arrowRun : ArrowRun source.toList before run after)
    (outside : ∀ token ∈ (tokenize source).tokens, token.Encloses →
      token.stop ≤ Text.byteSize before ∨ Text.byteSize (before ++ run) ≤ token.offset)
    (alone : ∀ start, before = start ++ ['/'] → ¬JoinsSlash source start run) :
    ∃ found starts, spelled found = before ∧
      lexemes true source.toList = found ++ lexemes starts (run ++ after) := by
  obtain ⟨found, starts, tail, split, spells, reaches⟩ := exists_stop true before (run ++ after)
  rw [← arrowRun.split] at split
  rcases reaches with rfl | ⟨c, more, rfl, reaches⟩
  · exact ⟨found, starts, by simpa using spells.symm, split⟩
  · exfalso
    have measured := Lexeme.measured_measure starts c (more ++ (run ++ after))
    rw [List.cons_append, lexemes_cons] at split
    rcases arrowRun.of_reaches spells split measured reaches with
      ⟨token, member, encloses, stop, offset⟩ | ⟨start, slash, joins⟩
    · rcases outside token member encloses with earlier | later <;> omega
    · exact alone start slash joins

theorem between_run (arrowRun : ArrowRun source.toList before run after)
    (outside : ∀ token ∈ (tokenize source).tokens, token.Encloses →
      token.stop ≤ Text.byteSize before ∨ Text.byteSize (before ++ run) ≤ token.offset)
    (alone : ∀ start, before = start ++ ['/'] → ¬JoinsSlash source start run) :
    ∃ lead arrow pieces, run = lead ++ arrow ∧ LongestArrow run arrow ∧
      Between source (Text.byteSize before) (Text.byteSize (before ++ run)) pieces ∧
      pieces.map spelling = lead.map (fun c => (.unknown, [c])) ++
        if arrow = [] then [] else [(.arrow, arrow)] := by
  obtain ⟨found, starts, rfl, cut⟩ := arrowRun.exists_cut outside alone
  rw [lexemes_run arrowRun.nonempty arrowRun.members arrowRun.ends] at cut
  obtain ⟨lead, arrow, same, longest, pieces⟩ := exists_longestArrow run
  have spells : spelled (runLexemes run) = run := by
    have whole := spelled_lexemes false (run ++ [])
    rw [lexemes_run arrowRun.nonempty arrowRun.members (by simp [EndsArrow]), spelled_append,
      spelled_lexemes] at whole
    simpa using whole
  have between := between_of_cut cut
  rw [spells] at between
  refine ⟨lead, arrow, _, same, longest, between, ?_⟩
  rw [map_spelling_placed, pieces, List.filterMap_append, List.filterMap_map]
  congr 1
  · simp
  · split <;> rfl

end ArrowRun

/-- Outside comments and strings, closed or not, every longest run of arrow characters is cut in one way.
Where it follows a slash that starts a token and the two make an arrow, they are one. Otherwise its
characters are tokens without a meaning, up to the longest end of the run that is an arrow, if any is.
Behind no arrow does its run go on. -/
theorem arrows_tokenize (source : String) :
    (∀ before run after, ArrowRun source.toList before run after →
      (∀ token ∈ (tokenize source).tokens, token.Encloses →
        token.stop ≤ Text.byteSize before ∨ Text.byteSize (before ++ run) ≤ token.offset) →
      (∀ start, before = start ++ ['/'] → JoinsSlash source start run →
        ∃ piece, Between source (Text.byteSize start) (Text.byteSize (before ++ run)) [piece] ∧
          piece.spelling = (.arrow, '/' :: run)) ∧
      ((∀ start, before = start ++ ['/'] → ¬JoinsSlash source start run) →
        ∃ lead arrow pieces, run = lead ++ arrow ∧ LongestArrow run arrow ∧
          Between source (Text.byteSize before) (Text.byteSize (before ++ run)) pieces ∧
          pieces.map spelling = lead.map (fun c => (.unknown, [c])) ++
            if arrow = [] then [] else [(.arrow, arrow)])) ∧
    ∀ token ∈ (tokenize source).tokens, token.kind = .arrow →
      ∀ before after, source.toList = before ++ (token.text.toList ++ after) →
        token.offset = Text.byteSize before → EndsArrow after := by
  constructor
  · intro before run after arrowRun outside
    constructor
    · intro start slash joins
      exact arrowRun.between_slash slash joins
    · intro alone
      exact arrowRun.between_run outside alone
  · intro token member arrow before after whole stands
    by_cases empty : token.text.toList ++ after = []
    · rw [(List.append_eq_nil_iff.1 empty).2]
      intro c first
      cases first
    · obtain ⟨c, rest, same⟩ := List.exists_cons_of_ne_nil empty
      obtain ⟨found, starts, -, -, first⟩ := exists_cut_at member whole empty stands
      rw [same, lexemes_cons, List.head?_cons, Option.some.injEq, Lexeme.mk.injEq, arrow] at first
      obtain ⟨kind, text⟩ := first
      have measured := Lexeme.measured_measure starts c rest
      rw [kind] at measured
      rw [← text, List.cons_append, List.cons.injEq] at same
      have behind := measured.arrow_ends
      have cut := List.take_append_drop (measure starts c rest).2 rest
      rw [List.append_cancel_left (cut.trans same.2.symm)] at behind
      exact behind

/-- Two angles are passed over before the arrow that they would have made longer. -/
theorem arrows_tokenize_angles :
    let source := "\"->\" A <<->> B"
    let before := "\"->\" A ".toList
    let run := "<<->>".toList
    ArrowRun source.toList before run " B".toList ∧
      ∃ lead arrow pieces, run = lead ++ arrow ∧ LongestArrow run arrow ∧
        Between source (Text.byteSize before) (Text.byteSize (before ++ run)) pieces ∧
        pieces.map spelling = lead.map (fun c => (.unknown, [c])) ++
          if arrow = [] then [] else [(.arrow, arrow)] := by
  intro source before run
  have arrowRun : ArrowRun source.toList before run " B".toList := by
    have tails : run.all isArrowTail = true := by decide
    constructor
    · decide
    · decide
    · exact List.all_eq_true.1 tails
    · intro c last
      obtain rfl : ' ' = c := Option.some.inj last
      decide
    · intro c first
      obtain rfl : ' ' = c := Option.some.inj first
      decide
  have outside : ∀ token ∈ (tokenize source).tokens, token.Encloses →
      token.stop ≤ Text.byteSize before ∨ Text.byteSize (before ++ run) ≤ token.offset := by
    decide +kernel
  have alone : ∀ start, before = start ++ ['/'] → ¬JoinsSlash source start run := by
    intro start same
    have last := congrArg List.getLast? same
    rw [List.getLast?_concat] at last
    exact absurd last (by decide)
  exact ⟨arrowRun, ((arrows_tokenize source).1 before run _ arrowRun outside).2 alone⟩

end Token

end Lifeline
