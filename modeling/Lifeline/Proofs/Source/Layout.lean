import Lifeline.Proofs.Diagram.AlikeReading
import Lifeline.Proofs.Source.Lexemes
import Lifeline.Proofs.Text.Lines
import Lifeline.Proofs.Token.Clear

/-! Layout.

Blanks keep the chunks of a line apart, and nothing else: without quotes in it, a source reads like
its chunks alone, with one space between them. So sources whose lines have the same chunks say the
same. -/

set_option autoImplicit false

namespace Lifeline.Layout

open Token (Kind Lexeme lexemes lexemes_cons lexemes_space lexemes_lineFeed)
open Token.Lexeme (isSpace Stops measured_measure commentBody)
open Text (split isLineFeed spread)

/-- The maximal runs of a line without blanks. -/
def chunks (line : List Char) : List (List Char) :=
  (split isSpace line).filter (! ·.isEmpty)

def rows (text : List Char) : List (List (List Char)) :=
  (split isLineFeed text).map chunks

def tidy (text : List Char) : List Char :=
  ['\n'].intercalate ((rows text).map [' '].intercalate)

/-! ## Tidying from the left -/

/-- What stands before a character on its line: blanks at most, another character, or a character
and blanks after it. -/
inductive Margin where
  | start | chunk | gap
  deriving DecidableEq

namespace Margin

def widen : Margin → Margin
  | start => start
  | _ => gap

def lead : Margin → List Char
  | gap => [' ']
  | _ => []

/-- Whether a blank stands before a text, where `blank` tells whether one stands before it tidied. -/
def passed (blank : Bool) : Margin → Bool
  | gap => true
  | _ => blank

end Margin

/-- What tidying leaves of a text behind a margin. -/
def tidyFrom (margin : Margin) : List Char → List Char
  | [] => []
  | c :: rest =>
    if isSpace c then tidyFrom margin.widen rest
    else if c = '\n' then '\n' :: tidyFrom .start rest
    else margin.lead ++ c :: tidyFrom .chunk rest

def IsSolid (c : Char) : Prop := isSpace c = false ∧ c ≠ '\n'

instance (c : Char) : Decidable (IsSolid c) := inferInstanceAs (Decidable (_ ∧ _))

variable {margin : Margin} {c : Char} {text rest : List Char}

theorem kind_of_char (c : Char) : isSpace c = true ∨ c = '\n' ∨ IsSolid c := by
  by_cases space : isSpace c = true
  · exact .inl space
  · by_cases feed : c = '\n'
    · exact .inr (.inl feed)
    · exact .inr (.inr ⟨Bool.eq_false_iff.2 space, feed⟩)

theorem isSolid_of_isBlank (noBlank : Text.isBlank c = false) : IsSolid c := by
  rcases kind_of_char c with space | rfl | solid
  · have cases : (c = ' ' ∨ c = '\t') ∨ c = '\r' := by simpa [isSpace] using space
    rcases cases with (rfl | rfl) | rfl <;> exact absurd noBlank (by decide)
  · exact absurd noBlank (by decide)
  · exact solid

@[simp] theorem tidyFrom_nil (margin : Margin) : tidyFrom margin [] = [] := rfl

theorem tidyFrom_space (space : isSpace c = true) (margin : Margin) (rest : List Char) :
    tidyFrom margin (c :: rest) = tidyFrom margin.widen rest := by
  rw [tidyFrom, if_pos space]

theorem tidyFrom_lineFeed (margin : Margin) (rest : List Char) :
    tidyFrom margin ('\n' :: rest) = '\n' :: tidyFrom .start rest := rfl

theorem tidyFrom_solid (solid : IsSolid c) (margin : Margin) (rest : List Char) :
    tidyFrom margin (c :: rest) = margin.lead ++ c :: tidyFrom .chunk rest := by
  rw [tidyFrom, solid.1, if_neg Bool.false_ne_true, if_neg solid.2]

theorem tidyFrom_lines (text : List Char) : ∃ line lines, split isLineFeed text = line :: lines ∧
    ∀ margin, tidyFrom margin text =
      tidyFrom margin line ++ lines.flatMap fun later => '\n' :: tidyFrom .start later := by
  induction text with
  | nil => exact ⟨[], [], rfl, fun _ => rfl⟩
  | cons c rest ih =>
    obtain ⟨line, lines, same, tidied⟩ := ih
    have goesOn (noFeed : c ≠ '\n') : split isLineFeed (c :: rest) = (c :: line) :: lines := by
      have other : isLineFeed c = false := beq_false_of_ne noFeed
      rw [split, other, if_neg Bool.false_ne_true, same]
    rcases kind_of_char c with space | rfl | solid
    · refine ⟨c :: line, lines, goesOn fun feed => ?_, fun margin => ?_⟩
      · subst feed
        exact absurd space (by decide)
      · rw [tidyFrom_space space, tidyFrom_space space, tidied]
    · exact ⟨[], line :: lines, by rw [split, same]; rfl, fun margin => by
        rw [tidyFrom_lineFeed, tidied]; rfl⟩
    · refine ⟨c :: line, lines, goesOn solid.2, fun margin => ?_⟩
      rw [tidyFrom_solid solid, tidyFrom_solid solid, tidied, List.append_assoc, List.cons_append]

theorem tidyFrom_line {line : List Char} (noFeed : '\n' ∉ line) :
    tidyFrom .start line = [' '].intercalate (chunks line) ∧
      tidyFrom .gap line = spread (chunks line) ∧
      ∃ piece pieces, split isSpace line = piece :: pieces ∧
        tidyFrom .chunk line = piece ++ spread (pieces.filter (! ·.isEmpty)) := by
  induction line with
  | nil => exact ⟨rfl, rfl, [], [], rfl, rfl⟩
  | cons c line ih =>
    rw [List.mem_cons, not_or] at noFeed
    obtain ⟨start, gap, piece, pieces, same, chunk⟩ := ih noFeed.2
    rcases kind_of_char c with space | rfl | solid
    · have shorter : chunks (c :: line) = chunks line := by
        rw [chunks, split, if_pos space]
        rfl
      rw [shorter]
      refine ⟨?_, ?_, [], split isSpace line, ?_, ?_⟩
      · rwa [tidyFrom_space space]
      · rwa [tidyFrom_space space]
      · rw [split, if_pos space]
      · rwa [tidyFrom_space space]
    · exact absurd rfl noFeed.1
    · have pieces_eq : split isSpace (c :: line) = (c :: piece) :: pieces := by
        rw [split, solid.1, if_neg Bool.false_ne_true, same]
      have chunks_eq : chunks (c :: line) = (c :: piece) :: pieces.filter (! ·.isEmpty) := by
        rw [chunks, pieces_eq]
        rfl
      rw [chunks_eq, tidyFrom_solid solid, tidyFrom_solid solid, tidyFrom_solid solid, chunk]
      exact ⟨(Text.intercalate_cons (c :: piece) _).symm, rfl, c :: piece, pieces, pieces_eq, rfl⟩

theorem tidyFrom_start (text : List Char) : tidyFrom .start text = tidy text := by
  obtain ⟨line, lines, same, tidied⟩ := tidyFrom_lines text
  have noFeed (other : List Char) (member : other ∈ line :: lines) : '\n' ∉ other := fun feed =>
    absurd (Text.not_mem_of_mem_split (same ▸ member) '\n' feed) (by decide)
  have start (other : List Char) (member : other ∈ line :: lines) :
      tidyFrom .start other = [' '].intercalate (chunks other) :=
    (tidyFrom_line (noFeed other member)).1
  rw [tidied, tidy, rows, same, List.map_cons, List.map_cons, Text.intercalate_cons_eq_flatMap,
    start line List.mem_cons_self, List.flatMap_map, List.flatMap_map]
  congr 1
  refine List.flatMap_congr fun other member => ?_
  rw [start other (List.mem_cons_of_mem line member)]
  rfl

/-! ## The extent of lexemes -/

/-- Whether no chunk goes on with a text. -/
def Parts (text : List Char) : Prop := ∀ c ∈ text.head?, ¬IsSolid c

theorem Parts.stops (parts : Parts text) : Stops text := by
  intro c head
  rcases kind_of_char c with space | rfl | solid
  · rw [Token.Lexeme.isStop, space]
    rfl
  · rfl
  · exact absurd solid (parts c head)

theorem parts_gap (text : List Char) : Parts (tidyFrom .gap text) := by
  induction text with
  | nil => exact nofun
  | cons c text ih =>
    rcases kind_of_char c with space | rfl | solid
    · rwa [tidyFrom_space space]
    · rintro d ⟨⟩
      exact fun solid => solid.2 rfl
    · rw [tidyFrom_solid solid]
      rintro d ⟨⟩
      exact fun solid => absurd solid.1 (by decide)

theorem Parts.tidyFrom (parts : Parts text) : Parts (tidyFrom .chunk text) := by
  cases text with
  | nil => exact nofun
  | cons c text =>
    rcases kind_of_char c with space | rfl | solid
    · rw [tidyFrom_space space]
      exact parts_gap text
    · rintro d ⟨⟩
      exact fun solid => solid.2 rfl
    · exact absurd solid (parts c rfl)

theorem exists_chunk (text : List Char) :
    ∃ chunk rest, text = chunk ++ rest ∧ (∀ c ∈ chunk, IsSolid c) ∧ Parts rest := by
  induction text with
  | nil => exact ⟨[], [], rfl, by simp, nofun⟩
  | cons c text ih =>
    by_cases solid : IsSolid c
    · obtain ⟨chunk, rest, rfl, members, parts⟩ := ih
      exact ⟨c :: chunk, rest, rfl, List.forall_mem_cons.2 ⟨solid, members⟩, parts⟩
    · refine ⟨[], c :: text, rfl, by simp, ?_⟩
      rintro d ⟨⟩
      exact solid

theorem tidyFrom_append {chunk : List Char} (solid : ∀ c ∈ chunk, IsSolid c) (rest : List Char) :
    tidyFrom .chunk (chunk ++ rest) = chunk ++ tidyFrom .chunk rest := by
  induction chunk with
  | nil => rfl
  | cons c chunk ih =>
    obtain ⟨first, later⟩ := List.forall_mem_cons.1 solid
    rw [List.cons_append, tidyFrom_solid first, ih later]
    rfl

theorem head?_tidyFrom (solid : IsSolid c) :
    (tidyFrom .chunk text).head? = some c ↔ text.head? = some c := by
  obtain ⟨chunk, rest, rfl, members, parts⟩ := exists_chunk text
  rw [tidyFrom_append members]
  cases chunk with
  | nil => exact ⟨fun head => absurd solid (parts.tidyFrom c head), fun head =>
      absurd solid (parts c head)⟩
  | cons d chunk => rfl

theorem measure_tidyFrom {lineStarts : Bool} (noQuote : c ≠ '"')
    (noComment : (Lexeme.measure lineStarts c rest).1 ≠ some .comment) :
    Lexeme.measure lineStarts c (tidyFrom .chunk rest) = Lexeme.measure lineStarts c rest := by
  have noBlock : c = '/' → rest.head? ≠ some '\'' := by
    rintro rfl block
    obtain ⟨body, rfl⟩ := List.head?_eq_some_iff.1 block
    exact noComment rfl
  have noComment' : (Lexeme.measure lineStarts c (tidyFrom .chunk rest)).1 ≠ some .comment := by
    intro comment
    rcases (measured_measure lineStarts c _).comment_opens comment with ⟨slash, block⟩ | ⟨rfl, rfl⟩
    · exact noBlock slash ((head?_tidyFrom (by decide)).1 block)
    · exact noComment rfl
  rw [← Token.measure_of_not_comment noComment', ← Token.measure_of_not_comment noComment]
  -- The lexeme fits into the chunk, so nothing behind the chunk counts.
  obtain ⟨chunk, rest, rfl, members, parts⟩ := exists_chunk rest
  have opener : c = '/' → chunk.head? ≠ some '\'' := by
    intro slash head
    refine noBlock slash ?_
    rw [List.head?_append, head]
    rfl
  have fits {tail : List Char} (parts : Parts tail) :
      Lexeme.measure false c (chunk ++ tail) = Lexeme.measure false c chunk :=
    Token.Lexeme.measure_append_of_fits parts.stops.endsArrow
      (Token.Lexeme.measure_fits chunk parts.stops noQuote opener)
  rw [tidyFrom_append members, fits parts, fits parts.tidyFrom]

theorem tidyFrom_take {lineStarts : Bool} (noQuote : c ≠ '"')
    (noComment : (Lexeme.measure lineStarts c rest).1 ≠ some .comment) :
    tidyFrom .chunk rest = rest.take (Lexeme.measure lineStarts c rest).2 ++
      tidyFrom .chunk (rest.drop (Lexeme.measure lineStarts c rest).2) := by
  rw [← tidyFrom_append, List.take_append_drop]
  intro d member
  rcases (measured_measure lineStarts c rest).mem_body noComment noQuote d member with name | arrow
  · exact isSolid_of_isBlank (Token.isBlank_of_isNameChar name)
  · exact isSolid_of_isBlank (Token.isBlank_of_isArrowTail arrow)

/-! ## Comments -/

theorem dropWhile_tidyFrom (margin : Margin) (text : List Char) :
    (tidyFrom margin text).dropWhile (· != '\n') =
      tidyFrom .chunk (text.dropWhile (· != '\n')) := by
  induction text generalizing margin with
  | nil => rfl
  | cons c text ih =>
    rcases kind_of_char c with space | rfl | solid
    · have goesOn : (c != '\n') = true := by
        rw [bne_iff_ne]
        rintro rfl
        exact absurd space (by decide)
      rw [tidyFrom_space space, List.dropWhile_cons, if_pos goesOn, ih]
    · rfl
    · have goesOn : (c != '\n') = true := bne_iff_ne.2 solid.2
      have through : (margin.lead ++ c :: tidyFrom .chunk text).dropWhile (· != '\n') =
          (tidyFrom .chunk text).dropWhile (· != '\n') := by
        cases margin <;> simp [Margin.lead, goesOn]
      rw [tidyFrom_solid solid, through, List.dropWhile_cons, if_pos goesOn, ih]

/-- The end mark of a block comment stays, and no other comes up. -/
theorem drop_commentBody_tidyFrom (margin : Margin) (text : List Char) :
    (tidyFrom margin text).drop (commentBody (tidyFrom margin text)) =
      tidyFrom .chunk (text.drop (commentBody text)) := by
  fun_induction commentBody text generalizing margin with
  | case1 => rfl
  | case2 rest =>
    cases margin <;> rfl
  | case3 c rest apart ih =>
    rw [List.drop_succ_cons]
    rcases kind_of_char c with space | rfl | solid
    · rw [tidyFrom_space space, ih]
    · rw [tidyFrom_lineFeed, ← ih .start]
      rfl
    · have through :
          (tidyFrom margin (c :: rest)).drop (commentBody (tidyFrom margin (c :: rest))) =
            (c :: tidyFrom .chunk rest).drop (commentBody (c :: tidyFrom .chunk rest)) := by
        rw [tidyFrom_solid solid]
        cases margin <;> simp [Margin.lead, commentBody]
      have goesOn : commentBody (c :: tidyFrom .chunk rest) =
          commentBody (tidyFrom .chunk rest) + 1 := by
        rw [commentBody]
        rintro more rfl slash
        have first := (head?_tidyFrom (c := '/') (by decide)).1 (by rw [slash]; rfl)
        obtain ⟨more', rfl⟩ := List.head?_eq_some_iff.1 first
        exact apart more' rfl rfl
      rw [through, goesOn, List.drop_succ_cons, ih]

/-! ## Lexemes -/

theorem lexemes_tidyFrom_cons (noQuote : c ≠ '"') (lineStarts : Bool) (rest : List Char) :
    ∃ text, lexemes lineStarts (c :: tidyFrom .chunk rest) =
        ⟨(Lexeme.measure lineStarts c rest).1, text⟩ ::
          lexemes (Lexeme.linesUp lineStarts (Lexeme.measure lineStarts c rest).1)
            (tidyFrom .chunk (rest.drop (Lexeme.measure lineStarts c rest).2)) ∧
      ((Lexeme.measure lineStarts c rest).1 ≠ some .comment →
        c :: rest.take (Lexeme.measure lineStarts c rest).2 = text) := by
  refine Lexeme.lexemes_cons_rewritten (tidyFrom .chunk) ?_ (dropWhile_tidyFrom .chunk rest)
    fun noComment => ⟨measure_tidyFrom noQuote noComment, tidyFrom_take noQuote noComment⟩
  rintro body rfl
  exact ⟨rfl, drop_commentBody_tidyFrom .chunk body⟩

/-- Whether a text reads alike tidied behind a margin, and shows the same gaps: before its next
lexeme the tidied text has a blank if the text has one, or if it is behind a gap. -/
structure Tidies (margin : Margin) (lineStarts : Bool) (text : List Char) : Prop where
  alike : ∀ free,
    Lexeme.Alike free (lexemes lineStarts text) (lexemes lineStarts (tidyFrom margin text))
  gap : margin ≠ .start → ∀ blank, Lexeme.gap (margin.passed blank) (lexemes lineStarts text) =
    Lexeme.gap blank (lexemes lineStarts (tidyFrom margin text))

namespace Tidies

variable {lineStarts : Bool}

theorem nil (margin : Margin) (lineStarts : Bool) : Tidies margin lineStarts [] where
  alike _ := Lexeme.alike_refl _ _
  gap _ blank := by
    rw [tidyFrom_nil, lexemes]
    rfl

theorem space (space : isSpace c = true) (later : Tidies margin.widen lineStarts rest) :
    Tidies margin lineStarts (c :: rest) where
  alike free := by
    rw [lexemes_space space, tidyFrom_space space]
    exact .blankLeft (later.alike free)
  gap inside blank := by
    rw [lexemes_space space, tidyFrom_space space]
    cases margin with
    | start => exact absurd rfl inside
    | chunk | gap => exact later.gap (by decide) blank

theorem lineFeed (later : Tidies .start true rest) (margin : Margin) :
    Tidies margin lineStarts ('\n' :: rest) where
  alike free := by
    rw [tidyFrom_lineFeed, lexemes_lineFeed, lexemes_lineFeed]
    refine .cons (fun solid => ?_) (fun other => absurd rfl other) (later.alike _)
    cases solid
  gap _ blank := by
    rw [tidyFrom_lineFeed, lexemes_lineFeed, lexemes_lineFeed]
    exact (Bool.and_false _).trans (Bool.and_false _).symm

theorem solid (solid : IsSolid c) (noQuote : c ≠ '"')
    (later : Tidies .chunk (Lexeme.linesUp lineStarts (Lexeme.measure lineStarts c rest).1)
      (rest.drop (Lexeme.measure lineStarts c rest).2)) (margin : Margin) :
    Tidies margin lineStarts (c :: rest) := by
  obtain ⟨text, same, whole⟩ := lexemes_tidyFrom_cons noQuote lineStarts rest
  have noBlank : (Lexeme.measure lineStarts c rest).1 ≠ none := by
    intro none
    have measured := measured_measure lineStarts c rest
    rw [none] at measured
    exact absurd measured.isSpace_of_none (by rw [solid.1]; decide)
  have alike (free : Bool) : Lexeme.Alike free (lexemes lineStarts (c :: rest))
      (lexemes lineStarts (c :: tidyFrom .chunk rest)) := by
    rw [same, lexemes_cons]
    refine .cons (fun solid => whole ?_) (fun _ => later.gap (by decide) false) (later.alike _)
    intro comment
    rw [comment] at solid
    cases solid
  have gap (blank : Bool) : Lexeme.gap blank (lexemes lineStarts (c :: rest)) =
      Lexeme.gap blank (lexemes lineStarts (c :: tidyFrom .chunk rest)) := by
    rw [same, lexemes_cons]
    exact Lexeme.gap_cons (fun none => absurd none noBlank) blank
  -- Only behind a gap the tidied text has a space before the character.
  cases margin with
  | start | chunk =>
    refine ⟨fun free => ?_, fun _ blank => ?_⟩ <;> rw [tidyFrom_solid solid]
    · exact alike free
    · exact gap blank
  | gap =>
    have spaced : tidyFrom .gap (c :: rest) = ' ' :: c :: tidyFrom .chunk rest :=
      tidyFrom_solid solid .gap rest
    refine ⟨fun free => ?_, fun _ blank => ?_⟩ <;>
      rw [spaced, lexemes_space (c := ' ') (by decide)]
    · exact .blankRight (alike free)
    · exact gap true

end Tidies

theorem tidies {text : List Char} (noQuote : '"' ∉ text) (margin : Margin) (lineStarts : Bool) :
    Tidies margin lineStarts text := by
  induction size : text.length using Nat.strong_induction_on
    generalizing text lineStarts margin with
  | _ size ih =>
    subst size
    cases text with
    | nil => exact .nil margin lineStarts
    | cons c rest =>
      rw [List.mem_cons, not_or] at noQuote
      have later (count : Nat) (margin : Margin) (lineStarts : Bool) :
          Tidies margin lineStarts (rest.drop count) :=
        ih _ (Nat.lt_succ_of_le (List.drop_sublist count rest).length_le)
          (fun member => noQuote.2 (List.mem_of_mem_drop member)) margin lineStarts rfl
      rcases kind_of_char c with space | rfl | solid
      · exact .space space (later 0 _ _)
      · exact .lineFeed (later 0 _ _) margin
      · exact .solid solid (Ne.symm noQuote.1) (later _ _ _) margin

theorem sameReading_tidy {source : String} (noQuote : '"' ∉ source.toList) :
    SameReading source (String.ofList (tidy source.toList)) := by
  refine sameReading_of_alike ?_
  rw [String.toList_ofList, ← tidyFrom_start]
  exact ((tidies noQuote .start true).alike true).ofText

/-- Layout does not matter: without quotes, sources with the same chunks on every line say the same,
and the same is wrong with them. -/
theorem sameReading_of_rows {first second : String} (noQuote : '"' ∉ first.toList)
    (noQuote' : '"' ∉ second.toList) (same : rows first.toList = rows second.toList) :
    SameReading first second := by
  have tidied : tidy first.toList = tidy second.toList := by rw [tidy, tidy, same]
  refine (sameReading_tidy noQuote).trans ?_
  rw [tidied]
  exact (sameReading_tidy noQuote').symm

def crammed : String :=
  "@startuml\n/' who\nasks '/ actor Job\nalt size < 1.5\nJob -> Web : a  b'\nend\n' done\n" ++
    "Job ->\n@enduml"

def spacious : String :=
  "\t@startuml \r\n/'  who\r\n asks\t'/\t actor \t Job\r\n  alt  size\t<  1.5 \r\n" ++
    "    Job\r->  Web   :\ta b' \r\n  end\t\r\n  '\t done\r\n Job  -> \r\n@enduml  "

theorem sameReading_spacious :
    '"' ∉ crammed.toList ∧ '"' ∉ spacious.toList ∧ rows crammed.toList = rows spacious.toList ∧
      SameReading crammed spacious := by
  have noQuote : '"' ∉ crammed.toList := by decide +kernel
  have noQuote' : '"' ∉ spacious.toList := by decide +kernel
  have same : rows crammed.toList = rows spacious.toList := by decide +kernel
  exact ⟨noQuote, noQuote', same, sameReading_of_rows noQuote noQuote' same⟩

end Lifeline.Layout
