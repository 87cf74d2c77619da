import Lifeline.Proofs.Token.Lexing
import Lifeline.Proofs.Token.Placed
import Lifeline.Proofs.Text.Words
import Lifeline.Diagram.Stream

/-! Plain texts.

A text on one line that holds no quote and no comment opener has lexemes of its own: they do not
depend on what follows the text, and writing every blank run as one space changes none of them. What
tokens of such a text are joined to is the text itself, its blank runs collapsed. -/

set_option autoImplicit false

namespace Lifeline.Token

open Lexeme (isSpace isStop Stops Measured)
open Text (isBlank words collapse spread)

theorem isBlank_of_isSpace {c : Char} (space : isSpace c = true) : isBlank c = true := by
  simp only [isSpace, Bool.or_eq_true, beq_iff_eq] at space
  rcases space with (rfl | rfl) | rfl <;> decide

/-- One line of text without anything that opens a string or a comment inside it. -/
structure Plain (text : List Char) : Prop where
  quote : '"' ∉ text
  comment : ¬['/', '\''] <:+: text
  blank : ∀ c ∈ text, isBlank c = true → isSpace c = true

namespace Plain

theorem part {text part : List Char} (plain : Plain text) (within : part <:+: text) :
    Plain part where
  quote member := plain.quote (within.subset member)
  comment opener := plain.comment (opener.trans within)
  blank c member := plain.blank c (within.subset member)

theorem lineFeed {text : List Char} (plain : Plain text) : '\n' ∉ text := fun member =>
  absurd (plain.blank '\n' member (by decide)) (by decide)

theorem measure_append {c : Char} {rest tail : List Char} (plain : Plain (c :: rest))
    (stops : Stops tail) :
    Lexeme.measure false c (rest ++ tail) = Lexeme.measure false c rest := by
  have noString : c ≠ '"' := fun quote => plain.quote (quote ▸ List.mem_cons_self)
  have noComment : c = '/' → rest.head? ≠ some '\'' := by
    rintro rfl opener
    obtain ⟨more, rfl⟩ := List.head?_eq_some_iff.1 opener
    exact plain.comment ⟨[], more, rfl⟩
  apply Lexeme.measure_append_of_fits stops.endsArrow
  exact Lexeme.measure_fits rest stops noString noComment

theorem linesUp_measure {c : Char} {rest : List Char} (plain : Plain (c :: rest)) :
    Lexeme.linesUp false (Lexeme.measure false c rest).1 = false := by
  cases kind : (Lexeme.measure false c rest).1 with
  | none => rfl
  | some kind' =>
    have noNewline : kind' ≠ .newline := by
      rintro rfl
      have measured := Lexeme.measured_measure false c rest
      rw [kind] at measured
      cases measured.formed (by decide)
      exact plain.lineFeed List.mem_cons_self
    simpa [Lexeme.linesUp] using noNewline

theorem drop {c : Char} {rest : List Char} (plain : Plain (c :: rest)) (count : Nat) :
    Plain (rest.drop count) :=
  plain.part ((List.drop_suffix count rest).trans (List.suffix_cons c rest)).isInfix

end Plain

theorem lexemes_append {text tail : List Char} (plain : Plain text) (stops : Stops tail) :
    lexemes false (text ++ tail) = lexemes false text ++ lexemes false tail := by
  -- A plain text stays inside its line, so that the induction does too.
  generalize starts : false = lineStarts
  fun_induction lexemes lineStarts text with
  | case1 => rfl
  | case2 lineStarts c rest kind count same ih =>
    subst starts
    have measured := plain.measure_append stops
    have inside := plain.linesUp_measure
    have count_le := (Lexeme.measured_measure false c rest).count_le
    rw [same] at measured inside count_le
    rw [inside] at ih
    rw [List.cons_append, lexemes_cons, measured, List.take_append_of_le_length count_le,
      List.drop_append_of_le_length count_le, List.cons_append, inside, ih (plain.drop count) rfl]

/-! ## Kinds -/

def kinds (text : List Char) : List Kind := (lexemes false text).filterMap Lexeme.kind

@[simp] theorem kinds_nil : kinds [] = [] := by simp [kinds, lexemes]

theorem kinds_space {c : Char} (space : isSpace c = true) (rest : List Char) :
    kinds (c :: rest) = kinds rest := by
  rw [kinds, lexemes_space space]
  rfl

theorem kinds_append {text tail : List Char} (plain : Plain text) (stops : Stops tail) :
    kinds (text ++ tail) = kinds text ++ kinds tail := by
  rw [kinds, lexemes_append plain stops, List.filterMap_append]
  rfl

theorem Plain.stops {word rest : List Char} (plain : Plain (word ++ rest))
    (ends : ∀ c ∈ rest.head?, isBlank c = true) : Stops rest := by
  intro c head
  have member : c ∈ word ++ rest := List.mem_append_right _ (List.mem_of_mem_head? head)
  simp [isStop, plain.blank c member (ends c head)]

theorem stops_spread (words : List (List Char)) : Stops (spread words) := by
  intro c head
  cases words with
  | nil => cases head
  | cons word words =>
    cases head
    decide

theorem kinds_spread (words : List (List Char)) :
    kinds (spread words) = kinds ([' '].intercalate words) := by
  cases words with
  | nil => rfl
  | cons word words => rw [Text.intercalate_cons, Text.spread_cons, kinds_space (by decide)]

/-- Collapsing the blanks of a plain text changes none of its tokens. -/
theorem kinds_collapse {text : List Char} (plain : Plain text) :
    kinds (collapse text) = kinds text := by
  induction text using Text.words_induction with
  | nil => rfl
  | blank c rest blank ih =>
    have later : Plain rest := plain.part (List.suffix_cons c rest).isInfix
    rw [Text.collapse_cons_of_isBlank blank, ih later,
      kinds_space (plain.blank c List.mem_cons_self blank)]
  | word word rest nonempty solid ends ih =>
    have first : Plain word := plain.part (List.prefix_append word rest).isInfix
    have later : Plain rest := plain.part (List.suffix_append word rest).isInfix
    rw [Text.collapse_append nonempty solid ends, kinds_append first (stops_spread _), kinds_spread,
      kinds_append first (plain.stops ends)]
    exact congrArg _ (ih later)

theorem Plain.measured_of_mem {text : List Char} (plain : Plain text) {lexeme : Lexeme}
    (member : lexeme ∈ lexemes false text) :
    ∃ c rest count, Measured false c rest lexeme.kind count ∧ c :: rest <:+ text := by
  generalize starts : false = lineStarts at member
  fun_induction lexemes lineStarts text with
  | case1 => cases member
  | case2 lineStarts c rest kind count same ih =>
    subst starts
    have inside := plain.linesUp_measure
    rw [same] at inside
    rw [inside] at ih member
    rcases List.mem_cons.1 member with rfl | later
    · have measured := Lexeme.measured_measure false c rest
      rw [same] at measured
      exact ⟨c, rest, count, measured, List.suffix_refl _⟩
    · obtain ⟨d, more, reach, measured, within⟩ := ih (plain.drop count) rfl later
      have whole : rest.drop count <:+ c :: rest :=
        (List.drop_suffix count rest).trans (List.suffix_cons c rest)
      exact ⟨d, more, reach, measured, within.trans whole⟩

/-- Kinds that no plain text has: they end lines or stand for strings. -/
theorem Plain.mem_kinds {text : List Char} (plain : Plain text) {kind : Kind}
    (member : kind ∈ kinds text) :
    kind ≠ .newline ∧ kind ≠ .comment ∧ kind ≠ .string ∧ kind ≠ .eof := by
  obtain ⟨lexeme, inside, same⟩ := List.mem_filterMap.1 member
  obtain ⟨c, rest, count, measured, within⟩ := plain.measured_of_mem inside
  have first : c ∈ text := within.subset List.mem_cons_self
  rw [same] at measured
  refine ⟨?_, ?_, ?_, ?_⟩
  · rintro rfl
    cases measured.formed (by decide)
    exact plain.lineFeed first
  · rintro rfl
    rcases measured.comment_opens rfl with ⟨rfl, apostrophe⟩ | ⟨_, starts⟩
    · obtain ⟨more, rfl⟩ := List.head?_eq_some_iff.1 apostrophe
      exact plain.comment ((List.prefix_append ['/', '\''] more).isInfix.trans within.isInfix)
    · cases starts
  · rintro rfl
    cases measured.formed (by decide)
    exact plain.quote first
  · rintro rfl
    cases measured.formed (by decide)

def directives : List (Kind × String) := [(.startUml, "@startuml"), (.endUml, "@enduml")]

theorem directive_cases {kind : Kind} {spelling : String} (directive : (kind, spelling) ∈ directives) :
    kind = .startUml ∧ spelling = "@startuml" ∨ kind = .endUml ∧ spelling = "@enduml" := by
  simpa [directives] using directive

theorem eq_of_getD_directive {word spelling : String} {kind other : Kind}
    (directive : (kind, spelling) ∈ directives) (apart : other ≠ kind)
    (found : (keyword? word).getD other = kind) : word = spelling := by
  cases known : keyword? word with
  | none =>
    rw [known] at found
    exact absurd found apart
  | some same =>
    rw [known] at found
    obtain rfl : same = kind := found
    have listed := keyword?_mem known
    rcases directive_cases directive with ⟨rfl, rfl⟩ | ⟨rfl, rfl⟩ <;>
      simpa [keywords] using listed

theorem Lexeme.Measured.spelling_of_directive {lineStarts : Bool} {c : Char} {rest : List Char}
    {kind : Option Kind} {count : Nat} (measured : Measured lineStarts c rest kind count)
    {known : Kind} {spelling : String} (directive : (known, spelling) ∈ directives)
    (same : kind = some known) : (c :: rest.take count).map Char.toLower = spelling.toList := by
  have whole (p : Char → Bool) : rest.take (rest.takeWhile p).length = rest.takeWhile p :=
    (List.prefix_iff_eq_take.1 (List.takeWhile_prefix p)).symm
  have apart : known ≠ .unknown ∧ known ≠ .identifier ∧ known ∉ marks.map Prod.snd := by
    rcases directive_cases directive with ⟨rfl, rfl⟩ | ⟨rfl, rfl⟩ <;> decide
  cases measured with
  | directive =>
    rw [whole, ← String.ofList_inj, String.ofList_toList]
    exact eq_of_getD_directive directive apart.1.symm (Option.some.inj same)
  | word =>
    rw [whole, ← String.ofList_inj, String.ofList_toList]
    exact eq_of_getD_directive directive apart.2.1.symm (Option.some.inj same)
  | mark listed => exact absurd (Option.some.inj same) (Lexeme.mark_ne listed apart.2.2)
  | _ => rcases directive_cases directive with ⟨rfl, rfl⟩ | ⟨rfl, rfl⟩ <;> cases same

theorem exists_spelling {lineStarts : Bool} {text : List Char} {kind : Kind} {spelling : String}
    (directive : (kind, spelling) ∈ directives)
    (member : kind ∈ (lexemes lineStarts text).filterMap Lexeme.kind) :
    ∃ run, run <:+: text ∧ run.map Char.toLower = spelling.toList := by
  obtain ⟨lexeme, inside, kind⟩ := List.mem_filterMap.1 member
  obtain ⟨starts, c, rest, count, measured, same⟩ := measured_of_mem inside
  -- The characters of a lexeme are a run of the text.
  have within := List.infix_of_mem_flatten (List.mem_map_of_mem (f := Lexeme.text) inside)
  rw [flatten_lexemes] at within
  exact ⟨lexeme.text, within, same ▸ measured.spelling_of_directive directive kind⟩

theorem spelling_of_endUml {lineStarts : Bool} {text : List Char}
    (member : .endUml ∈ (lexemes lineStarts text).filterMap Lexeme.kind) :
    ∃ spelling, spelling <:+: text ∧ spelling.map Char.toLower = "@enduml".toList :=
  exists_spelling (by decide) member

/-! ## Joined tokens -/

theorem joinFrom_cons (reached : Nat) (token : Token) (rest : List Token) :
    Stream.joinFrom reached (token :: rest) =
      (if reached < token.offset then " " else "") ++
        Stream.joinFrom token.offset (token :: rest) := by
  simp [Stream.joinFrom, String.append_assoc]

theorem joinFrom_word {word : List Char} (plain : Plain word)
    (solid : ∀ c ∈ word, isBlank c = false) (position : Position) (rest : List Token) :
    Stream.joinFrom position.offset (placed position (lexemes false word) ++ rest) =
      String.ofList word ++ Stream.joinFrom (position.advance word).offset rest := by
  generalize starts : false = lineStarts
  fun_induction lexemes lineStarts word generalizing position with
  | case1 => simp
  | case2 lineStarts c more kind count same ih =>
    subst starts
    have inside := plain.linesUp_measure
    have measured := Lexeme.measured_measure false c more
    rw [same] at inside measured
    cases kind with
    | none =>
      have space := isBlank_of_isSpace measured.isSpace_of_none
      rw [solid c List.mem_cons_self] at space
      cases space
    | some kind =>
      have later : ∀ d ∈ more.drop count, isBlank d = false := fun d member =>
        solid d (List.mem_cons_of_mem c ((List.drop_suffix count more).subset member))
      have whole : c :: more = (c :: more.take count) ++ more.drop count := by simp
      rw [placed_token, List.cons_append, Stream.joinFrom, offset_new, text_new,
        if_neg (Nat.lt_irrefl _), stop_eq, ih (plain.drop count) later _ inside.symm, whole,
        Position.advance_append, String.ofList_append, String.empty_append, String.append_assoc]

theorem placed_word {word : List Char} (nonempty : word ≠ [])
    (solid : ∀ c ∈ word, isBlank c = false) (position : Position) : ∃ token more,
      placed position (lexemes false word) = token :: more ∧ token.offset = position.offset := by
  obtain ⟨c, more, rfl⟩ := List.exists_cons_of_ne_nil nonempty
  have measured := Lexeme.measured_measure false c more
  rw [lexemes_cons]
  cases kind : (Lexeme.measure false c more).1 with
  | none =>
    rw [kind] at measured
    have space := isBlank_of_isSpace measured.isSpace_of_none
    rw [solid c List.mem_cons_self] at space
    cases space
  | some kind => exact ⟨_, _, rfl, rfl⟩

theorem joinFrom_gap {word : List Char} (nonempty : word ≠ []) (solid : ∀ c ∈ word, isBlank c = false)
    (reached : Nat) (position : Position) (rest : List Token) :
    Stream.joinFrom reached (placed position (lexemes false word) ++ rest) =
      (if reached < position.offset then " " else "") ++
        Stream.joinFrom position.offset (placed position (lexemes false word) ++ rest) := by
  obtain ⟨token, more, same, offset⟩ := placed_word nonempty solid position
  rw [same, List.cons_append, joinFrom_cons, offset]

theorem joinFrom_placed {text : List Char} (plain : Plain text) (reached : Nat)
    (position : Position) (behind : reached ≤ position.offset)
    (gap : reached < position.offset ∨ ∀ c ∈ text.head?, isBlank c = true) :
    Stream.joinFrom reached (placed position (lexemes false text)) =
      String.ofList (spread (words text)) := by
  induction text using Text.words_induction generalizing reached position with
  | nil => simp [lexemes, Stream.joinFrom]
  | blank c rest blank ih =>
    have further : reached < (position.advance [c]).offset := by
      have size := c.utf8Size_pos
      rw [Position.offset_advance, Text.byteSize_cons]
      omega
    rw [lexemes_space (plain.blank c List.mem_cons_self blank), placed_blank,
      Text.words_cons_of_isBlank blank]
    exact ih (plain.drop 0) _ _ (Nat.le_of_lt further) (.inl further)
  | word word rest nonempty solid ends ih =>
    have first : Plain word := plain.part (List.prefix_append word rest).isInfix
    have later : Plain rest := plain.part (List.suffix_append word rest).isInfix
    -- What was joined so far ends before this word: a word follows no word without a blank.
    have apart : reached < position.offset := by
      rcases gap with further | blank
      · exact further
      · obtain ⟨c, more, rfl⟩ := List.exists_cons_of_ne_nil nonempty
        have noBlank := solid c List.mem_cons_self
        rw [blank c rfl] at noBlank
        cases noBlank
    rw [lexemes_append first (plain.stops ends), placed_append, spelled_lexemes,
      joinFrom_gap nonempty solid, if_pos apart, joinFrom_word first solid,
      ih later _ _ (Nat.le_refl _) (.inr ends), Text.words_append nonempty solid ends,
      Text.spread_cons, ← List.singleton_append (x := ' '), String.ofList_append,
      String.ofList_append]

theorem join_eq_joinFrom {tokens : List Token} (noString : ∀ token ∈ tokens, token.kind ≠ .string) :
    Stream.join tokens = Stream.joinFrom ((tokens.head?.map offset).getD 0) tokens := by
  rcases tokens with _ | ⟨first, _ | ⟨second, rest⟩⟩
  · rfl
  · have value : first.value = first.text := by
      unfold Token.value
      split
      · rename_i string
        exact absurd string (noString first List.mem_cons_self)
      · rfl
    simp [Stream.join, Stream.joinFrom, value]
  · simp [Stream.join, Stream.joinFrom]

theorem kind_ne_string {text : List Char} (plain : Plain text) (position : Position) :
    ∀ token ∈ placed position (lexemes false text), token.kind ≠ .string := by
  intro token member
  have inside := List.mem_map_of_mem (f := Token.kind) member
  rw [map_kind_placed] at inside
  exact (plain.mem_kinds inside).2.2.1

theorem join_placed {text : List Char} (plain : Plain text) (position : Position) :
    Stream.join (placed position (lexemes false text)) = String.ofList (collapse text) := by
  rw [join_eq_joinFrom (kind_ne_string plain position)]
  induction text using Text.words_induction generalizing position with
  | nil => simp [lexemes, Stream.joinFrom, collapse]
  | blank c rest blank ih =>
    rw [lexemes_space (plain.blank c List.mem_cons_self blank), placed_blank,
      Text.collapse_cons_of_isBlank blank]
    exact ih (plain.drop 0) _
  | word word rest nonempty solid ends ih =>
    have first : Plain word := plain.part (List.prefix_append word rest).isInfix
    have later : Plain rest := plain.part (List.suffix_append word rest).isInfix
    obtain ⟨token, more, same, starts⟩ := placed_word nonempty solid position
    rw [lexemes_append first (plain.stops ends), placed_append, spelled_lexemes]
    have head : (placed position (lexemes false word) ++
        placed (position.advance word) (lexemes false rest)).head? = some token := by
      rw [same]
      rfl
    rw [head, Option.map_some, Option.getD_some, starts, joinFrom_word first solid,
      joinFrom_placed later _ _ (Nat.le_refl _) (.inr ends), Text.collapse_append nonempty solid ends,
      String.ofList_append]

end Lifeline.Token
