import Lifeline.Proofs.Diagram.AlikeReading
import Lifeline.Proofs.Diagram.Clean
import Lifeline.Proofs.Source.Lexemes
import Lifeline.Proofs.Token.Clear

/-! Sources without the blanks at both ends.

Blanks before the first diagram are separators, or something is wrong with the source; so are those
after the last one, unless a comment goes on over them. Without them the source reads alike. -/

set_option autoImplicit false

namespace Lifeline.Token.Lexeme

open Text (isBlank)

/-! ## Blanks -/

theorem measure_blank {c : Char} (blank : isBlank c = true) (lineStarts : Bool) (rest : List Char) :
    ∃ kind, measure lineStarts c rest = (kind, 0) ∧
      (kind = none ∨ kind = some .newline ∨ kind = some .unknown) := by
  have noWord : isIdentifierChar c = false := by
    rw [Bool.eq_false_iff]
    intro word
    rw [isBlank_of_isIdentifierChar word] at blank
    cases blank
  have noStart : isIdentifierStart c = false := by
    rw [Bool.eq_false_iff]
    intro start
    rw [isIdentifierChar_of_start start] at noWord
    cases noWord
  have noDigit : c.isDigit = false := by
    rw [Bool.eq_false_iff]
    intro digit
    simp [isIdentifierChar, digit] at noWord
  have noApostrophe : (c == '\'') = false := by
    rw [beq_eq_false_iff_ne]
    rintro rfl
    exact absurd blank (by decide)
  unfold measure
  dsimp only
  split <;> first | exact absurd blank (by decide) | skip
  iterate 3 exact ⟨none, rfl, .inl rfl⟩
  · exact ⟨_, rfl, .inr (.inl rfl)⟩
  · rw [noApostrophe, Bool.false_and, noStart, noDigit]
    exact ⟨_, rfl, .inr (.inr rfl)⟩

def solidKinds (lexemes : List Lexeme) : List Kind :=
  (lexemes.filterMap kind).filter (!·.isSeparator)

theorem mem_solidKinds {found : List Lexeme} {lexeme : Lexeme} (member : lexeme ∈ found)
    {kind : Kind} (same : lexeme.kind = some kind) (solid : kind.isSeparator = false) :
    kind ∈ solidKinds found :=
  List.mem_filter.2 ⟨List.mem_filterMap.2 ⟨lexeme, member, same⟩, by rw [solid]; rfl⟩

theorem map_kind_solid (position : Position) (lexemes : List Lexeme) :
    (solid (placed position lexemes)).map Token.kind = solidKinds lexemes := by
  rw [solidKinds, ← map_kind_placed position lexemes, List.filter_map]
  rfl

theorem solidKinds_cons (kind : Option Kind) (text : List Char) (rest : List Lexeme) :
    solidKinds (⟨kind, text⟩ :: rest) =
      (kind.filter (!·.isSeparator)).toList ++ solidKinds rest := by
  rcases kind with _ | kind
  · rfl
  · by_cases separator : kind.isSeparator = true <;>
      simp [solidKinds, Option.filter, separator]

theorem isSeparator_of_solidKinds {kind : Kind}
    (none : ((some kind).filter (!·.isSeparator)).toList = []) : kind.isSeparator = true := by
  by_contra other
  simp [Option.filter, other] at none

theorem solidKinds_blank {text : List Char} (blank : ∀ c ∈ text, isBlank c = true)
    (lineStarts : Bool) : ∀ kind ∈ solidKinds (lexemes lineStarts text), kind = .unknown := by
  induction text generalizing lineStarts with
  | nil => simp [solidKinds, lexemes]
  | cons c rest ih =>
    obtain ⟨kind, measured, kinds⟩ := measure_blank (blank c List.mem_cons_self) lineStarts rest
    rw [lexemes_cons, measured, solidKinds_cons]
    intro other member
    rcases List.mem_append.1 member with first | later
    · rcases kinds with rfl | rfl | rfl <;> simp_all [Option.filter, Kind.isSeparator]
    · exact ih (fun d member => blank d (List.mem_cons_of_mem c member)) _ other later

theorem alike_append {first rest rest' : List Lexeme} (none : solidKinds first = [])
    (later : Alike true rest rest') : Alike true (first ++ rest) rest' := by
  induction first with
  | nil => exact later
  | cons lexeme first ih =>
    obtain ⟨kind, text⟩ := lexeme
    rw [solidKinds_cons, List.append_eq_nil_iff] at none
    cases kind with
    | none => exact .blankLeft (ih none.2)
    | some kind => exact .left (isSeparator_of_solidKinds none.1) (ih none.2)

theorem alike_nil {found : List Lexeme} (none : solidKinds found = []) : Alike true found [] := by
  have alike := alike_append none .nil
  rwa [List.append_nil] at alike

theorem gap_of_solidKinds {found : List Lexeme} (none : solidKinds found = []) (blank : Bool) :
    gap blank found = false := by
  induction found generalizing blank with
  | nil => rfl
  | cons lexeme rest ih =>
    obtain ⟨kind, text⟩ := lexeme
    rw [solidKinds_cons, List.append_eq_nil_iff] at none
    cases kind with
    | none => exact ih none.2 true
    | some kind => simp [gap, isSeparator_of_solidKinds none.1]

/-! ## Blanks at the start -/

theorem alike_lead {lead : List Char} (blank : ∀ c ∈ lead, isBlank c = true) (rest : List Char)
    (opens : ∀ kind ∈ (solidKinds (lexemes true (lead ++ rest))).head?, kind ≠ .unknown) :
    Alike true (lexemes true (lead ++ rest)) (lexemes true rest) := by
  induction lead with
  | nil => exact alike_refl _ _
  | cons c lead ih =>
    obtain ⟨kind, measured, kinds⟩ :=
      measure_blank (blank c List.mem_cons_self) true (lead ++ rest)
    have later := ih fun d member => blank d (List.mem_cons_of_mem c member)
    rw [List.cons_append, lexemes_cons, measured, solidKinds_cons] at opens
    rw [List.cons_append, lexemes_cons, measured]
    rcases kinds with rfl | rfl | rfl
    · exact .blankLeft (later opens)
    · exact .left rfl (later opens)
    · exact absurd rfl (opens .unknown rfl)

/-! ## Blanks at the end -/

theorem commentBody_append (text tail : List Char) :
    commentBody text = text.length ∨ commentBody (text ++ tail) = commentBody text := by
  fun_induction commentBody text with
  | case1 => exact .inl rfl
  | case2 rest => exact .inr rfl
  | case3 c rest apart ih =>
    rcases ih with whole | same
    · exact .inl (congrArg (· + 1) whole)
    · -- Only an apostrophe at the end could go on with what follows.
      by_cases last : rest = []
      · subst last
        exact .inl rfl
      · right
        obtain ⟨d, rest, rfl⟩ := List.exists_cons_of_ne_nil last
        rw [List.cons_append, commentBody, same]
        rintro more rfl same
        rw [List.cons_append, List.cons.injEq] at same
        exact apart rest rfl (by rw [same.1])

theorem getElem?_stringBody {text : List Char} (string : (stringBody text).1 ≠ .unknown) :
    text[(stringBody text).2 - 1]? = some '"' := by
  obtain ⟨inner, tail, noQuote, rfl⟩ := exists_quote string
  rw [stringBody_append noQuote, Nat.add_sub_cancel, List.getElem?_append_right (Nat.le_refl _),
    Nat.sub_self]
  rfl

theorem exists_reached {c : Char} {rest trail : List Char} {kind : Option Kind} {count : Nat}
    {lineStarts : Bool} (measured : Measured lineStarts c (rest ++ trail) kind count)
    (overrun : rest.length < count) : ∃ d ∈ trail, (rest ++ trail)[count - 1]? = some d := by
  have within := measured.count_le
  rw [List.length_append] at within
  rw [List.getElem?_append_right (by omega)]
  exact ⟨_, List.getElem_mem (by omega), List.getElem?_eq_getElem _⟩

/-- Of all lexemes only comments go on over blanks. -/
theorem comment_of_overrun {lineStarts : Bool} {c : Char} {rest trail : List Char}
    (blank : ∀ d ∈ trail, isBlank d = true)
    (closed : ¬(c = '"' ∧ (measure lineStarts c (rest ++ trail)).1 = some .unknown))
    (overrun : rest.length < (measure lineStarts c (rest ++ trail)).2) :
    (measure lineStarts c (rest ++ trail)).1 = some .comment := by
  have measured := measured_measure lineStarts c (rest ++ trail)
  obtain ⟨d, inside, reached⟩ := exists_reached measured overrun
  have blank_d := blank d inside
  by_contra noComment
  have noQuote : c ≠ '"' := by
    rintro rfl
    have string : (stringBody (rest ++ trail)).1 ≠ .unknown := fun unknown =>
      closed ⟨rfl, congrArg some unknown⟩
    have quote : some '"' = some d := (getElem?_stringBody string).symm.trans reached
    rw [← Option.some.inj quote] at blank_d
    exact absurd blank_d (by decide)
  have member : d ∈ (rest ++ trail).take (measure lineStarts c (rest ++ trail)).2 := by
    refine List.mem_of_getElem? (i := (measure lineStarts c (rest ++ trail)).2 - 1) ?_
    rwa [List.getElem?_take_of_lt (by omega)]
  rcases measured.mem_body noComment noQuote d member with name | arrow
  · rw [isBlank_of_isNameChar name] at blank_d
    cases blank_d
  · rw [isBlank_of_isArrowTail arrow] at blank_d
    cases blank_d

/-- A comment that goes on over blanks is one without them, and holds all that is left. -/
theorem measure_overrun {lineStarts : Bool} {c : Char} {rest trail : List Char}
    (blank : ∀ d ∈ trail, isBlank d = true)
    (closed : ¬(c = '"' ∧ (measure lineStarts c (rest ++ trail)).1 = some .unknown))
    (overrun : rest.length < (measure lineStarts c (rest ++ trail)).2) :
    (measure lineStarts c (rest ++ trail)).1 = some .comment ∧
      (measure lineStarts c rest).1 = some .comment ∧
      rest.drop (measure lineStarts c rest).2 = [] := by
  have comment := comment_of_overrun blank closed overrun
  refine ⟨comment, ?_⟩
  rcases (measured_measure lineStarts c (rest ++ trail)).comment_opens comment with
    ⟨rfl, block⟩ | ⟨rfl, rfl⟩
  · obtain ⟨body, rfl⟩ : ∃ body, rest = '\'' :: body := by
      cases rest with
      | nil =>
        have := blank '\'' (List.mem_of_mem_head? block)
        exact absurd this (by decide)
      | cons e body =>
        cases block
        exact ⟨body, rfl⟩
    refine ⟨rfl, List.drop_eq_nil_of_le ?_⟩
    have reach : body.length < commentBody (body ++ trail) := Nat.lt_of_succ_lt_succ overrun
    rcases commentBody_append body trail with whole | same
    · exact (congrArg (· + 1) whole).ge
    · have := commentBody_le body
      omega
  · refine ⟨rfl, List.drop_eq_nil_of_le ?_⟩
    have reach : rest.length < ((rest ++ trail).takeWhile (· != '\n')).length := overrun
    have within : (rest.takeWhile (· != '\n')).length ≤ rest.length :=
      (List.takeWhile_prefix _).length_le
    rw [List.takeWhile_append] at reach
    split at reach
    · rename_i whole
      exact whole.ge
    · omega

/-- Behind the last diagram separators may differ, as they may before the first one. -/
structure Closes (free : Bool) (found : List Lexeme) : Prop where
  last : ∀ kind ∈ (solidKinds found).getLast?, kind = .endUml
  atEnd : solidKinds found = [] → free = true

theorem Closes.tail {free : Bool} {kind : Option Kind} {text : List Char} {rest : List Lexeme}
    (closes : Closes free (⟨kind, text⟩ :: rest)) : Closes (Kind.freed free kind) rest where
  last := by
    intro last found
    have closing := closes.last last
    rw [solidKinds_cons, List.getLast?_append, Option.mem_def.1 found] at closing
    exact closing rfl
  atEnd := by
    intro none
    obtain ⟨last, atEnd⟩ := closes
    rw [solidKinds_cons, none, List.append_nil] at last atEnd
    cases kind with
    | none => exact atEnd rfl
    | some kind =>
      by_cases separator : kind.isSeparator = true
      · have := atEnd (by simp [Option.filter, separator])
        rw [Kind.freed, separator, this, Bool.and_self, Bool.or_true]
      · have := last kind (by simp [Option.filter, separator])
        rw [this]
        rfl

theorem Closes.solidKinds_eq_nil {trail : List Char} (blank : ∀ c ∈ trail, isBlank c = true)
    {free lineStarts : Bool} (closes : Closes free (lexemes lineStarts trail)) :
    solidKinds (lexemes lineStarts trail) = [] := by
  rw [← List.getLast?_eq_none_iff]
  by_contra some
  obtain ⟨kind, last⟩ := Option.ne_none_iff_exists'.1 some
  have unknown := solidKinds_blank blank lineStarts kind (List.mem_of_getLast? last)
  rw [closes.last kind last] at unknown
  cases unknown

theorem alike_trail {trail : List Char} (blank : ∀ c ∈ trail, isBlank c = true) {text : List Char}
    {free lineStarts : Bool} (closes : Closes free (lexemes lineStarts (text ++ trail)))
    (silent : ∀ lexeme ∈ lexemes lineStarts (text ++ trail),
      ¬(lexeme.text.head? = some '"' ∧ lexeme.kind = some .unknown)) :
    Alike free (lexemes lineStarts (text ++ trail)) (lexemes lineStarts text) ∧
      ∀ blank, gap blank (lexemes lineStarts (text ++ trail)) =
        gap blank (lexemes lineStarts text) := by
  fun_induction lexemes lineStarts text generalizing free with
  | case1 lineStarts =>
    have none := closes.solidKinds_eq_nil blank
    rw [closes.atEnd none]
    exact ⟨alike_nil none, gap_of_solidKinds none⟩
  | case2 lineStarts c rest kind count same ih =>
    rw [List.cons_append, lexemes_cons] at closes silent ⊢
    obtain ⟨opened, silent⟩ := List.forall_mem_cons.1 silent
    by_cases fits : (measure lineStarts c (rest ++ trail)).2 ≤ rest.length
    · have stays : measure lineStarts c (rest ++ trail) = (kind, count) := by
        rw [← same]
        refine measure_append_of_fits (fun d first => ?_) fits
        rw [Bool.eq_false_iff]
        intro arrow
        have blank_d := blank d (List.mem_of_mem_head? first)
        rw [isBlank_of_isArrowTail arrow] at blank_d
        cases blank_d
      rw [stays] at fits closes silent ⊢
      rw [List.drop_append_of_le_length fits] at closes silent ⊢
      rw [List.take_append_of_le_length fits]
      obtain ⟨alike, gaps⟩ := ih closes.tail silent
      exact ⟨.cons (fun _ => rfl) (fun _ => gaps false) alike, gap_cons fun _ => gaps true⟩
    · obtain ⟨comment, comment', whole⟩ := measure_overrun blank
        (fun both => opened ⟨congrArg some both.1, both.2⟩) (Nat.not_le.1 fits)
      rw [same] at comment' whole
      dsimp only at comment' whole
      -- All that is left are blanks, and nothing else comes behind the comment.
      have left : ∀ d ∈ (rest ++ trail).drop (measure lineStarts c (rest ++ trail)).2,
          isBlank d = true := by
        intro d member
        rw [List.drop_append, List.drop_eq_nil_of_le (Nat.le_of_not_le fits), List.nil_append] at member
        exact blank d (List.mem_of_mem_drop member)
      have none := closes.tail.solidKinds_eq_nil left
      rw [comment] at closes none ⊢
      have empty : lexemes (linesUp lineStarts (some .comment)) [] = [] := by rw [lexemes]
      rw [comment', whole, empty, closes.atEnd (by rw [solidKinds_cons, none]; rfl)]
      exact ⟨.left rfl (.right rfl (alike_nil none)), fun _ => rfl⟩

end Lifeline.Token.Lexeme

namespace Lifeline

open Token (lexemes)
open Token.Lexeme (solidKinds)

namespace Token.Framed

variable {text : List Char}

theorem head?_solidKinds (framed : Framed (ofText text)) :
    ∀ kind ∈ (solidKinds (lexemes true text)).head?, kind = .startUml := by
  rw [← Lexeme.map_kind_solid .start, List.head?_map]
  intro kind found
  obtain ⟨first, head, rfl⟩ := Option.map_eq_some_iff.1 found
  exact framed.opens first head

theorem closes_lexemes (framed : Framed (ofText text)) : Lexeme.Closes true (lexemes true text) where
  last := by
    rw [← Lexeme.map_kind_solid .start, List.getLast?_map]
    intro kind found
    obtain ⟨last, ends, rfl⟩ := Option.map_eq_some_iff.1 found
    exact framed.closes last ends
  atEnd _ := rfl

theorem no_quote (framed : Framed (ofText text)) : ∀ lexeme ∈ lexemes true text,
    ¬(lexeme.text.head? = some '"' ∧ lexeme.kind = some .unknown) := by
  rintro lexeme member ⟨quote, unknown⟩
  obtain ⟨token, inside, kind, same⟩ := Lexeme.exists_mem_placed member unknown .start
  exact framed.silent token inside ⟨kind, same ▸ quote⟩

end Token.Framed

/-- A source with which nothing is wrong says the same without the blanks at both ends. -/
theorem sameReading_trim {source : String} (clean : (analyze source).issues = []) :
    SameReading source (String.ofList (Text.trim source.toList)) := by
  obtain ⟨lead, trail, same, blank, blank'⟩ := Text.exists_trim source.toList
  generalize Text.trim source.toList = trimmed at same ⊢
  have framed := framed_of_clean clean
  rw [same] at framed
  have started : SameReading source (String.ofList (trimmed ++ trail)) := by
    refine sameReading_of_alike ?_
    rw [String.toList_ofList, same]
    refine (Token.Lexeme.alike_lead blank _ fun kind first unknown => ?_).ofText
    have startUml := framed.head?_solidKinds kind first
    rw [unknown] at startUml
    cases startUml
  have framed' := framed_of_clean (started.clean clean)
  rw [String.toList_ofList] at framed'
  refine started.trans (sameReading_of_alike ?_)
  rw [String.toList_ofList, String.toList_ofList]
  exact (Token.Lexeme.alike_trail blank' framed'.closes_lexemes framed'.no_quote).1.ofText

end Lifeline
