import Lifeline.Storyboard.Render
import Lifeline.Proofs.Diagram.Note
import Lifeline.Proofs.Text.Lines
import Lifeline.Proofs.Text.Trim

/-! Free text as it is written.

What `inert` makes of a text is one line without quotes and comment openers, its blanks single
spaces between words. A text that is like this already stays as it is, and a run of characters
without blanks and apostrophes that is in the result was in the text. -/

set_option autoImplicit false

namespace Lifeline.Render

open Text (isBlank words collapse Spaced)
open Token (Inert Plain kinds)

/-! ## What the parts keep -/

theorem mem_withoutQuotes {text : List Char} : '"' ∉ withoutQuotes text := by
  intro member
  obtain ⟨c, _, same⟩ := List.mem_map.1 member
  by_cases quote : c = '"'
  · rw [if_pos quote] at same
    exact absurd same (by decide)
  · rw [if_neg quote] at same
    exact quote same

theorem isBlank_withoutQuotes (c : Char) :
    isBlank (if c = '"' then '\'' else c) = isBlank c := by
  by_cases quote : c = '"'
  · rw [if_pos quote, quote]
    decide
  · rw [if_neg quote]

theorem spaced_withoutQuotes {text : List Char} (spaced : Spaced text) :
    Spaced (withoutQuotes text) := by
  induction text with
  | nil => exact trivial
  | cons c rest ih =>
    refine ⟨fun blank => ?_, ih spaced.2⟩
    rw [isBlank_withoutQuotes] at blank
    obtain ⟨rfl, d, head, solid⟩ := spaced.1 blank
    refine ⟨rfl, if d = '"' then '\'' else d, ?_, by rw [isBlank_withoutQuotes, solid]⟩
    rw [List.head?_map, Option.mem_def.1 head]
    rfl

theorem withoutQuotes_of_not_mem {text : List Char} (noQuote : '"' ∉ text) :
    withoutQuotes text = text := by
  rw [withoutQuotes, List.map_congr_left (g := id), List.map_id]
  intro c member
  have other : c ≠ '"' := fun same => noQuote (same ▸ member)
  rw [if_neg other, id]

theorem mem_withoutComments {text : List Char} {c : Char} (member : c ∈ withoutComments text) :
    c ∈ text ∨ c = ' ' := by
  fun_induction withoutComments text with
  | case1 => cases member
  | case2 rest ih =>
    rcases List.mem_cons.1 member with rfl | member
    · simp
    · rcases List.mem_cons.1 member with rfl | member
      · simp
      · rcases List.mem_cons.1 member with rfl | member
        · simp
        · rcases ih member with inside | space
          · simp [inside]
          · exact .inr space
  | case3 d rest _ ih =>
    rcases List.mem_cons.1 member with rfl | member
    · simp
    · rcases ih member with inside | space
      · simp [inside]
      · exact .inr space

theorem head?_withoutComments (text : List Char) :
    (withoutComments text).head? = text.head? := by
  fun_cases withoutComments text <;> rfl

theorem spaced_withoutComments {text : List Char} (spaced : Spaced text) :
    Spaced (withoutComments text) := by
  fun_induction withoutComments text with
  | case1 => exact trivial
  | case2 rest ih =>
    have later := ih spaced.2.2
    refine ⟨fun blank => absurd blank (by decide), fun _ => ⟨rfl, '\'', rfl, by decide⟩, ?_, later⟩
    exact fun blank => absurd blank (by decide)
  | case3 c rest _ ih =>
    refine ⟨fun blank => ?_, ih spaced.2⟩
    rw [head?_withoutComments]
    exact spaced.1 blank

theorem noComment_withoutComments (text : List Char) :
    ¬['/', '\''] <:+: withoutComments text := by
  fun_induction withoutComments text with
  | case1 => simp
  | case2 rest ih =>
    simp [List.infix_cons_iff, ih]
  | case3 c rest other ih =>
    rw [List.infix_cons_iff]
    rintro (opener | later)
    · -- A slash before an apostrophe would have been the case before.
      rw [List.cons_prefix_cons] at opener
      obtain ⟨rfl, apostrophe⟩ := opener
      have head : (withoutComments rest).head? = some '\'' := by
        obtain ⟨more, same⟩ := apostrophe
        rw [← same]
        rfl
      rw [head?_withoutComments] at head
      obtain ⟨more, rfl⟩ := List.head?_eq_some_iff.1 head
      exact other more rfl rfl
    · exact ih later

theorem withoutComments_of_noComment {text : List Char} (noComment : ¬['/', '\''] <:+: text) :
    withoutComments text = text := by
  fun_induction withoutComments text with
  | case1 => rfl
  | case2 rest => exact absurd (List.prefix_append ['/', '\''] rest).isInfix noComment
  | case3 c rest _ ih =>
    rw [ih fun later => noComment (later.trans (List.suffix_cons c rest).isInfix)]

/-! ## What is made of a text -/

theorem spaced_inert (text : List Char) : Spaced (inert text) :=
  spaced_withoutComments (spaced_withoutQuotes (Text.spaced_collapse text))

theorem head?_inert (text : List Char) : ∀ c ∈ (inert text).head?, isBlank c = false := by
  intro c head
  rw [inert, head?_withoutComments, withoutQuotes, List.head?_map] at head
  obtain ⟨d, first, rfl⟩ := Option.map_eq_some_iff.1 head
  rw [isBlank_withoutQuotes]
  exact Text.head?_collapse text d first

theorem inert_inert (text : List Char) : Inert (inert text) where
  plain := {
    quote := fun member => (mem_withoutComments member).elim mem_withoutQuotes (by decide)
    comment := noComment_withoutComments _
    blank := fun c member blank => (spaced_inert text).eq_space member blank ▸ rfl }
  collapsed := Text.collapse_of_spaced (spaced_inert text) (head?_inert text)

theorem inert_of_inert {text : List Char} (same : Inert text) : inert text = text := by
  rw [inert, same.collapsed, withoutQuotes_of_not_mem same.plain.quote,
    withoutComments_of_noComment same.plain.comment]

theorem inert_of_isBlankLabel {label : String} (blank : isBlankLabel label = true) :
    inert label.toList = [] := by
  have none : words label.toList = [] := Text.words_of_trim (List.isEmpty_iff.1 blank)
  rw [inert, collapse, none]
  rfl

/-! ## Lines of notes -/

theorem noteLine_eq (line : List Char) :
    (inert line).head? ≠ some '\'' ∧ noteLine line = inert line ∨
      ∃ rest, inert line = '\'' :: rest ∧ noteLine line = '\u2019' :: rest := by
  unfold noteLine
  split
  · rename_i rest same
    exact .inr ⟨rest, same, rfl⟩
  · rename_i other
    refine .inl ⟨fun head => ?_, rfl⟩
    obtain ⟨rest, same⟩ := List.head?_eq_some_iff.1 head
    exact other rest same

theorem head?_noteLine (line : List Char) : (noteLine line).head? ≠ some '\'' := by
  rcases noteLine_eq line with ⟨head, same⟩ | ⟨rest, -, same⟩
  · rwa [same]
  · rw [same, List.head?_cons]
    decide

theorem inert_noteLine (line : List Char) : Inert (noteLine line) := by
  have inert := inert_inert line
  rcases noteLine_eq line with ⟨-, same⟩ | ⟨rest, cut, same⟩
  · rwa [same]
  · rw [cut] at inert
    have later : rest <:+: '\'' :: rest := (List.suffix_cons '\'' rest).isInfix
    have spaced : Spaced ('\'' :: rest) := inert.collapsed ▸ Text.spaced_collapse _
    rw [same]
    -- The mark that stands for the apostrophe is no quote, no blank and opens no comment.
    refine ⟨⟨?_, ?_, ?_⟩, ?_⟩
    · have quote := (inert.plain.part later).quote
      simpa using quote
    · rw [List.infix_cons_iff]
      rintro (opener | inside)
      · rw [List.cons_prefix_cons] at opener
        exact absurd opener.1 (by decide)
      · exact (inert.plain.part later).comment inside
    · intro c member blank
      rcases List.mem_cons.1 member with rfl | inside
      · exact absurd blank (by decide)
      · exact (inert.plain.part later).blank c inside blank
    · refine Text.collapse_of_spaced ⟨fun blank => absurd blank (by decide), spaced.2⟩ ?_
      rintro c ⟨⟩
      decide

/-- A line that is inert already stays as it is, unless an apostrophe starts it. -/
theorem noteLine_of_inert {line : List Char} (same : Inert line) (head : line.head? ≠ some '\'') :
    noteLine line = line := by
  have same := inert_of_inert same
  rcases noteLine_eq line with ⟨-, kept⟩ | ⟨rest, cut, -⟩
  · rw [kept, same]
  · rw [same] at cut
    exact absurd (cut ▸ rfl) head

theorem lines_joined {lines : List (List Char)} (several : 2 ≤ lines.length)
    (each : ∀ line ∈ lines, line ≠ [] ∧ Inert line) :
    ("\n".intercalate (lines.map String.ofList)).toList.contains '\n' = true ∧
      Text.lines ("\n".intercalate (lines.map String.ofList)).toList = lines := by
  have back : String.toList ∘ String.ofList = id := funext fun line => String.toList_ofList
  have text : ("\n".intercalate (lines.map String.ofList)).toList = ['\n'].intercalate lines := by
    rw [String.toList_intercalate, List.map_map, back, List.map_id]
    rfl
  rw [text]
  constructor
  · rcases lines with _ | ⟨first, _ | ⟨second, rest⟩⟩
    · cases several
    · exact absurd several (by simp)
    · simp [List.intercalate_cons_cons]
  · apply Text.lines_intercalate
    · exact fun line member => (each line member).1
    · exact fun line member => (each line member).2.plain.lineFeed
    · intro line member feed
      have spaced := (each line member).2.collapsed ▸ Text.spaced_collapse line
      exact absurd (spaced.eq_space feed (by decide)) (by decide)

/-! ## Runs that a text keeps -/

theorem infix_of_infix_withoutQuotes {run text : List Char} (noApostrophe : '\'' ∉ run)
    (within : run <:+: withoutQuotes text) : run <:+: text := by
  obtain ⟨before, after, same⟩ := within
  obtain ⟨first, rest, rfl, cut, -⟩ := List.map_eq_append_iff.1 same.symm
  obtain ⟨start, inner, rfl, -, rfl⟩ := List.map_eq_append_iff.1 cut
  have kept : withoutQuotes inner = inner := by
    apply withoutQuotes_of_not_mem
    intro quote
    apply noApostrophe
    exact List.mem_map.2 ⟨'"', quote, rfl⟩
  rw [show inner.map _ = inner from kept]
  exact ⟨start, rest, rfl⟩

theorem prefix_of_prefix_withoutComments {run text : List Char} (solid : ' ' ∉ run)
    (within : run <+: withoutComments text) : run <+: text := by
  -- A space is put only between a slash and an apostrophe, where no run without spaces goes on.
  fun_induction withoutComments text generalizing run with
  | case1 => exact within
  | case2 rest =>
    rcases run with _ | ⟨c, _ | ⟨d, run⟩⟩
    · exact List.nil_prefix
    · rw [List.cons_prefix_cons] at within
      rw [within.1]
      exact List.prefix_append ['/'] ('\'' :: rest)
    · rw [List.cons_prefix_cons, List.cons_prefix_cons] at within
      rw [within.2.1] at solid
      exact absurd (by simp) solid
  | case3 c rest _ ih =>
    cases run with
    | nil => exact List.nil_prefix
    | cons d run =>
      rw [List.cons_prefix_cons] at within ⊢
      exact ⟨within.1, ih (fun member => solid (List.mem_cons_of_mem d member)) within.2⟩

theorem infix_of_infix_withoutComments {run text : List Char} (solid : ' ' ∉ run)
    (noApostrophe : '\'' ∉ run) (within : run <:+: withoutComments text) : run <:+: text := by
  fun_induction withoutComments text with
  | case1 => exact within
  | case2 rest ih =>
    have first : ['/'] <:+: '/' :: '\'' :: rest := (List.prefix_append ['/'] _).isInfix
    have later : rest <:+: '/' :: '\'' :: rest := (List.suffix_append ['/', '\''] rest).isInfix
    rcases Text.infix_append_cons solid ['/'] within with inside | within
    · exact inside.trans first
    · rcases Text.infix_append_cons noApostrophe [] within with inside | within
      · exact inside.trans (List.nil_infix)
      · exact (ih within).trans later
  | case3 c rest other ih =>
    rw [List.infix_cons_iff] at within
    rcases within with starts | within
    · have starts : run <+: withoutComments (c :: rest) := by
        rw [withoutComments]
        · exact starts
        · exact other
      exact (prefix_of_prefix_withoutComments solid starts).isInfix
    · exact (ih within).trans (List.suffix_cons c rest).isInfix

theorem infix_of_infix_inert {run text : List Char} (nonempty : run ≠ []) (solid : ' ' ∉ run)
    (noApostrophe : '\'' ∉ run) (within : run <:+: inert text) : run <:+: text := by
  apply Text.infix_of_infix_collapse nonempty solid
  apply infix_of_infix_withoutQuotes noApostrophe
  exact infix_of_infix_withoutComments solid noApostrophe within

end Lifeline.Render
