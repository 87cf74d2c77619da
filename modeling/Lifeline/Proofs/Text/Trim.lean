import Lifeline.Proofs.Text.Words

/-! Trimmed texts, and runs of characters without blanks. -/

set_option autoImplicit false

namespace Lifeline.Text

theorem words_of_all_isBlank {text : List Char} (blank : ∀ c ∈ text, isBlank c = true) :
    words text = [] := by
  induction text with
  | nil => rfl
  | cons c rest ih =>
    rw [words_cons_of_isBlank (blank c List.mem_cons_self)]
    exact ih fun d member => blank d (List.mem_cons_of_mem c member)

theorem isBlank_of_words {text : List Char} (none : words text = []) :
    ∀ c ∈ text, isBlank c = true := by
  induction text using words_induction with
  | nil => exact fun _ none => by cases none
  | blank c rest blank ih =>
    exact List.forall_mem_cons.2 ⟨blank, ih (words_cons_of_isBlank blank rest ▸ none)⟩
  | word word rest some solid ends =>
    rw [words_append some solid ends] at none
    cases none

theorem isBlank_of_trim {text : List Char} (none : trim text = []) :
    ∀ c ∈ text, isBlank c = true := by
  rw [trim, List.reverse_eq_nil_iff, List.dropWhile_eq_nil_iff] at none
  -- Anything left from the front starts with what is not blank, so not all of it goes at the back.
  cases kept : text.dropWhile isBlank with
  | nil => exact List.dropWhile_eq_nil_iff.1 kept
  | cons c rest =>
    have first := List.head?_dropWhile_not isBlank text
    rw [kept] at first
    have blank := none c (by rw [kept]; simp)
    rw [first] at blank
    cases blank

theorem words_of_trim {text : List Char} (none : trim text = []) : words text = [] :=
  words_of_all_isBlank (isBlank_of_trim none)

theorem dropWhile_of_head? {p : Char → Bool} {text : List Char}
    (ends : ∀ c ∈ text.head?, p c = false) : text.dropWhile p = text := by
  cases text with
  | nil => rfl
  | cons c rest => simp [ends c rfl]

theorem trim_of_ends {text : List Char} (starts : ∀ c ∈ text.head?, isBlank c = false)
    (ends : ∀ c ∈ text.getLast?, isBlank c = false) : trim text = text := by
  have last : ∀ c ∈ text.reverse.head?, isBlank c = false := by
    rw [List.head?_reverse]
    exact ends
  rw [trim, dropWhile_of_head? starts, dropWhile_of_head? last, List.reverse_reverse]

theorem Spaced.getLast? {text : List Char} (spaced : Spaced text) :
    ∀ c ∈ text.getLast?, isBlank c = false := by
  induction text with
  | nil => simp
  | cons c rest ih =>
    cases rest with
    | nil =>
      rintro d ⟨⟩
      rw [Bool.eq_false_iff]
      intro blank
      obtain ⟨-, e, head, -⟩ := spaced.1 blank
      cases head
    | cons d rest =>
      rw [List.getLast?_cons_cons]
      exact ih spaced.2

theorem trim_of_collapse {text : List Char} (collapsed : collapse text = text) :
    trim text = text := by
  have spaced := spaced_collapse text
  have starts := head?_collapse text
  rw [collapsed] at spaced starts
  exact trim_of_ends starts spaced.getLast?

theorem getLast?_trim (text : List Char) : ∀ c ∈ (trim text).getLast?, isBlank c = false := by
  intro c last
  rw [trim, List.getLast?_reverse] at last
  have stopped := List.head?_dropWhile_not isBlank (text.dropWhile isBlank).reverse
  rw [Option.mem_def.1 last] at stopped
  exact stopped

theorem trim_append_of_isBlank (text : List Char) {trail : List Char}
    (blank : ∀ c ∈ trail, isBlank c = true) : trim (text ++ trail) = trim text := by
  rw [trim, trim, List.dropWhile_append]
  split
  · rename_i none
    rw [List.isEmpty_iff.1 none, List.dropWhile_eq_nil_iff.2 blank]
  · rw [List.reverse_append, List.dropWhile_append_of_pos]
    simpa using blank

theorem trim_of_all_isBlank {text : List Char} (blank : ∀ c ∈ text, isBlank c = true) :
    trim text = [] :=
  trim_append_of_isBlank [] blank

theorem head?_trim (text : List Char) : ∀ c ∈ (trim text).head?, isBlank c = false := by
  intro c head
  have starts : trim text <+: text.dropWhile isBlank := by
    rw [trim, ← List.reverse_suffix, List.reverse_reverse]
    exact List.dropWhile_suffix _
  have stopped := List.head?_dropWhile_not isBlank text
  obtain ⟨rest, same⟩ := List.head?_eq_some_iff.1 head
  obtain ⟨more, whole⟩ := starts
  rw [← whole, same] at stopped
  exact stopped

theorem trim_trim (text : List Char) : trim (trim text) = trim text :=
  trim_of_ends (head?_trim text) (getLast?_trim text)

theorem exists_trim (text : List Char) : ∃ lead trail, text = lead ++ (trim text ++ trail) ∧
    (∀ c ∈ lead, isBlank c = true) ∧ ∀ c ∈ trail, isBlank c = true := by
  refine ⟨text.takeWhile isBlank, ((text.dropWhile isBlank).reverse.takeWhile isBlank).reverse, ?_,
    fun c member => List.mem_takeWhile_imp member, fun c member => ?_⟩
  · rw [trim, ← List.reverse_append, List.takeWhile_append_dropWhile, List.reverse_reverse,
      List.takeWhile_append_dropWhile]
  · exact List.mem_takeWhile_imp (List.mem_reverse.1 member)

/-! ## Runs without blanks -/

theorem infix_append_cons {c : Char} {run : List Char} (without : c ∉ run) (first : List Char)
    {rest : List Char} (within : run <:+: first ++ c :: rest) : run <:+: first ∨ run <:+: rest := by
  induction first with
  | nil =>
    rw [List.nil_append, List.infix_cons_iff] at within
    rcases within with starts | later
    · cases run with
      | nil => exact .inl (List.nil_infix)
      | cons d run =>
        rw [List.cons_prefix_cons] at starts
        exact absurd (starts.1 ▸ List.mem_cons_self) without
    · exact .inr later
  | cons d first ih =>
    rw [List.cons_append, List.infix_cons_iff] at within
    rcases within with starts | later
    · left
      -- The run starts in the first part, and cannot reach over the character that it is without.
      obtain ⟨more, same⟩ := starts
      rw [← List.cons_append] at same
      rcases List.append_eq_append_iff.1 same with ⟨between, cut, _⟩ | ⟨between, cut, after⟩
      · rw [cut]
        exact (List.prefix_append run between).isInfix
      · cases between with
        | nil =>
          rw [List.append_nil] at cut
          exact cut ▸ List.infix_rfl
        | cons e between =>
          rw [List.cons_append] at after
          cases after
          exact absurd (cut ▸ by simp) without
    · rcases ih later with inside | after
      · exact .inl (inside.trans (List.suffix_cons d first).isInfix)
      · exact .inr after

theorem infix_spread {run : List Char} (solid : ' ' ∉ run)
    {words : List (List Char)} {first : List Char} (within : run <:+: first ++ spread words) :
    ∃ word ∈ first :: words, run <:+: word := by
  induction words generalizing first with
  | nil => exact ⟨first, List.mem_cons_self, by simpa using within⟩
  | cons word words ih =>
    rw [spread_cons] at within
    rcases infix_append_cons solid first within with inside | later
    · exact ⟨first, List.mem_cons_self, inside⟩
    · obtain ⟨other, member, inside⟩ := ih later
      exact ⟨other, List.mem_cons_of_mem first member, inside⟩

theorem infix_of_mem_words {text word : List Char} (member : word ∈ words text) :
    word <:+: text := by
  induction text using words_induction with
  | nil => simp at member
  | blank c rest blank ih =>
    rw [words_cons_of_isBlank blank] at member
    exact (ih member).trans (List.suffix_cons c rest).isInfix
  | word first rest nonempty solid ends ih =>
    rw [words_append nonempty solid ends] at member
    rcases List.mem_cons.1 member with rfl | later
    · exact (List.prefix_append word rest).isInfix
    · exact (ih later).trans (List.suffix_append first rest).isInfix

/-- A run without spaces that is in the collapsed text was in the text. -/
theorem infix_of_infix_collapse {run text : List Char} (nonempty : run ≠ []) (solid : ' ' ∉ run)
    (within : run <:+: collapse text) : run <:+: text := by
  rw [collapse] at within
  cases same : words text with
  | nil =>
    rw [same] at within
    exact absurd (List.eq_nil_of_infix_nil within) nonempty
  | cons word rest =>
    rw [same, intercalate_cons] at within
    obtain ⟨other, member, inside⟩ := infix_spread solid within
    exact inside.trans (infix_of_mem_words (same ▸ member))

end Lifeline.Text
