import Lifeline.Text.Blank
import Mathlib.Data.List.TakeWhile

/-! The words of a text, one by one.

A text is empty, starts with a blank, or starts with a word that ends where the text does or at a
blank. What is proved of texts below follows these three cases. -/

set_option autoImplicit false

namespace Lifeline.Text

@[simp] theorem words_nil : words [] = [] := rfl

theorem words_cons_of_isBlank {c : Char} (blank : isBlank c = true) (rest : List Char) :
    words (c :: rest) = words rest := by
  simp [words, split, blank]

theorem split_append_of_isBlank {word : List Char} (solid : ∀ c ∈ word, isBlank c = false)
    {rest : List Char} (ends : ∀ c ∈ rest.head?, isBlank c = true) :
    ∃ pieces, split isBlank (word ++ rest) = word :: pieces ∧
      pieces.filter (! ·.isEmpty) = words rest := by
  induction word with
  | nil =>
    cases rest with
    | nil => exact ⟨[], rfl, rfl⟩
    | cons c rest =>
      have blank : isBlank c = true := ends c rfl
      refine ⟨split isBlank rest, ?_, (words_cons_of_isBlank blank rest).symm⟩
      rw [List.nil_append, split, if_pos blank]
  | cons c word ih =>
    obtain ⟨pieces, cut, same⟩ := ih fun d member => solid d (List.mem_cons_of_mem c member)
    have noBlank : ¬isBlank c = true := by simp [solid c List.mem_cons_self]
    refine ⟨pieces, ?_, same⟩
    rw [List.cons_append, split, if_neg noBlank, cut]

theorem words_append {word rest : List Char} (some : word ≠ [])
    (solid : ∀ c ∈ word, isBlank c = false) (ends : ∀ c ∈ rest.head?, isBlank c = true) :
    words (word ++ rest) = word :: words rest := by
  obtain ⟨pieces, cut, same⟩ := split_append_of_isBlank solid ends
  simp [words, cut, same, some]

theorem words_induction {motive : List Char → Prop} (nil : motive [])
    (blank : ∀ c rest, isBlank c = true → motive rest → motive (c :: rest))
    (word : ∀ word rest, word ≠ [] → (∀ c ∈ word, isBlank c = false) →
      (∀ c ∈ rest.head?, isBlank c = true) → motive rest → motive (word ++ rest))
    (text : List Char) : motive text := by
  -- Blanks are passed one by one and words whole, so the induction is on the length.
  generalize size : text.length = length
  induction length using Nat.strongRecOn generalizing text with
  | ind length ih =>
    cases text with
    | nil => exact nil
    | cons c rest =>
      subst size
      by_cases isBlank : isBlank c = true
      · exact blank c rest isBlank (ih rest.length (Nat.lt_succ_self _) rest rfl)
      · have cut := List.takeWhile_append_dropWhile (p := (! Text.isBlank ·)) (l := c :: rest)
        rw [← cut]
        have some : (c :: rest).takeWhile (! Text.isBlank ·) ≠ [] := by simp [isBlank]
        refine word _ _ some ?_ ?_ (ih _ ?_ _ rfl)
        · intro d member
          simpa using List.mem_takeWhile_imp member
        · intro d member
          have stopped := List.head?_dropWhile_not (! Text.isBlank ·) (c :: rest)
          rw [Option.mem_def.1 member] at stopped
          simpa using stopped
        · have total := congrArg List.length cut
          have long := List.length_pos_iff.2 some
          rw [List.length_append] at total
          omega

/-! ## Collapsed texts -/

theorem collapse_cons_of_isBlank {c : Char} (blank : isBlank c = true) (rest : List Char) :
    collapse (c :: rest) = collapse rest := by
  rw [collapse, words_cons_of_isBlank blank, collapse]

def spread (words : List (List Char)) : List Char := words.flatMap (' ' :: ·)

@[simp] theorem spread_nil : spread [] = [] := rfl

@[simp] theorem spread_cons (word : List Char) (words : List (List Char)) :
    spread (word :: words) = ' ' :: (word ++ spread words) := rfl

theorem intercalate_cons_eq_flatMap (separator word : List Char) (words : List (List Char)) :
    separator.intercalate (word :: words) = word ++ words.flatMap (separator ++ ·) := by
  induction words generalizing word with
  | nil => simp
  | cons next words ih => rw [List.intercalate_cons_cons, ih]; simp

theorem intercalate_cons (word : List Char) (words : List (List Char)) :
    [' '].intercalate (word :: words) = word ++ spread words :=
  intercalate_cons_eq_flatMap [' '] word words

theorem collapse_append {word rest : List Char} (some : word ≠ [])
    (solid : ∀ c ∈ word, isBlank c = false) (ends : ∀ c ∈ rest.head?, isBlank c = true) :
    collapse (word ++ rest) = word ++ spread (words rest) := by
  rw [collapse, words_append some solid ends, intercalate_cons]

/-- Every blank is a space, and what follows it is not blank. -/
def Spaced : List Char → Prop
  | [] => True
  | c :: rest =>
    (isBlank c = true → c = ' ' ∧ ∃ d ∈ rest.head?, isBlank d = false) ∧ Spaced rest

theorem Spaced.eq_space {text : List Char} (spaced : Spaced text) {c : Char} (member : c ∈ text)
    (blank : isBlank c = true) : c = ' ' := by
  induction text with
  | nil => simp at member
  | cons d rest ih =>
    rcases List.mem_cons.1 member with rfl | later
    · exact (spaced.1 blank).1
    · exact ih spaced.2 later

theorem Spaced.append_right {word rest : List Char} (spaced : Spaced (word ++ rest)) :
    Spaced rest := by
  induction word with
  | nil => exact spaced
  | cons c word ih => exact ih spaced.2

theorem Spaced.append_left {word rest : List Char} (solid : ∀ c ∈ word, isBlank c = false)
    (spaced : Spaced rest) : Spaced (word ++ rest) := by
  induction word with
  | nil => exact spaced
  | cons c word ih =>
    refine ⟨fun blank => ?_, ih fun d member => solid d (List.mem_cons_of_mem c member)⟩
    rw [solid c List.mem_cons_self] at blank
    cases blank

theorem mem_words {text word : List Char} (member : word ∈ words text) :
    word ≠ [] ∧ ∀ c ∈ word, isBlank c = false := by
  induction text using words_induction with
  | nil => simp at member
  | blank c rest blank ih => exact ih (words_cons_of_isBlank blank rest ▸ member)
  | word first rest some solid ends ih =>
    rw [words_append some solid ends] at member
    rcases List.mem_cons.1 member with rfl | later
    · exact ⟨some, solid⟩
    · exact ih later

theorem collapse_eq_nil_iff {text : List Char} : collapse text = [] ↔ words text = [] := by
  rw [collapse]
  cases same : words text with
  | nil => simp
  | cons word rest =>
    have some := (mem_words (same ▸ List.mem_cons_self : word ∈ words text)).1
    simp [intercalate_cons, some]

theorem spaced_spread {words : List (List Char)}
    (each : ∀ word ∈ words, word ≠ [] ∧ ∀ c ∈ word, isBlank c = false) : Spaced (spread words) := by
  induction words with
  | nil => exact trivial
  | cons word words ih =>
    obtain ⟨some, solid⟩ := each word List.mem_cons_self
    have rest := ih fun other member => each other (List.mem_cons_of_mem word member)
    rw [spread_cons]
    refine ⟨fun _ => ⟨rfl, ?_⟩, rest.append_left solid⟩
    obtain ⟨c, more, rfl⟩ := List.exists_cons_of_ne_nil some
    exact ⟨c, rfl, solid c List.mem_cons_self⟩

theorem spaced_collapse (text : List Char) : Spaced (collapse text) := by
  rw [collapse]
  cases same : words text with
  | nil => exact trivial
  | cons word rest =>
    have each : ∀ other ∈ words text, other ≠ [] ∧ ∀ c ∈ other, isBlank c = false :=
      fun other member => mem_words member
    rw [same] at each
    rw [intercalate_cons]
    apply Spaced.append_left (each word List.mem_cons_self).2
    exact spaced_spread fun other member => each other (List.mem_cons_of_mem word member)

theorem head?_collapse (text : List Char) : ∀ c ∈ (collapse text).head?, isBlank c = false := by
  intro c head
  rw [collapse] at head
  cases same : words text with
  | nil => rw [same] at head; cases head
  | cons word rest =>
    have first : word ∈ words text := same ▸ List.mem_cons_self
    obtain ⟨some, solid⟩ := mem_words first
    obtain ⟨d, more, rfl⟩ := List.exists_cons_of_ne_nil some
    rw [same, intercalate_cons] at head
    cases head
    exact solid _ List.mem_cons_self

/-- A text whose blanks are single spaces between its words has nothing to collapse. -/
theorem spread_words_or_collapse {text : List Char} (spaced : Spaced text) :
    ((∀ c ∈ text.head?, isBlank c = true) → spread (words text) = text) ∧
      ((∀ c ∈ text.head?, isBlank c = false) → collapse text = text) := by
  -- The halves carry each other: after a word comes a blank, and after a blank a word.
  induction text using words_induction with
  | nil => exact ⟨fun _ => rfl, fun _ => rfl⟩
  | blank c rest blank ih =>
    obtain ⟨⟨rfl, d, head, solid⟩, later⟩ := And.imp_left (fun given => given blank) spaced
    refine ⟨fun _ => ?_, fun noBlank => ?_⟩
    · have tidy := (ih later).2 fun e member => by
        rw [Option.mem_def.1 head] at member
        cases member
        exact solid
      rw [words_cons_of_isBlank blank]
      cases same : words rest with
      | nil =>
        rw [collapse, same] at tidy
        rw [← tidy] at head
        cases head
      | cons word more =>
        rw [collapse, same, intercalate_cons] at tidy
        rw [spread_cons, tidy]
    · rw [noBlank ' ' rfl] at blank
      cases blank
  | word word rest some solid ends ih =>
    obtain ⟨c, more, rfl⟩ := List.exists_cons_of_ne_nil some
    refine ⟨fun allBlank => ?_, fun _ => ?_⟩
    · have impossible := solid c List.mem_cons_self
      rw [allBlank c rfl] at impossible
      cases impossible
    · rw [collapse_append some solid ends, (ih spaced.append_right).1 ends]

theorem collapse_of_spaced {text : List Char} (spaced : Spaced text)
    (starts : ∀ c ∈ text.head?, isBlank c = false) : collapse text = text :=
  (spread_words_or_collapse spaced).2 starts

theorem collapse_collapse (text : List Char) : collapse (collapse text) = collapse text :=
  collapse_of_spaced (spaced_collapse text) (head?_collapse text)

end Lifeline.Text
