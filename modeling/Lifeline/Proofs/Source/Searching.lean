import Lifeline.Proofs.Token.Extent
import Lifeline.Proofs.Storyboard.Placement
import Lifeline.Source.Extract

/-! What the search in a line finds.

A declaration or a message that starts a line is what the search finds there. A line without a quote
declares nothing, wherever in it the search looks. -/

set_option autoImplicit false

namespace Lifeline.Extract

open Text (after? isBlank isWord skipBlanks)

theorem after?_append (word rest : List Char) : after? word (word ++ rest) = some rest := by
  induction word with
  | nil => rfl
  | cons c word ih => rw [List.cons_append, after?, if_pos rfl, ih]

theorem eq_append_of_after? {word text rest : List Char} (found : after? word text = some rest) :
    text = word ++ rest := by
  fun_induction after? word text with
  | case1 => exact Option.some.inj found
  | case2 => cases found
  | case3 c word text ih => rw [ih found, List.cons_append]
  | case4 => cases found

theorem suffix_of_afterBlanks? {text rest : List Char} (found : afterBlanks? text = some rest) :
    rest <:+ text := by
  fun_cases afterBlanks? text with
  | case1 => cases found
  | case2 c more blank =>
    rw [afterBlanks?, if_pos blank] at found
    cases found
    exact (List.dropWhile_suffix isBlank).trans (List.suffix_cons c more)
  | case3 c more solid =>
    rw [afterBlanks?, if_neg solid] at found
    cases found

theorem skipBlanks_of_solid {text : List Char} (solid : ∀ c ∈ text.head?, isBlank c = false) :
    skipBlanks text = text := Text.dropWhile_of_head? solid

theorem afterBlanks?_space {text : List Char} (solid : ∀ c ∈ text.head?, isBlank c = false) :
    afterBlanks? (' ' :: text) = some text := by
  rw [afterBlanks?, if_pos (by decide), skipBlanks_of_solid solid]

theorem skipBlanks_space {text : List Char} (solid : ∀ c ∈ text.head?, isBlank c = false) :
    skipBlanks (' ' :: text) = text := by
  rw [skipBlanks, List.dropWhile_cons_of_pos (by decide), ← skipBlanks, skipBlanks_of_solid solid]

theorem takeWhile_run {p : Char → Bool} {run rest : List Char} (all : ∀ c ∈ run, p c = true)
    (stops : ∀ c ∈ rest.head?, p c = false) :
    (run ++ rest).takeWhile p = run ∧ (run ++ rest).dropWhile p = rest := by
  constructor
  · rw [Token.Lexeme.takeWhile_append_of_head run stops, List.takeWhile_eq_self_iff.2 all]
  · rw [List.dropWhile_append_of_pos all, Text.dropWhile_of_head? stops]

/-- A word that is read as a whole. -/
structure Whole (word : List Char) : Prop where
  nonempty : word ≠ []
  legible : ∀ c ∈ word, isWord c = true
  solid : ∀ c ∈ word, isBlank c = false

namespace Whole

variable {word : List Char}

theorem head? (whole : Whole word) (rest : List Char) :
    ∀ c ∈ (word ++ rest).head?, isBlank c = false := by
  obtain ⟨first, more, rfl⟩ := List.exists_cons_of_ne_nil whole.nonempty
  rintro c ⟨⟩
  exact whole.solid first List.mem_cons_self

theorem word? (whole : Whole word) {rest : List Char} (stops : ∀ c ∈ rest.head?, isWord c = false) :
    word? (word ++ rest) = some (word, rest) := by
  obtain ⟨taken, dropped⟩ := takeWhile_run whole.legible stops
  have nonempty : ¬word.isEmpty = true := by simpa using whole.nonempty
  rw [Extract.word?, taken, dropped, if_neg nonempty]

end Whole

/-! ## Places -/

variable {α : Type} {search : List Char → Option α}

theorem leftmost?_of_start {text : List Char} {result : α} (found : search text = some result) :
    leftmost? search text = some result := by
  cases text with
  | nil => exact found
  | cons c rest => rw [leftmost?, found, Option.some_or]

theorem leftmost?_eq_none {text : List Char} (none : ∀ rest, rest <:+ text → search rest = .none) :
    leftmost? search text = .none := by
  induction text with
  | nil => exact none [] List.suffix_rfl
  | cons c rest ih =>
    rw [leftmost?, none (c :: rest) List.suffix_rfl, Option.none_or]
    exact ih fun more within => none more (within.trans (List.suffix_cons c rest))

/-! ## Declarations -/

theorem actor?_eq_none {text : List Char} (unquoted : '"' ∉ text) : actor? text = none := by
  cases found : actor? text with
  | none => rfl
  | some =>
    rw [actor?] at found
    simp only [bind, Option.bind_eq_some_iff] at found
    obtain ⟨afterWord, word, afterBlanks, blanks, afterQuote, quote, -⟩ := found
    have within : afterBlanks <:+ text := by
      rw [eq_append_of_after? word]
      exact (suffix_of_afterBlanks? blanks).trans (List.suffix_append _ afterWord)
    have quoted : '"' ∈ afterBlanks := by
      rw [eq_append_of_after? quote]
      simp
    exact absurd (within.subset quoted) unquoted

theorem leftmost?_actor?_eq_none {text : List Char} (unquoted : '"' ∉ text) :
    leftmost? actor? text = none :=
  leftmost?_eq_none fun _ within => actor?_eq_none fun quote => unquoted (within.subset quote)

theorem nickname?_as {short : List Char} (whole : Whole short) :
    nickname? (" as ".toList ++ short) = some short := by
  have name : word? (short ++ []) = some (short, []) := whole.word? (by simp)
  have blank := afterBlanks?_space (whole.head? [])
  rw [List.append_nil] at name blank
  have word : after? ['a', 's'] ('a' :: 's' :: ' ' :: short) = some (' ' :: short) :=
    after?_append ['a', 's'] _
  have space : afterBlanks? (" as ".toList ++ short) = some ('a' :: 's' :: ' ' :: short) :=
    afterBlanks?_space (by rintro c ⟨⟩; decide)
  rw [nickname?, space]
  simp only [Option.bind_eq_bind, Option.bind_some, word, blank, name]
  rfl

theorem actor?_quoted {name : List Char} (nonempty : name ≠ []) (unquoted : '"' ∉ name)
    (rest : List Char) : actor? ("actor \"".toList ++ (name ++ '"' :: rest)) =
      some (String.ofList name, (nickname? rest).map String.ofList) := by
  have word : after? "actor".toList ("actor \"".toList ++ (name ++ '"' :: rest)) =
      some (' ' :: '"' :: (name ++ '"' :: rest)) := after?_append "actor".toList _
  have blank : afterBlanks? (' ' :: '"' :: (name ++ '"' :: rest)) =
      some ('"' :: (name ++ '"' :: rest)) := afterBlanks?_space (by rintro c ⟨⟩; decide)
  have opens : after? ['"'] ('"' :: (name ++ '"' :: rest)) = some (name ++ '"' :: rest) :=
    after?_append ['"'] _
  have closes : after? ['"'] ('"' :: rest) = some rest := after?_append ['"'] rest
  have inside : ∀ c ∈ name, (c != '"') = true := fun c member =>
    bne_iff_ne.2 fun same => unquoted (same ▸ member)
  have stops : ∀ c ∈ ('"' :: rest).head?, (c != '"') = false := by rintro c ⟨⟩; decide
  obtain ⟨taken, dropped⟩ := takeWhile_run inside stops
  have given : ¬name.isEmpty = true := by simpa using nonempty
  rw [actor?]
  simp only [Option.bind_eq_bind, Option.bind_some, word, blank, opens, taken, dropped, closes,
    if_neg given]
  rfl

theorem actor?_declaration {name short : List Char} (nonempty : name ≠ []) (unquoted : '"' ∉ name)
    (whole : Whole short) :
    actor? ("actor \"".toList ++ (name ++ '"' :: (" as ".toList ++ short))) =
      some (String.ofList name, some (String.ofList short)) := by
  rw [actor?_quoted nonempty unquoted, nickname?_as whole, Option.map_some]

/-! ## Messages -/

theorem message?_line {source target : List Char} (sender : Whole source) (receiver : Whole target)
    (text : List Char) :
    message? (source ++ (" -> ".toList ++ (target ++ (" : ".toList ++ text)))) =
      some ⟨String.ofList source, String.ofList target, String.ofList (Text.trim text)⟩ := by
  have first : word? (source ++ (" -> ".toList ++ (target ++ (" : ".toList ++ text)))) =
      some (source, " -> ".toList ++ (target ++ (" : ".toList ++ text))) :=
    sender.word? (by rintro c ⟨⟩; decide +kernel)
  have arrowBlank : skipBlanks (" -> ".toList ++ (target ++ (" : ".toList ++ text))) =
      '-' :: '>' :: ' ' :: (target ++ (" : ".toList ++ text)) :=
    skipBlanks_space (by rintro c ⟨⟩; decide)
  have arrow : after? ['-', '>'] ('-' :: '>' :: ' ' :: (target ++ (" : ".toList ++ text))) =
      some (' ' :: (target ++ (" : ".toList ++ text))) := after?_append ['-', '>'] _
  have blank := skipBlanks_space (receiver.head? (" : ".toList ++ text))
  have second : word? (target ++ (" : ".toList ++ text)) = some (target, " : ".toList ++ text) :=
    receiver.word? (by rintro c ⟨⟩; decide +kernel)
  have colonBlank : skipBlanks (" : ".toList ++ text) = ':' :: ' ' :: text :=
    skipBlanks_space (by rintro c ⟨⟩; decide)
  have colon : after? [':'] (':' :: ' ' :: text) = some (' ' :: text) := after?_append [':'] _
  rw [message?]
  simp only [Option.bind_eq_bind, Option.bind_some, first, arrowBlank, arrow, blank, second,
    colonBlank, colon]
  rw [if_neg (by simp), trim_space]
  rfl

end Lifeline.Extract
