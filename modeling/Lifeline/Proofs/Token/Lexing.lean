import Lifeline.Proofs.Token.Extent

/-! What a text falls into.

First all that can start at a character, then the lexemes of a text piece by piece: blanks one by
one, words, quoted names, and whole texts on one line that hold no quote and no comment opener. -/

set_option autoImplicit false

namespace Lifeline.Token

theorem keyword?_mem {word : String} {kind : Kind} (found : keyword? word = some kind) :
    (word, kind) ∈ keywords := by
  obtain ⟨before, after, same, _⟩ := List.lookup_eq_some_iff.1 found
  rw [same]
  simp

theorem getD_keyword? {word : String} {other kind : Kind}
    (same : (keyword? word).getD other = kind) (noKeyword : kind ∉ keywords.map Prod.snd) :
    other = kind := by
  cases found : keyword? word with
  | none => rw [found] at same; exact same
  | some known =>
    rw [found] at same
    cases same
    exact absurd (List.mem_map.2 ⟨_, keyword?_mem found, rfl⟩) noKeyword

/-- Words have no kind that is no keyword's, unless all other words have it. -/
theorem getD_keyword?_ne {word : String} {other kind : Kind}
    (noKeyword : kind ∉ keywords.map Prod.snd) (apart : other ≠ kind) :
    (keyword? word).getD other ≠ kind := fun same =>
  apart (getD_keyword? same noKeyword)

namespace Lexeme

def marks : List (Char × Kind) :=
  [(':', .colon), (';', .semicolon), (',', .comma), ('(', .lParen), (')', .rParen),
   ('[', .lBracket), (']', .rBracket)]

theorem mark_ne {c : Char} {kind other : Kind} (listed : (c, kind) ∈ marks)
    (noMark : other ∉ marks.map Prod.snd) : kind ≠ other := by
  rintro rfl
  exact noMark (List.mem_map_of_mem listed)

/-- Everything that can start at a character: the kind of lexeme, and how many characters follow. -/
inductive Measured (lineStarts : Bool) : Char → List Char → Option Kind → Nat → Prop where
  | space {c : Char} {rest : List Char} : isSpace c = true → Measured lineStarts c rest none 0
  | lineFeed {rest : List Char} : Measured lineStarts '\n' rest (some .newline) 0
  | mark {c : Char} {kind : Kind} {rest : List Char} :
      (c, kind) ∈ marks → Measured lineStarts c rest (some kind) 0
  | blockComment {body : List Char} :
      Measured lineStarts '/' ('\'' :: body) (some .comment) (commentBody body + 1)
  | lineComment {rest : List Char} : lineStarts = true →
      Measured lineStarts '\'' rest (some .comment) (rest.takeWhile (· != '\n')).length
  | arrow {c : Char} {rest : List Char} :
      (arrowClass? (String.ofList (c :: rest.takeWhile isArrowTail))).isSome = true →
      Measured lineStarts c rest (some .arrow) (rest.takeWhile isArrowTail).length
  | string {rest : List Char} : (rest.takeWhile (· != '"')).length < rest.length →
      Measured lineStarts '"' rest (some .string) ((rest.takeWhile (· != '"')).length + 1)
  | openString {rest : List Char} : Measured lineStarts '"' rest (some .unknown) rest.length
  | directive {rest : List Char} :
      Measured lineStarts '@' rest
        (some ((keyword? (String.ofList
          (('@' :: rest.takeWhile fun c => c.isAlpha || c.isDigit).map Char.toLower))).getD .unknown))
        (rest.takeWhile fun c => c.isAlpha || c.isDigit).length
  | word {c : Char} {rest : List Char} : isIdentifierStart c = true →
      Measured lineStarts c rest
        (some ((keyword? (String.ofList
          ((c :: rest.takeWhile isIdentifierChar).map Char.toLower))).getD .identifier))
        (rest.takeWhile isIdentifierChar).length
  | number {c : Char} {rest : List Char} : c.isDigit = true →
      Measured lineStarts c rest (some .identifier) (numberBody rest)
  | lone {c : Char} {rest : List Char} : isSpace c = false → c ≠ '\n' → c ≠ '"' →
      Measured lineStarts c rest (some .unknown) 0

theorem measured_arrowBody (lineStarts : Bool) {c : Char} (rest : List Char)
    (known : isSpace c = false ∧ c ≠ '\n' ∧ c ≠ '"') :
    Measured lineStarts c rest (some (arrowBody c rest).1) (arrowBody c rest).2 := by
  unfold arrowBody
  dsimp only
  split
  · rename_i isArrow
    exact .arrow isArrow
  · exact .lone known.1 known.2.1 known.2.2

theorem measured_stringBody (lineStarts : Bool) (rest : List Char) :
    Measured lineStarts '"' rest (some (stringBody rest).1) (stringBody rest).2 := by
  have inside : (rest.takeWhile (· != '"')).length ≤ rest.length :=
    (List.takeWhile_prefix _).length_le
  unfold stringBody
  dsimp only
  split
  · rename_i closed
    exact .string closed
  · rename_i stays
    have all : (rest.takeWhile (· != '"')).length = rest.length := by omega
    rw [all]
    exact .openString

theorem measured_measure (lineStarts : Bool) (c : Char) (rest : List Char) :
    Measured lineStarts c rest (measure lineStarts c rest).1 (measure lineStarts c rest).2 := by
  unfold measure
  dsimp only
  split
  -- The cases stand in the order in which the scanner tries them.
  iterate 3 exact .space (by decide)
  · exact .lineFeed
  iterate 7 exact .mark (by decide)
  · split
    · exact .blockComment
    · exact measured_arrowBody _ _ (by decide)
    · exact .lone (by decide) (by decide) (by decide)
  iterate 2 exact measured_arrowBody _ _ (by decide)
  · exact measured_stringBody _ _
  · exact .directive
  · rename_i noSpace noTab noReturn noLineFeed _ _ _ _ _ _ _ _ _ _ noQuote _
    split
    · rename_i comment
      simp only [Bool.and_eq_true, beq_iff_eq] at comment
      obtain ⟨rfl, starts⟩ := comment
      exact .lineComment starts
    · split
      · rename_i start
        exact .word start
      · split
        · rename_i digit
          exact .number digit
        · refine .lone ?_ noLineFeed noQuote
          simpa [isSpace, not_or, and_assoc] using ⟨noSpace, noTab, noReturn⟩

namespace Measured

variable {lineStarts : Bool} {c : Char} {rest : List Char} {kind : Option Kind} {count : Nat}

theorem count_le (measured : Measured lineStarts c rest kind count) : count ≤ rest.length := by
  have within (p : Char → Bool) : (rest.takeWhile p).length ≤ rest.length :=
    (List.takeWhile_prefix p).length_le
  cases measured with
  | space | lineFeed | mark | lone => exact Nat.zero_le _
  | blockComment => exact Nat.succ_le_succ (commentBody_le _)
  | lineComment | arrow | directive | word => exact within _
  | string closed => exact closed
  | openString => exact Nat.le_refl _
  | number => exact numberBody_le _

theorem isSpace_of_none (measured : Measured lineStarts c rest none count) : isSpace c = true := by
  cases measured
  assumption

/-- The forms of the lexemes whose kinds are in no table. -/
inductive Formed (lineStarts : Bool) : Char → List Char → Kind → Nat → Prop where
  | lineFeed {rest : List Char} : Formed lineStarts '\n' rest .newline 0
  | blockComment {body : List Char} :
      Formed lineStarts '/' ('\'' :: body) .comment (commentBody body + 1)
  | lineComment {rest : List Char} : lineStarts = true →
      Formed lineStarts '\'' rest .comment (rest.takeWhile (· != '\n')).length
  | arrow {c : Char} {rest : List Char} :
      (arrowClass? (String.ofList (c :: rest.takeWhile isArrowTail))).isSome = true →
      Formed lineStarts c rest .arrow (rest.takeWhile isArrowTail).length
  | string {rest : List Char} : (rest.takeWhile (· != '"')).length < rest.length →
      Formed lineStarts '"' rest .string ((rest.takeWhile (· != '"')).length + 1)

theorem formed {kind : Kind} (measured : Measured lineStarts c rest (some kind) count)
    (own : kind ∈ [.newline, .comment, .arrow, .string, .eof]) :
    Formed lineStarts c rest kind count := by
  have table : kind ∉ marks.map Prod.snd ∧ kind ∉ keywords.map Prod.snd ∧ kind ≠ .unknown ∧
      kind ≠ .identifier := by
    clear measured
    revert kind
    decide
  generalize same : some kind = found at measured
  cases measured with
  | lineFeed => exact Option.some.inj same ▸ .lineFeed
  | blockComment => exact Option.some.inj same ▸ .blockComment
  | lineComment starts => exact Option.some.inj same ▸ .lineComment starts
  | arrow listed => exact Option.some.inj same ▸ .arrow listed
  | string closed => exact Option.some.inj same ▸ .string closed
  | mark listed => exact absurd (Option.some.inj same).symm (mark_ne listed table.1)
  | directive =>
    exact absurd (Option.some.inj same).symm (getD_keyword?_ne table.2.1 table.2.2.1.symm)
  | word => exact absurd (Option.some.inj same).symm (getD_keyword?_ne table.2.1 table.2.2.2.symm)
  | space => cases same
  | openString | lone => exact absurd (Option.some.inj same) table.2.2.1
  | number => exact absurd (Option.some.inj same) table.2.2.2

theorem comment_opens (measured : Measured lineStarts c rest kind count)
    (comment : kind = some .comment) :
    c = '/' ∧ rest.head? = some '\'' ∨ c = '\'' ∧ lineStarts = true := by
  subst comment
  cases measured.formed (by decide) with
  | blockComment => exact .inl ⟨rfl, rfl⟩
  | lineComment starts => exact .inr ⟨rfl, starts⟩

end Measured

end Lexeme

/-! ## Lexemes one after the other -/

theorem lexemes_cons (lineStarts : Bool) (c : Char) (rest : List Char) :
    lexemes lineStarts (c :: rest) =
      ⟨(Lexeme.measure lineStarts c rest).1,
        c :: rest.take (Lexeme.measure lineStarts c rest).2⟩ ::
      lexemes (Lexeme.linesUp lineStarts (Lexeme.measure lineStarts c rest).1)
        (rest.drop (Lexeme.measure lineStarts c rest).2) := by
  rw [lexemes]

theorem lexemes_space {c : Char} (space : Lexeme.isSpace c = true) (lineStarts : Bool)
    (rest : List Char) :
    lexemes lineStarts (c :: rest) = ⟨none, [c]⟩ :: lexemes lineStarts rest := by
  have measured : Lexeme.measure lineStarts c rest = (none, 0) := by
    simp only [Lexeme.isSpace, Bool.or_eq_true, beq_iff_eq] at space
    rcases space with (rfl | rfl) | rfl <;> rfl
  rw [lexemes_cons, measured]
  rfl

theorem measured_of_mem {lineStarts : Bool} {text : List Char} {lexeme : Lexeme}
    (member : lexeme ∈ lexemes lineStarts text) :
    ∃ starts c rest count, Lexeme.Measured starts c rest lexeme.kind count ∧
      lexeme.text = c :: rest.take count := by
  fun_induction lexemes lineStarts text with
  | case1 => cases member
  | case2 lineStarts c rest kind count same ih =>
    rcases List.mem_cons.1 member with rfl | later
    · have measured := Lexeme.measured_measure lineStarts c rest
      rw [same] at measured
      exact ⟨lineStarts, c, rest, count, measured, rfl⟩
    · exact ih later

end Lifeline.Token
