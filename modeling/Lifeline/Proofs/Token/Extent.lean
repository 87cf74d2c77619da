import Lifeline.Token.Lexeme
import Lifeline.Token.Vocabulary

/-! How far a lexeme reaches.

A scanner looks at the characters after a lexeme, so what a text falls into depends on what follows
it. Here is when it does not: a lexeme that fits into a text stays as it is under every continuation
that no arrow goes on with, and a text on one line, without quotes and comment openers, keeps its
lexemes before a blank, a comma and a line feed. -/

set_option autoImplicit false

namespace Lifeline.Token.Lexeme

/-! ## Scanners that stay within a text -/

theorem takeWhile_append_of_fits {p : Char → Bool} {text tail : List Char}
    (fits : ((text ++ tail).takeWhile p).length ≤ text.length) :
    (text ++ tail).takeWhile p = text.takeWhile p := by
  rw [List.takeWhile_append] at fits ⊢
  split
  · rename_i whole
    rw [if_pos whole, List.length_append] at fits
    have none : tail.takeWhile p = [] := List.eq_nil_of_length_eq_zero (by omega)
    rw [none, List.append_nil, (List.takeWhile_prefix p).eq_of_length whole]
  · rfl

theorem takeWhile_append_of_head {p : Char → Bool} (text : List Char) {tail : List Char}
    (stops : ∀ c ∈ tail.head?, p c = false) :
    (text ++ tail).takeWhile p = text.takeWhile p := by
  have none : tail.takeWhile p = [] := by
    cases tail with
    | nil => rfl
    | cons c tail => simp [stops c rfl]
  rw [List.takeWhile_append, none, List.append_nil]
  split
  · rename_i whole
    exact ((List.takeWhile_prefix p).eq_of_length whole).symm
  · rfl

theorem takeWhile_fits {p : Char → Bool} (text : List Char) {tail : List Char}
    (stops : ∀ c ∈ tail.head?, p c = false) :
    ((text ++ tail).takeWhile p).length ≤ text.length := by
  rw [takeWhile_append_of_head text stops]
  exact (List.takeWhile_prefix p).length_le

theorem commentBody_le (text : List Char) : commentBody text ≤ text.length := by
  fun_induction commentBody text with
  | case1 => exact Nat.le_refl _
  | case2 => simp
  | case3 c rest apart ih => exact Nat.succ_le_succ ih

theorem commentBody_append_of_fits {text tail : List Char}
    (fits : commentBody (text ++ tail) ≤ text.length) :
    commentBody (text ++ tail) = commentBody text := by
  fun_induction commentBody text with
  | case1 => simpa using fits
  | case2 rest => rfl
  | case3 c rest apart ih =>
    -- A quote at the end of the text might be closed by what follows, but that would not fit.
    have apart' : ∀ more, c = '\'' → rest ++ tail ≠ '/' :: more := by
      intro more quote same
      cases rest with
      | nil =>
        rw [List.nil_append] at same
        subst quote same
        simp [commentBody] at fits
      | cons d rest =>
        cases same
        exact apart rest quote rfl
    have step : commentBody (c :: rest ++ tail) = commentBody (rest ++ tail) + 1 := by
      rw [List.cons_append, commentBody]
      intro more quote same
      exact apart' more quote same
    rw [step] at fits ⊢
    rw [ih (Nat.le_of_succ_le_succ fits)]

def fractionBody : List Char → Nat
  | '.' :: digit :: more => if digit.isDigit then 2 + (more.takeWhile Char.isDigit).length else 0
  | _ => 0

theorem numberBody_eq (text : List Char) :
    numberBody text = (text.takeWhile Char.isDigit).length +
      fractionBody (text.drop (text.takeWhile Char.isDigit).length) := by
  unfold numberBody
  dsimp only
  split
  · rename_i same
    rw [same, fractionBody]
    split <;> omega
  · rename_i other
    have none : fractionBody (text.drop (text.takeWhile Char.isDigit).length) = 0 := by
      unfold fractionBody
      split
      · rename_i same
        exact absurd same (other _ _)
      · rfl
    rw [none, Nat.add_zero]

theorem fractionBody_le (text : List Char) : fractionBody text ≤ text.length := by
  unfold fractionBody
  split
  · rename_i digit more
    have digits : (more.takeWhile Char.isDigit).length ≤ more.length :=
      (List.takeWhile_prefix _).length_le
    simp only [List.length_cons]
    split <;> omega
  · exact Nat.zero_le _

theorem numberBody_le (text : List Char) : numberBody text ≤ text.length := by
  have whole : (text.takeWhile Char.isDigit).length ≤ text.length :=
    (List.takeWhile_prefix _).length_le
  have fraction := fractionBody_le (text.drop (text.takeWhile Char.isDigit).length)
  rw [List.length_drop] at fraction
  rw [numberBody_eq]
  omega

theorem fractionBody_append_of_fits {text tail : List Char}
    (fits : fractionBody (text ++ tail) ≤ text.length) :
    fractionBody (text ++ tail) = fractionBody text := by
  rcases text with _ | ⟨point, _ | ⟨digit, more⟩⟩
  · simpa [fractionBody] using fits
  · -- A point at the end of the text: a digit after it would not fit.
    have none : fractionBody [point] = 0 := by simp [fractionBody]
    rw [none]
    rw [List.cons_append, List.nil_append] at fits ⊢
    unfold fractionBody at fits ⊢
    split
    · rename_i same
      simp only [same] at fits
      split
      · rename_i holds
        rw [if_pos holds] at fits
        simp only [List.length_singleton] at fits
        omega
      · rfl
    · rfl
  · by_cases isPoint : point = '.'
    · subst isPoint
      simp only [fractionBody, List.cons_append] at fits ⊢
      split
      · rename_i holds
        rw [if_pos holds] at fits
        have shorter : ((more ++ tail).takeWhile Char.isDigit).length ≤ more.length := by
          simp only [List.length_cons] at fits
          omega
        rw [takeWhile_append_of_fits shorter]
      · rfl
    · simp [fractionBody, isPoint]

theorem numberBody_append_of_fits {text tail : List Char}
    (fits : numberBody (text ++ tail) ≤ text.length) :
    numberBody (text ++ tail) = numberBody text := by
  rw [numberBody_eq] at fits
  rw [numberBody_eq, numberBody_eq text]
  have whole : (text ++ tail).takeWhile Char.isDigit = text.takeWhile Char.isDigit :=
    takeWhile_append_of_fits (Nat.le_of_add_right_le fits)
  have inside : (text.takeWhile Char.isDigit).length ≤ text.length :=
    (List.takeWhile_prefix _).length_le
  rw [whole, List.drop_append_of_le_length inside] at fits ⊢
  rw [fractionBody_append_of_fits]
  rw [List.length_drop]
  omega

theorem stringBody_append_of_fits {text tail : List Char}
    (fits : (stringBody (text ++ tail)).2 ≤ text.length) :
    stringBody (text ++ tail) = stringBody text := by
  unfold stringBody at fits ⊢
  dsimp only at fits ⊢
  -- Closed or not, a string holds all that comes before the next quote.
  have inner : (text ++ tail).takeWhile (· != '"') = text.takeWhile (· != '"') := by
    apply takeWhile_append_of_fits
    refine Nat.le_trans ?_ fits
    split <;> simp
  have inside : (text.takeWhile (· != '"')).length ≤ text.length :=
    (List.takeWhile_prefix _).length_le
  rw [inner, List.length_append] at fits ⊢
  by_cases closed : (text.takeWhile (· != '"')).length < text.length
  · rw [if_pos closed, if_pos (Nat.lt_add_right _ closed)]
  · rw [if_neg closed]
    split
    · rename_i longer
      rw [if_pos longer] at fits
      dsimp only at fits
      omega
    · rfl

theorem wordBody_append_of_fits {other : Kind} {isMember : Char → Bool} {first : Char}
    {text tail : List Char} (fits : (wordBody other isMember first (text ++ tail)).2 ≤ text.length) :
    wordBody other isMember first (text ++ tail) = wordBody other isMember first text := by
  unfold wordBody at fits ⊢
  dsimp only at fits ⊢
  rw [takeWhile_append_of_fits fits]

/-- Whether a text leaves a run of arrow characters before it alone. -/
def EndsArrow (tail : List Char) : Prop := ∀ c ∈ tail.head?, isArrowTail c = false

theorem arrowBody_append {first : Char} (text : List Char) {tail : List Char}
    (ends : EndsArrow tail) : arrowBody first (text ++ tail) = arrowBody first text := by
  unfold arrowBody
  rw [takeWhile_append_of_head text ends]

theorem measure_slash_eq (lineStarts : Bool) (rest : List Char) :
    measure lineStarts '/' rest = match rest with
      | '\'' :: body => (some .comment, commentBody body + 1)
      | '-' :: _ => (some (arrowBody '/' rest).1, (arrowBody '/' rest).2)
      | _ => (some .unknown, 0) := rfl

theorem measure_slash_append_of_fits {lineStarts : Bool} {text tail : List Char}
    (ends : EndsArrow tail) (fits : (measure lineStarts '/' (text ++ tail)).2 ≤ text.length) :
    measure lineStarts '/' (text ++ tail) = measure lineStarts '/' text := by
  rw [measure_slash_eq] at fits
  rw [measure_slash_eq, measure_slash_eq]
  rcases text with _ | ⟨c, text⟩
  · cases tail with
    | nil => rfl
    | cons c tail =>
      rw [List.nil_append] at fits ⊢
      split at fits
      · simp at fits
      · rename_i same
        cases same
        simpa [isArrowTail] using ends '-' rfl
      · rfl
  · rw [List.cons_append] at fits ⊢
    split at fits
    · rename_i same
      cases same
      rw [commentBody_append_of_fits (Nat.le_of_succ_le_succ fits)]
      rfl
    · rename_i same
      cases same
      rw [← List.cons_append, arrowBody_append _ ends]
      rfl
    · rename_i noComment noArrow
      split
      · rename_i same
        cases same
        exact absurd rfl (noComment _)
      · rename_i same
        cases same
        exact absurd rfl (noArrow _)
      · rfl

/-- A lexeme that fits into a text is the same whatever follows the text, unless an arrow goes on. -/
theorem measure_append_of_fits {lineStarts : Bool} {first : Char} {text tail : List Char}
    (ends : EndsArrow tail)
    (fits : (measure lineStarts first (text ++ tail)).2 ≤ text.length) :
    measure lineStarts first (text ++ tail) = measure lineStarts first text := by
  by_cases slash : first = '/'
  · subst slash
    exact measure_slash_append_of_fits ends fits
  unfold measure at fits ⊢
  dsimp only at fits ⊢
  split at fits <;> try rfl
  case h_12 => exact absurd rfl slash
  · rw [arrowBody_append text ends]
  · rw [arrowBody_append text ends]
  · rw [stringBody_append_of_fits fits]
  · rw [wordBody_append_of_fits fits]
  · split at fits
    · rename_i comment
      rw [if_pos comment, if_pos comment, takeWhile_append_of_fits fits]
    · rename_i noComment
      rw [if_neg noComment, if_neg noComment]
      split at fits
      · rename_i word
        rw [if_pos word, if_pos word, wordBody_append_of_fits fits]
      · rename_i noWord
        rw [if_neg noWord, if_neg noWord]
        split at fits
        · rename_i number
          rw [if_pos number, if_pos number, numberBody_append_of_fits fits]
        · rename_i noNumber
          rw [if_neg noNumber, if_neg noNumber]

/-! ## Texts that keep their lexemes -/

def isStop (c : Char) : Bool := isSpace c || c == '\n' || c == ','

theorem isStop_cases {c : Char} (stop : isStop c = true) :
    c = ' ' ∨ c = '\t' ∨ c = '\r' ∨ c = '\n' ∨ c = ',' := by
  simpa [isStop, isSpace, or_assoc] using stop

/-- Whether a text leaves what stands before it alone. -/
def Stops (tail : List Char) : Prop := ∀ c ∈ tail.head?, isStop c = true

theorem Stops.endsArrow {tail : List Char} (stops : Stops tail) : EndsArrow tail := by
  intro c member
  rcases isStop_cases (stops c member) with rfl | rfl | rfl | rfl | rfl <;> decide

theorem Stops.isIdentifierChar {tail : List Char} (stops : Stops tail) :
    ∀ c ∈ tail.head?, Token.isIdentifierChar c = false := by
  intro c member
  rcases isStop_cases (stops c member) with rfl | rfl | rfl | rfl | rfl <;> decide

theorem Stops.isAlphanumeric {tail : List Char} (stops : Stops tail) :
    ∀ c ∈ tail.head?, (c.isAlpha || c.isDigit) = false := by
  intro c member
  rcases isStop_cases (stops c member) with rfl | rfl | rfl | rfl | rfl <;> decide

theorem Stops.isDigit {tail : List Char} (stops : Stops tail) :
    ∀ c ∈ tail.head?, c.isDigit = false := by
  intro c member
  rcases isStop_cases (stops c member) with rfl | rfl | rfl | rfl | rfl <;> decide

theorem fractionBody_fits (text : List Char) {tail : List Char} (stops : Stops tail) :
    fractionBody (text ++ tail) ≤ text.length := by
  rcases text with _ | ⟨point, _ | ⟨digit, more⟩⟩
  · cases tail with
    | nil => exact Nat.le_refl _
    | cons c tail =>
      rcases isStop_cases (stops c rfl) with rfl | rfl | rfl | rfl | rfl <;> simp [fractionBody]
  · cases tail with
    | nil => simp [fractionBody]
    | cons c tail =>
      have noDigit : c.isDigit = false := stops.isDigit c rfl
      by_cases isPoint : point = '.' <;> simp [fractionBody, isPoint, noDigit]
  · rw [List.cons_append, List.cons_append]
    unfold fractionBody
    split
    · rename_i same
      cases same
      split
      · have := takeWhile_fits more stops.isDigit
        simp only [List.length_cons]
        omega
      · exact Nat.zero_le _
    · exact Nat.zero_le _

theorem numberBody_fits (text : List Char) {tail : List Char} (stops : Stops tail) :
    numberBody (text ++ tail) ≤ text.length := by
  have whole := takeWhile_append_of_head text stops.isDigit
  have inside : (text.takeWhile Char.isDigit).length ≤ text.length :=
    (List.takeWhile_prefix _).length_le
  rw [numberBody_eq, whole, List.drop_append_of_le_length inside]
  have rest := fractionBody_fits (text.drop (text.takeWhile Char.isDigit).length) stops
  rw [List.length_drop] at rest
  omega

theorem wordBody_fits (other : Kind) {isMember : Char → Bool} (first : Char) (text : List Char)
    {tail : List Char} (stops : ∀ c ∈ tail.head?, isMember c = false) :
    (wordBody other isMember first (text ++ tail)).2 ≤ text.length :=
  takeWhile_fits text stops

theorem arrowBody_fits (first : Char) (text : List Char) {tail : List Char}
    (ends : EndsArrow tail) : (arrowBody first (text ++ tail)).2 ≤ text.length := by
  unfold arrowBody
  dsimp only
  split
  · exact takeWhile_fits text ends
  · exact Nat.zero_le _

theorem measure_fits {first : Char} (text : List Char) {tail : List Char} (stops : Stops tail)
    (noString : first ≠ '"') (noComment : first = '/' → text.head? ≠ some '\'') :
    (measure false first (text ++ tail)).2 ≤ text.length := by
  unfold measure
  dsimp only
  split <;> try exact Nat.zero_le _
  -- A slash, which starts no comment.
  case h_12 =>
    split
    · rename_i same
      rcases text with _ | ⟨c, text⟩
      · cases tail with
        | nil => cases same
        | cons c tail =>
          cases same
          exact absurd (stops '\'' rfl) (by decide)
      · cases same
        exact absurd rfl (noComment rfl)
    · exact arrowBody_fits _ text stops.endsArrow
    · exact Nat.zero_le _
  · exact arrowBody_fits _ text stops.endsArrow
  · exact arrowBody_fits _ text stops.endsArrow
  · exact absurd rfl noString
  · exact wordBody_fits .unknown '@' text stops.isAlphanumeric
  · rw [Bool.and_false, if_neg Bool.false_ne_true]
    split
    · exact wordBody_fits .identifier first text stops.isIdentifierChar
    · split
      · exact numberBody_fits text stops
      · exact Nat.zero_le _

end Lifeline.Token.Lexeme
