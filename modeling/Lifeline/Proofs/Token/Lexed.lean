import Lifeline.Proofs.Token.Plain

/-! The tokens of a text, wherever the text stands.

A run of tokens is lexed from a text if it is that text's, from some place on. What can be said of
such tokens follows the text from its front: blanks are passed over, and each spelling of the
language gives its token. -/

set_option autoImplicit false

namespace Lifeline.Token

open Lexeme (isSpace marks Stops)

/-- Whether tokens are those of a text, from some place on. -/
def Lexed (lineStarts : Bool) (text : List Char) (tokens : List Token) : Prop :=
  ∃ position, tokens = placed position (lexemes lineStarts text)

theorem Lexed.uncons {lineStarts : Bool} {text word rest : List Char} {kind : Kind} {later : Bool}
    {tokens : List Token} (lexed : Lexed lineStarts text tokens)
    (same : lexemes lineStarts text = ⟨some kind, word⟩ :: lexemes later rest) :
    ∃ token more, tokens = token :: more ∧ token.kind = kind ∧ token.text = String.ofList word ∧
      Lexed later rest more := by
  obtain ⟨position, rfl⟩ := lexed
  rw [same, placed_token]
  exact ⟨_, _, rfl, rfl, rfl, _, rfl⟩

theorem Lexed.nil {lineStarts : Bool} {tokens : List Token}
    (lexed : Lexed lineStarts [] tokens) : tokens = [] := by
  obtain ⟨position, rfl⟩ := lexed
  simp [lexemes]

theorem Lexed.space {lineStarts : Bool} {c : Char} {rest : List Char} {tokens : List Token}
    (lexed : Lexed lineStarts (c :: rest) tokens) (space : isSpace c = true) :
    Lexed lineStarts rest tokens := by
  obtain ⟨position, rfl⟩ := lexed
  rw [lexemes_space space, placed_blank]
  exact ⟨_, rfl⟩

theorem Lexed.gap {lineStarts : Bool} {rest : List Char} {tokens : List Token}
    (lexed : Lexed lineStarts (' ' :: rest) tokens) : Lexed lineStarts rest tokens :=
  lexed.space rfl

theorem Lexed.indent {lineStarts : Bool} {count : Nat} {rest : List Char} {tokens : List Token}
    (lexed : Lexed lineStarts (List.replicate count ' ' ++ rest) tokens) :
    Lexed lineStarts rest tokens := by
  induction count with
  | zero => exact lexed
  | succ count ih => exact ih lexed.gap

/-! ## Spellings -/

theorem lexemes_lineFeed (lineStarts : Bool) (rest : List Char) :
    lexemes lineStarts ('\n' :: rest) = ⟨some .newline, ['\n']⟩ :: lexemes true rest := by
  rw [lexemes_cons]
  rfl

theorem lexemes_mark {c : Char} {kind : Kind} (mark : (c, kind) ∈ marks) (lineStarts : Bool)
    (rest : List Char) :
    lexemes lineStarts (c :: rest) = ⟨some kind, [c]⟩ :: lexemes false rest := by
  rw [lexemes_cons]
  simp only [marks, List.mem_cons, List.not_mem_nil, or_false, Prod.mk.injEq] at mark
  rcases mark with ⟨rfl, rfl⟩ | ⟨rfl, rfl⟩ | ⟨rfl, rfl⟩ | ⟨rfl, rfl⟩ | ⟨rfl, rfl⟩ | ⟨rfl, rfl⟩ |
    ⟨rfl, rfl⟩ <;> rfl

theorem lexemes_arrow (lineStarts : Bool) (rest : List Char) :
    lexemes lineStarts ('-' :: '>' :: ' ' :: rest) =
      ⟨some .arrow, ['-', '>']⟩ :: lexemes false (' ' :: rest) := by
  rw [lexemes_cons]
  rfl

theorem Lexeme.stringBody_append {inner : List Char} (noQuote : '"' ∉ inner) (tail : List Char) :
    Lexeme.stringBody (inner ++ '"' :: tail) = (.string, inner.length + 1) := by
  have whole : (inner ++ '"' :: tail).takeWhile (· != '"') = inner := by
    rw [Lexeme.takeWhile_append_of_head inner (by simp), List.takeWhile_eq_self_iff]
    intro c member
    exact bne_iff_ne.2 fun same => noQuote (same ▸ member)
  rw [Lexeme.stringBody, whole]
  simp

theorem lexemes_string {body : List Char} (closed : '"' ∉ body) (lineStarts : Bool)
    (rest : List Char) :
    lexemes lineStarts ('"' :: (body ++ '"' :: rest)) =
      ⟨some .string, '"' :: (body ++ ['"'])⟩ :: lexemes false rest := by
  -- The string ends at the next quote, which is the first one after its body.
  have measured : Lexeme.measure lineStarts '"' (body ++ '"' :: rest) =
      (some .string, body.length + 1) := by
    simp [Lexeme.measure, Lexeme.stringBody_append closed]
  have whole : body ++ '"' :: rest = (body ++ ['"']) ++ rest := by simp
  have length : body.length + 1 = (body ++ ['"']).length := by simp
  rw [lexemes_cons, measured, whole, length, List.take_left, List.drop_left]
  rfl

theorem measure_of_isIdentifierStart {c : Char} (start : isIdentifierStart c = true)
    (lineStarts : Bool) (rest : List Char) :
    Lexeme.measure lineStarts c rest =
      (some ((keyword? (String.ofList
          ((c :: rest.takeWhile isIdentifierChar).map Char.toLower))).getD .identifier),
        (rest.takeWhile isIdentifierChar).length) := by
  have noQuote : (c == '\'') = false := by
    rw [beq_eq_false_iff_ne]
    rintro rfl
    exact absurd start (by decide)
  unfold Lexeme.measure
  split <;> try exact absurd start (by decide)
  simp [noQuote, start, Lexeme.wordBody]

theorem toNat_of_isAlpha {c : Char} (letter : c.isAlpha = true) :
    (65 ≤ c.toNat ∧ c.toNat ≤ 90) ∨ (97 ≤ c.toNat ∧ c.toNat ≤ 122) := by
  have either : (c.isUpper || c.isLower) = true := letter
  rcases Bool.or_eq_true_iff.1 either with upper | lower
  · obtain ⟨first, last⟩ : 'A' ≤ c ∧ c ≤ 'Z' := of_decide_eq_true upper
    exact .inl ⟨Char.le_def.1 first, Char.le_def.1 last⟩
  · have both : (decide ('a' ≤ c) && decide (c ≤ 'z')) = true := lower
    rw [Bool.and_eq_true] at both
    exact .inr ⟨Char.le_def.1 (of_decide_eq_true both.1), Char.le_def.1 (of_decide_eq_true both.2)⟩

theorem isBlank_of_isIdentifierChar {c : Char} (member : isIdentifierChar c = true) :
    Text.isBlank c = false := by
  rw [Bool.eq_false_iff]
  intro blank
  simp only [Text.isBlank, Bool.or_eq_true, Bool.and_eq_true, decide_eq_true_eq,
    beq_iff_eq] at blank
  simp only [isIdentifierChar, Bool.or_eq_true, beq_iff_eq] at member
  -- Each range of identifier characters misses all ranges of blanks.
  rcases member with ((letter | digit) | rfl) | japanese
  · have range := toNat_of_isAlpha letter
    omega
  · have range : 48 ≤ c.toNat ∧ c.toNat ≤ 57 := Char.isDigit_iff_toNat.1 digit
    omega
  · simp at blank
  · simp only [isJapanese, Bool.or_eq_true, Bool.and_eq_true, decide_eq_true_eq] at japanese
    omega
def wordKind (word : List Char) : Kind :=
  (keyword? (String.ofList (word.map Char.toLower))).getD .identifier

def IsWord (word : List Char) : Prop :=
  (∃ c ∈ word.head?, isIdentifierStart c = true) ∧ ∀ c ∈ word, isIdentifierChar c = true

instance (word : List Char) : Decidable (IsWord word) :=
  decidable_of_iff (word.head?.any isIdentifierStart = true ∧ word.all isIdentifierChar = true)
    (and_congr (Option.any_eq_true _ _) List.all_eq_true)

def EndsWord (tail : List Char) : Prop := ∀ c ∈ tail.head?, isIdentifierChar c = false

theorem endsWord_cons {c : Char} (other : isIdentifierChar c = false) (rest : List Char) :
    EndsWord (c :: rest) := by
  rintro d ⟨⟩
  exact other

theorem endsWord_space (rest : List Char) : EndsWord (' ' :: rest) := endsWord_cons rfl rest

theorem endsWord_lineFeed (rest : List Char) : EndsWord ('\n' :: rest) := endsWord_cons rfl rest

theorem wordKind_ne_newline (word : List Char) : wordKind word ≠ .newline := by
  intro newline
  exact absurd (getD_keyword? newline (by decide)) (by decide)

theorem lexemes_word {word : List Char} (isWord : IsWord word) (lineStarts : Bool)
    {rest : List Char} (ends : EndsWord rest) :
    lexemes lineStarts (word ++ rest) = ⟨some (wordKind word), word⟩ :: lexemes false rest := by
  obtain ⟨⟨c, head, start⟩, members⟩ := isWord
  obtain ⟨tail, rfl⟩ := List.head?_eq_some_iff.1 head
  have inner : (tail ++ rest).takeWhile isIdentifierChar = tail := by
    rw [Lexeme.takeWhile_append_of_head tail ends, List.takeWhile_eq_self_iff]
    exact fun d member => members d (List.mem_cons_of_mem c member)
  have inside : Lexeme.linesUp lineStarts (some (wordKind (c :: tail))) = false := by
    simpa [Lexeme.linesUp] using wordKind_ne_newline (c :: tail)
  rw [List.cons_append, lexemes_cons, measure_of_isIdentifierStart start, inner]
  dsimp only
  rw [List.take_left, List.drop_left, ← wordKind, inside]

theorem lexemes_directive (word : List Char) (members : word.all Char.isAlpha = true)
    {kind : Kind} (known : keyword? (String.ofList (('@' :: word).map Char.toLower)) = some kind)
    (lineStarts : Bool) {rest : List Char}
    (ends : ∀ c ∈ rest.head?, (c.isAlpha || c.isDigit) = false) :
    lexemes lineStarts ('@' :: (word ++ rest)) =
      ⟨some kind, '@' :: word⟩ :: lexemes false rest := by
  have inner : (word ++ rest).takeWhile (fun c => c.isAlpha || c.isDigit) = word := by
    rw [Lexeme.takeWhile_append_of_head word ends, List.takeWhile_eq_self_iff]
    intro c member
    rw [List.all_eq_true.1 members c member, Bool.true_or]
  have inside : Lexeme.linesUp lineStarts (some kind) = false := by
    have noNewline : kind ≠ .newline := by
      rintro rfl
      have listed : Kind.newline ∈ keywords.map Prod.snd := List.mem_map_of_mem (keyword?_mem known)
      exact absurd listed (by decide)
    simpa [Lexeme.linesUp] using noNewline
  have measured : Lexeme.measure lineStarts '@' (word ++ rest) = (some kind, word.length) := by
    simp only [Lexeme.measure, Lexeme.wordBody, inner, known, Option.getD_some]
  rw [lexemes_cons, measured]
  dsimp only
  rw [List.take_left, List.drop_left, inside]

/-- Where a line starts matters only to an apostrophe. -/
theorem lexemes_of_head {c : Char} (noApostrophe : c ≠ '\'') (noSpace : isSpace c = false)
    (lineStarts : Bool) (rest : List Char) :
    lexemes lineStarts (c :: rest) = lexemes false (c :: rest) := by
  have measured : Lexeme.measure lineStarts c rest = Lexeme.measure false c rest := by
    unfold Lexeme.measure
    simp only [show (c == '\'') = false by simpa using noApostrophe, Bool.false_and]
  rw [lexemes_cons, lexemes_cons, measured]
  -- Where a line starts matters to what follows only after a blank.
  cases kind : (Lexeme.measure false c rest).1 with
  | none =>
    have space : isSpace c = true := by
      have blank := Lexeme.measured_measure false c rest
      rw [kind] at blank
      exact blank.isSpace_of_none
    rw [noSpace] at space
    cases space
  | some kind => rfl

def IsIdentifier (word : String) : Prop :=
  IsWord word.toList ∧ wordKind word.toList = .identifier

instance (word : String) : Decidable (IsIdentifier word) := inferInstanceAs (Decidable (_ ∧ _))

/-- A plain text that its tokens are joined to, character by character. -/
structure Inert (text : List Char) : Prop where
  plain : Plain text
  collapsed : Text.collapse text = text

namespace Lexed

variable {lineStarts : Bool} {rest : List Char} {tokens : List Token}

theorem lineFeed (lexed : Lexed lineStarts ('\n' :: rest) tokens) :
    ∃ token more, tokens = token :: more ∧ token.kind = .newline ∧ Lexed true rest more := by
  obtain ⟨token, more, same, kind, _, later⟩ := lexed.uncons (lexemes_lineFeed _ _)
  exact ⟨token, more, same, kind, later⟩

theorem mark {c : Char} (kind : Kind) (lexed : Lexed lineStarts (c :: rest) tokens)
    (listed : (c, kind) ∈ marks) :
    ∃ token more, tokens = token :: more ∧ token.kind = kind ∧ Lexed false rest more := by
  obtain ⟨token, more, same, kind, _, later⟩ := lexed.uncons (lexemes_mark listed _ _)
  exact ⟨token, more, same, kind, later⟩

theorem word (word : List Char) (lexed : Lexed lineStarts (word ++ rest) tokens)
    (isWord : IsWord word) (ends : EndsWord rest) :
    ∃ token more, tokens = token :: more ∧ token.kind = wordKind word ∧
      token.text = String.ofList word ∧ Lexed false rest more :=
  lexed.uncons (lexemes_word isWord _ ends)

theorem identifier {word : String} (lexed : Lexed lineStarts (word.toList ++ rest) tokens)
    (isIdentifier : IsIdentifier word) (ends : EndsWord rest) :
    ∃ token more, tokens = token :: more ∧ token.kind = .identifier ∧ token.text = word ∧
      token.value = word ∧ Lexed false rest more := by
  obtain ⟨token, more, same, kind, text, later⟩ := lexed.word _ isIdentifier.1 ends
  rw [isIdentifier.2] at kind
  rw [String.ofList_toList] at text
  exact ⟨token, more, same, kind, text, by rw [value, kind, text], later⟩

theorem inert {text : List Char} (lexed : Lexed false (text ++ rest) tokens) (inert : Inert text)
    (stops : Stops rest) :
    ∃ first more, tokens = first ++ more ∧ Stream.join first = String.ofList text ∧
      first.map Token.kind = kinds text ∧ Lexed false rest more := by
  obtain ⟨position, rfl⟩ := lexed
  rw [lexemes_append inert.plain stops, placed_append]
  refine ⟨_, _, rfl, ?_, map_kind_placed _ _, _, rfl⟩
  rw [join_placed inert.plain, inert.collapsed]

end Lexed

end Lifeline.Token
