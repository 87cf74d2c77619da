import Lifeline.Proofs.Token.Tiling

/-! Where the tokens of a source stand.

The scanner carries a place along and moves it on with every character. Here the place behind a text is
told from the text itself, without going through it: how many line feeds there are, how much comes after
the last of them, and how long the whole is. Main statement: in every source the places of the tokens, of
the end mark and of what is reported are those behind the text before them. -/

set_option autoImplicit false

namespace Lifeline

namespace Position

/-- Whether a place is the one right behind a text: on the first line or one further for every line
feed, in the first column or one further for every character of the last line, which starts behind the
last line feed or with the text, and as many bytes on as the text has. -/
structure Behind (position : Position) (text : List Char) : Prop where
  line : position.line = 1 + text.count '\n'
  column : ∃ earlier last, text = earlier ++ last ∧
    (earlier = [] ∨ earlier.getLast? = some '\n') ∧ '\n' ∉ last ∧ position.column = 1 + last.length
  offset : position.offset = Text.byteSize text

def NotAfter (first second : Position) : Prop :=
  first.offset ≤ second.offset ∧
    (first.line < second.line ∨ first.line = second.line ∧ first.column ≤ second.column)

variable {position first second third : Position} {text : List Char}

theorem behind_start : start.Behind [] where
  line := rfl
  column := ⟨[], [], by simp [start]⟩
  offset := rfl

theorem Behind.next (behind : position.Behind text) (c : Char) :
    (position.next c).Behind (text ++ [c]) := by
  obtain ⟨line, ⟨earlier, last, split, starts, inner, column⟩, offset⟩ := behind
  by_cases lineFeed : c = '\n'
  · -- The line that the line feed ends is complete, and the next one is empty so far.
    subst lineFeed
    constructor
    · simp [Position.next, line, Nat.add_assoc]
    · exact ⟨text ++ ['\n'], [], by simp [Position.next]⟩
    · simp [Position.next, offset]
  · constructor
    · simp [Position.next, lineFeed, line]
    · refine ⟨earlier, last ++ [c], by simp [split], starts, ?_, ?_⟩
      · simp [inner, Ne.symm lineFeed]
      · simp [Position.next, lineFeed, column, Nat.add_assoc]
    · simp [Position.next, lineFeed, offset]

theorem Behind.advance (behind : position.Behind text) (more : List Char) :
    (position.advance more).Behind (text ++ more) := by
  induction more generalizing position text with
  | nil => simpa using behind
  | cons c more ih => simpa using ih (behind.next c)

theorem NotAfter.refl (position : Position) : position.NotAfter position := by
  simp [NotAfter]

theorem NotAfter.trans (one : first.NotAfter second) (two : second.NotAfter third) :
    first.NotAfter third := by
  unfold NotAfter at *
  omega

theorem notAfter_next (position : Position) (c : Char) : position.NotAfter (position.next c) := by
  unfold next
  split <;> simp [NotAfter]

theorem notAfter_advance (position : Position) (text : List Char) :
    position.NotAfter (position.advance text) := by
  induction text generalizing position with
  | nil => exact .refl position
  | cons c text ih => exact (notAfter_next position c).trans (ih _)

end Position

/-! ## Tokens -/

def Token.place (token : Token) : Position := ⟨token.line, token.column, token.offset⟩

def Diagnostic.place (issue : Diagnostic) : Position := ⟨issue.line, issue.column, issue.position⟩

namespace Token

variable {position : Position} {lexemes : List Lexeme} {token : Token}

theorem mem_locate_cons {lexeme : Lexeme} (member : token ∈ locate position (lexeme :: lexemes)) :
    (token.place = position ∧ token.text.toList = lexeme.text) ∨
      token ∈ locate (position.advance lexeme.text) lexemes := by
  rcases lexeme with ⟨_ | kind, text⟩
  · exact .inr member
  · rcases List.mem_cons.1 member with rfl | later
    · exact .inl ⟨rfl, String.toList_ofList⟩
    · exact .inr later

theorem behind_of_mem {text : List Char} (behind : position.Behind text)
    (member : token ∈ locate position lexemes) :
    ∃ before after, text ++ spelled lexemes = before ++ token.text.toList ++ after ∧
      token.place.Behind before := by
  induction lexemes generalizing position text with
  | nil =>
    obtain rfl := List.mem_singleton.1 member
    exact ⟨text, [], by simp [spelled, endOfInput], behind⟩
  | cons lexeme rest ih =>
    rcases mem_locate_cons member with ⟨place, same⟩ | later
    · exact ⟨text, spelled rest, by simp [same], place ▸ behind⟩
    · obtain ⟨before, after, same, stands⟩ := ih (behind.advance lexeme.text) later
      exact ⟨before, after, by simpa using same, stands⟩

theorem exists_behind {source : String} (member : token ∈ (tokenize source).tokens) :
    ∃ before after, source.toList = before ++ token.text.toList ++ after ∧
      token.place.Behind before := by
  have found := behind_of_mem Position.behind_start member
  rwa [spelled_lexemes] at found

theorem notAfter_of_mem (member : token ∈ locate position lexemes) :
    position.NotAfter token.place := by
  induction lexemes generalizing position with
  | nil =>
    obtain rfl := List.mem_singleton.1 member
    exact .refl position
  | cons lexeme rest ih =>
    rcases mem_locate_cons member with ⟨place, -⟩ | later
    · exact place ▸ .refl position
    · exact (position.notAfter_advance lexeme.text).trans (ih later)

theorem pairwise_locate (position : Position) (lexemes : List Lexeme) :
    (locate position lexemes).Pairwise fun first second => first.place.NotAfter second.place := by
  induction lexemes generalizing position with
  | nil => exact List.pairwise_singleton _ _
  | cons lexeme rest ih =>
    rcases lexeme with ⟨_ | kind, text⟩
    · exact ih _
    · refine List.pairwise_cons.2 ⟨fun token member => ?_, ih _⟩
      exact (position.notAfter_advance text).trans (notAfter_of_mem member)

theorem place_of_unterminated? {issue : Diagnostic} (reported : unterminated? token = some issue) :
    issue.place = token.place := by
  rw [unterminated?] at reported
  split at reported
  · cases reported
    rfl
  · cases reported

/-- The places of all tokens and of all reports on them are exact: there are as many line feeds before
each as its line says, as many characters on its line as its column says, and as many bytes as its offset
says, whatever the source. -/
theorem places_tokenize (source : String) :
    (∀ token ∈ (tokenize source).tokens, ∃ before after,
      source.toList = before ++ token.text.toList ++ after ∧ token.place.Behind before) ∧
    ∀ issue ∈ (tokenize source).issues, ∃ before after,
      source.toList = before ++ after ∧ issue.place.Behind before := by
  constructor
  · intro token member
    exact exists_behind member
  · intro issue member
    rw [tokenize, reports_eq] at member
    obtain ⟨token, inside, reported⟩ := List.mem_filterMap.1 member
    have whole : token ∈ (tokenize source).tokens := by
      rw [tokens_tokenize]
      exact List.mem_append_left _ inside
    obtain ⟨before, after, same, stands⟩ := exists_behind whole
    rw [← place_of_unterminated? reported] at stands
    exact ⟨before, token.text.toList ++ after, by simp [same], stands⟩

/-- An open string behind a comment of two lines and a run of dashes that is no arrow. -/
theorem places_tokenize_dashes :
    let source := "/'é\n'/ A --- \"日\n本"
    let token : Token := .new .unknown "\"日\n本" 2 10 14
    token ∈ (tokenize source).tokens ∧ ∃ before after,
      source.toList = before ++ token.text.toList ++ after ∧ token.place.Behind before := by
  intro source token
  have member : token ∈ (tokenize source).tokens := by decide +kernel
  exact ⟨member, (places_tokenize source).1 token member⟩

end Token

end Lifeline
