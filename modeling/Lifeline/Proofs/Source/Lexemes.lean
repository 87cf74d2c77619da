import Lifeline.Proofs.Diagram.Alike
import Lifeline.Proofs.Diagram.Source
import Lifeline.Proofs.Token.Clear

/-! Lexemes that read alike.

Tokens keep of the blanks before them only where they start. So whether two texts have tokens that
read alike shows in their lexemes, wherever these stand. -/

set_option autoImplicit false

namespace Lifeline.Token

def Kind.freed (free : Bool) : Option Kind → Bool
  | none => free
  | some kind => kind.rests || free && kind.isSeparator

namespace Lexeme

/-- Whether the next token stands on the same line and not right here; `blank` tells whether a blank
has been passed. -/
def gap (blank : Bool) : List Lexeme → Bool
  | [] => false
  | ⟨none, _⟩ :: rest => gap true rest
  | ⟨some kind, _⟩ :: _ => blank && !kind.isSeparator

/-- Whether two runs of lexemes read alike; `free` tells whether separators may differ at the start. -/
inductive Alike : Bool → List Lexeme → List Lexeme → Prop where
  | nil {free : Bool} : Alike free [] []
  | both {free : Bool} {kind : Kind} {text text' : List Char} {rest rest' : List Lexeme} :
      (kind.isSeparator = false → text = text') →
      (kind.rests = false → gap false rest = gap false rest') →
      Alike kind.rests rest rest' → Alike free (⟨some kind, text⟩ :: rest) (⟨some kind, text'⟩ :: rest')
  | left {kind : Kind} {text : List Char} {rest rest' : List Lexeme} : kind.isSeparator = true →
      Alike true rest rest' → Alike true (⟨some kind, text⟩ :: rest) rest'
  | right {kind : Kind} {text : List Char} {rest rest' : List Lexeme} : kind.isSeparator = true →
      Alike true rest rest' → Alike true rest (⟨some kind, text⟩ :: rest')
  | blankLeft {free : Bool} {text : List Char} {rest rest' : List Lexeme} :
      Alike free rest rest' → Alike free (⟨none, text⟩ :: rest) rest'
  | blankRight {free : Bool} {text : List Char} {rest rest' : List Lexeme} :
      Alike free rest rest' → Alike free rest (⟨none, text⟩ :: rest')

def Filled (lexemes : List Lexeme) : Prop := ∀ lexeme ∈ lexemes, lexeme.text ≠ []

theorem filled_lexemes (lineStarts : Bool) (text : List Char) : Filled (lexemes lineStarts text) := by
  intro lexeme member
  obtain ⟨starts, c, rest, count, measured, same⟩ := measured_of_mem member
  rw [same]
  exact List.cons_ne_nil _ _

theorem Filled.tail {lexeme : Lexeme} {rest : List Lexeme} (filled : Filled (lexeme :: rest)) :
    Filled rest :=
  fun other member => filled other (List.mem_cons_of_mem lexeme member)

theorem exists_mem_placed {found : List Lexeme} {lexeme : Lexeme} (member : lexeme ∈ found)
    {kind : Kind} (solid : lexeme.kind = some kind) (position : Position) :
    ∃ token ∈ placed position found, token.kind = kind ∧ token.text.toList = lexeme.text := by
  induction found generalizing position with
  | nil => cases member
  | cons other rest ih =>
    rcases List.mem_cons.1 member with rfl | later
    · obtain ⟨_, text⟩ := lexeme
      cases solid
      exact ⟨_, List.mem_cons_self, rfl, String.toList_ofList⟩
    · obtain ⟨token, inside, same⟩ := ih later (position.advance other.text)
      exact ⟨token, List.mem_append_right _ inside, same⟩

theorem forall_mem_of_placed {found : List Lexeme} {position : Position} {kind : Kind}
    {p : List Char → Prop}
    (holds : ∀ token ∈ placed position found, token.kind = kind → p token.text.toList) :
    ∀ lexeme ∈ found, lexeme.kind = some kind → p lexeme.text := by
  intro lexeme member solid
  obtain ⟨token, inside, same, text⟩ := exists_mem_placed member solid position
  exact text ▸ holds token inside same

variable {free : Bool} {first second rest rest' : List Lexeme}

theorem apart_placed (filled : Filled first) {offset : Nat} {position : Position}
    (behind : offset ≤ position.offset) :
    apart offset (placed position first) = gap (decide (offset < position.offset)) first := by
  induction first generalizing position with
  | nil => rfl
  | cons lexeme rest ih =>
    rcases lexeme with ⟨_ | kind, text⟩
    · have size : 0 < Text.byteSize text := Text.byteSize_pos (filled _ List.mem_cons_self)
      have further : offset < (position.advance text).offset := by
        rw [Position.offset_advance]
        omega
      rw [placed_blank, ih filled.tail (Nat.le_of_lt further), decide_eq_true further]
      rfl
    · exact Bool.and_comm _ _

theorem Alike.placed (alike : Alike free first second) (filled : Filled first)
    (filled' : Filled second) (position position' : Position) :
    Token.Alike free (placed position first) (placed position' second) := by
  induction alike generalizing position position' with
  | nil => exact .nil
  | @both free kind text text' rest rest' same gap later ih =>
    rw [placed_token, placed_token]
    refine .both ⟨rfl, fun solid => congrArg String.ofList (same solid)⟩ (fun rests => ?_)
      (ih filled.tail filled'.tail _ _)
    rw [stop_eq, stop_eq, apart_placed filled.tail (Nat.le_refl _),
      apart_placed filled'.tail (Nat.le_refl _), decide_eq_false (Nat.lt_irrefl _),
      decide_eq_false (Nat.lt_irrefl _), gap rests]
  | left separator _ ih => exact .left separator (ih filled.tail filled' _ _)
  | right separator _ ih => exact .right separator (ih filled filled'.tail _ _)
  | blankLeft _ ih => exact ih filled.tail filled' _ _
  | blankRight _ ih => exact ih filled filled'.tail _ _

theorem Alike.ofText {text text' : List Char}
    (alike : Alike free (lexemes true text) (lexemes true text')) :
    Token.Alike free (Token.ofText text) (Token.ofText text') :=
  alike.placed (filled_lexemes _ _) (filled_lexemes _ _) _ _

theorem Alike.cons {kind : Option Kind} {text text' : List Char}
    (same : kind.all Kind.isSeparator = false → text = text')
    (gaps : kind ≠ some .newline → gap false rest = gap false rest')
    (later : Alike (Kind.freed free kind) rest rest') :
    Alike free (⟨kind, text⟩ :: rest) (⟨kind, text'⟩ :: rest') := by
  cases kind with
  | none => exact .blankLeft (.blankRight later)
  | some kind =>
    by_cases passed : (free && kind.isSeparator) = true
    · rw [Kind.freed, passed, Bool.or_true] at later
      obtain ⟨rfl, separator⟩ := Bool.and_eq_true_iff.1 passed
      exact .left separator (.right separator later)
    · rw [Kind.freed, Bool.eq_false_iff.2 passed, Bool.or_false] at later
      refine .both same (fun rests => gaps ?_) later
      rintro ⟨⟩
      cases rests

theorem gap_cons {kind : Option Kind} {text text' : List Char}
    (gaps : kind = none → gap true rest = gap true rest') (blank : Bool) :
    gap blank (⟨kind, text⟩ :: rest) = gap blank (⟨kind, text'⟩ :: rest') := by
  cases kind with
  | none => exact gaps rfl
  | some kind => rfl

/-- A text may be rewritten behind the first character of a lexeme where that leaves the lexeme alone. Of
a comment only its end has to stay. -/
theorem lexemes_cons_rewritten {lineStarts : Bool} {c : Char} {rest : List Char}
    (rewrite : List Char → List Char)
    (block : ∀ body, rest = '\'' :: body → rewrite rest = '\'' :: rewrite body ∧
      (rewrite body).drop (commentBody (rewrite body)) = rewrite (body.drop (commentBody body)))
    (line : (rewrite rest).dropWhile (· != '\n') = rewrite (rest.dropWhile (· != '\n')))
    (other : (measure lineStarts c rest).1 ≠ some .comment →
      measure lineStarts c (rewrite rest) = measure lineStarts c rest ∧
        rewrite rest = rest.take (measure lineStarts c rest).2 ++
          rewrite (rest.drop (measure lineStarts c rest).2)) :
    ∃ text, lexemes lineStarts (c :: rewrite rest) = ⟨(measure lineStarts c rest).1, text⟩ ::
        lexemes (linesUp lineStarts (measure lineStarts c rest).1)
          (rewrite (rest.drop (measure lineStarts c rest).2)) ∧
      ((measure lineStarts c rest).1 ≠ some .comment →
        c :: rest.take (measure lineStarts c rest).2 = text) := by
  have measured := measured_measure lineStarts c rest
  rw [lexemes_cons]
  by_cases comment : (measure lineStarts c rest).1 = some .comment
  · rcases measured.comment_opens comment with ⟨rfl, opens⟩ | ⟨rfl, rfl⟩
    · obtain ⟨body, rfl⟩ := List.head?_eq_some_iff.1 opens
      have opened (body : List Char) : measure lineStarts '/' ('\'' :: body) =
          (some .comment, commentBody body + 1) := rfl
      obtain ⟨first, later⟩ := block body rfl
      rw [first, opened, opened]
      dsimp only
      rw [List.drop_succ_cons, List.drop_succ_cons, later]
      exact ⟨_, rfl, fun other => absurd rfl other⟩
    · have opened (rest : List Char) : measure true '\'' rest =
          (some .comment, (rest.takeWhile (· != '\n')).length) := rfl
      rw [opened, opened]
      dsimp only
      rw [drop_takeWhile, drop_takeWhile, line]
      exact ⟨_, rfl, fun other => absurd rfl other⟩
  · obtain ⟨same, stays⟩ := other comment
    have length := List.length_take_of_le measured.count_le
    rw [same, stays, List.take_left' length, List.drop_left' length]
    exact ⟨_, rfl, fun _ => rfl⟩

theorem alike_refl (free : Bool) (lexemes : List Lexeme) : Alike free lexemes lexemes := by
  induction lexemes generalizing free with
  | nil => exact .nil
  | cons lexeme rest ih => exact .cons (fun _ => rfl) (fun _ => rfl) (ih _)

end Lexeme

end Lifeline.Token
