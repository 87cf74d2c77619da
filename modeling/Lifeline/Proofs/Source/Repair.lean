import Lifeline.Proofs.Source.Directives
import Lifeline.Proofs.Source.Smooth
import Lifeline.Storyboard.Source

/-! What repair leaves of a clean source.

A clean source is a sequence of diagrams, or a text without any. Repair then only takes blanks at the
ends, carriage returns and blank lines from it, and adds directives where there is no diagram. Unless
one of these belongs to a string or to a comment that matters, the source reads alike. -/

set_option autoImplicit false

namespace Lifeline

open Token (Kind Lexeme lexemes)
open Token.Lexeme (solidKinds)

namespace Repair

variable {text : List Char}

/-- Texts that repair takes nothing from but blank lines and carriage returns between tokens. -/
structure Lossless (text : List Char) : Prop where
  regular : Regular text
  strings : ∀ token ∈ Token.ofText text, token.kind = .string → Spared token.text.toList
  /-- Both directives are mentioned, if only in comments, or neither is. -/
  directives : mentions startDirective text = mentions endDirective text
  /-- Where none is mentioned, what is added behind the text is no part of a comment. -/
  comments : mentions startDirective text = false →
    ∀ token ∈ Token.ofText text, token.kind = .comment → Closed token.text.toList

def directedLines (source : String) : Nat :=
  lineCount (addEnd (addStart (Text.trim source.toList)))

/-- Whether a source is not cut by repair, gives one with which nothing is wrong, and still shows the
same. -/
def Transparent (source : String) (maxLines : Nat) : Prop :=
  (repair source maxLines).truncated = false ∧
    (analyze (repair source maxLines).code).issues = [] ∧
    (Document.ofSource (repair source maxLines).code).project.onto .empty =
      Storyboard.ofSource source

instance (source : String) (maxLines : Nat) : Decidable (Transparent source maxLines) :=
  inferInstanceAs (Decidable (_ ∧ _ ∧ _))

/-! ## The number of lines -/

theorem length_split (p : Char → Bool) (text : List Char) :
    (Text.split p text).length = text.countP p + 1 := by
  induction text with
  | nil => rfl
  | cons c rest ih =>
    rw [Text.split, List.countP_cons]
    split
    · rw [List.length_cons, ih]
    · split
      · rename_i none
        exact absurd none (Text.split_ne_nil p rest)
      · rename_i pieces same
        rw [same, List.length_cons] at ih
        rw [List.length_cons, ih, Nat.add_zero]

theorem countP_smooth_le (regular : Regular text) (seen : Nat) :
    (smooth seen text).countP (· == '\n') ≤ text.countP (· == '\n') := by
  induction text generalizing seen with
  | nil => exact Nat.le_refl _
  | cons c rest ih =>
    have later := ih regular.2.2
    rw [List.countP_cons]
    rcases smooth_cases regular seen with ⟨rfl, same⟩ | ⟨rfl, same⟩ | ⟨-, same⟩ <;> rw [same]
    · exact later seen
    · split
      · rw [List.countP_cons]
        exact Nat.add_le_add_right (later (seen + 1)) 1
      · exact Nat.le_add_right_of_le (later seen)
    · rw [List.countP_cons]
      exact Nat.add_le_add_right (later 0) _

theorem lineCount_smooth_le (regular : Regular text) : lineCount (smooth 0 text) ≤ lineCount text := by
  rw [lineCount, lineCount, length_split, length_split]
  exact Nat.succ_le_succ (countP_smooth_le regular 0)

theorem Regular.append_lineFeed (regular : Regular text) {tail : List Char} (regular' : Regular tail) :
    Regular (text ++ '\n' :: tail) := by
  induction text with
  | nil => exact ⟨nofun, nofun, regular'⟩
  | cons c rest ih =>
    obtain ⟨ending, escape, later⟩ := regular
    refine ⟨fun isReturn => ?_, fun backslash => ?_, ih later⟩
    · obtain ⟨more, rfl⟩ := List.head?_eq_some_iff.1 (ending isReturn)
      rfl
    · have head := escape backslash
      cases rest with
      | nil => exact fun same => absurd (Option.some.inj same) (by decide)
      | cons d rest => exact head

/-! ## Smooth sources -/

theorem sameReading_smooth (regular : Regular text)
    (spared : ∀ lexeme ∈ lexemes true text, lexeme.kind = some .string → Spared lexeme.text)
    (clean : (analyze (String.ofList text)).issues = []) :
    SameReading (String.ofList text) (String.ofList (smooth 0 text)) := by
  have framed := framed_of_clean clean
  rw [String.toList_ofList] at framed
  refine sameReading_of_alike ?_
  rw [String.toList_ofList, String.toList_ofList]
  exact (alike_smooth regular spared framed.no_quote (absurd rfl)).1.ofText

theorem regular_added (regular : Regular text) : Regular (addEnd (addStart text)) := by
  have started : Regular (addStart text) := by
    unfold addStart
    split
    · exact regular
    · exact Regular.append_lineFeed (by decide) regular
  unfold addEnd
  split
  · exact started
  · exact started.append_lineFeed (by decide)

namespace Lossless

theorem spared (lossless : Lossless text) :
    ∀ lexeme ∈ lexemes true text, lexeme.kind = some .string → Spared lexeme.text :=
  Lexeme.forall_mem_of_placed lossless.strings

theorem closed (lossless : Lossless text) (none : mentions startDirective text = false) :
    ∀ lexeme ∈ lexemes true text, lexeme.kind = some .comment → Closed lexeme.text :=
  Lexeme.forall_mem_of_placed (lossless.comments none)

theorem added_of_mentions (lossless : Lossless text) (mentioned : mentions startDirective text = true) :
    addEnd (addStart text) = text := by
  rw [addStart, if_pos mentioned, addEnd, ← lossless.directives, if_pos mentioned]

theorem added_of_not_mentions (lossless : Lossless text)
    (none : mentions startDirective text = false) :
    addEnd (addStart text) = startDirective ++ '\n' :: (text ++ '\n' :: endDirective) := by
  have added :
      mentions endDirective (startDirective ++ '\n' :: text) = mentions endDirective text := rfl
  rw [addStart, none, if_neg Bool.false_ne_true, addEnd, added, ← lossless.directives, none,
    if_neg Bool.false_ne_true]
  rfl

end Lossless

/-! ## Sources without diagrams -/

theorem empty_diagram :
    (analyze (String.ofList (startDirective ++ '\n' :: endDirective))).issues = [] ∧
      (Document.ofSource "").project =
        (Document.ofSource (String.ofList (startDirective ++ '\n' :: endDirective))).project := by
  decide +kernel

theorem sameReading_added (lossless : Lossless text) (none : mentions startDirective text = false)
    (empty : solidKinds (lexemes true text) = []) :
    SameReading (String.ofList (startDirective ++ '\n' :: endDirective))
      (String.ofList (smooth 0 (addEnd (addStart text)))) := by
  have alike := Lexeme.Alike.ofText (alike_directives empty (lossless.closed none))
  have added : SameReading (String.ofList (startDirective ++ '\n' :: endDirective))
      (String.ofList (addEnd (addStart text))) := by
    refine (sameReading_of_alike ?_).symm
    rwa [String.toList_ofList, String.toList_ofList, lossless.added_of_not_mentions none]
  refine added.trans (sameReading_smooth (regular_added lossless.regular) ?_
    (added.clean empty_diagram.1))
  rw [lossless.added_of_not_mentions none, lexemes_startDirective,
    lexemes_append_lineFeed (no_quote_of_solidKinds empty) (lossless.closed none),
    lexemes_endDirective]
  intro lexeme member string
  simp only [List.mem_cons, List.mem_append, List.not_mem_nil, or_false] at member
  rcases member with rfl | rfl | inside | rfl | rfl
  · cases string
  · cases string
  · have solid := Lexeme.mem_solidKinds inside string rfl
    rw [empty] at solid
    cases solid
  · cases string
  · cases string

theorem sameReading_nil (empty : solidKinds (lexemes true text) = []) :
    SameReading (String.ofList text) "" := by
  refine sameReading_of_alike (Lexeme.Alike.ofText ?_)
  rw [String.toList_ofList, show lexemes true "".toList = [] from by rw [String.toList_empty, lexemes]]
  exact Lexeme.alike_nil empty

/-- Repair keeps what a clean source says. -/
theorem transparent_of_clean {source : String} {maxLines : Nat} (clean : (analyze source).issues = [])
    (lossless : Lossless (Text.trim source.toList)) (fits : directedLines source ≤ maxLines) :
    Transparent source maxLines := by
  have trimmed := sameReading_trim clean
  have clean' := trimmed.clean clean
  have framed := framed_of_clean clean'
  rw [String.toList_ofList] at framed
  -- It is enough that the repaired source is not cut and shows the same.
  suffices kept : (repair source maxLines).truncated = false ∧
      (analyze (repair source maxLines).code).issues = [] ∧
      (Document.ofSource (repair source maxLines).code).project =
        (Document.ofSource (String.ofList (Text.trim source.toList))).project by
    rw [Transparent, kept.2.2, ← trimmed.project]
    exact ⟨kept.1, kept.2.1, rfl⟩
  unfold repair
  rw [directedLines] at fits
  generalize Text.trim source.toList = text at *
  split
  · exact ⟨rfl, empty_diagram.1, empty_diagram.2.symm⟩
  have uncut : limitLines maxLines (squeeze 0 (unifyLines (addEnd (addStart text)))) =
      ⟨String.ofList (smooth 0 (addEnd (addStart text))), false⟩ := by
    have short := (lineCount_smooth_le (regular_added lossless.regular)).trans fits
    rw [limitLines, ← smooth, if_neg (Nat.not_lt.2 short)]
  rw [uncut]
  by_cases mentioned : mentions startDirective text = true
  · rw [lossless.added_of_mentions mentioned]
    have same := sameReading_smooth lossless.regular lossless.spared clean'
    exact ⟨rfl, same.clean clean', same.project.symm⟩
  · have none := Bool.eq_false_iff.2 mentioned
    have empty := solidKinds_of_not_mentions framed none
    have same := sameReading_added lossless none empty
    refine ⟨rfl, same.clean empty_diagram.1, ?_⟩
    exact same.project.symm.trans (empty_diagram.2.symm.trans (sameReading_nil empty).project.symm)

def folded : String :=
  "\r\n@startuml\r\n' who asks\r\n\r\n\r\n\r\nactor \"Job 1\" as A\r\nA -> B : hi\r\n@enduml\r\n"

theorem transparent_folded :
    (analyze folded).issues = [] ∧ Lossless (Text.trim folded.toList) ∧ directedLines folded ≤ 8 ∧
      (repair folded 8).changes folded = true ∧ Transparent folded 8 := by
  have clean : (analyze folded).issues = [] := by decide +kernel
  have fits : directedLines folded ≤ 8 := by decide +kernel
  have lossless : Lossless (Text.trim folded.toList) :=
    ⟨by decide +kernel, by decide +kernel, by decide +kernel, by decide +kernel⟩
  exact ⟨clean, lossless, fits, by decide +kernel, transparent_of_clean clean lossless fits⟩

/-- What makes a text lossless is needed, part by part: a line feed that is written out, a carriage
return alone, line endings in a string, a directive in a comment, and a comment that stays open. -/
theorem not_transparent :
    ((analyze "@startuml\nA -> B : C:\\new\n@enduml").issues = [] ∧
      directedLines "@startuml\nA -> B : C:\\new\n@enduml" ≤ defaultMaxLines ∧
      ¬Transparent "@startuml\nA -> B : C:\\new\n@enduml" defaultMaxLines) ∧
    ((analyze "@startuml\nA -> B : one\rtwo\n@enduml").issues = [] ∧
      directedLines "@startuml\nA -> B : one\rtwo\n@enduml" ≤ defaultMaxLines ∧
      ¬Transparent "@startuml\nA -> B : one\rtwo\n@enduml" defaultMaxLines) ∧
    ((analyze "@startuml\ntitle \"one\n\n\ntwo\"\n@enduml").issues = [] ∧
      directedLines "@startuml\ntitle \"one\n\n\ntwo\"\n@enduml" ≤ defaultMaxLines ∧
      ¬Transparent "@startuml\ntitle \"one\n\n\ntwo\"\n@enduml" defaultMaxLines) ∧
    ((analyze "' @enduml").issues = [] ∧ directedLines "' @enduml" ≤ defaultMaxLines ∧
      ¬Transparent "' @enduml" defaultMaxLines) ∧
    ((analyze "/' none").issues = [] ∧ directedLines "/' none" ≤ defaultMaxLines ∧
      ¬Transparent "/' none" defaultMaxLines) := by
  decide +kernel

end Repair

end Lifeline
