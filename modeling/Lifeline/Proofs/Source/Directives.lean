import Lifeline.Proofs.Source.Trimmed
import Lifeline.Proofs.Token.Plain
import Lifeline.Source.Repair

/-! Directives that repair adds.

A diagram mentions the directives that open and close it. A clean source that mentions neither
therefore holds comments only, and with both of them added it is one empty diagram. -/

set_option autoImplicit false

namespace Lifeline.Repair

open Token (Kind Lexeme lexemes lexemes_cons directives)
open Token.Lexeme (solidKinds solidKinds_cons commentBody)

/-! ## Mentions -/

theorem hasPart_of_run {part text : List Char} (within : part <:+: text) :
    hasPart part text = true := by
  induction text with
  | nil => rw [hasPart, List.eq_nil_of_infix_nil within, List.isEmpty_nil]
  | cons c rest ih =>
    rw [hasPart, Bool.or_eq_true, List.isPrefixOf_iff_prefix]
    exact (List.infix_cons_iff.1 within).imp_right ih

/-- The letters of directives have no other forms that change to them. -/
theorem map_foldCase {kind : Kind} {spelling : String} (directive : (kind, spelling) ∈ directives)
    {run : List Char} (spelled : run.map Char.toLower = spelling.toList) :
    run.map foldCase = spelling.toList := by
  have ascii : 'ſ' ∉ spelling.toList := by
    rcases Token.directive_cases directive with ⟨rfl, rfl⟩ | ⟨rfl, rfl⟩ <;> decide
  rw [← spelled]
  refine List.map_congr_left fun c member => ?_
  have other : c ≠ 'ſ' := by
    rintro rfl
    exact ascii (spelled ▸ List.mem_map_of_mem (f := Char.toLower) member)
  rw [foldCase, if_neg other]

theorem mentions_of_mem {kind : Kind} {spelling : String} (directive : (kind, spelling) ∈ directives)
    {lineStarts : Bool} {text : List Char} (member : kind ∈ solidKinds (lexemes lineStarts text)) :
    mentions spelling.toList text = true := by
  rw [solidKinds, List.mem_filter] at member
  obtain ⟨run, within, spelled⟩ := Token.exists_spelling directive member.1
  rw [mentions, ← map_foldCase directive spelled]
  exact hasPart_of_run (within.map foldCase)

theorem solidKinds_of_not_mentions {text : List Char} (framed : Token.Framed (Token.ofText text))
    (none : mentions startDirective text = false) : solidKinds (lexemes true text) = [] := by
  have starts := framed.head?_solidKinds
  have mentioned (member : .startUml ∈ solidKinds (lexemes true text)) :
      mentions startDirective text = true :=
    mentions_of_mem (by decide) member
  generalize solidKinds (lexemes true text) = kinds at starts mentioned
  cases kinds with
  | nil => rfl
  | cons kind rest =>
    rw [mentioned (starts kind rfl ▸ List.mem_cons_self)] at none
    cases none

/-! ## Texts without diagrams -/

def Closed (comment : List Char) : Prop :=
  ['/', '\''] <+: comment → ['\'', '/'] <:+: comment.drop 2

instance (comment : List Char) : Decidable (Closed comment) := inferInstanceAs (Decidable (_ → _))

theorem commentBody_append_closed {text : List Char} (closed : ['\'', '/'] <:+: text)
    (tail : List Char) :
    commentBody (text ++ tail) = commentBody text := by
  fun_induction commentBody text with
  | case1 => exact absurd (List.eq_nil_of_infix_nil closed) (by decide)
  | case2 rest => rfl
  | case3 c rest apart ih =>
    rcases List.infix_cons_iff.1 closed with starts | later
    · obtain ⟨more, same⟩ := starts
      cases same
      exact absurd rfl (apart more rfl)
    · obtain ⟨d, rest, rfl⟩ : ∃ d more, rest = d :: more := by
        cases rest with
        | nil => exact absurd (List.eq_nil_of_infix_nil later) (by decide)
        | cons d more => exact ⟨d, more, rfl⟩
      rw [List.cons_append, commentBody, ih later]
      rintro more rfl same
      rw [List.cons_append, List.cons.injEq] at same
      exact apart rest rfl (by rw [same.1])

/-- The end of a line leaves the lexeme before it alone, unless that is a string or a comment without
its end. -/
theorem measure_append_lineFeed {lineStarts : Bool} {c : Char} {rest : List Char}
    (string : c = '"' → (Lexeme.measure lineStarts c rest).1 ≠ some .unknown)
    (closed : (Lexeme.measure lineStarts c rest).1 = some .comment →
      Closed (c :: rest.take (Lexeme.measure lineStarts c rest).2)) (tail : List Char) :
    Lexeme.measure lineStarts c (rest ++ '\n' :: tail) = Lexeme.measure lineStarts c rest := by
  have stops : Lexeme.Stops ('\n' :: tail) := by simp [Lexeme.Stops, Lexeme.isStop]
  suffices fits : (Lexeme.measure lineStarts c (rest ++ '\n' :: tail)).2 ≤ rest.length from
    Lexeme.measure_append_of_fits stops.endsArrow fits
  by_cases quote : c = '"'
  · subst quote
    have unknown : (Lexeme.stringBody rest).1 ≠ .unknown := fun same =>
      string rfl (congrArg some same)
    obtain ⟨inner, after, noQuote, rfl⟩ := Token.Lexeme.exists_quote unknown
    change (Lexeme.stringBody ((inner ++ '"' :: after) ++ '\n' :: tail)).2 ≤ _
    rw [List.append_assoc, List.cons_append, Lexeme.stringBody_append noQuote]
    simp
  by_cases block : c = '/' ∧ rest.head? = some '\''
  · obtain ⟨rfl, opens⟩ := block
    obtain ⟨body, rfl⟩ := List.head?_eq_some_iff.1 opens
    have inside : ['\'', '/'] <:+: body :=
      (closed rfl ⟨_, rfl⟩).trans (List.take_prefix (commentBody body) body).isInfix
    change commentBody (body ++ '\n' :: tail) + 1 ≤ body.length + 1
    rw [commentBody_append_closed inside]
    exact Nat.succ_le_succ (Lexeme.commentBody_le body)
  by_cases line : c = '\'' ∧ lineStarts = true
  · obtain ⟨rfl, rfl⟩ := line
    exact Lexeme.takeWhile_fits (p := (· != '\n')) rest (by simp)
  -- No other lexeme goes over the end of a line, whether one starts before it or not.
  have noComment : (Lexeme.measure lineStarts c (rest ++ '\n' :: tail)).1 ≠ some .comment := by
    intro comment
    rcases (Lexeme.measured_measure _ _ _).comment_opens comment with ⟨slash, opens⟩ | opens
    · cases rest with
      | nil => cases opens
      | cons d rest => exact block ⟨slash, opens⟩
    · exact line opens
  rw [← Token.measure_of_not_comment noComment]
  exact Lexeme.measure_fits rest stops quote fun slash opens => block ⟨slash, opens⟩

theorem lexemes_append_lineFeed {lineStarts : Bool} {text : List Char}
    (strings : ∀ lexeme ∈ lexemes lineStarts text,
      ¬(lexeme.text.head? = some '"' ∧ lexeme.kind = some .unknown))
    (closed : ∀ lexeme ∈ lexemes lineStarts text, lexeme.kind = some .comment → Closed lexeme.text)
    (tail : List Char) :
    lexemes lineStarts (text ++ '\n' :: tail) =
      lexemes lineStarts text ++ ⟨some .newline, ['\n']⟩ :: lexemes true tail := by
  fun_induction lexemes lineStarts text with
  | case1 lineStarts => exact Token.lexemes_lineFeed lineStarts tail
  | case2 lineStarts c rest kind count same ih =>
    obtain ⟨string, stringsLater⟩ := List.forall_mem_cons.1 strings
    obtain ⟨closed, closedLater⟩ := List.forall_mem_cons.1 closed
    have stays : Lexeme.measure lineStarts c (rest ++ '\n' :: tail) = (kind, count) := by
      rw [← same]
      refine measure_append_lineFeed (fun quote unknown => string ⟨quote ▸ rfl, ?_⟩) ?_ tail
      · rwa [same] at unknown
      · rwa [same]
    have measured := Lexeme.measured_measure lineStarts c rest
    rw [same] at measured
    have within := measured.count_le
    rw [List.cons_append, lexemes_cons, stays, List.take_append_of_le_length within,
      List.drop_append_of_le_length within, ih stringsLater closedLater]
    rfl

theorem no_quote_of_solidKinds {found : List Lexeme} (none : solidKinds found = []) :
    ∀ lexeme ∈ found, ¬(lexeme.text.head? = some '"' ∧ lexeme.kind = some .unknown) := by
  rintro lexeme member ⟨-, unknown⟩
  have solid := Lexeme.mem_solidKinds member unknown rfl
  rw [none] at solid
  cases solid

theorem lexemes_startDirective (text : List Char) :
    lexemes true (startDirective ++ '\n' :: text) =
      ⟨some .startUml, startDirective⟩ :: ⟨some .newline, ['\n']⟩ :: lexemes true text := by
  have starts := @Token.lexemes_directive "startuml".toList (by decide) .startUml rfl true
    ('\n' :: text) (by simp)
  rw [Token.lexemes_lineFeed] at starts
  exact starts

theorem lexemes_endDirective : lexemes true endDirective = [⟨some .endUml, endDirective⟩] := by
  have ends := @Token.lexemes_directive "enduml".toList (by decide) .endUml rfl true [] (by simp)
  rwa [show lexemes false [] = [] by rw [lexemes]] at ends

/-- A diagram of nothing but comments reads like an empty one. -/
theorem alike_directives {text : List Char} (none : solidKinds (lexemes true text) = [])
    (closed : ∀ lexeme ∈ lexemes true text, lexeme.kind = some .comment → Closed lexeme.text) :
    Lexeme.Alike true (lexemes true (startDirective ++ '\n' :: (text ++ '\n' :: endDirective)))
      (lexemes true (startDirective ++ '\n' :: endDirective)) := by
  rw [lexemes_startDirective, lexemes_startDirective, lexemes_append_lineFeed (no_quote_of_solidKinds none) closed,
    lexemes_endDirective]
  have ends : Lexeme.Alike true [⟨some .endUml, endDirective⟩] [⟨some .endUml, endDirective⟩] :=
    Lexeme.alike_refl true _
  exact .both (fun _ => rfl) (fun _ => rfl)
    (.both (fun _ => rfl) nofun (Lexeme.alike_append none (.left rfl ends)))

end Lifeline.Repair
