import Lifeline.Proofs.Source.Repair
import Lifeline.Proofs.Text.Lines
import Lifeline.Proofs.Text.Trim

/-! The form of repaired texts.

Each of the rewritings that a repair is made of takes something out of the text. None of those behind it
brings that back, neither where characters come to stand side by side nor where the text is cut. And none
of them touches a directive. -/

set_option autoImplicit false

namespace Lifeline.Repair

variable {run word text rest : List Char} {c : Char} {seen count maxLines : Nat}

/-! ## Line endings -/

theorem unifyLines_cons (noReturn : c ≠ '\r') (noEscape : c = '\\' → rest.head? ≠ some 'n') :
    unifyLines (c :: rest) = c :: unifyLines rest := by
  rw [unifyLines]
  · exact fun _ same _ => noReturn same
  · exact noReturn
  · rintro more same rfl
    exact noEscape same rfl

theorem not_mem_unifyLines (text : List Char) : '\r' ∉ unifyLines text := by
  fun_induction unifyLines text with
  | case1 => exact List.not_mem_nil
  | case2 rest ih => simpa using ih
  | case3 rest _ ih => simpa using ih
  | case4 rest ih => simpa using ih
  | case5 c rest _ noReturn _ ih => simpa [Ne.symm noReturn] using ih

theorem head?_unifyLines (first : (unifyLines text).head? = some 'n') : text.head? = some 'n' := by
  fun_cases unifyLines text <;> simp_all [unifyLines]

theorem escape_infix_cons : ['\\', 'n'] <:+: c :: rest ↔
    c = '\\' ∧ rest.head? = some 'n' ∨ ['\\', 'n'] <:+: rest := by
  rw [List.infix_cons_iff, List.cons_prefix_cons, List.singleton_prefix_iff_head?_eq_some, eq_comm]

theorem not_escape_unifyLines (text : List Char) : ¬['\\', 'n'] <:+: unifyLines text := by
  fun_induction unifyLines text with
  | case1 => decide
  | case2 rest ih => simpa [escape_infix_cons] using ih
  | case3 rest _ ih => simpa [escape_infix_cons] using ih
  | case4 rest ih => simpa [escape_infix_cons] using ih
  | case5 c rest _ _ noEscape ih =>
    rw [escape_infix_cons, not_or]
    refine ⟨?_, ih⟩
    rintro ⟨rfl, first⟩
    obtain ⟨more, rfl⟩ := List.head?_eq_some_iff.1 (head?_unifyLines first)
    exact noEscape more rfl rfl

/-! ## Blank lines -/

theorem squeeze_cons (noFeed : c ≠ '\n') (seen : Nat) (rest : List Char) :
    squeeze seen (c :: rest) = c :: squeeze 0 rest := by
  rw [squeeze, if_neg noFeed]

theorem squeeze_sublist (seen : Nat) (text : List Char) : (squeeze seen text).Sublist text := by
  fun_induction squeeze seen text with
  | case1 => exact List.Sublist.refl []
  | case2 seen rest _ ih => exact ih.cons_cons '\n'
  | case3 seen rest _ ih => exact ih.cons '\n'
  | case4 seen c rest _ ih => exact ih.cons_cons c

theorem head?_squeeze (text : List Char) : (squeeze 0 text).head? = text.head? := by
  fun_cases squeeze 0 text <;> simp_all

/-- Only line feeds behind other line feeds are dropped, and those are not what stands between. -/
theorem not_escape_squeeze (without : ¬['\\', 'n'] <:+: text) (seen : Nat) :
    ¬['\\', 'n'] <:+: squeeze seen text := by
  fun_induction squeeze seen text with
  | case1 => exact without
  | case2 seen rest _ ih =>
    rw [escape_infix_cons, not_or] at without ⊢
    exact ⟨fun same => absurd same.1 (by decide), ih without.2⟩
  | case3 seen rest _ ih => exact ih (fun within => without (escape_infix_cons.2 (.inr within)))
  | case4 seen c rest _ ih =>
    rw [escape_infix_cons, not_or] at without ⊢
    rw [head?_squeeze]
    exact ⟨without.1, ih without.2⟩

theorem not_gap_squeeze (few : seen ≤ 2) (text : List Char) :
    ¬['\n', '\n', '\n'] <:+: List.replicate seen '\n' ++ squeeze seen text := by
  have short {seen : Nat} (few : seen ≤ 2) : ¬['\n', '\n', '\n'] <:+: List.replicate seen '\n' := by
    intro within
    have length := within.length_le
    simp at length
    omega
  fun_induction squeeze seen text with
  | case1 seen => simpa using short few
  | case2 seen rest more ih =>
    -- The line feed joins those before the text.
    rw [List.append_cons, ← List.replicate_succ']
    exact ih more
  | case3 seen rest _ ih => exact ih few
  | case4 seen c rest noFeed ih =>
    intro within
    have without : c ∉ ['\n', '\n', '\n'] := by simpa using noFeed
    rcases Text.infix_append_cons without _ within with before | behind
    · exact short few before
    · exact ih (Nat.zero_le 2) behind

/-! ## Tidy texts -/

/-- Texts with line feeds for line endings, none of them written out, and no two blank lines in a row. -/
structure Tidy (text : List Char) : Prop where
  noReturn : '\r' ∉ text
  noEscape : ¬['\\', 'n'] <:+: text
  noGap : ¬['\n', '\n', '\n'] <:+: text

theorem tidy_smooth (text : List Char) : Tidy (smooth 0 text) where
  noReturn member := not_mem_unifyLines text ((squeeze_sublist _ _).mem member)
  noEscape := not_escape_squeeze (not_escape_unifyLines text) 0
  noGap := not_gap_squeeze (Nat.zero_le 2) (unifyLines text)

theorem Tidy.part (tidy : Tidy text) {inner : List Char} (within : inner <:+: text) : Tidy inner where
  noReturn member := tidy.noReturn (within.subset member)
  noEscape inside := tidy.noEscape (inside.trans within)
  noGap inside := tidy.noGap (inside.trans within)

theorem endDirective_eq : endDirective = ['@', 'e', 'n', 'd', 'u', 'm', 'l'] := rfl

theorem Tidy.addEnd (tidy : Tidy (text ++ ['\n'])) : Tidy (addEnd text) := by
  unfold Repair.addEnd
  split
  · exact tidy.part (List.prefix_append text _).isInfix
  obtain ⟨noReturn, noEscape, noGap⟩ := tidy
  refine ⟨fun member => ?_, fun within => ?_, fun within => ?_⟩
  · rw [List.append_cons, List.mem_append] at member
    rcases member with before | behind
    · exact noReturn before
    · exact absurd behind (by decide)
  · rw [endDirective_eq] at within
    rcases Text.infix_append_cons (c := '\n') (by decide) text within with before | behind
    · exact noEscape (before.trans (List.prefix_append text _).isInfix)
    · exact absurd behind (by decide)
  · rw [List.append_cons, endDirective_eq] at within
    rcases Text.infix_append_cons (c := '@') (by decide) _ within with before | behind
    · exact noGap before
    · exact absurd behind (by decide)

/-! ## Lines -/

theorem lineCount_append_cons (first rest : List Char) :
    lineCount (first ++ '\n' :: rest) = lineCount first + lineCount rest := by
  simp only [lineCount, length_split, List.countP_append, List.countP_cons_of_pos, beq_self_eq_true]
  omega

theorem lineCount_addEnd (text : List Char) : lineCount (addEnd text) ≤ lineCount text + 1 := by
  unfold addEnd
  split
  · exact Nat.le_succ _
  · rw [lineCount_append_cons]
    exact Nat.le_refl _

theorem split_append_lineFeed (first rest : List Char) :
    Text.split (· == '\n') (first ++ '\n' :: rest) =
      Text.split (· == '\n') first ++ Text.split (· == '\n') rest := by
  induction first with
  | nil => simp [Text.split]
  | cons c first ih =>
    rw [List.cons_append, Text.split, Text.split, ih]
    split
    · rfl
    · obtain ⟨piece, pieces, same⟩ :=
        List.exists_cons_of_ne_nil (Text.split_ne_nil (· == '\n') first)
      rw [same]
      rfl

theorem join_append {pieces pieces' : List (List Char)} (some : pieces ≠ []) (some' : pieces' ≠ []) :
    ['\n'].intercalate (pieces ++ pieces') =
      ['\n'].intercalate pieces ++ '\n' :: ['\n'].intercalate pieces' := by
  induction pieces with
  | nil => exact absurd rfl some
  | cons piece pieces ih =>
    cases pieces with
    | nil =>
      obtain ⟨piece', pieces', rfl⟩ := List.exists_cons_of_ne_nil some'
      simp [List.intercalate_cons_cons]
    | cons next pieces =>
      have later := ih (List.cons_ne_nil _ _)
      rw [List.cons_append, List.cons_append] at *
      rw [List.intercalate_cons_cons, List.intercalate_cons_cons, later]
      simp

theorem join_split (text : List Char) : ['\n'].intercalate (Text.split (· == '\n') text) = text := by
  induction text with
  | nil => rfl
  | cons c rest ih =>
    obtain ⟨piece, pieces, same⟩ := List.exists_cons_of_ne_nil (Text.split_ne_nil (· == '\n') rest)
    rw [Text.split]
    split
    · rename_i feed
      rw [same, List.intercalate_cons_cons, ← same, ih, eq_of_beq feed]
      rfl
    · rw [same] at ih ⊢
      cases pieces <;> simp_all [List.intercalate_cons_cons]

theorem takeLines_of_le (fits : lineCount text ≤ count) : takeLines count text = text := by
  rw [takeLines, List.take_of_length_le fits, join_split]

theorem exists_takeLines (some : 0 < count) (cut : count < lineCount text) :
    ∃ rest, text = takeLines count text ++ '\n' :: rest ∧
      lineCount (takeLines count text) = count := by
  have length : ((Text.split (· == '\n') text).take count).length = count :=
    List.length_take_of_le (Nat.le_of_lt cut)
  have first : (Text.split (· == '\n') text).take count ≠ [] :=
    List.ne_nil_of_length_pos (by omega)
  have behind : (Text.split (· == '\n') text).drop count ≠ [] := by
    rw [Ne, List.drop_eq_nil_iff]
    exact Nat.not_le.2 cut
  refine ⟨['\n'].intercalate ((Text.split (· == '\n') text).drop count), ?_, ?_⟩
  · rw [takeLines, ← join_append first behind, List.take_append_drop, join_split]
  · have pieces := Text.split_intercalate first fun piece member feed =>
      absurd (Text.not_mem_of_mem_split (List.mem_of_mem_take member) _ feed) (by decide)
    rw [lineCount, takeLines]
    exact (congrArg List.length pieces).trans length

/-! ## Mentions -/

theorem infix_of_hasPart {part : List Char} (found : hasPart part text = true) : part <:+: text := by
  induction text with
  | nil =>
    rw [hasPart, List.isEmpty_iff] at found
    exact found ▸ List.infix_rfl
  | cons c rest ih =>
    rw [hasPart, Bool.or_eq_true, List.isPrefixOf_iff_prefix] at found
    exact List.infix_cons_iff.2 (found.imp_right ih)

theorem mentions_iff :
    mentions word text = true ↔ ∃ run, run <:+: text ∧ run.map foldCase = word := by
  constructor
  · intro found
    obtain ⟨run, within, same⟩ := List.infix_map_iff.1 (infix_of_hasPart found)
    exact ⟨run, within, same.symm⟩
  · rintro ⟨run, within, rfl⟩
    exact hasPart_of_run (within.map foldCase)

/-- Whether no rewriting of the text around it touches a run of characters. -/
structure Steady (run : List Char) : Prop where
  inner : ∀ c ∈ run, c ≠ '\r' ∧ c ≠ '\n' ∧ c ≠ '\\'
  first : run.head? ≠ some 'n'

theorem steady_of_spelled (directive : word = startDirective ∨ word = endDirective)
    (spelled : run.map foldCase = word) : Steady run := by
  have head : word.head? = some '@' := by
    rcases directive with rfl | rfl <;> rfl
  refine ⟨fun c member => ?_, fun first => ?_⟩
  · have folded : foldCase c ∈ word := spelled ▸ List.mem_map_of_mem member
    refine ⟨?_, ?_, ?_⟩ <;> rintro rfl <;> rcases directive with rfl | rfl <;>
      exact absurd folded (by decide)
  · rw [← spelled, List.head?_map, first] at head
    exact absurd head (by decide)

theorem infix_cons_of_head (nonempty : run ≠ []) (other : run.head? ≠ some c) :
    run <:+: c :: rest ↔ run <:+: rest := by
  rw [List.infix_cons_iff, or_iff_right]
  intro starts
  obtain ⟨d, run, rfl⟩ := List.exists_cons_of_ne_nil nonempty
  exact other (congrArg some (List.cons_prefix_cons.1 starts).1)

namespace Steady

theorem ne_head (steady : Steady run) (ending : c = '\r' ∨ c = '\n' ∨ c = '\\') :
    run.head? ≠ some c := by
  intro first
  obtain ⟨noReturn, noFeed, noEscape⟩ := steady.inner c (List.mem_of_mem_head? first)
  rcases ending with rfl | rfl | rfl
  · exact noReturn rfl
  · exact noFeed rfl
  · exact noEscape rfl

end Steady

theorem prefix_unifyLines_iff (inner : ∀ c ∈ run, c ≠ '\r' ∧ c ≠ '\n' ∧ c ≠ '\\') :
    run <+: unifyLines text ↔ run <+: text := by
  induction run generalizing text with
  | nil => simp
  | cons d run ih =>
    obtain ⟨⟨noReturn, noFeed, noEscape⟩, inner⟩ := List.forall_mem_cons.1 inner
    fun_cases unifyLines text with
    | case1 => rfl
    | case5 c rest => rw [List.cons_prefix_cons, List.cons_prefix_cons, ih inner]
    | _ => simp [List.cons_prefix_cons, noReturn, noFeed, noEscape]

theorem Steady.infix_unifyLines_iff (steady : Steady run) (nonempty : run ≠ []) :
    run <:+: unifyLines text ↔ run <:+: text := by
  have feed {rest : List Char} : run <:+: '\n' :: rest ↔ run <:+: rest :=
    infix_cons_of_head nonempty (steady.ne_head (.inr (.inl rfl)))
  have ret {rest : List Char} : run <:+: '\r' :: rest ↔ run <:+: rest :=
    infix_cons_of_head nonempty (steady.ne_head (.inl rfl))
  have slash {rest : List Char} : run <:+: '\\' :: rest ↔ run <:+: rest :=
    infix_cons_of_head nonempty (steady.ne_head (.inr (.inr rfl)))
  have letter {rest : List Char} : run <:+: 'n' :: rest ↔ run <:+: rest :=
    infix_cons_of_head nonempty steady.first
  fun_induction unifyLines text with
  | case1 => rfl
  | case2 rest ih => exact (feed.trans ih).trans (ret.trans feed).symm
  | case3 rest _ ih => exact (feed.trans ih).trans ret.symm
  | case4 rest ih => exact (feed.trans ih).trans (slash.trans letter).symm
  | case5 c rest noPair noReturn noEscape ih =>
    have starts : run <+: unifyLines (c :: rest) ↔ run <+: c :: rest :=
      prefix_unifyLines_iff steady.inner
    rw [unifyLines_cons noReturn] at starts
    · rw [List.infix_cons_iff, List.infix_cons_iff, starts]
      exact or_congr_right ih
    · rintro rfl first
      obtain ⟨more, rfl⟩ := List.head?_eq_some_iff.1 first
      exact noEscape more rfl rfl

theorem prefix_squeeze_iff (inner : ∀ c ∈ run, c ≠ '\r' ∧ c ≠ '\n' ∧ c ≠ '\\') :
    run <+: squeeze 0 text ↔ run <+: text := by
  induction run generalizing text with
  | nil => simp
  | cons d run ih =>
    obtain ⟨⟨-, noFeed, -⟩, inner⟩ := List.forall_mem_cons.1 inner
    fun_cases squeeze 0 text with
    | case1 => rfl
    | case2 rest => simp [List.cons_prefix_cons, noFeed]
    | case3 rest full => exact absurd Nat.two_pos full
    | case4 c rest => rw [List.cons_prefix_cons, List.cons_prefix_cons, ih inner]

theorem Steady.infix_squeeze_iff (steady : Steady run) (nonempty : run ≠ []) (seen : Nat) :
    run <:+: squeeze seen text ↔ run <:+: text := by
  have feed {rest : List Char} : run <:+: '\n' :: rest ↔ run <:+: rest :=
    infix_cons_of_head nonempty (steady.ne_head (.inr (.inl rfl)))
  fun_induction squeeze seen text with
  | case1 => rfl
  | case2 seen rest _ ih => exact (feed.trans ih).trans feed.symm
  | case3 seen rest _ ih => exact ih.trans feed.symm
  | case4 seen c rest noFeed ih =>
    have starts : run <+: squeeze 0 (c :: rest) ↔ run <+: c :: rest := prefix_squeeze_iff steady.inner
    rw [squeeze_cons noFeed] at starts
    rw [List.infix_cons_iff, List.infix_cons_iff, starts]
    exact or_congr_right ih

theorem mentions_smooth (directive : word = startDirective ∨ word = endDirective) (seen : Nat)
    (text : List Char) : mentions word (smooth seen text) = mentions word text := by
  rw [Bool.eq_iff_iff, mentions_iff, mentions_iff]
  refine exists_congr fun run => and_congr_left fun spelled => ?_
  have steady := steady_of_spelled directive spelled
  have nonempty : run ≠ [] := by
    rintro rfl
    rcases directive with rfl | rfl <;> exact absurd spelled (by decide)
  rw [smooth, steady.infix_squeeze_iff nonempty, steady.infix_unifyLines_iff nonempty]

theorem mentions_mono {text' : List Char} (within : text <:+: text')
    (mentioned : mentions word text = true) : mentions word text' = true := by
  obtain ⟨run, inside, spelled⟩ := mentions_iff.1 mentioned
  exact mentions_iff.2 ⟨run, inside.trans within, spelled⟩

theorem mentions_addStart (text : List Char) : mentions startDirective (addStart text) = true := by
  unfold addStart
  split
  · assumption
  · exact mentions_iff.2 ⟨startDirective, (List.prefix_append _ _).isInfix, by decide⟩

theorem mentions_addEnd (text : List Char) : mentions endDirective (addEnd text) = true := by
  unfold addEnd
  split
  · assumption
  · refine mentions_iff.2 ⟨endDirective, ?_, by decide⟩
    exact ((List.suffix_cons '\n' _).trans (List.suffix_append text _)).isInfix

theorem prefix_addEnd (text : List Char) : text <+: addEnd text := by
  unfold addEnd
  split
  · exact List.prefix_rfl
  · exact List.prefix_append _ _

theorem exists_endDirective (mentioned : mentions endDirective text = true) :
    ∃ run, run <:+: text ∧ run.map Char.toLower = endDirective := by
  obtain ⟨run, within, spelled⟩ := mentions_iff.1 mentioned
  refine ⟨run, within, ?_⟩
  rw [← spelled]
  refine List.map_congr_left fun c member => ?_
  have folded : foldCase c ∈ endDirective := spelled ▸ List.mem_map_of_mem member
  rw [foldCase, if_neg]
  rintro rfl
  exact absurd folded (by decide)

/-! ## Repaired texts -/

/-- A text that fits stays as it is, and of another one the first lines are left, with a last one behind
them if they do not mention the end of a diagram. -/
theorem limitLines_cases (maxLines : Nat) (text : List Char) :
    (lineCount text ≤ maxLines ∧ limitLines maxLines text = ⟨String.ofList text, false⟩) ∨
      (maxLines < lineCount text ∧ limitLines maxLines text =
        ⟨String.ofList (addEnd (takeLines maxLines text)), true⟩) := by
  unfold limitLines
  split
  · exact .inr ⟨‹_›, rfl⟩
  · exact .inl ⟨Nat.not_lt.1 ‹_›, rfl⟩

theorem tidy_limitLines (tidy : Tidy text) (some : 0 < maxLines) :
    Tidy (limitLines maxLines text).code.toList ∧
      lineCount (limitLines maxLines text).code.toList ≤ maxLines + 1 := by
  rcases limitLines_cases maxLines text with ⟨fits, same⟩ | ⟨cut, same⟩ <;>
    rw [same, String.toList_ofList]
  · exact ⟨tidy, Nat.le_succ_of_le fits⟩
  · obtain ⟨rest, whole, count⟩ := exists_takeLines some cut
    rw [whole, List.append_cons] at tidy
    refine ⟨(tidy.part (List.prefix_append _ rest).isInfix).addEnd, ?_⟩
    have lines := lineCount_addEnd (takeLines maxLines text)
    rwa [count] at lines

theorem repair_cases (source : String) (maxLines : Nat) :
    (Text.trim source.toList = [] ∧ repair source maxLines =
      ⟨String.ofList (startDirective ++ '\n' :: endDirective), false⟩) ∨
    (Text.trim source.toList ≠ [] ∧ repair source maxLines =
      limitLines maxLines (smooth 0 (addEnd (addStart (Text.trim source.toList))))) := by
  unfold repair
  split
  · exact .inl ⟨‹_›, rfl⟩
  · exact .inr ⟨‹_›, rfl⟩

theorem tidy_empty : Tidy (startDirective ++ '\n' :: endDirective) :=
  ⟨by decide, by decide +kernel, by decide +kernel⟩

/-- Repaired texts are tidy, have at most one line more than the limit, and mention the end of a diagram;
those that are not cut mention its start as well. -/
theorem tidy_repair (source : String) {maxLines : Nat} (some : 0 < maxLines) :
    Tidy (repair source maxLines).code.toList ∧
      lineCount (repair source maxLines).code.toList ≤ maxLines + 1 ∧
      (∃ run, run <:+: (repair source maxLines).code.toList ∧
        run.map Char.toLower = endDirective) ∧
      ((repair source maxLines).truncated = false →
        mentions startDirective (repair source maxLines).code.toList = true) := by
  rcases repair_cases source maxLines with ⟨-, same⟩ | ⟨-, same⟩ <;> rw [same]
  · rw [String.toList_ofList]
    have two : lineCount (startDirective ++ '\n' :: endDirective) = 2 := by decide
    exact ⟨tidy_empty, by omega, exists_endDirective (by decide), fun _ => by decide⟩
  -- What the last rewriting gives is tidy and mentions both directives. Only the start can be cut off.
  have ends : mentions endDirective (smooth 0 (addEnd (addStart (Text.trim source.toList)))) =
      true := by
    rw [mentions_smooth (.inr rfl)]
    exact mentions_addEnd _
  have starts : mentions startDirective (smooth 0 (addEnd (addStart (Text.trim source.toList)))) =
      true := by
    rw [mentions_smooth (.inl rfl)]
    exact mentions_mono (prefix_addEnd _).isInfix (mentions_addStart _)
  have tidy := tidy_smooth (addEnd (addStart (Text.trim source.toList)))
  generalize smooth 0 (addEnd (addStart (Text.trim source.toList))) = text at *
  obtain ⟨limited, few⟩ := tidy_limitLines tidy some
  refine ⟨limited, few, exists_endDirective ?_, fun whole => ?_⟩
  · rcases limitLines_cases maxLines text with ⟨-, same⟩ | ⟨-, same⟩ <;>
      rw [same, String.toList_ofList]
    · exact ends
    · exact mentions_addEnd _
  · rcases limitLines_cases maxLines text with ⟨-, same⟩ | ⟨-, same⟩ <;> rw [same] at whole ⊢
    · rwa [String.toList_ofList]
    · cases whole

def ragged : String := "A -> B\r\n\r\r\nC:\\\\nn\\n\nB -> A"

theorem tidy_repair_ragged :
    0 < 4 ∧ (repair ragged 4).truncated = true ∧ Tidy (repair ragged 4).code.toList ∧
      lineCount (repair ragged 4).code.toList ≤ 4 + 1 ∧
      (∃ run, run <:+: (repair ragged 4).code.toList ∧ run.map Char.toLower = endDirective) ∧
      ((repair ragged 4).truncated = false →
        mentions startDirective (repair ragged 4).code.toList = true) :=
  ⟨by decide, by decide +kernel, tidy_repair ragged (by decide)⟩

end Lifeline.Repair
