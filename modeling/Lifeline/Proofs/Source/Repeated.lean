import Lifeline.Proofs.Source.Framing

/-! Repairing a text again.

Repair trims a text as it is given, before its line endings are unified and its lines are cut, and it does
so once. Blanks that the later rewritings bring to the ends are therefore left to the next repair, which
takes nothing else from a text that starts a diagram. From the third repair on nothing changes. -/

set_option autoImplicit false

namespace Lifeline.Repair

open Text (isBlank trim)

variable {run word text inner : List Char} {c : Char} {seen maxLines : Nat}

def mend (maxLines : Nat) (source : String) : String := (repair source maxLines).code

/-! ## Tidy texts stay as they are -/

theorem unifyLines_of_tidy (noReturn : '\r' ∉ text) (noEscape : ¬['\\', 'n'] <:+: text) :
    unifyLines text = text := by
  induction text with
  | nil => rfl
  | cons c rest ih =>
    rw [List.mem_cons, not_or] at noReturn
    rw [escape_infix_cons, not_or, not_and] at noEscape
    rw [unifyLines_cons (Ne.symm noReturn.1) noEscape.1, ih noReturn.2 noEscape.2]

theorem squeeze_of_tidy (noGap : ¬['\n', '\n', '\n'] <:+: List.replicate seen '\n' ++ text) :
    squeeze seen text = text := by
  induction text generalizing seen with
  | nil => rfl
  | cons c rest ih =>
    by_cases feed : c = '\n'
    · subst feed
      have few : seen < 2 := by
        by_contra many
        obtain ⟨more, rfl⟩ := Nat.exists_eq_add_of_le' (Nat.not_lt.1 many)
        refine noGap ⟨List.replicate more '\n', rest, ?_⟩
        rw [List.replicate_add, List.append_assoc, List.append_assoc]
        rfl
      rw [squeeze, if_pos rfl, if_pos few, ih]
      rwa [List.replicate_succ', List.append_assoc]
    · rw [squeeze_cons feed, ih]
      exact fun within => noGap (within.trans
        ((List.suffix_cons c rest).isInfix.trans (List.suffix_append _ _).isInfix))

theorem smooth_of_tidy (tidy : Tidy text) : smooth 0 text = text := by
  rw [smooth, unifyLines_of_tidy tidy.noReturn tidy.noEscape]
  exact @squeeze_of_tidy text 0 tidy.noGap

/-! ## Trimmed texts -/

theorem infix_trim (text : List Char) : trim text <:+: text := by
  obtain ⟨lead, trail, same, -, -⟩ := Text.exists_trim text
  exact ⟨lead, trail, by rw [List.append_assoc, ← same]⟩

theorem infix_trim_iff (nonempty : run ≠ []) (solid : ∀ c ∈ run, isBlank c = false) :
    run <:+: trim text ↔ run <:+: text := by
  refine ⟨fun within => within.trans (infix_trim text), fun within => ?_⟩
  have without (c : Char) (blank : isBlank c = true) : c ∉ run := fun member => by
    rw [solid c member] at blank
    cases blank
  -- Blanks are taken from the front one by one: a run that holds none of them lies behind each.
  have behind (lead rest : List Char) (blank : ∀ c ∈ lead, isBlank c = true)
      (within : run <:+: lead ++ rest) : run <:+: rest := by
    induction lead with
    | nil => exact within
    | cons c lead ih =>
      obtain ⟨first, others⟩ := List.forall_mem_cons.1 blank
      refine ih others ((Text.infix_append_cons (without c first) [] within).resolve_left ?_)
      exact fun inside => nonempty (List.eq_nil_of_infix_nil inside)
  obtain ⟨lead, trail, same, leads, trails⟩ := Text.exists_trim text
  rw [same] at within
  have inside := behind lead _ leads within
  cases trail with
  | nil => rwa [List.append_nil] at inside
  | cons c trail =>
    obtain ⟨first, others⟩ := List.forall_mem_cons.1 trails
    refine (Text.infix_append_cons (without c first) _ inside).resolve_right fun after => nonempty ?_
    exact List.eq_nil_of_infix_nil (behind trail [] others (by rwa [List.append_nil]))

theorem foldCase_of_isBlank (blank : isBlank c = true) : foldCase c = c := by
  have long : c ≠ 'ſ' := by
    rintro rfl
    exact absurd blank (by decide)
  have capital : ¬('A'.val ≤ c.val ∧ c.val ≤ 'Z'.val) := by
    rintro ⟨first, last⟩
    simp only [isBlank, Bool.or_eq_true, Bool.and_eq_true, decide_eq_true_eq, beq_iff_eq] at blank
    have first : 65 ≤ c.toNat := first
    have last : c.toNat ≤ 90 := last
    omega
  exact (if_neg long).trans (dif_neg capital)

theorem mentions_trim (directive : word = startDirective ∨ word = endDirective) (text : List Char) :
    mentions word (trim text) = mentions word text := by
  rw [Bool.eq_iff_iff, mentions_iff, mentions_iff]
  refine exists_congr fun run => and_congr_left fun spelled => infix_trim_iff ?_ fun c member => ?_
  · rintro rfl
    rcases directive with rfl | rfl <;> exact absurd spelled (by decide)
  · rw [Bool.eq_false_iff]
    intro blank
    have folded : foldCase c ∈ word := spelled ▸ List.mem_map_of_mem member
    rw [foldCase_of_isBlank blank] at folded
    have solid : word.any isBlank = false := by rcases directive with rfl | rfl <;> decide
    exact List.any_eq_false.1 solid c folded blank

theorem lineCount_mono (within : inner <:+: text) : lineCount inner ≤ lineCount text := by
  rw [lineCount, lineCount, length_split, length_split]
  exact Nat.succ_le_succ (within.sublist.countP_le)

/-! ## Ends of rewritten texts -/

theorem head?_unifyLines_of_solid (solid : ∀ c ∈ text.head?, isBlank c = false)
    (unescaped : ¬['\\', 'n'] <+: text) : (unifyLines text).head? = text.head? := by
  fun_cases unifyLines text with
  | case1 => rfl
  | case2 rest => exact absurd (solid '\r' rfl) (by decide)
  | case3 rest => exact absurd (solid '\r' rfl) (by decide)
  | case4 rest => exact absurd (List.prefix_append _ rest) unescaped
  | case5 c rest => rfl

theorem mem_getLast?_cons {d : Char} (last : c ∈ text.getLast?) : c ∈ (d :: text).getLast? := by
  rw [List.getLast?_cons, Option.mem_def.1 last]
  rfl

theorem getLast?_unifyLines (solid : ∀ c ∈ text.getLast?, isBlank c = false)
    (unescaped : ¬['\\', 'n'] <:+ text) : (unifyLines text).getLast? = text.getLast? := by
  fun_induction unifyLines text with
  | case1 => rfl
  | case2 rest ih =>
    have same := ih (fun c last => solid c (mem_getLast?_cons (mem_getLast?_cons last)))
      fun ends => unescaped (ends.trans (List.suffix_append ['\r', '\n'] rest))
    simp [List.getLast?_cons, same]
  | case3 rest _ ih =>
    have same := ih (fun c last => solid c (mem_getLast?_cons last))
      fun ends => unescaped (ends.trans (List.suffix_cons '\r' rest))
    cases rest with
    | nil => exact absurd (solid '\r' rfl) (by decide)
    | cons d rest => simp [List.getLast?_cons, same]
  | case4 rest ih =>
    have same := ih (fun c last => solid c (mem_getLast?_cons (mem_getLast?_cons last)))
      fun ends => unescaped (ends.trans (List.suffix_append ['\\', 'n'] rest))
    cases rest with
    | nil => exact absurd List.suffix_rfl unescaped
    | cons d rest => simp [List.getLast?_cons, same]
  | case5 c rest _ _ _ ih =>
    have same := ih (fun c last => solid c (mem_getLast?_cons last))
      fun ends => unescaped (ends.trans (List.suffix_cons c rest))
    rw [List.getLast?_cons, List.getLast?_cons, same]

theorem getLast?_squeeze (solid : ∀ c ∈ text.getLast?, isBlank c = false) (seen : Nat) :
    (squeeze seen text).getLast? = text.getLast? := by
  fun_induction squeeze seen text with
  | case1 => rfl
  | case2 seen rest _ ih =>
    have same := ih fun c last => solid c (mem_getLast?_cons last)
    rw [List.getLast?_cons, List.getLast?_cons, same]
  | case3 seen rest _ ih =>
    have same := ih fun c last => solid c (mem_getLast?_cons last)
    cases rest with
    | nil => exact absurd (solid '\n' rfl) (by decide)
    | cons d rest => simp [List.getLast?_cons, same]
  | case4 seen c rest _ ih =>
    have same := ih fun c last => solid c (mem_getLast?_cons last)
    rw [List.getLast?_cons, List.getLast?_cons, same]

/-- Only line feeds that are written out bring blanks to the ends of a trimmed text. -/
theorem trim_smooth (trimmed : trim text = text) (starts : ¬['\\', 'n'] <+: text)
    (ends : ¬['\\', 'n'] <:+ text) : trim (smooth 0 text) = smooth 0 text := by
  have first := Text.head?_trim text
  have last := Text.getLast?_trim text
  rw [trimmed] at first last
  have last' := getLast?_unifyLines last ends
  refine Text.trim_of_ends ?_ ?_
  · rwa [smooth, head?_squeeze, head?_unifyLines_of_solid first starts]
  · rwa [smooth, getLast?_squeeze (last' ▸ last), last']

theorem trim_addStart (trimmed : trim text = text) (nonempty : text ≠ []) :
    trim (addStart text) = addStart text := by
  unfold addStart
  split
  · exact trimmed
  · have last := Text.getLast?_trim text
    rw [trimmed] at last
    refine Text.trim_of_ends (by rintro c ⟨⟩; decide) ?_
    rwa [List.append_cons, List.getLast?_append_of_ne_nil _ nonempty]

theorem trim_addEnd (trimmed : trim text = text) (nonempty : text ≠ []) :
    trim (addEnd text) = addEnd text := by
  unfold addEnd
  split
  · exact trimmed
  · have first := Text.head?_trim text
    rw [trimmed] at first
    obtain ⟨c, rest, rfl⟩ := List.exists_cons_of_ne_nil nonempty
    refine Text.trim_of_ends first ?_
    rw [List.append_cons, List.getLast?_append_of_ne_nil _ (by decide)]
    rintro d ⟨⟩
    decide

theorem suffix_addStart (text : List Char) : text <:+ addStart text := by
  unfold addStart
  split
  · exact List.suffix_rfl
  · exact (List.suffix_cons '\n' text).trans (List.suffix_append _ _)

/-! ## Repaired texts -/

/-- Texts that are not cut again: they fit, or have one line more, which is the end of a diagram and is
put back when it is cut off. -/
def Limited (maxLines : Nat) (text : List Char) : Prop :=
  lineCount text ≤ maxLines ∨ ∃ kept, text = kept ++ '\n' :: endDirective ∧
    lineCount kept = maxLines ∧ mentions endDirective kept = false

theorem limitLines_of_limited (limited : Limited maxLines text) :
    (limitLines maxLines text).code = String.ofList text := by
  rcases limitLines_cases maxLines text with ⟨-, same⟩ | ⟨cut, same⟩ <;> rw [same]
  rcases limited with fits | ⟨kept, rfl, count, silent⟩
  · exact absurd cut (Nat.not_lt.2 fits)
  · rw [takeLines_append_lineFeed count.ge, takeLines_of_le count.le, addEnd, silent]
    rfl

theorem limited_limitLines (some : 0 < maxLines) (text : List Char) :
    Limited maxLines (limitLines maxLines text).code.toList := by
  rcases limitLines_cases maxLines text with ⟨fits, same⟩ | ⟨cut, same⟩ <;>
    rw [same, String.toList_ofList]
  · exact .inl fits
  · obtain ⟨-, -, count⟩ := exists_takeLines some cut
    unfold addEnd
    split
    · exact .inl count.le
    · rename_i silent
      exact .inr ⟨_, rfl, count, by simpa using silent⟩

theorem trim_append_endDirective (kept : List Char) :
    trim (kept ++ '\n' :: endDirective) = endDirective ∨
      trim (kept ++ '\n' :: endDirective) = kept.dropWhile isBlank ++ '\n' :: endDirective := by
  have closed (lead : List Char) :
      ((lead ++ endDirective).reverse.dropWhile isBlank).reverse = lead ++ endDirective := by
    rw [Text.dropWhile_of_head?, List.reverse_reverse]
    rw [List.reverse_append]
    rintro c ⟨⟩
    decide
  rw [trim, List.dropWhile_append]
  split
  · exact .inl (closed [])
  · right
    rw [List.append_cons]
    exact closed _

theorem Limited.trim (limited : Limited maxLines text) (some : 0 < maxLines) :
    Limited maxLines (trim text) := by
  rcases limited with fits | ⟨kept, rfl, count, silent⟩
  · exact .inl ((lineCount_mono (infix_trim text)).trans fits)
  rcases trim_append_endDirective kept with same | same <;> rw [same]
  · exact .inl some
  -- With a blank line at the start goes one line, and then the text fits.
  · have within : kept.dropWhile isBlank <:+: kept := (List.dropWhile_suffix isBlank).isInfix
    have fewer := lineCount_mono within
    rcases Nat.lt_or_eq_of_le (fewer.trans count.le) with less | all
    · refine .inl ?_
      rw [lineCount_append_cons]
      exact less
    · refine .inr ⟨_, rfl, all, ?_⟩
      rw [Bool.eq_false_iff] at silent ⊢
      exact fun mentioned => silent (mentions_mono within mentioned)

structure Mended (maxLines : Nat) (text : List Char) : Prop where
  tidy : Tidy text
  ends : mentions endDirective text = true
  limited : Limited maxLines text

theorem Mended.trim (mended : Mended maxLines text) (some : 0 < maxLines) :
    Mended maxLines (trim text) where
  tidy := mended.tidy.part (infix_trim text)
  ends := (mentions_trim (.inr rfl) text).trans mended.ends
  limited := mended.limited.trim some

theorem mended_limitLines (some : 0 < maxLines) (tidy : Tidy text)
    (ends : mentions endDirective text = true) :
    Mended maxLines (limitLines maxLines text).code.toList where
  tidy := (tidy_limitLines tidy some).1
  ends := by
    rcases limitLines_cases maxLines text with ⟨-, same⟩ | ⟨-, same⟩ <;>
      rw [same, String.toList_ofList]
    · exact ends
    · exact mentions_addEnd _
  limited := limited_limitLines some text

theorem limited_empty (some : 0 < maxLines) : Limited maxLines (startDirective ++ '\n' :: endDirective) := by
  rcases Nat.lt_or_eq_of_le some with several | rfl
  · exact .inl several
  · exact .inr ⟨startDirective, rfl, by decide, by decide⟩

theorem mended_mend (some : 0 < maxLines) (source : String) :
    Mended maxLines (mend maxLines source).toList := by
  unfold mend
  rcases repair_cases source maxLines with ⟨-, same⟩ | ⟨-, same⟩ <;> rw [same]
  · rw [String.toList_ofList]
    exact ⟨tidy_empty, by decide, limited_empty some⟩
  · refine mended_limitLines some (tidy_smooth _) ?_
    rw [mentions_smooth (.inr rfl)]
    exact mentions_addEnd _

theorem mentions_smooth_added (directive : word = startDirective ∨ word = endDirective)
    (text : List Char) : mentions word (smooth 0 (addEnd (addStart text))) = true := by
  rw [mentions_smooth directive]
  rcases directive with rfl | rfl
  · exact mentions_mono (prefix_addEnd _).isInfix (mentions_addStart text)
  · exact mentions_addEnd _

theorem starts_of_whole {source : String} (whole : (repair source maxLines).truncated = false) :
    mentions startDirective (mend maxLines source).toList = true := by
  unfold mend
  rcases repair_cases source maxLines with ⟨-, same⟩ | ⟨-, same⟩ <;> rw [same] at whole ⊢
  · decide
  · have starts := mentions_smooth_added (.inl rfl) (Text.trim source.toList)
    generalize smooth 0 (addEnd (addStart (Text.trim source.toList))) = text at *
    rcases limitLines_cases maxLines text with ⟨-, same⟩ | ⟨-, same⟩ <;> rw [same] at whole ⊢
    · rwa [String.toList_ofList]
    · cases whole

/-- Whether a line feed is written out at either end of a text, once it has its directives. -/
def EscapedAtEnd (source : String) : Prop :=
  ['\\', 'n'] <+: addEnd (addStart (Text.trim source.toList)) ∨
    ['\\', 'n'] <:+ addEnd (addStart (Text.trim source.toList))

instance (source : String) : Decidable (EscapedAtEnd source) := inferInstanceAs (Decidable (_ ∨ _))

theorem trim_of_whole {source : String} (whole : (repair source maxLines).truncated = false)
    (unescaped : ¬EscapedAtEnd source) :
    Text.trim (mend maxLines source).toList = (mend maxLines source).toList := by
  rw [EscapedAtEnd, not_or] at unescaped
  unfold mend
  rcases repair_cases source maxLines with ⟨-, same⟩ | ⟨solid, same⟩ <;> rw [same] at whole ⊢
  · decide
  · have nonempty : addStart (Text.trim source.toList) ≠ [] := fun none =>
      solid (List.suffix_nil.1 (none ▸ suffix_addStart _))
    have started := trim_addStart (Text.trim_trim source.toList) solid
    have trimmed := trim_smooth (trim_addEnd started nonempty) unescaped.1 unescaped.2
    generalize smooth 0 (addEnd (addStart (Text.trim source.toList))) = text at *
    rcases limitLines_cases maxLines text with ⟨-, same⟩ | ⟨-, same⟩ <;> rw [same] at whole ⊢
    · rwa [String.toList_ofList]
    · cases whole

/-! ## A second repair -/

theorem addEnd_of_mentions (ends : mentions endDirective text = true) : addEnd text = text :=
  if_pos ends

namespace Mended

variable {code : String}

theorem repair_eq (mended : Mended maxLines code.toList) :
    repair code maxLines = limitLines maxLines (smooth 0 (addStart (Text.trim code.toList))) := by
  have ends : mentions endDirective (Text.trim code.toList) = true :=
    (mentions_trim (.inr rfl) _).trans mended.ends
  rcases repair_cases code maxLines with ⟨blank, -⟩ | ⟨-, same⟩
  · rw [blank] at ends
    cases ends
  · rw [same, addEnd_of_mentions (mentions_mono (suffix_addStart _).isInfix ends)]

theorem mend_eq (mended : Mended maxLines code.toList) (some : 0 < maxLines)
    (starts : mentions startDirective code.toList = true) :
    mend maxLines code = String.ofList (Text.trim code.toList) := by
  have trimmed := mended.trim some
  have added : addStart (Text.trim code.toList) = Text.trim code.toList :=
    if_pos ((mentions_trim (.inl rfl) _).trans starts)
  rw [mend, mended.repair_eq, added, smooth_of_tidy trimmed.tidy,
    limitLines_of_limited trimmed.limited]

theorem mend_mend (mended : Mended maxLines code.toList) (some : 0 < maxLines)
    (starts : mentions startDirective code.toList = true) :
    mend maxLines (mend maxLines code) = mend maxLines code := by
  have trimmed : Mended maxLines (String.ofList (Text.trim code.toList)).toList := by
    rw [String.toList_ofList]
    exact mended.trim some
  rw [mended.mend_eq some starts, trimmed.mend_eq some, String.toList_ofList, Text.trim_trim]
  rwa [String.toList_ofList, mentions_trim (.inl rfl)]

/-- Where a repaired text starts no diagram, the next repair adds the start as its first line. -/
theorem starts_mend (mended : Mended maxLines code.toList) (some : 0 < maxLines) :
    mentions startDirective (mend maxLines code).toList = true := by
  by_cases starts : mentions startDirective code.toList = true
  · rw [mended.mend_eq some starts, String.toList_ofList, mentions_trim (.inl rfl), starts]
  have silent : ¬mentions startDirective (Text.trim code.toList) = true := by
    rwa [mentions_trim (.inl rfl)]
  have started : smooth 0 (addStart (Text.trim code.toList)) =
      startDirective ++ '\n' :: smooth 1 (Text.trim code.toList) := by
    rw [addStart, if_neg silent]
    rfl
  have within (rest : List Char) : mentions startDirective (startDirective ++ rest) = true :=
    mentions_iff.2 ⟨startDirective, (List.prefix_append _ rest).isInfix, by decide⟩
  rw [mend, mended.repair_eq, started]
  rcases limitLines_cases maxLines (startDirective ++ '\n' :: smooth 1 (Text.trim code.toList)) with
    ⟨-, same⟩ | ⟨-, same⟩ <;> rw [same, String.toList_ofList]
  · exact within _
  · obtain ⟨more, taken, -⟩ :=
      exists_takeLines_cons some (by decide : '\n' ∉ startDirective)
        (smooth 1 (Text.trim code.toList))
    rw [taken]
    exact mentions_mono (prefix_addEnd _).isInfix (within more)

end Mended

theorem mend_zero {source : String} (solid : Text.trim source.toList ≠ []) :
    mend 0 source = String.ofList ('\n' :: endDirective) := by
  rcases repair_cases source 0 with ⟨blank, -⟩ | ⟨-, same⟩
  · exact absurd blank solid
  · rw [mend, same]
    rcases limitLines_cases 0 (smooth 0 (addEnd (addStart (Text.trim source.toList)))) with
      ⟨fits, -⟩ | ⟨-, same⟩
    · exact absurd fits (by rw [lineCount, length_split]; exact Nat.not_succ_le_zero _)
    · rw [same]
      rfl

theorem mend_zero_mend_zero (source : String) :
    mend 0 (mend 0 source) = String.ofList ('\n' :: endDirective) := by
  by_cases blank : Text.trim source.toList = []
  · have empty : mend 0 source = String.ofList (startDirective ++ '\n' :: endDirective) := by
      rcases repair_cases source 0 with ⟨-, same⟩ | ⟨solid, -⟩
      · rw [mend, same]
      · exact absurd blank solid
    rw [empty, mend_zero (by decide)]
  · rw [mend_zero blank, mend_zero (by decide)]

/-- A second repair only takes the blanks at its ends from a text that starts a diagram, so it changes
nothing where there are none, as in a text that is not cut and in which no line feed is written out at the
ends. A fourth repair changes nothing in any case. -/
theorem settled_mend (source : String) (maxLines : Nat) :
    (0 < maxLines →
      (repair source maxLines).truncated = false ∨
        mentions startDirective (mend maxLines source).toList = true →
      mend maxLines (mend maxLines source) =
          String.ofList (Text.trim (mend maxLines source).toList) ∧
        (mend maxLines (mend maxLines source) = mend maxLines source ↔
          Text.trim (mend maxLines source).toList = (mend maxLines source).toList)) ∧
    (0 < maxLines → (repair source maxLines).truncated = false → ¬EscapedAtEnd source →
      mend maxLines (mend maxLines source) = mend maxLines source) ∧
    (maxLines = 0 → Text.trim source.toList ≠ [] →
      mend maxLines (mend maxLines source) = mend maxLines source) ∧
    mend maxLines ((mend maxLines)^[3] source) = (mend maxLines)^[3] source := by
  have again (some : 0 < maxLines)
      (starts : mentions startDirective (mend maxLines source).toList = true) :=
    (mended_mend some source).mend_eq some starts
  refine ⟨fun some directed => ?_, fun some whole unescaped => ?_, ?_, ?_⟩
  · have trimmed := again some (directed.elim starts_of_whole id)
    refine ⟨trimmed, ?_⟩
    rw [trimmed, ← String.toList_inj, String.toList_ofList]
  · rw [again some (starts_of_whole whole), trim_of_whole whole unescaped, String.ofList_toList]
  · rintro rfl solid
    rw [mend_zero_mend_zero, mend_zero solid]
  · change mend maxLines (mend maxLines (mend maxLines (mend maxLines source))) =
      mend maxLines (mend maxLines (mend maxLines source))
    rcases Nat.eq_zero_or_pos maxLines with rfl | some
    · rw [mend_zero_mend_zero, mend_zero_mend_zero]
    · have starts := (mended_mend some source).starts_mend some
      exact (mended_mend some (mend maxLines source)).mend_mend some starts

def escaped : String := "\\n@startuml\n@enduml \nA -> B\\n"

theorem settled_mend_escaped :
    0 < 3 ∧ (repair escaped 3).truncated = true ∧
      mentions startDirective (mend 3 escaped).toList = true ∧
      mend 3 escaped = "\n@startuml\n@enduml " ∧ mend 3 (mend 3 escaped) = "@startuml\n@enduml" ∧
      mend 3 ((mend 3)^[3] escaped) = (mend 3)^[3] escaped ∧
      (repair ragged 9).truncated = false ∧ ¬EscapedAtEnd ragged ∧
      mend 9 (mend 9 ragged) = mend 9 ragged ∧
      Text.trim ragged.toList ≠ [] ∧ mend 0 (mend 0 ragged) = mend 0 ragged := by
  have starts : mentions startDirective (mend 3 escaped).toList = true := by decide +kernel
  have whole : (repair ragged 9).truncated = false := by decide +kernel
  have unescaped : ¬EscapedAtEnd ragged := by decide +kernel
  have solid : Text.trim ragged.toList ≠ [] := by decide +kernel
  obtain ⟨again, -, -, settled⟩ := settled_mend escaped 3
  obtain ⟨trimmed, -⟩ := again (by decide) (.inr starts)
  obtain ⟨-, same, -, -⟩ := settled_mend ragged 9
  obtain ⟨-, -, roomless, -⟩ := settled_mend ragged 0
  refine ⟨by decide, by decide +kernel, starts, by decide +kernel, ?_, settled, whole, unescaped,
    same (by decide) whole unescaped, solid, roomless rfl solid⟩
  rw [trimmed]
  decide +kernel

/-- Blanks come to the ends when a line feed that is written out becomes one, or where a line is the last
one that is kept; a start directive can be cut off; and no line at all may be kept of a diagram. Two
repairs do not settle all texts either. -/
theorem not_settled_mend :
    mend defaultMaxLines (mend defaultMaxLines "@startuml\n@enduml\\n") ≠
        mend defaultMaxLines "@startuml\n@enduml\\n" ∧
      mend defaultMaxLines (mend defaultMaxLines "\\n@startuml\n@enduml") ≠
        mend defaultMaxLines "\\n@startuml\n@enduml" ∧
      mend 2 (mend 2 "@startuml\n@enduml \nA -> B") ≠ mend 2 "@startuml\n@enduml \nA -> B" ∧
      mend 1 (mend 1 "A -> B\n@startuml") ≠ mend 1 "A -> B\n@startuml" ∧
      mend 0 (mend 0 "") ≠ mend 0 "" ∧
      mend 2 ((mend 2)^[2] "@enduml \nA -> B\n@startuml") ≠
        (mend 2)^[2] "@enduml \nA -> B\n@startuml" := by
  decide +kernel

end Lifeline.Repair
