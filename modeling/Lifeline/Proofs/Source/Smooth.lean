import Lifeline.Proofs.Source.Lexemes
import Lifeline.Proofs.Token.Clear
import Lifeline.Source.Repair

/-! Texts whose lines are repaired.

Where every carriage return belongs to the end of a line and no line feed is written out, repair takes
nothing from a text but carriage returns and blank lines. Outside strings no lexeme depends on them:
the repaired text reads alike. -/

set_option autoImplicit false

namespace Lifeline.Repair

open Token (Kind Lexeme lexemes)
open Token.Lexeme (arrowBody wordBody stringBody numberBody fractionBody commentBody
  numberBody_eq stringBody_append exists_quote)

/-- Every carriage return belongs to the end of a line, and no line feed is written out. -/
def Regular : List Char → Prop
  | [] => True
  | c :: rest =>
    (c = '\r' → rest.head? = some '\n') ∧ (c = '\\' → rest.head? ≠ some 'n') ∧ Regular rest

instance decidableRegular : (text : List Char) → Decidable (Regular text)
  | [] => inferInstanceAs (Decidable True)
  | c :: rest =>
    have := decidableRegular rest
    inferInstanceAs (Decidable ((c = '\r' → rest.head? = some '\n') ∧
      (c = '\\' → rest.head? ≠ some 'n') ∧ Regular rest))

def smooth (seen : Nat) (text : List Char) : List Char := squeeze seen (unifyLines text)

variable {c : Char} {text rest : List Char}

theorem Regular.drop (regular : Regular text) (count : Nat) : Regular (text.drop count) := by
  induction text generalizing count with
  | nil => rwa [List.drop_nil]
  | cons c rest ih =>
    cases count with
    | zero => exact regular
    | succ count => exact ih regular.2.2 count

@[simp] theorem smooth_nil (seen : Nat) : smooth seen [] = [] := rfl

theorem smooth_lineFeed (seen : Nat) (rest : List Char) :
    smooth seen ('\n' :: rest) =
      if seen < 2 then '\n' :: smooth (seen + 1) rest else smooth seen rest := by
  rw [smooth, unifyLines, squeeze, if_pos rfl]
  · rfl
  all_goals exact nofun

theorem smooth_return (regular : Regular ('\r' :: rest)) (seen : Nat) :
    smooth seen ('\r' :: rest) = smooth seen rest := by
  obtain ⟨more, rfl⟩ := List.head?_eq_some_iff.1 (regular.1 rfl)
  rfl

theorem smooth_other (regular : Regular (c :: rest)) (noReturn : c ≠ '\r') (noFeed : c ≠ '\n')
    (seen : Nat) : smooth seen (c :: rest) = c :: smooth 0 rest := by
  rw [smooth, unifyLines, squeeze, if_neg noFeed]
  · rfl
  · exact fun _ isReturn _ => noReturn isReturn
  · exact noReturn
  · rintro more backslash rfl
    exact regular.2.1 backslash rfl

def isEnding (c : Char) : Bool := c == '\r' || c == '\n'

theorem ne_of_isEnding (noEnding : isEnding c = false) : c ≠ '\r' ∧ c ≠ '\n' := by
  simpa [isEnding] using noEnding

theorem isEnding_of {p : Char → Bool} (noReturn : p '\r' = false) (noFeed : p '\n' = false)
    (holds : p c = true) : isEnding c = false := by
  rw [Bool.eq_false_iff]
  intro ending
  rcases (by simpa [isEnding] using ending : c = '\r' ∨ c = '\n') with rfl | rfl
  · exact absurd holds (noReturn ▸ Bool.false_ne_true)
  · exact absurd holds (noFeed ▸ Bool.false_ne_true)

/-- What becomes of a character: only that of a line feed depends on what stands before it. -/
theorem smooth_cases (regular : Regular (c :: rest)) (seen : Nat) :
    (c = '\r' ∧ smooth seen (c :: rest) = smooth seen rest) ∨
    (c = '\n' ∧ smooth seen (c :: rest) =
      if seen < 2 then '\n' :: smooth (seen + 1) rest else smooth seen rest) ∨
    (isEnding c = false ∧ smooth seen (c :: rest) = c :: smooth 0 rest) := by
  by_cases isReturn : c = '\r'
  · subst isReturn
    exact .inl ⟨rfl, smooth_return regular seen⟩
  by_cases isFeed : c = '\n'
  · subst isFeed
    exact .inr (.inl ⟨rfl, smooth_lineFeed seen rest⟩)
  · exact .inr (.inr ⟨by simp [isEnding, isReturn, isFeed], smooth_other regular isReturn isFeed seen⟩)

theorem head?_smooth (regular : Regular text) {d : Char} (noEnding : isEnding d = false) :
    (smooth 0 text).head? = some d ↔ text.head? = some d := by
  obtain ⟨noReturn, noFeed⟩ := ne_of_isEnding noEnding
  cases text with
  | nil => rfl
  | cons c rest =>
    rcases smooth_cases regular 0 with ⟨rfl, same⟩ | ⟨rfl, same⟩ | ⟨-, same⟩
    · obtain ⟨more, rfl⟩ := List.head?_eq_some_iff.1 (regular.1 rfl)
      rw [same, smooth_lineFeed, if_pos (by decide), List.head?_cons, List.head?_cons,
        Option.some.injEq, Option.some.injEq]
      exact ⟨fun feed => absurd feed.symm noFeed, fun ret => absurd ret.symm noReturn⟩
    · rw [same]
      rfl
    · rw [same]
      rfl

theorem smooth_eq_append (regular : Regular text) {count : Nat}
    (inLine : ∀ c ∈ text.take count, isEnding c = false) :
    smooth 0 text = text.take count ++ smooth 0 (text.drop count) := by
  induction text generalizing count with
  | nil => simp
  | cons c rest ih =>
    cases count with
    | zero => rfl
    | succ count =>
      rw [List.take_succ_cons, List.forall_mem_cons] at inLine
      obtain ⟨noEnding, inLine⟩ := inLine
      have other := ne_of_isEnding noEnding
      rw [smooth_other regular other.1 other.2, ih regular.2.2 inLine]
      rfl

theorem takeWhile_smooth {p : Char → Bool} (noReturn : p '\r' = false) (noFeed : p '\n' = false)
    (regular : Regular text) : (smooth 0 text).takeWhile p = text.takeWhile p := by
  induction text with
  | nil => rfl
  | cons c rest ih =>
    by_cases goesOn : p c = true
    · have other := ne_of_isEnding (isEnding_of noReturn noFeed goesOn)
      rw [smooth_other regular other.1 other.2, List.takeWhile_cons, List.takeWhile_cons,
        ih regular.2.2]
    · rw [List.takeWhile_cons_of_neg goesOn]
      cases same : smooth 0 (c :: rest) with
      | nil => rfl
      | cons d more =>
        refine List.takeWhile_cons_of_neg fun holds => goesOn ?_
        have stays := head?_smooth regular (isEnding_of noReturn noFeed holds)
        rw [same] at stays
        rwa [Option.some.inj (stays.1 rfl)]

theorem smooth_append_cons {first tail : List Char} {seen : Nat}
    (regular : Regular (first ++ c :: tail)) (noReturn : '\r' ∉ first)
    (few : ¬['\n', '\n', '\n'] <:+: List.replicate seen '\n' ++ first)
    (noEnding : isEnding c = false) :
    smooth seen (first ++ c :: tail) = first ++ c :: smooth 0 tail := by
  induction first generalizing seen with
  | nil =>
    have other := ne_of_isEnding noEnding
    exact smooth_other regular other.1 other.2 seen
  | cons d first ih =>
    rw [List.mem_cons, not_or] at noReturn
    by_cases isFeed : d = '\n'
    · subst isFeed
      have shift : List.replicate seen '\n' ++ '\n' :: first =
          List.replicate (seen + 1) '\n' ++ first := by
        rw [List.replicate_succ', List.append_assoc, List.singleton_append]
      rw [shift] at few
      have less : seen < 2 := by
        by_contra enough
        obtain ⟨more, rfl⟩ := Nat.exists_eq_add_of_le' (Nat.not_lt.1 enough)
        rw [Nat.add_assoc, ← List.replicate_append_replicate, List.append_assoc] at few
        exact few ⟨List.replicate more '\n', first, List.append_assoc _ _ _⟩
      rw [List.cons_append, smooth_lineFeed, if_pos less, ih regular.2.2 noReturn.2 few]
      rfl
    · have later : Regular (d :: (first ++ c :: tail)) := regular
      rw [List.cons_append, smooth_other later (Ne.symm noReturn.1) isFeed,
        ih later.2.2 noReturn.2 fun within => few ?_]
      · rfl
      · exact within.trans ((List.suffix_cons d first).trans (List.suffix_append _ _)).isInfix

/-! ## The extent of lexemes -/

theorem drop_smooth (regular : Regular text) {count : Nat} (within : count ≤ text.length)
    (inLine : ∀ c ∈ text.take count, isEnding c = false) :
    (smooth 0 text).drop count = smooth 0 (text.drop count) := by
  rw [smooth_eq_append regular inLine, List.drop_left' (List.length_take_of_le within)]

theorem arrowBody_smooth (c : Char) (regular : Regular rest) :
    arrowBody c (smooth 0 rest) = arrowBody c rest := by
  rw [arrowBody, arrowBody, takeWhile_smooth (by decide) (by decide) regular]

theorem wordBody_smooth (other : Kind) {isMember : Char → Bool} (noReturn : isMember '\r' = false)
    (noFeed : isMember '\n' = false) (c : Char) (regular : Regular rest) :
    wordBody other isMember c (smooth 0 rest) = wordBody other isMember c rest := by
  rw [wordBody, wordBody, takeWhile_smooth noReturn noFeed regular]

theorem fractionBody_point (rest : List Char) :
    fractionBody ('.' :: rest) =
      if (rest.takeWhile Char.isDigit).isEmpty then 0
      else (rest.takeWhile Char.isDigit).length + 1 := by
  cases rest with
  | nil => rfl
  | cons digit more =>
    rw [fractionBody, List.takeWhile_cons]
    split
    · rw [List.isEmpty_cons, if_neg Bool.false_ne_true, List.length_cons, Nat.add_comm]
    · rfl

theorem fractionBody_of_head? (noPoint : text.head? ≠ some '.') : fractionBody text = 0 := by
  unfold fractionBody
  split
  · exact absurd rfl noPoint
  · rfl

theorem fractionBody_smooth (regular : Regular text) :
    fractionBody (smooth 0 text) = fractionBody text := by
  by_cases point : text.head? = some '.'
  · obtain ⟨rest, rfl⟩ := List.head?_eq_some_iff.1 point
    rw [smooth_other regular (by decide) (by decide), fractionBody_point, fractionBody_point,
      takeWhile_smooth (by decide) (by decide) regular.2.2]
  · rw [fractionBody_of_head? point, fractionBody_of_head?]
    rwa [Ne, head?_smooth regular (by decide)]

theorem numberBody_smooth (regular : Regular text) :
    numberBody (smooth 0 text) = numberBody text := by
  have inLine : ∀ c ∈ text.take (text.takeWhile Char.isDigit).length, isEnding c = false :=
    fun c member => isEnding_of (by decide) (by decide) (Token.mem_take_takeWhile member)
  have within : (text.takeWhile Char.isDigit).length ≤ text.length :=
    (List.takeWhile_prefix _).length_le
  rw [numberBody_eq, numberBody_eq, takeWhile_smooth (by decide) (by decide) regular,
    drop_smooth regular within inLine, fractionBody_smooth (regular.drop _)]

theorem dropWhile_smooth (regular : Regular text) :
    (smooth 0 text).dropWhile (· != '\n') = smooth 0 (text.dropWhile (· != '\n')) := by
  induction text with
  | nil => rfl
  | cons c rest ih =>
    rcases smooth_cases regular 0 with ⟨rfl, same⟩ | ⟨rfl, same⟩ | ⟨noEnding, same⟩
    · rw [same]
      exact ih regular.2.2
    · rw [List.dropWhile_cons_of_neg (by decide), same]
      rfl
    · have goesOn : (c != '\n') = true := bne_iff_ne.2 (ne_of_isEnding noEnding).2
      rw [same, List.dropWhile_cons, List.dropWhile_cons, if_pos goesOn, if_pos goesOn,
        ih regular.2.2]

theorem drop_commentBody_smooth (regular : Regular text) (seen : Nat) :
    (smooth seen text).drop (commentBody (smooth seen text)) =
      smooth 0 (text.drop (commentBody text)) := by
  fun_induction commentBody text generalizing seen with
  | case1 => rfl
  | case2 rest =>
    rw [smooth_other regular (by decide) (by decide),
      smooth_other regular.2.2 (by decide) (by decide)]
    rfl
  | case3 c rest apart ih =>
    have later := ih regular.2.2
    rcases smooth_cases regular seen with ⟨rfl, same⟩ | ⟨rfl, same⟩ | ⟨-, same⟩ <;> rw [same]
    · exact later seen
    · split
      · exact later (seen + 1)
      · exact later seen
    · rw [List.drop_succ_cons, commentBody]
      · exact later 0
      · rintro more rfl slash
        have first := (head?_smooth regular.2.2 (d := '/') (by decide)).1 (by rw [slash]; rfl)
        obtain ⟨more', rfl⟩ := List.head?_eq_some_iff.1 first
        exact apart more' rfl rfl

theorem measure_slash (lineStarts : Bool) (noComment : rest.head? ≠ some '\'') :
    Lexeme.measure lineStarts '/' rest =
      if rest.head? = some '-' then (some (arrowBody '/' rest).1, (arrowBody '/' rest).2)
      else (some .unknown, 0) := by
  rcases rest with _ | ⟨d, rest⟩
  · rfl
  · by_cases dash : d = '-'
    · subst dash
      rfl
    · have noQuote : d ≠ '\'' := fun same => noComment (congrArg some same)
      simp [Lexeme.measure, noQuote, dash]

theorem measure_smooth {lineStarts : Bool} (regular : Regular rest) (noQuote : c ≠ '"')
    (noComment : (Lexeme.measure lineStarts c rest).1 ≠ some .comment) :
    Lexeme.measure lineStarts c (smooth 0 rest) = Lexeme.measure lineStarts c rest := by
  by_cases slash : c = '/'
  · subst slash
    have opener : rest.head? ≠ some '\'' := by
      intro head
      obtain ⟨body, rfl⟩ := List.head?_eq_some_iff.1 head
      exact noComment rfl
    rw [measure_slash lineStarts opener, measure_slash, arrowBody_smooth '/' regular]
    · simp only [head?_smooth regular (show isEnding '-' = false by decide)]
    · rwa [Ne, head?_smooth regular (by decide)]
  unfold Lexeme.measure at noComment ⊢
  dsimp only at noComment ⊢
  split at noComment <;> try rfl
  · exact absurd rfl slash
  · rw [arrowBody_smooth _ regular]
  · rw [arrowBody_smooth _ regular]
  · exact absurd rfl noQuote
  · rw [wordBody_smooth _ (by decide) (by decide) _ regular]
  · split at noComment
    · exact absurd rfl noComment
    · rename_i noApostrophe
      rw [if_neg noApostrophe, if_neg noApostrophe,
        wordBody_smooth _ (by decide) (by decide) _ regular, numberBody_smooth regular]

/-! ## Strings -/

def Spared (string : List Char) : Prop := '\r' ∉ string ∧ ¬['\n', '\n', '\n'] <:+: string

instance (string : List Char) : Decidable (Spared string) := inferInstanceAs (Decidable (_ ∧ _))

theorem stringBody_smooth (regular : Regular rest) (closed : (stringBody rest).1 ≠ .unknown)
    (spared : Spared (rest.take (stringBody rest).2)) :
    stringBody (smooth 0 rest) = stringBody rest ∧
      smooth 0 rest = rest.take (stringBody rest).2 ++ smooth 0 (rest.drop (stringBody rest).2) := by
  obtain ⟨inner, tail, noQuote, rfl⟩ := exists_quote closed
  have first : (inner ++ '"' :: tail).take (inner.length + 1) = inner ++ ['"'] := by
    rw [List.take_length_add_append]
    rfl
  have later : (inner ++ '"' :: tail).drop (inner.length + 1) = tail := by
    rw [List.drop_length_add_append]
    rfl
  rw [stringBody_append noQuote] at spared ⊢
  dsimp only at spared ⊢
  rw [first] at spared ⊢
  have stays : smooth 0 (inner ++ '"' :: tail) = inner ++ '"' :: smooth 0 tail := by
    refine smooth_append_cons regular (fun member => spared.1 (List.mem_append_left _ member))
      (fun within => spared.2 (within.trans ?_)) (by decide)
    exact (List.prefix_append inner ['"']).isInfix
  rw [stays, stringBody_append noQuote, later, List.append_assoc]
  exact ⟨rfl, rfl⟩

/-! ## Lexemes -/

theorem lexemes_smooth_cons (c : Char) (lineStarts : Bool) (regular : Regular rest)
    (spared : (Lexeme.measure lineStarts c rest).1 = some .string →
      Spared (rest.take (Lexeme.measure lineStarts c rest).2))
    (closed : ¬(c = '"' ∧ (Lexeme.measure lineStarts c rest).1 = some .unknown)) :
    ∃ text, lexemes lineStarts (c :: smooth 0 rest) =
        ⟨(Lexeme.measure lineStarts c rest).1, text⟩ ::
          lexemes (Lexeme.linesUp lineStarts (Lexeme.measure lineStarts c rest).1)
            (smooth 0 (rest.drop (Lexeme.measure lineStarts c rest).2)) ∧
      ((Lexeme.measure lineStarts c rest).1 ≠ some .comment →
        c :: rest.take (Lexeme.measure lineStarts c rest).2 = text) := by
  refine Lexeme.lexemes_cons_rewritten (smooth 0) ?_ (dropWhile_smooth regular) fun noComment => ?_
  · rintro body rfl
    exact ⟨smooth_other regular (by decide) (by decide) 0, drop_commentBody_smooth regular.2.2 0⟩
  by_cases quote : c = '"'
  · subst quote
    have opened (rest : List Char) : Lexeme.measure lineStarts '"' rest =
        (some (stringBody rest).1, (stringBody rest).2) := rfl
    rw [opened] at closed spared
    have closed' : (stringBody rest).1 ≠ .unknown := fun unknown => closed ⟨rfl, congrArg some unknown⟩
    have string : (stringBody rest).1 = .string := by
      obtain ⟨inner, tail, noQuote, rfl⟩ := exists_quote closed'
      rw [stringBody_append noQuote]
    obtain ⟨same, stays⟩ := stringBody_smooth regular closed' (spared (congrArg some string))
    rw [opened, opened, same]
    exact ⟨rfl, stays⟩
  · refine ⟨measure_smooth regular quote noComment, smooth_eq_append regular fun d member => ?_⟩
    have measured := Lexeme.measured_measure lineStarts c rest
    rcases measured.mem_body noComment quote d member with name | arrow
    · exact isEnding_of (by decide) (by decide) name
    · exact isEnding_of (by decide) (by decide) arrow

/-- A text reads alike behind line feeds that are not left out, if it stands at the start of a line
there and separators do not count. -/
theorem alike_smooth {lineStarts free : Bool} {seen : Nat} (regular : Regular text)
    (spared : ∀ lexeme ∈ lexemes lineStarts text, lexeme.kind = some .string → Spared lexeme.text)
    (closed : ∀ lexeme ∈ lexemes lineStarts text,
      ¬(lexeme.text.head? = some '"' ∧ lexeme.kind = some .unknown))
    (behind : seen ≠ 0 → free = true ∧ lineStarts = true) :
    Lexeme.Alike free (lexemes lineStarts text) (lexemes lineStarts (smooth seen text)) ∧
      (seen = 0 → ∀ blank, Lexeme.gap blank (lexemes lineStarts text) =
        Lexeme.gap blank (lexemes lineStarts (smooth seen text))) := by
  fun_induction lexemes lineStarts text generalizing free seen with
  | case1 lineStarts =>
    have empty : lexemes lineStarts [] = [] := by rw [lexemes]
    rw [smooth_nil, empty]
    exact ⟨.nil, fun _ _ => rfl⟩
  | case2 lineStarts c rest kind count same ih =>
    obtain ⟨spared, sparedLater⟩ := List.forall_mem_cons.1 spared
    obtain ⟨closed, closedLater⟩ := List.forall_mem_cons.1 closed
    have ih' (free : Bool) (seen : Nat) :=
      @ih free seen (regular.2.2.drop count) sparedLater closedLater
    rcases smooth_cases regular seen with ⟨rfl, stays⟩ | ⟨rfl, stays⟩ | ⟨-, stays⟩ <;> rw [stays]
    · -- A carriage return is a blank before a line feed, and blanks do not count there.
      cases same
      obtain ⟨more, rfl⟩ := List.head?_eq_some_iff.1 (regular.1 rfl)
      refine ⟨.blankLeft (ih' free seen behind).1, fun zero blank => ?_⟩
      subst zero
      rw [smooth_lineFeed, if_pos (by decide), Token.lexemes_lineFeed]
      change Lexeme.gap true (lexemes lineStarts ('\n' :: more)) = (blank && false)
      rw [Token.lexemes_lineFeed, Bool.and_false]
      rfl
    · cases same
      split
      · rw [Token.lexemes_lineFeed]
        have later := (ih' true (seen + 1) fun _ => ⟨rfl, rfl⟩).1
        refine ⟨.cons (fun solid => ?_) (fun other => absurd rfl other) later, fun _ =>
          Lexeme.gap_cons fun blank => ?_⟩
        · cases solid
        · cases blank
      · rename_i enough
        have some : seen ≠ 0 := by omega
        obtain ⟨rfl, rfl⟩ := behind some
        exact ⟨.left rfl (ih' true seen fun _ => ⟨rfl, rfl⟩).1, fun zero => absurd zero some⟩
    · have string : kind = some .string → Spared (rest.take count) := by
        intro string
        obtain ⟨noReturn, few⟩ := spared string
        refine ⟨fun member => noReturn (List.mem_cons_of_mem c member), fun within => few ?_⟩
        exact within.trans (List.suffix_cons c _).isInfix
      have noQuote : ¬(c = '"' ∧ kind = some .unknown) := fun both =>
        closed ⟨congrArg some both.1, both.2⟩
      obtain ⟨text', first, whole⟩ := lexemes_smooth_cons c lineStarts regular.2.2
        (by rwa [same]) (by rwa [same])
      rw [same] at first whole
      rw [first]
      obtain ⟨alike, gaps⟩ := ih' (Kind.freed free kind) 0 (absurd rfl)
      refine ⟨.cons (fun solid => whole ?_) (fun _ => gaps rfl false) alike,
        fun _ => Lexeme.gap_cons fun _ => gaps rfl true⟩
      rintro ⟨⟩
      cases solid

end Lifeline.Repair
