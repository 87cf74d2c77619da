import Lifeline.Proofs.Storyboard.Alias
import Lifeline.Proofs.Text.Trim
import Lifeline.Text.Word
import Mathlib.Data.List.Chain

/-! Identifiers that consist of word characters.

An identifier goes on with letters, digits, underscores and whole blocks of Japanese characters. All
of them are word characters but seven, which are marks or not assigned. A name without these seven
gets an identifier that is a word also to a reader who knows word characters only. -/

set_option autoImplicit false

namespace Lifeline

namespace Text

theorem inRanges_of_mem {ranges : List (Nat × Nat)}
    (ascending : ranges.Pairwise fun one other => one.1 ≤ other.1) {range : Nat × Nat}
    (member : range ∈ ranges) {code : Nat} (low : range.1 ≤ code) (high : code ≤ range.2) :
    inRanges code ranges = true := by
  induction ranges with
  | nil => cases member
  | cons first rest ih =>
    obtain ⟨least, greatest⟩ := first
    obtain ⟨before, ascending⟩ := List.pairwise_cons.1 ascending
    rw [inRanges, Bool.and_eq_true, Bool.or_eq_true, decide_eq_true_eq, decide_eq_true_eq]
    rcases List.mem_cons.1 member with rfl | later
    · exact ⟨low, .inl high⟩
    · exact ⟨Nat.le_trans (before range later) low, .inr (ih ascending later)⟩

theorem ascending_wordRanges : wordRanges.Pairwise fun one other => one.1 ≤ other.1 := by
  have chain : wordRanges.IsChain fun one other => one.1 ≤ other.1 := by decide +kernel
  have trans : IsTrans (Nat × Nat) fun one other => one.1 ≤ other.1 :=
    ⟨fun _ _ _ => Nat.le_trans⟩
  exact List.isChain_iff_pairwise.1 chain

theorem isWord_of_between {c : Char} (range : Nat × Nat) (member : range ∈ wordRanges)
    (between : range.1 ≤ c.toNat ∧ c.toNat ≤ range.2) : isWord c = true :=
  inRanges_of_mem ascending_wordRanges member between.1 between.2

end Text

namespace Token

/-- The characters that an identifier can go on with and that are no word characters: three code
points that are not assigned, two sound marks, the double hyphen and the middle dot. -/
def illegible : List Char :=
  ['\u3040', '\u3097', '\u3098', '\u309B', '\u309C', '\u30A0', '\u30FB']

/-- Whether a name holds none of these. -/
def Legible (name : String) : Prop := ∀ c ∈ name.toList, c ∉ illegible

instance (name : String) : Decidable (Legible name) :=
  decidable_of_iff (name.toList.all (!illegible.contains ·) = true) (by simp [Legible])

def kanaRanges : List (Nat × Nat) :=
  [(0x3041, 0x3096), (0x3099, 0x309A), (0x309D, 0x309F), (0x30A1, 0x30FA), (0x30FC, 0x30FF)]

theorem exists_kanaRange {c : Char} (kana : 0x3040 ≤ c.toNat ∧ c.toNat ≤ 0x30FF)
    (legible : c ∉ illegible) : ∃ range ∈ kanaRanges, range.1 ≤ c.toNat ∧ c.toNat ≤ range.2 := by
  have other (mark : Char) (listed : mark ∈ illegible) : c.toNat ≠ mark.toNat := fun same =>
    legible (Char.toNat_inj.1 same ▸ listed)
  simp only [illegible, List.forall_mem_cons, Char.reduceToNat] at other
  simp only [kanaRanges, List.exists_mem_cons_iff, List.not_mem_nil, false_and, exists_const]
  omega

theorem isWord_of_isIdentifierChar {c : Char} (char : isIdentifierChar c = true)
    (legible : c ∉ illegible) : Text.isWord c = true := by
  simp only [isIdentifierChar, isJapanese, Bool.or_eq_true, Bool.and_eq_true, decide_eq_true_eq,
    beq_iff_eq] at char
  rcases char with ((letter | digit) | rfl) | kana | ideograph
  · rcases toNat_of_isAlpha letter with upper | lower
    · exact Text.isWord_of_between (0x41, 0x5A) (by decide +kernel) upper
    · exact Text.isWord_of_between (0x61, 0x7A) (by decide +kernel) lower
  · exact Text.isWord_of_between (0x30, 0x39) (by decide +kernel) (Char.isDigit_iff_toNat.1 digit)
  · decide +kernel
  · obtain ⟨range, listed, between⟩ := exists_kanaRange kana legible
    have known : kanaRanges ⊆ Text.wordRanges := by decide +kernel
    exact Text.isWord_of_between range (known listed) between
  · have between : 0x4E00 ≤ c.toNat ∧ c.toNat ≤ 0xA48C := by omega
    exact Text.isWord_of_between (0x4E00, 0xA48C) (by decide +kernel) between

/-- The listed characters are all on which the two kinds of characters differ. -/
theorem mem_illegible_iff {c : Char} :
    c ∈ illegible ↔ isIdentifierChar c = true ∧ Text.isWord c = false := by
  constructor
  · intro listed
    have each : illegible.all (fun c => isIdentifierChar c && !Text.isWord c) = true := by
      decide +kernel
    simpa using List.all_eq_true.1 each c listed
  · rintro ⟨char, noWord⟩
    by_contra legible
    rw [isWord_of_isIdentifierChar char legible] at noWord
    cases noWord

end Token

/-! ## Characters of identifiers -/

section Characters

variable {fits : Char → Prop}

theorem forall_identifierLike (underscore : fits '_') {name : String}
    (each : ∀ c ∈ name.toList, fits c) : ∀ c ∈ (identifierLike name).toList, fits c := by
  have kept : ∀ c ∈ (Text.trim name.toList).map
      (fun c => if Token.isIdentifierChar c then c else '_'), fits c := by
    intro c member
    obtain ⟨d, inside, rfl⟩ := List.mem_map.1 member
    obtain ⟨lead, trail, cut, -⟩ := Text.exists_trim name.toList
    split
    · exact each d (cut ▸ List.mem_append_right lead (List.mem_append_left trail inside))
    · exact underscore
  unfold identifierLike
  dsimp only
  generalize (Text.trim name.toList).map _ = base at kept ⊢
  have started : ∀ c ∈ if base.head?.any Token.isIdentifierStart then base else '_' :: base,
      fits c := by
    split
    · exact kept
    · exact List.forall_mem_cons.2 ⟨underscore, kept⟩
  generalize (if base.head?.any Token.isIdentifierStart then base else '_' :: base) = base at *
  split
  · rw [String.toList_push, String.toList_ofList]
    exact List.forall_mem_append.2 ⟨started, List.forall_mem_singleton.2 underscore⟩
  · rwa [String.toList_ofList]

theorem forall_numbered (underscore : fits '_') (digit : ∀ c, c.isDigit = true → fits c)
    {base : String} (each : ∀ c ∈ base.toList, fits c) (count : Nat) :
    ∀ c ∈ (numbered base count).toList, fits c := by
  unfold numbered
  split
  · exact each
  · rw [String.toList_append, String.toList_append]
    refine List.forall_mem_append.2 ⟨List.forall_mem_append.2 ⟨each, ?_⟩, fun c member => ?_⟩
    · exact List.forall_mem_singleton.2 underscore
    · have inside : c ∈ Nat.toDigits 10 (count + 1) := by simpa using member
      exact digit c (Nat.isDigit_of_mem_toDigits (by decide) (by decide) inside)

theorem Aliases.forall_assign (underscore : fits '_') (digit : ∀ c, c.isDigit = true → fits c)
    {aliases : Aliases} (each : ∀ pair ∈ aliases, ∀ c ∈ pair.2.toList, fits c) {name : String}
    (name_fits : ∀ c ∈ name.toList, fits c) :
    ∀ pair ∈ aliases.assign name, ∀ c ∈ pair.2.toList, fits c := by
  unfold Aliases.assign
  split
  · exact each
  · obtain ⟨further, -, same, -⟩ := firstFree_spec (identifierLike name) (aliases.map Prod.snd) 0
    rw [same]
    have like := forall_identifierLike underscore name_fits
    exact List.forall_mem_cons.2 ⟨forall_numbered underscore digit like further, each⟩

theorem Aliases.forall_get (underscore : fits '_') (digit : ∀ c, c.isDigit = true → fits c)
    {names : List String} (each : ∀ name ∈ names, ∀ c ∈ name.toList, fits c) {name : String}
    (member : name ∈ names) : ∀ c ∈ ((ofNames names).get name).toList, fits c := by
  have all (aliases : Aliases) (before : ∀ pair ∈ aliases, ∀ c ∈ pair.2.toList, fits c) :
      ∀ pair ∈ names.foldl assign aliases, ∀ c ∈ pair.2.toList, fits c := by
    clear member
    induction names generalizing aliases with
    | nil => exact before
    | cons first rest ih =>
      obtain ⟨first_fits, rest_fit⟩ := List.forall_mem_cons.1 each
      exact ih rest_fit _ (forall_assign underscore digit before first_fits)
  exact all [] (fun _ none => by cases none) _ (mem_ofNames member)

end Characters

theorem Aliases.isWord_get {names : List String}
    (legible : ∀ name ∈ names, Token.Legible name) {name : String} (member : name ∈ names) :
    ∀ c ∈ ((ofNames names).get name).toList, Text.isWord c = true := by
  have digit (c : Char) (digit : c.isDigit = true) : c ∉ Token.illegible := by
    have none : Token.illegible.all (!Char.isDigit ·) = true := by decide
    intro listed
    simpa [digit] using List.all_eq_true.1 none c listed
  have kept : ∀ c ∈ ((ofNames names).get name).toList, c ∉ Token.illegible :=
    forall_get (by decide) digit legible member
  intro c inside
  exact Token.isWord_of_isIdentifierChar ((isIdentifier_get member).1.2 c inside) (kept c inside)

end Lifeline
