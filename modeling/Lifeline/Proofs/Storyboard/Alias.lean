import Lifeline.Storyboard.Alias
import Lifeline.Proofs.Token.Lexed
import Mathlib.Data.List.Nodup

/-! Identifiers for names are distinct, and can be read back.

The identifier of a name is a word of the language and no keyword: it spells none, or holds an
underscore, which no keyword does. Names that have one keep it, and no two names share one. -/

set_option autoImplicit false

namespace Lifeline

open Token (IsWord IsIdentifier isIdentifierChar isIdentifierStart wordKind keyword?)

theorem keyword?_of_underscore {word : String} (underscore : '_' ∈ word.toList) :
    keyword? word = none := by
  cases found : keyword? word with
  | none => rfl
  | some kind =>
    have listed := Token.keyword?_mem found
    have without : ∀ pair ∈ Token.keywords, '_' ∉ pair.1.toList := by decide
    exact absurd underscore (without _ listed)

theorem wordKind_of_keyword? {word : String} (none : keyword? (Text.asciiLower word) = none) :
    wordKind word.toList = .identifier := by
  rw [wordKind, show String.ofList (word.toList.map Char.toLower) = Text.asciiLower word from rfl,
    none]
  rfl

theorem isIdentifier_of_underscore {word : String} (isWord : IsWord word.toList)
    (underscore : '_' ∈ word.toList) : IsIdentifier word := by
  refine ⟨isWord, wordKind_of_keyword? (keyword?_of_underscore ?_)⟩
  rw [Text.asciiLower, String.toList_ofList]
  exact List.mem_map.2 ⟨'_', underscore, rfl⟩

theorem isWord_append {word rest : List Char} (isWord : IsWord word)
    (members : ∀ c ∈ rest, isIdentifierChar c = true) : IsWord (word ++ rest) := by
  obtain ⟨⟨c, head, start⟩, inside⟩ := isWord
  refine ⟨⟨c, ?_, start⟩, fun d member => ?_⟩
  · obtain ⟨tail, rfl⟩ := List.head?_eq_some_iff.1 head
    rfl
  · rcases List.mem_append.1 member with first | later
    · exact inside d first
    · exact members d later

theorem isWord_started {kept : List Char} (members : ∀ c ∈ kept, isIdentifierChar c = true) :
    IsWord (if kept.head?.any isIdentifierStart then kept else '_' :: kept) := by
  split
  · rename_i starts
    obtain ⟨c, head, start⟩ := (Option.any_eq_true _ _).1 starts
    exact ⟨⟨c, head, start⟩, members⟩
  · refine ⟨⟨'_', rfl, by decide⟩, fun c member => ?_⟩
    rcases List.mem_cons.1 member with rfl | later
    · decide
    · exact members c later

theorem isIdentifier_identifierLike (name : String) : IsIdentifier (identifierLike name) := by
  unfold identifierLike
  dsimp only
  generalize cut :
    (Text.trim name.toList).map (fun c => if isIdentifierChar c then c else '_') = kept
  have members : ∀ c ∈ kept, isIdentifierChar c = true := by
    intro c member
    rw [← cut] at member
    obtain ⟨d, -, rfl⟩ := List.mem_map.1 member
    split
    · assumption
    · decide
  have isWord := isWord_started members
  generalize (if kept.head?.any isIdentifierStart then kept else '_' :: kept) = base at *
  -- A keyword gets an underscore at its end, and no keyword holds one.
  split
  · have pushed : (String.push (String.ofList base) '_').toList = base ++ ['_'] := by
      rw [String.toList_push, String.toList_ofList]
    apply isIdentifier_of_underscore
    · rw [pushed]
      exact isWord_append isWord (by simp; decide)
    · rw [pushed]
      simp
  · rename_i noKeyword
    have none : keyword? (Text.asciiLower (String.ofList base)) = none := by simpa using noKeyword
    exact ⟨by rwa [String.toList_ofList], wordKind_of_keyword? none⟩

/-! ## Numbers -/

theorem isIdentifier_numbered {base : String} (identifier : IsIdentifier base) (count : Nat) :
    IsIdentifier (numbered base count) := by
  unfold numbered
  split
  · exact identifier
  · have digits : (base ++ "_" ++ toString (count + 1)).toList =
        base.toList ++ ('_' :: Nat.toDigits 10 (count + 1)) := by
      simp
    apply isIdentifier_of_underscore
    · rw [digits]
      apply isWord_append identifier.1
      intro c member
      rcases List.mem_cons.1 member with rfl | later
      · decide
      · have digit := Nat.isDigit_of_mem_toDigits (by decide) (by decide) later
        simp [isIdentifierChar, digit]
    · rw [digits]
      simp

theorem numbered_injective {base : String} {first second : Nat}
    (same : numbered base first = numbered base second) : first = second := by
  have length (count : Nat) : count ≠ 0 →
      (numbered base count).toList = base.toList ++ ('_' :: Nat.toDigits 10 (count + 1)) := by
    intro positive
    rw [numbered, if_neg positive]
    simp
  have lists := congrArg String.toList same
  by_cases first_zero : first = 0 <;> by_cases second_zero : second = 0
  · rw [first_zero, second_zero]
  · rw [length second second_zero, first_zero] at lists
    simp [numbered] at lists
  · rw [length first first_zero, second_zero] at lists
    simp [numbered] at lists
  · rw [length first first_zero, length second second_zero, List.append_cancel_left_eq] at lists
    have numbers := congrArg (Nat.ofDigitChars 10 · 0) (List.cons.inj lists).2
    rw [Nat.ofDigitChars_ten_toDigits, Nat.ofDigitChars_ten_toDigits] at numbers
    exact Nat.succ.inj numbers

theorem firstFree_spec (base : String) (taken : List String) (count : Nat) :
    ∃ further, count ≤ further ∧ firstFree base taken count = numbered base further ∧
      numbered base further ∉ taken := by
  fun_induction firstFree base taken count with
  | case1 taken count found ih =>
    obtain ⟨further, later, same, free⟩ := ih
    refine ⟨further, by omega, same, fun member => free ?_⟩
    -- The name that was struck out has a smaller number, so it is not the one found later.
    have apart : numbered base further ≠ numbered base count := fun equal => by
      have counts := numbered_injective equal
      omega
    exact (List.mem_erase_of_ne apart).2 member
  | case2 taken count free =>
    exact ⟨count, Nat.le_refl _, rfl, by simpa using free⟩

/-! ## All names at once -/

namespace Aliases

/-- Aliases that can stand for their names. -/
structure Sound (aliases : Aliases) : Prop where
  identifiers : ∀ pair ∈ aliases, IsIdentifier pair.2
  distinct : (aliases.map Prod.snd).Nodup

theorem Sound.assign {aliases : Aliases} (sound : aliases.Sound) (name : String) :
    (aliases.assign name).Sound := by
  unfold Aliases.assign
  split
  · exact sound
  · obtain ⟨further, -, same, free⟩ := firstFree_spec (identifierLike name)
      (aliases.map Prod.snd) 0
    rw [same]
    refine ⟨fun pair member => ?_, List.nodup_cons.2 ⟨free, sound.distinct⟩⟩
    rcases List.mem_cons.1 member with rfl | later
    · exact isIdentifier_numbered (isIdentifier_identifierLike name) further
    · exact sound.identifiers pair later

theorem isSome_lookup_assign {aliases : Aliases} {name other : String}
    (known : (aliases.lookup other).isSome = true ∨ other = name) :
    ((aliases.assign name).lookup other).isSome = true := by
  unfold assign
  split
  · rename_i alias_eq found
    rcases known with known | rfl
    · exact known
    · simp [found]
  · rw [List.lookup_cons]
    split
    · rfl
    · rename_i apart
      rcases known with known | rfl
      · exact known
      · simp at apart

theorem foldl_assign (names : List String) (aliases : Aliases) (sound : aliases.Sound) :
    (names.foldl assign aliases).Sound ∧ ∀ name,
      (aliases.lookup name).isSome = true ∨ name ∈ names →
        ((names.foldl assign aliases).lookup name).isSome = true := by
  induction names generalizing aliases with
  | nil => exact ⟨sound, fun name known => by simpa using known⟩
  | cons first rest ih =>
    obtain ⟨sound', all⟩ := ih (aliases.assign first) (sound.assign first)
    refine ⟨sound', fun name known => all name ?_⟩
    rcases known with known | member
    · exact .inl (isSome_lookup_assign (.inl known))
    · rcases List.mem_cons.1 member with rfl | later
      · exact .inl (isSome_lookup_assign (.inr rfl))
      · exact .inr later

theorem sound_ofNames (names : List String) : (ofNames names).Sound :=
  (foldl_assign names [] ⟨by simp, by simp⟩).1

theorem lookup_ofNames {names : List String} {name : String} (member : name ∈ names) :
    (ofNames names).lookup name = some ((ofNames names).get name) := by
  have known := (foldl_assign names [] ⟨by simp, by simp⟩).2 name (.inr member)
  obtain ⟨short, found⟩ := Option.isSome_iff_exists.1 known
  have found : (ofNames names).lookup name = some short := found
  rw [get, found, Option.getD_some]

theorem mem_ofNames {names : List String} {name : String} (member : name ∈ names) :
    (name, (ofNames names).get name) ∈ ofNames names := by
  obtain ⟨before, after, same, -⟩ := List.lookup_eq_some_iff.1 (lookup_ofNames member)
  exact List.mem_iff_append.2 ⟨before, after, same⟩

theorem isIdentifier_get {names : List String} {name : String} (member : name ∈ names) :
    IsIdentifier ((ofNames names).get name) :=
  (sound_ofNames names).identifiers _ (mem_ofNames member)

theorem get_injective {names : List String} {first second : String} (left : first ∈ names)
    (right : second ∈ names) (same : (ofNames names).get first = (ofNames names).get second) :
    first = second := by
  have pairs := List.inj_on_of_nodup_map (sound_ofNames names).distinct (mem_ofNames left)
    (mem_ofNames right) same
  exact congrArg Prod.fst pairs

end Aliases

end Lifeline
