import Lifeline.Proofs.Storyboard.Renaming
import Lifeline.Proofs.Token.Tiling

/-! Identifiers that names are given one after the other.

A text asks for the identifier of a name wherever it mentions the name. What it gets depends on the names
before, but never changes: it is the first form of what the name resembles that no other name has. -/

set_option autoImplicit false

namespace Lifeline

open Token (IsIdentifier lexemes placed)

namespace Token

theorem tokenize_of_isIdentifier {word : String} (identifier : IsIdentifier word) :
    ∃ last, (tokenize word).tokens = [.new .identifier word 1 1 0, last] ∧ last.kind = .eof ∧
      (tokenize word).issues = [] := by
  have lexed : lexemes true word.toList = [⟨some .identifier, word.toList⟩] := by
    have ends : EndsWord [] := nofun
    have whole := lexemes_word identifier.1 true ends
    rwa [List.append_nil, identifier.2, show lexemes false [] = [] by rw [lexemes]] at whole
  have one : placed .start (lexemes true word.toList) = [.new .identifier word 1 1 0] := by
    rw [lexed, placed_token, placed_nil, String.ofList_toList]
    rfl
  rw [tokens_tokenize, issues_tokenize, one]
  exact ⟨_, rfl, rfl, rfl⟩

end Token

/-- The search goes through the numbers one by one, and finds a free identifier before it has come upon
more than are taken. -/
theorem firstFree_least (base : String) (taken : List String) (count : Nat) :
    ∃ further, count ≤ further ∧ further ≤ count + taken.length ∧
      firstFree base taken count = numbered base further ∧ numbered base further ∉ taken ∧
      ∀ earlier, count ≤ earlier → earlier < further → numbered base earlier ∈ taken := by
  fun_induction firstFree base taken count with
  | case1 taken count found ih =>
    -- What is found taken is not looked at again, as every number is tried once.
    have member : numbered base count ∈ taken := by simpa using found
    obtain ⟨further, later, bound, same, free, passed⟩ := ih
    rw [List.length_erase_of_mem member] at bound
    have some := List.length_pos_of_mem member
    refine ⟨further, by omega, by omega, same, fun inside => free ?_, fun earlier from' before => ?_⟩
    · have apart : numbered base further ≠ numbered base count := fun equal => by
        have counts := numbered_injective equal
        omega
      exact (List.mem_erase_of_ne apart).2 inside
    · rcases Nat.eq_or_lt_of_le from' with rfl | beyond
      · exact member
      · exact List.mem_of_mem_erase (passed earlier beyond before)
  | case2 taken count free =>
    exact ⟨count, Nat.le_refl _, Nat.le_add_right _ _, rfl, by simpa using free, by omega⟩

namespace Aliases

variable {before more names : List String} {name : String}

def askAll (aliases : Aliases) : List String → List String
  | [] => []
  | name :: rest => (aliases.assign name).get name :: askAll (aliases.assign name) rest

theorem get_ofNames_append (member : name ∈ before) (more : List String) :
    (ofNames (before ++ more)).get name = (ofNames before).get name := by
  have found := lookup_foldl_assign (lookup_ofNames member) more
  rw [← ofNames_append] at found
  rw [get, found, Option.getD_some]

theorem askAll_ofNames (before names : List String) :
    askAll (ofNames before) names = names.map (ofNames (before ++ names)).get := by
  induction names generalizing before with
  | nil => rfl
  | cons name rest ih =>
    have asked : name ∈ before ++ [name] := by simp
    have now := get_ofNames_append asked rest
    have later := ih (before ++ [name])
    rw [ofNames_concat] at now later
    rw [List.append_assoc, List.singleton_append] at now later
    rw [askAll, List.map_cons, now, later]

/-! ## Search -/

theorem lookup_of_mem_ofNames {names : List String} :
    ∀ pair ∈ ofNames names, (ofNames names).lookup pair.1 = some pair.2 := by
  induction names using List.reverseRecOn with
  | nil => exact fun _ none => by cases none
  | append_singleton names name ih =>
    rw [ofNames_concat, assign]
    split
    · exact ih
    · rename_i none
      refine List.forall_mem_cons.2 ⟨List.lookup_cons_self, fun pair member => ?_⟩
      have apart : pair.1 ≠ name := by
        rintro rfl
        rw [ih pair member] at none
        cases none
      rw [List.lookup_cons, beq_false_of_ne apart]
      exact ih pair member

theorem mem_taken_iff {short : String} :
    short ∈ (ofNames names).map Prod.snd ↔ short ∈ names.map (ofNames names).get := by
  rw [List.mem_map, List.mem_map]
  constructor
  · rintro ⟨pair, member, rfl⟩
    refine ⟨pair.1, fst_mem_of_mem_ofNames pair member, ?_⟩
    rw [get, lookup_of_mem_ofNames pair member, Option.getD_some]
  · rintro ⟨name, member, rfl⟩
    exact ⟨_, mem_ofNames member, rfl⟩

theorem length_ofNames_le (names : List String) : (ofNames names).length ≤ names.length := by
  induction names using List.reverseRecOn with
  | nil => exact Nat.le_refl _
  | append_singleton names name ih =>
    rw [ofNames_concat, assign, List.length_append, List.length_singleton]
    split
    · exact Nat.le_succ_of_le ih
    · exact Nat.succ_le_succ ih

theorem get_of_new (fresh : name ∉ before) (after : List String) :
    ∃ count, count ≤ before.length ∧
      (ofNames (before ++ name :: after)).get name = numbered (identifierLike name) count ∧
      numbered (identifierLike name) count ∉ before.map (ofNames before).get ∧
      ∀ earlier < count, numbered (identifierLike name) earlier ∈ before.map (ofNames before).get := by
  have none : (ofNames before).lookup name = none := by
    cases found : (ofNames before).lookup name with
    | none => rfl
    | some short =>
      obtain ⟨front, back, same, -⟩ := List.lookup_eq_some_iff.1 found
      exact absurd (fst_mem_of_mem_ofNames (name, short) (by rw [same]; simp)) fresh
  obtain ⟨count, -, bound, same, free, passed⟩ :=
    firstFree_least (identifierLike name) ((ofNames before).map Prod.snd) 0
  rw [List.length_map, Nat.zero_add] at bound
  refine ⟨count, bound.trans (length_ofNames_le before), ?_, mem_taken_iff.not.1 free,
    fun earlier less => mem_taken_iff.1 (passed earlier (Nat.zero_le _) less)⟩
  have asked : name ∈ before ++ [name] := by simp
  have given := get_ofNames_append asked after
  rw [List.append_assoc, List.singleton_append, ofNames_concat_of_none none] at given
  rw [given, get, List.lookup_cons_self, Option.getD_some, same]

/-- However names follow one another, a name gets the same identifier every time it is asked for, no other
name gets that one, and it is read as one identifier. It is the first form of what the name resembles that
the names before have not been given, and it has a number that is not beyond theirs. -/
theorem identifiers_of_names (names : List String) :
    ∃ identifier : String → String, askAll [] names = names.map identifier ∧
      (∀ first ∈ names, ∀ second ∈ names, identifier first = identifier second → first = second) ∧
      (∀ name ∈ names, ∃ last,
        (tokenize (identifier name)).tokens = [.new .identifier (identifier name) 1 1 0, last] ∧
          last.kind = .eof ∧ (tokenize (identifier name)).issues = []) ∧
      ∀ before name after, names = before ++ name :: after → name ∉ before →
        ∃ count, count ≤ before.length ∧
          identifier name = numbered (identifierLike name) count ∧
          numbered (identifierLike name) count ∉ before.map identifier ∧
          ∀ earlier < count, numbered (identifierLike name) earlier ∈ before.map identifier := by
  refine ⟨(ofNames names).get, askAll_ofNames [] names, fun first left second right same =>
    get_injective left right same, fun name member => ?_, ?_⟩
  · exact Token.tokenize_of_isIdentifier (isIdentifier_get member)
  · rintro before name after rfl fresh
    have given : before.map (ofNames (before ++ name :: after)).get = before.map (ofNames before).get :=
      List.map_congr_left fun other member => get_ofNames_append member _
    rw [given]
    exact get_of_new fresh after

/-- A name can resemble what another one was given with a number, or a keyword. -/
def resembling : List String := ["A B", "A-B", "A_B_2", "end", "A B"]

theorem identifiers_of_names_resembling :
    askAll [] resembling = ["A_B", "A_B_2", "A_B_2_2", "end_", "A_B"] ∧
      ∃ identifier : String → String, askAll [] resembling = resembling.map identifier ∧
        ("A B" ∈ resembling ∧ "A-B" ∈ resembling ∧ identifier "A B" ≠ identifier "A-B") ∧
        ("end" ∈ resembling ∧ ∃ last,
          (tokenize (identifier "end")).tokens = [.new .identifier (identifier "end") 1 1 0, last] ∧
            last.kind = .eof ∧ (tokenize (identifier "end")).issues = []) ∧
        (resembling = ["A B", "A-B"] ++ "A_B_2" :: ["end", "A B"] ∧ "A_B_2" ∉ ["A B", "A-B"] ∧
          ∃ count ≤ 2, identifier "A_B_2" = numbered (identifierLike "A_B_2") count) := by
  obtain ⟨identifier, asked, apart, lexed, least⟩ := identifiers_of_names resembling
  obtain ⟨count, bound, same, -, -⟩ := least ["A B", "A-B"] "A_B_2" ["end", "A B"] rfl (by decide)
  exact ⟨by decide +kernel, identifier, asked,
    ⟨by decide, by decide, fun same => absurd (apart _ (by decide) _ (by decide) same) (by decide)⟩,
    ⟨by decide, lexed "end" (by decide)⟩, rfl, by decide, count, bound, same⟩

end Aliases

end Lifeline
