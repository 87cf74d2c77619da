import Lifeline.Proofs.Storyboard.Shape
import Mathlib.Data.List.Induction

/-! Identifiers of names that stand in the place of other names.

What the text of a storyboard shows in the place of a name has the identifier that the name has, if
the shown names differ and resemble the same identifiers: an undeclared name is shown as its own
identifier, and a declared one as its collapsed form. -/

set_option autoImplicit false

namespace Lifeline

open Token (IsIdentifier wordKind keyword?)

theorem identifierLike_of_isIdentifier {word : String} (identifier : IsIdentifier word) :
    identifierLike word = word := by
  have kept : (Text.trim word.toList).map
      (fun c => if Token.isIdentifierChar c then c else '_') = word.toList := by
    rw [(listable_of_isIdentifier identifier).2, List.map_congr_left (g := id), List.map_id]
    exact fun c member => if_pos (identifier.1.2 c member)
  have starts : word.toList.head?.any Token.isIdentifierStart = true := by
    obtain ⟨c, head, start⟩ := identifier.1.1
    rw [Option.mem_def.1 head, Option.any_some, start]
  -- An identifier is no keyword, so nothing is put behind it.
  have free : keyword? (Text.asciiLower word) = none := by
    cases found : keyword? (Text.asciiLower word) with
    | none => rfl
    | some kind =>
      have kinds := identifier.2
      have lower : String.ofList (word.toList.map Char.toLower) = Text.asciiLower word := rfl
      rw [wordKind, lower, found] at kinds
      have without : ∀ pair ∈ Token.keywords, pair.2 ≠ .identifier := by decide
      exact absurd kinds (without _ (Token.keyword?_mem found))
  rw [identifierLike, kept, if_pos starts, String.ofList_toList, free]
  exact if_neg (by simp)

theorem firstFree_of_not_mem {base : String} {taken : List String} (free : base ∉ taken) :
    firstFree base taken 0 = base := by
  rw [firstFree, if_neg]
  · rfl
  · simpa [numbered] using free

theorem firstFree_not_mem (base : String) (taken : List String) :
    firstFree base taken 0 ∉ taken := by
  obtain ⟨further, -, same, free⟩ := firstFree_spec base taken 0
  rwa [same]

namespace Aliases

theorem ofNames_append (first more : List String) :
    ofNames (first ++ more) = more.foldl assign (ofNames first) :=
  List.foldl_append

theorem ofNames_concat (names : List String) (name : String) :
    ofNames (names ++ [name]) = (ofNames names).assign name := by
  rw [ofNames_append]
  rfl

theorem ofNames_concat_of_none {names : List String} {name : String}
    (fresh : (ofNames names).lookup name = none) : ofNames (names ++ [name]) =
      (name, firstFree (identifierLike name) ((ofNames names).map Prod.snd) 0) ::
        ofNames names := by
  rw [ofNames_concat, assign, fresh]

theorem lookup_foldl_assign {aliases : Aliases} {name short : String}
    (found : aliases.lookup name = some short) (more : List String) :
    (more.foldl assign aliases).lookup name = some short := by
  induction more generalizing aliases with
  | nil => exact found
  | cons other more ih =>
    apply ih
    unfold assign
    split
    · exact found
    · rename_i none
      have apart : name ≠ other := by
        rintro rfl
        rw [found] at none
        cases none
      rw [List.lookup_cons, beq_false_of_ne apart]
      exact found

theorem subset_foldl_assign (aliases : Aliases) (more : List String) :
    aliases ⊆ more.foldl assign aliases := by
  induction more generalizing aliases with
  | nil => exact List.Subset.refl _
  | cons other more ih =>
    refine List.Subset.trans ?_ (ih _)
    unfold assign
    split
    · exact List.Subset.refl _
    · exact List.subset_cons_self _ _

theorem fst_mem_of_mem_ofNames {names : List String} :
    ∀ pair ∈ ofNames names, pair.1 ∈ names := by
  induction names using List.reverseRecOn with
  | nil => exact fun _ none => by cases none
  | append_singleton names name ih =>
    rw [ofNames_concat, assign]
    split
    · exact fun pair member => List.mem_append_left _ (ih pair member)
    · refine List.forall_mem_cons.2 ⟨by simp, fun pair member => ?_⟩
      exact List.mem_append_left _ (ih pair member)

theorem identifierLike_mem_ofNames {names : List String} :
    ∀ name ∈ names, identifierLike name ∈ (ofNames names).map Prod.snd := by
  induction names using List.reverseRecOn with
  | nil => exact fun _ none => by cases none
  | append_singleton names name ih =>
    have before : ∀ other ∈ names, identifierLike other ∈
        (ofNames (names ++ [name])).map Prod.snd := fun other member =>
      List.map_subset _ (ofNames_append .. ▸ subset_foldl_assign _ [name]) (ih other member)
    refine List.forall_mem_append.2 ⟨before, fun other single => ?_⟩
    rw [List.mem_singleton.1 single]
    -- A new name gets what it resembles, unless that is taken already.
    cases found : (ofNames names).lookup name with
    | some short =>
      apply before
      obtain ⟨front, back, same, -⟩ := List.lookup_eq_some_iff.1 found
      exact fst_mem_of_mem_ofNames (name, short) (by rw [same]; simp)
    | none =>
      rw [ofNames_concat_of_none found, List.map_cons, List.mem_cons]
      by_cases taken : identifierLike name ∈ (ofNames names).map Prod.snd
      · exact .inr taken
      · exact .inl (firstFree_of_not_mem taken).symm

/-! ## Renaming -/

variable {call : String → String}

theorem lookup_map {aliases : Aliases} {name : String}
    (apart : ∀ pair ∈ aliases, call pair.1 = call name → pair.1 = name) :
    (aliases.map (Prod.map call id)).lookup (call name) = aliases.lookup name := by
  induction aliases with
  | nil => rfl
  | cons pair rest ih =>
    obtain ⟨other, short⟩ := pair
    have later := ih fun pair member => apart pair (List.mem_cons_of_mem _ member)
    rw [List.map_cons, Prod.map_apply, List.lookup_cons, List.lookup_cons, later]
    by_cases same : name = other
    · rw [same, beq_self_eq_true, beq_self_eq_true, id]
    · have same' : call name ≠ call other := fun equal =>
        same (apart _ List.mem_cons_self equal.symm).symm
      rw [beq_false_of_ne same, beq_false_of_ne same']

/-- Names that are called apart, each by what resembles the same or by its own identifier. -/
structure Recalled (names : List String) (call : String → String) : Prop where
  apart : ∀ first ∈ names, ∀ second ∈ names, call first = call second → first = second
  alike : ∀ name ∈ names,
    identifierLike (call name) = identifierLike name ∨ call name = (ofNames names).get name

theorem Recalled.ofNames_map {names : List String} (recalled : Recalled names call)
    {done : List String} (starts : done <+: names) :
    ofNames (done.map call) = (ofNames done).map (Prod.map call id) := by
  -- Identifiers are given in order, so a further name comes in at the end.
  induction done using List.reverseRecOn with
  | nil => rfl
  | append_singleton done name ih =>
    have before := (List.prefix_append done [name]).trans starts
    have member : name ∈ names := starts.subset (by simp)
    have found : ((ofNames done).map (Prod.map call id)).lookup (call name) =
        (ofNames done).lookup name :=
      lookup_map fun pair inside => recalled.apart pair.1
        (before.subset (fst_mem_of_mem_ofNames pair inside)) name member
    have taken : ((ofNames done).map (Prod.map call id)).map Prod.snd =
        (ofNames done).map Prod.snd := by
      rw [List.map_map]
      rfl
    rw [List.map_append, List.map_singleton, ofNames_concat, ofNames_concat, ih before, assign,
      assign, found]
    cases known : (ofNames done).lookup name with
    | some short => rfl
    | none =>
      have same : firstFree (identifierLike (call name)) ((ofNames done).map Prod.snd) 0 =
          firstFree (identifierLike name) ((ofNames done).map Prod.snd) 0 := by
        rcases recalled.alike name member with alike | own
        · rw [alike]
        -- The name is called by the identifier that it gets here, which is free.
        · have given : (ofNames names).get name =
              firstFree (identifierLike name) ((ofNames done).map Prod.snd) 0 := by
            obtain ⟨more, rfl⟩ := starts
            have assigned : (ofNames (done ++ [name])).lookup name =
                some (firstFree (identifierLike name) ((ofNames done).map Prod.snd) 0) := by
              rw [ofNames_concat_of_none known, List.lookup_cons_self]
            rw [get, ofNames_append, lookup_foldl_assign assigned]
            rfl
          rw [own, identifierLike_of_isIdentifier (isIdentifier_get member), given]
          exact firstFree_of_not_mem (firstFree_not_mem _ _)
      dsimp only
      rw [taken, same]
      rfl

theorem Recalled.get_map {names : List String} (recalled : Recalled names call) :
    ∀ name ∈ names, (ofNames (names.map call)).get (call name) = (ofNames names).get name := by
  intro name member
  have found : ((ofNames names).map (Prod.map call id)).lookup (call name) =
      (ofNames names).lookup name :=
    lookup_map fun pair inside =>
      recalled.apart pair.1 (fst_mem_of_mem_ofNames pair inside) name member
  rw [get, recalled.ofNames_map List.prefix_rfl, found, lookup_ofNames member, Option.getD_some]

end Aliases

/-! ## What the text of a storyboard shows -/

namespace Storyboard

variable {board : Storyboard}

theorem call_of_mem : ∀ name ∈ board.actors.names, board.call name = Render.shown name :=
  agreed_declaredAs.resolve

theorem call_of_not_mem {name : String} (mentioned : name ∈ Render.mentionsAll board.actions)
    (undeclared : name ∉ board.actors.names) : board.call name = board.aliases.get name := by
  have none : board.nicknames.lookup (board.aliases.get name) = none := by
    rw [List.lookup_eq_none_iff]
    intro pair member
    rw [nicknames, declaredAs, List.mem_reverse, List.mem_map] at member
    obtain ⟨actor, inside, rfl⟩ := member
    rw [bne_iff_ne]
    intro same
    have equal := Aliases.get_injective (List.mem_append_right _ mentioned)
      (List.mem_append_left _ inside) same
    exact undeclared (equal ▸ inside)
  rw [call, Nicknames.resolve, none, Option.getD_none]

/-- An undeclared name is not shown as an actor is: what an actor resembles is the identifier of an
actor. -/
theorem call_ne_shown {name actor : String} (settled : ∀ name ∈ board.actors.names,
      identifierLike (Render.shown name) = identifierLike name)
    (mentioned : name ∈ Render.mentionsAll board.actions) (undeclared : name ∉ board.actors.names)
    (declared : actor ∈ board.actors.names) : board.call name ≠ Render.shown actor := by
  intro same
  rw [call_of_not_mem mentioned undeclared] at same
  have known : name ∈ board.actors.names ++ Render.mentionsAll board.actions :=
    List.mem_append_right _ mentioned
  have identifier : IsIdentifier (board.aliases.get name) := Aliases.isIdentifier_get known
  -- The shown name is an identifier, which resembles itself, and the actor resembles the same.
  have resembles : identifierLike actor = board.aliases.get name := by
    rw [← settled actor declared, ← same, identifierLike_of_isIdentifier identifier]
  obtain ⟨⟨holder, short⟩, given, holds⟩ :=
    List.mem_map.1 (Aliases.identifierLike_mem_ofNames actor declared)
  have declared' : holder ∈ board.actors.names :=
    Aliases.fst_mem_of_mem_ofNames (holder, short) given
  have given' : (holder, short) ∈ board.aliases := by
    rw [aliases, Aliases.ofNames_append]
    exact Aliases.subset_foldl_assign _ _ given
  have pairs := List.inj_on_of_nodup_map (Aliases.sound_ofNames _).distinct given'
    (Aliases.mem_ofNames known) (holds.trans resembles)
  have equal : holder = name := congrArg Prod.fst pairs
  exact undeclared (equal ▸ declared')

theorem recalled_call (settled : ∀ name ∈ board.actors.names,
      identifierLike (Render.shown name) = identifierLike name)
    (distinct : (board.actors.names.map Render.shown).Nodup) :
    Aliases.Recalled (board.actors.names ++ Render.mentionsAll board.actions) board.call where
  apart first left second right same := by
    have mentioned {name : String} (known : name ∈ board.actors.names ++
        Render.mentionsAll board.actions) (undeclared : name ∉ board.actors.names) :
        name ∈ Render.mentionsAll board.actions :=
      (List.mem_append.1 known).resolve_left undeclared
    by_cases declared : first ∈ board.actors.names <;>
      by_cases declared' : second ∈ board.actors.names
    · rw [call_of_mem first declared, call_of_mem second declared'] at same
      exact List.inj_on_of_nodup_map distinct declared declared' same
    · rw [call_of_mem first declared] at same
      exact absurd same.symm (call_ne_shown settled (mentioned right declared') declared' declared)
    · rw [call_of_mem second declared'] at same
      exact absurd same (call_ne_shown settled (mentioned left declared) declared declared')
    · rw [call_of_not_mem (mentioned left declared) declared,
        call_of_not_mem (mentioned right declared') declared'] at same
      exact Aliases.get_injective left right same
  alike name known := by
    by_cases declared : name ∈ board.actors.names
    · exact .inl (call_of_mem name declared ▸ settled name declared)
    · exact .inr (call_of_not_mem ((List.mem_append.1 known).resolve_left declared) declared)

end Storyboard

end Lifeline
