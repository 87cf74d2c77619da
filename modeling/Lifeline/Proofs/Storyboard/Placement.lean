import Lifeline.Storyboard.Projection
import Lifeline.Storyboard.Render
import Lifeline.Proofs.Diagram.Note
import Lifeline.Proofs.Text.Lines
import Lifeline.Proofs.Text.Trim
import Mathlib.Data.List.Basic

/-! Where notes stand, in words and back.

A position names participants with a comma and a space between them. Cut at the commas and trimmed,
the pieces are the names again; so a position that is written can be read, and what is read back is
the position with every name replaced by what it stands for. -/

set_option autoImplicit false

namespace Lifeline

open Text (isBlank trim split)
open Token (Lexed IsIdentifier isIdentifierChar)

/-! ## Names between commas -/

def namesIn (text : List Char) : List String :=
  (split (· == ',') text).map fun piece => String.ofList (trim piece)

theorem trim_space (text : List Char) : trim (' ' :: text) = trim text := by
  rw [trim, List.dropWhile_cons_of_pos (by decide), trim]

/-- Names as a list of them can hold: without commas and blanks at their ends. -/
def Listable (name : String) : Prop := ',' ∉ name.toList ∧ trim name.toList = name.toList

theorem Listable.noCut {name : String} (listable : Listable name) :
    ∀ c ∈ name.toList, (c == ',') = false := by
  intro c inside
  have apart : c ≠ ',' := fun same => listable.1 (same ▸ inside)
  simpa using apart

theorem namesIn_furtherText {rest : List String} (listable : ∀ name ∈ rest, Listable name)
    {start : List Char} (noCut : ∀ c ∈ start, (c == ',') = false) :
    namesIn (start ++ Leaf.furtherText rest) = String.ofList (trim start) :: rest := by
  induction rest generalizing start with
  | nil =>
    rw [namesIn, Leaf.furtherText, List.flatMap_nil, List.append_nil, Text.split_of_not_mem noCut]
    rfl
  | cons name rest ih =>
    have first := listable name List.mem_cons_self
    have apart : Leaf.furtherText (name :: rest) =
        ',' :: (' ' :: name.toList ++ Leaf.furtherText rest) := by
      simp [Leaf.furtherText]
    have noCut' : ∀ c ∈ ' ' :: name.toList, (c == ',') = false := by
      intro c inside
      rcases List.mem_cons.1 inside with rfl | later
      · rfl
      · exact first.noCut c later
    have later := ih (fun other member => listable other (List.mem_cons_of_mem name member)) noCut'
    rw [trim_space, first.2, String.ofList_toList] at later
    rw [namesIn, apart, Text.split_append_cons noCut rfl, List.map_cons, ← namesIn, later]

theorem toList_names (first : String) (rest : List String) :
    (", ".intercalate (first :: rest)).toList = first.toList ++ Leaf.furtherText rest := by
  rw [String.toList_intercalate, List.map_cons, Text.intercalate_cons_eq_flatMap, List.flatMap_map]
  rfl

theorem namesIn_intercalate {first : String} {rest : List String}
    (listable : ∀ name ∈ first :: rest, Listable name) :
    namesIn (", ".intercalate (first :: rest)).toList = first :: rest := by
  have head := listable first List.mem_cons_self
  rw [toList_names, namesIn_furtherText
    (fun other member => listable other (List.mem_cons_of_mem first member)) head.noCut, head.2,
    String.ofList_toList]

theorem namesIn_append_of_isBlank (text : List Char) {trail : List Char}
    (blank : ∀ c ∈ trail, isBlank c = true) : namesIn (text ++ trail) = namesIn text := by
  have without : ∀ c ∈ trail, (c == ',') = false := by
    intro c member
    rw [beq_eq_false_iff_ne]
    rintro rfl
    exact absurd (blank ',' member) (by decide)
  obtain ⟨pieces, last, same, same'⟩ := Text.split_append_of_not_mem without text
  rw [namesIn, namesIn, same, same', List.map_append, List.map_append, List.map_singleton,
    List.map_singleton, Text.trim_append_of_isBlank last blank]

theorem listable_of_mem_namesIn {text : List Char} {name : String} (member : name ∈ namesIn text) :
    Listable name := by
  obtain ⟨piece, inside, rfl⟩ := List.mem_map.1 member
  obtain ⟨lead, trail, same, -, -⟩ := Text.exists_trim piece
  have noCut := Text.not_mem_of_mem_split inside
  rw [Listable, String.toList_ofList]
  refine ⟨fun comma => ?_, Text.trim_trim piece⟩
  have within : ',' ∈ piece := by
    rw [same]
    simp [comma]
  exact absurd (noCut ',' within) (by decide)

theorem trim_names {names : List String} (some : names ≠ [])
    (listable : ∀ name ∈ names, Listable name) (named : names ≠ [""]) :
    trim (", ".intercalate names).toList ≠ [] := by
  obtain ⟨first, rest, rfl⟩ := List.exists_cons_of_ne_nil some
  intro none
  have blank := Text.isBlank_of_trim none
  rw [toList_names] at none blank
  cases rest with
  | nil =>
    rw [Leaf.furtherText, List.flatMap_nil, List.append_nil,
      (listable first List.mem_cons_self).2, String.toList_eq_nil_iff] at none
    exact named (none ▸ rfl)
  | cons second rest => exact absurd (blank ',' (by simp [Leaf.furtherText])) (by decide)

theorem isBlank_of_namesIn {text : List Char} (single : namesIn text = [""]) :
    ∀ c ∈ text, isBlank c = true := by
  rw [namesIn, List.map_eq_singleton_iff] at single
  obtain ⟨piece, same, none⟩ := single
  rw [Text.eq_of_split_eq_singleton same]
  exact Text.isBlank_of_trim (by simpa using congrArg String.toList none)

theorem listable_of_isIdentifier {name : String} (identifier : IsIdentifier name) :
    Listable name := by
  have members := identifier.1.2
  refine ⟨fun comma => absurd (members ',' comma) (by decide), ?_⟩
  apply Text.trim_of_ends
  · intro c head
    exact Token.isBlank_of_isIdentifierChar (members c (List.mem_of_mem_head? head))
  · intro c last
    exact Token.isBlank_of_isIdentifierChar (members c (List.mem_of_getLast? last))

theorem Nicknames.resolveAll_intercalate (nicknames : Nicknames) {first : String}
    {rest : List String} (listable : ∀ name ∈ first :: rest, Listable name) :
    nicknames.resolveAll (", ".intercalate (first :: rest)) =
      ", ".intercalate ((first :: rest).map nicknames.resolve) := by
  rw [← congrArg (List.map nicknames.resolve) (namesIn_intercalate listable), namesIn, List.map_map]
  rfl

/-! ## Positions -/

theorem eq_space_of_toLower {c : Char} (same : c.toLower = ' ') : c = ' ' := by
  unfold Char.toLower at same
  split at same
  · rename_i upper
    have code := congrArg Char.val same
    grind
  · exact same

namespace Render.Placement

def named (call : String → String) : Placement → String
  | .near words names => words ++ ", ".intercalate (names.map call)
  | .plain words => words

/-- Whether a note can stand there, when some names are declared. -/
def Stands (declared : List String) : Placement → Prop
  | .near words names => words ∈ placements ∧ names ≠ [] ∧ ∀ name ∈ names, name ∈ declared
  | .plain words => words = "left" ∨ words = "right"

theorem Stands.named_congr {declared : List String} {placement : Placement}
    (stands : placement.Stands declared) {first second : String → String}
    (same : ∀ name ∈ declared, first name = second name) :
    placement.named first = placement.named second := by
  cases placement with
  | plain words => rfl
  | near words names =>
    rw [named, named, List.map_congr_left fun name member => same name (stands.2.2 name member)]

theorem ofPosition_near {words : String} (listed : words ∈ placements) {names : List String}
    (some : names ≠ []) (listable : ∀ name ∈ names, Listable name) (named : names ≠ [""]) :
    ofPosition (words ++ ", ".intercalate names) = .near words names := by
  -- An empty name at the end leaves a blank there, which belongs to no name.
  have solid := trim_names some listable named
  have read : namesIn (", ".intercalate names).toList = names := by
    obtain ⟨first, rest, rfl⟩ := List.exists_cons_of_ne_nil some
    exact namesIn_intercalate listable
  unfold ofPosition
  dsimp only
  rw [String.toList_append]
  generalize (", ".intercalate names).toList = text at solid read ⊢
  obtain ⟨lead, trail, same, -, blank⟩ := Text.exists_trim text
  rw [← List.append_assoc] at same
  have ends : ∀ c ∈ (words.toList ++ (lead ++ trim text)).getLast?, isBlank c = false := by
    rw [← List.append_assoc, List.getLast?_append_of_ne_nil _ solid]
    exact Text.getLast?_trim text
  have whole : trim (words.toList ++ text) = words.toList ++ (lead ++ trim text) := by
    rw [same, ← List.append_assoc, Text.trim_append_of_isBlank _ blank, ← same]
    apply Text.trim_of_ends _ ends
    simp only [placements, List.mem_cons, List.not_mem_nil, or_false] at listed
    rcases listed with rfl | rfl | rfl <;> rintro c ⟨⟩ <;> decide
  -- No placement starts another one, so the words that are found are those that were written.
  have found : placements.find? (fun other => other.toList.isPrefixOf
      ((words.toList ++ (lead ++ trim text)).map Char.toLower)) = words := by
    rw [List.map_append]
    simp only [placements, List.mem_cons, List.not_mem_nil, or_false] at listed
    rcases listed with rfl | rfl | rfl <;> rfl
  rw [same, namesIn_append_of_isBlank _ blank] at read
  rw [whole, found]
  dsimp only
  rw [← String.length_toList, List.drop_left, ← namesIn, read]

theorem ofPosition_plain {words : String} (beside : words = "left" ∨ words = "right") :
    ofPosition words = .plain words := by
  rcases beside with rfl | rfl <;> decide +kernel

theorem not_blank_after {words : String} (listed : words ∈ placements) {position : List Char}
    (starts : words.toList <+: (trim position).map Char.toLower)
    (blank : ∀ c ∈ (trim position).drop words.length, isBlank c = true) : False := by
  have ends := Text.getLast?_trim position
  generalize trim position = text at starts blank ends
  have whole := List.take_append_drop words.length text
  rcases (text.drop words.length).eq_nil_or_concat with none | ⟨front, c, last⟩
  · -- Then the text is the words themselves, which end with a space.
    have short : text.length ≤ words.toList.length := by
      rw [String.length_toList]
      exact List.drop_eq_nil_iff.1 none
    have same : words.toList = text.map Char.toLower :=
      starts.eq_of_length_le (by simpa using short)
    have last : words.toList.getLast? = some ' ' := by
      simp only [placements, List.mem_cons, List.not_mem_nil, or_false] at listed
      rcases listed with rfl | rfl | rfl <;> rfl
    rw [same, List.getLast?_map, Option.map_eq_some_iff] at last
    obtain ⟨c, last, space⟩ := last
    exact absurd (ends c last) (eq_space_of_toLower space ▸ by decide)
  · rw [last] at whole blank
    have solid := ends c (by rw [← whole]; simp)
    rw [blank c (by simp)] at solid
    cases solid

theorem parts_of_ofPosition {position words : String} {names : List String}
    (near : ofPosition position = .near words names) :
    words ∈ placements ∧ names ≠ [] ∧ (∀ name ∈ names, Listable name) ∧ names ≠ [""] := by
  unfold ofPosition at near
  dsimp only at near
  split at near
  · rename_i found
    cases near
    refine ⟨List.mem_of_find?_eq_some found, by simpa using Text.split_ne_nil _ _,
      fun name member => listable_of_mem_namesIn member, fun single => ?_⟩
    have starts : words.toList <+: (trim position.toList).map Char.toLower := by
      simpa using List.find?_some found
    exact not_blank_after (List.mem_of_find?_eq_some found) starts
      (isBlank_of_namesIn single)
  · cases near

theorem listable_of_mem_names {position name : String}
    (member : name ∈ (ofPosition position).names) : Listable name := by
  cases same : ofPosition position with
  | plain words =>
    rw [same] at member
    cases member
  | near words names =>
    obtain ⟨-, -, listable, -⟩ := parts_of_ofPosition same
    rw [same] at member
    exact listable name member

def rename (call : String → String) : Placement → Placement
  | .near words names => .near words (names.map call)
  | .plain words => .plain words

theorem names_rename (call : String → String) (placement : Placement) :
    (placement.rename call).names = placement.names.map call := by
  cases placement <;> rfl

theorem write_rename {aliases aliases' : Aliases} {call : String → String} {placement : Placement}
    (same : ∀ name ∈ placement.names, aliases'.get (call name) = aliases.get name) :
    (placement.rename call).write aliases' = placement.write aliases := by
  cases placement with
  | plain words => rfl
  | near words names =>
    rw [rename, write, write, List.map_map]
    exact congrArg (words ++ ", ".intercalate ·) (List.map_congr_left same)

/-- Names in the place of others are read again where the others were. -/
theorem ofPosition_named {known : List String} {position : String}
    (stands : (ofPosition position).Stands known) {call : String → String}
    (listable : ∀ name ∈ (ofPosition position).names, Listable (call name))
    (named : ∀ name ∈ (ofPosition position).names, call name = "" → name = "") :
    ofPosition ((ofPosition position).named call) = (ofPosition position).rename call := by
  cases same : ofPosition position with
  | plain words =>
    rw [same] at stands
    exact ofPosition_plain stands
  | near words names =>
    obtain ⟨listed, some, -, single⟩ := parts_of_ofPosition same
    rw [same] at listable named
    refine ofPosition_near listed (by simpa using some) ?_ fun empty => single ?_
    · intro other member
      obtain ⟨name, inside, rfl⟩ := List.mem_map.1 member
      exact listable name inside
    · obtain ⟨name, rfl, blank⟩ := List.map_eq_singleton_iff.1 empty
      rw [named name List.mem_cons_self blank]

/-- Whether a position is spelled as it is written, with names of some sort. -/
def Spelled (fits : String → Prop) (position : String) : Prop :=
  position = "left" ∨ position = "right" ∨ ∃ words ∈ placements, ∃ names, names ≠ [] ∧
    position = words ++ ", ".intercalate names ∧ ∀ name ∈ names, fits name

theorem Spelled.reads {fits : String → Prop} {position : String} (spelled : Spelled fits position)
    (listable : ∀ name, fits name → name ≠ "" ∧ Listable name) :
    (ofPosition position).named id = position ∧ (∀ name ∈ (ofPosition position).names, fits name) ∧
      ∀ {known : List String}, (∀ name ∈ (ofPosition position).names, name ∈ known) →
        (ofPosition position).Stands known := by
  rcases spelled with left | right | ⟨words, listed, names', some, rfl, members⟩
  · rw [ofPosition_plain (.inl left)]
    exact ⟨rfl, by simp [names], fun _ => .inl left⟩
  · rw [ofPosition_plain (.inr right)]
    exact ⟨rfl, by simp [names], fun _ => .inr right⟩
  · have fits : ∀ name ∈ names', name ≠ "" ∧ Listable name :=
      fun name member => listable name (members name member)
    rw [ofPosition_near listed some (fun name member => (fits name member).2) fun empty =>
      (fits "" (empty ▸ List.mem_singleton_self "")).1 rfl]
    refine ⟨?_, members, fun known => ⟨listed, some, known⟩⟩
    rw [named, List.map_id]

/-- A placement that is written is read, and stands for the position with the names replaced. -/
theorem read {aliases : Aliases} {declared : List String}
    (identifiers : ∀ name ∈ declared, IsIdentifier (aliases.get name)) {placement : Placement}
    (stands : placement.Stands declared) {tail : List Char} (ends : Leaf.EndsNames tail)
    {stream : Stream}
    (lexed : Lexed false (' ' :: ((placement.write aliases).toList ++ tail)) stream.ahead) :
    ∃ side target left, Leaf.placement stream = (some (side, target), left) ∧
      Lexed false tail left.ahead ∧
      ∀ nicknames, notePosition nicknames side target =
        placement.named fun name => nicknames.resolve (aliases.get name) := by
  cases placement with
  | plain words =>
    obtain rfl | rfl : words = "left" ∨ words = "right" := stands
    · obtain ⟨left, same, later⟩ := Leaf.placement_beside_lexed .left (by decide) ends lexed
      exact ⟨.left, none, left, same, later, fun _ => rfl⟩
    · obtain ⟨left, same, later⟩ := Leaf.placement_beside_lexed .right (by decide) ends lexed
      exact ⟨.right, none, left, same, later, fun _ => rfl⟩
  | near words names =>
    obtain ⟨listed, nonempty, members⟩ := stands
    obtain ⟨first, rest, rfl⟩ := List.exists_cons_of_ne_nil nonempty
    have aliased : ∀ other ∈ aliases.get first :: rest.map aliases.get, IsIdentifier other := by
      intro other member
      rw [← List.map_cons] at member
      obtain ⟨name, inside, rfl⟩ := List.mem_map.1 member
      exact identifiers name (members name inside)
    have resolved (nicknames : Nicknames) :
        nicknames.resolveAll (", ".intercalate (aliases.get first :: rest.map aliases.get)) =
          ", ".intercalate
            ((first :: rest).map fun name => nicknames.resolve (aliases.get name)) := by
      rw [nicknames.resolveAll_intercalate fun other member =>
        listable_of_isIdentifier (aliased other member), ← List.map_cons, List.map_map]
      rfl
    rw [write, List.map_cons] at lexed
    simp only [placements, List.mem_cons, List.not_mem_nil, or_false] at listed
    rcases listed with rfl | rfl | rfl
    · obtain ⟨left, same, later⟩ := Leaf.placement_of_lexed .left (by decide) aliased ends
        (by simpa [NoteSide.word] using lexed)
      refine ⟨.left, _, left, same, later, fun nicknames => ?_⟩
      simp only [notePosition, resolved]
      rfl
    · obtain ⟨left, same, later⟩ := Leaf.placement_of_lexed .right (by decide) aliased ends
        (by simpa [NoteSide.word] using lexed)
      refine ⟨.right, _, left, same, later, fun nicknames => ?_⟩
      simp only [notePosition, resolved]
      rfl
    · obtain ⟨left, same, later⟩ := Leaf.placement_over_lexed aliased ends (by simpa using lexed)
      refine ⟨.over, _, left, same, later, fun nicknames => ?_⟩
      simp only [notePosition, resolved]
      rfl

end Render.Placement

end Lifeline
