import Lifeline.Proofs.Storyboard.Shape
import Lifeline.Proofs.Token.Cuts

/-! Free text that stays where it is written.

Whatever names, titles, messages, conditions and notes say, each line of a storyboard's text reads as one
line. Nothing in it opens a comment, and the names of the actors are the only strings. Most lines consist
of words that hold neither quotes nor slashes and then of free text that was made inert; the others are
the declarations of the actors, each with its string. -/

set_option autoImplicit false

namespace Lifeline

namespace Token

open Lexeme (isSpace Stops)
open Text (isBlank)

/-! ## Lines without strings -/

def isTame (c : Char) : Bool := c != '"' && c != '/' && (!isBlank c || isSpace c)

theorem isTame_of_isIdentifierChar {c : Char} (member : isIdentifierChar c = true) :
    isTame c = true := by
  have solid := isBlank_of_isIdentifierChar member
  have quote : c ≠ '"' := by
    rintro rfl
    exact absurd member (by decide)
  have slash : c ≠ '/' := by
    rintro rfl
    exact absurd member (by decide)
  simp [isTame, solid, quote, slash]

theorem Plain.append {tame text : List Char} (members : ∀ c ∈ tame, isTame c = true)
    (plain : Plain text) : Plain (tame ++ text) := by
  have apart (c : Char) (member : c ∈ tame) :
      (c ≠ '"' ∧ c ≠ '/') ∧ (isBlank c = true → isSpace c = true) := by
    have known := members c member
    simp only [isTame, Bool.and_eq_true, bne_iff_ne, Bool.or_eq_true, Bool.not_eq_true'] at known
    refine ⟨known.1, fun blank => known.2.resolve_left ?_⟩
    simp [blank]
  constructor
  · intro quote
    rcases List.mem_append.1 quote with inside | later
    · exact (apart _ inside).1.1 rfl
    · exact plain.quote later
  · -- What opens a comment starts with a slash, so it starts behind the tame characters.
    clear members
    induction tame with
    | nil => exact plain.comment
    | cons c rest ih =>
      obtain ⟨first, later⟩ := List.forall_mem_cons.1 apart
      rw [List.cons_append, List.infix_cons_iff]
      rintro (opener | inside)
      · exact first.1.2 (List.cons_prefix_cons.1 opener).1.symm
      · exact ih later inside
  · intro c member blank
    rcases List.mem_append.1 member with inside | later
    · exact (apart c inside).2 blank
    · exact plain.blank c later blank

theorem plain_nil : Plain [] := ⟨by simp, by simp, by simp⟩

/-- What a line can hold so that it reads the same wherever lines start. -/
structure Held (text : List Char) : Prop extends Plain text where
  starts : ∀ c ∈ text.head?, c ≠ '\'' ∧ isSpace c = false

theorem held_append {tame text : List Char} (members : ∀ c ∈ tame, isTame c = true)
    (starts : ∃ c ∈ tame.head?, c ≠ '\'' ∧ isSpace c = false) (plain : Plain text) :
    Held (tame ++ text) where
  toPlain := plain.append members
  starts := by
    obtain ⟨c, first, same⟩ := starts
    obtain ⟨rest, rfl⟩ := List.head?_eq_some_iff.1 first
    intro d head
    cases head
    exact same

theorem Held.lexemes_line {text : List Char} (held : Held text) (indent : Nat) (rest : List Char) :
    lexemes true (List.replicate indent ' ' ++ (text ++ '\n' :: rest)) =
      List.replicate indent ⟨none, [' ']⟩ ++ lexemes false text ++ [⟨some .newline, ['\n']⟩] ++
        lexemes true rest := by
  induction indent with
  | zero =>
    cases text with
    | nil => simp [lexemes_lineFeed, lexemes]
    | cons c text =>
      obtain ⟨noApostrophe, solid⟩ := held.starts c rfl
      have stops : Stops ('\n' :: rest) := by
        intro d first
        cases first
        rfl
      rw [List.cons_append, List.replicate_zero, List.replicate_zero, List.nil_append,
        List.nil_append, lexemes_of_head noApostrophe solid, ← List.cons_append,
        lexemes_append held.toPlain stops, lexemes_lineFeed]
      simp
  | succ indent ih =>
    rw [List.replicate_succ, List.cons_append, lexemes_space rfl, ih, List.replicate_succ]
    rfl

theorem Held.kind_of_mem {text : List Char} (held : Held text) {indent : Nat} {lexeme : Lexeme}
    (member : lexeme ∈ List.replicate indent ⟨none, [' ']⟩ ++ lexemes false text) :
    lexeme.kind ≠ some .newline ∧ lexeme.kind ≠ some .comment ∧ lexeme.kind ≠ some .string := by
  rcases List.mem_append.1 member with blank | inside
  · rw [List.eq_of_mem_replicate blank]
    exact ⟨nofun, nofun, nofun⟩
  · have apart (kind : Kind) (same : lexeme.kind = some kind) : kind ∈ kinds text :=
      List.mem_filterMap.2 ⟨lexeme, inside, same⟩
    refine ⟨fun same => ?_, fun same => ?_, fun same => ?_⟩
    · exact (held.mem_kinds (apart _ same)).1 rfl
    · exact (held.mem_kinds (apart _ same)).2.1 rfl
    · exact (held.mem_kinds (apart _ same)).2.2.1 rfl

end Token

/-- Whether a note stands nowhere in particular, on a side, or beside or over something. -/
def Action.Sided : Action → Prop
  | .note position _ =>
    let words := String.ofList ((Text.trim position.toList).map Char.toLower)
    words ∈ ["", "left", "right"] ∨ ∃ start ∈ Render.placements, start.toList <+: words.toList
  | _ => True

instance : (step : Action) → Decidable step.Sided
  | .note .. => inferInstanceAs (Decidable (_ ∨ _))
  | .message .. | .activation _ | .deactivation _ | .alt .. | .loop .. | .par _ | .opt .. =>
    .isTrue trivial

namespace Render

open Token (Held IsIdentifier Lexeme Plain isTame lexemes)

/-! ## Lines one after the other -/

/-- Whether lines read as they are: each ends once, nothing on them opens a comment, and there are certain
strings on them. -/
structure Stay (lines : List Line) (strings : List (List Char)) : Prop where
  feeds : (written lines).count '\n' = lines.length
  lexed : ∀ rest, ∃ found, lexemes true (written lines ++ rest) = found ++ lexemes true rest ∧
    (∀ lexeme ∈ found, lexeme.kind ≠ some .comment) ∧
    (found.filter (·.kind = some .string)).map Lexeme.text = strings ∧
    (found.filter (·.kind = some .newline)).length = lines.length

theorem Stay.nil : Stay [] [] where
  feeds := rfl
  lexed rest := ⟨[], rfl, by simp, rfl, rfl⟩

theorem Stay.append {first second : List Line} {strings strings' : List (List Char)}
    (one : Stay first strings) (two : Stay second strings') :
    Stay (first ++ second) (strings ++ strings') where
  feeds := by rw [written_append, List.count_append, one.feeds, two.feeds, List.length_append]
  lexed rest := by
    obtain ⟨later, same', comment', string', newline'⟩ := two.lexed rest
    obtain ⟨found, same, comment, string, newline⟩ := one.lexed (written second ++ rest)
    refine ⟨found ++ later, ?_, ?_, ?_, ?_⟩
    · rw [written_append, List.append_assoc, same, same', List.append_assoc]
    · exact List.forall_mem_append.2 ⟨comment, comment'⟩
    · rw [List.filter_append, List.map_append, string, string']
    · rw [List.filter_append, List.length_append, newline, newline', List.length_append]

theorem written_line (depth : Nat) (text : String) (rest : List Char) :
    written [⟨depth, text⟩] ++ rest =
      List.replicate (2 * depth) ' ' ++ (text.toList ++ '\n' :: rest) := by
  simp [written_cons]

theorem count_written_line {depth : Nat} {text : String} (noFeed : '\n' ∉ text.toList) :
    (written [⟨depth, text⟩]).count '\n' = 1 := by
  simp [written_cons, List.count_eq_zero_of_not_mem noFeed, List.count_replicate]

theorem stay_held {line : Line} (held : Held line.text.toList) : Stay [line] [] where
  feeds := count_written_line held.lineFeed
  lexed rest := by
    have apart {lexeme : Lexeme} := @Held.kind_of_mem _ held (2 * line.depth) lexeme
    refine ⟨_, by rw [written_line, held.lexemes_line], ?_, ?_, ?_⟩
    · intro lexeme member
      rcases List.mem_append.1 member with inside | last
      · exact (apart inside).2.1
      · rw [List.mem_singleton.1 last]
        exact nofun
    · rw [List.filter_append, List.filter_eq_nil_iff.2 fun lexeme member => by
        simpa using (apart member).2.2]
      rfl
    · rw [List.filter_append, List.filter_eq_nil_iff.2 fun lexeme member => by
        simpa using (apart member).1]
      rfl

def AllHeld (lines : List Line) : Prop := ∀ line ∈ lines, Held line.text.toList

namespace AllHeld

theorem nil : AllHeld [] := by simp [AllHeld]

theorem cons {depth : Nat} {text : String} {rest : List Line} (first : Held text.toList)
    (later : AllHeld rest) : AllHeld (⟨depth, text⟩ :: rest) :=
  List.forall_mem_cons.2 ⟨first, later⟩

theorem append {first second : List Line} (one : AllHeld first) (two : AllHeld second) :
    AllHeld (first ++ second) :=
  List.forall_mem_append.2 ⟨one, two⟩

end AllHeld

theorem stay_of_held {lines : List Line} (held : AllHeld lines) :
    Stay lines [] := by
  induction lines with
  | nil => exact .nil
  | cons line rest ih =>
    obtain ⟨first, later⟩ := List.forall_mem_cons.1 held
    exact (stay_held first).append (ih later)

/-! ## Declarations -/

def quoted (name : String) : List Char := '"' :: ((shown name).toList ++ ['"'])

theorem lexemes_actorLine {aliases : Aliases} {name : String}
    (identifier : IsIdentifier (aliases.get name)) (rest : List Char) :
    lexemes true (written [actorLine aliases name] ++ rest) =
      [⟨some (.participant .actor), "actor".toList⟩, ⟨none, [' ']⟩, ⟨some .string, quoted name⟩,
        ⟨none, [' ']⟩, ⟨some .identifier, "as".toList⟩, ⟨none, [' ']⟩,
        ⟨some .identifier, (aliases.get name).toList⟩, ⟨some .newline, ['\n']⟩] ++
      lexemes true rest := by
  have text : ("actor \"" ++ shown name ++ "\" as " ++ aliases.get name).toList ++ '\n' :: rest =
      "actor".toList ++ ' ' :: '"' :: ((shown name).toList ++ '"' :: ' ' ::
        ("as".toList ++ ' ' :: ((aliases.get name).toList ++ '\n' :: rest))) := by
    simp
  rw [show actorLine aliases name =
    ⟨0, "actor \"" ++ shown name ++ "\" as " ++ aliases.get name⟩ from rfl, written_line, text,
    Nat.mul_zero, List.replicate_zero, List.nil_append,
    Token.lexemes_word (by decide) true (Token.endsWord_space _), Token.lexemes_space rfl,
    Token.lexemes_string (unquoted_shown name), Token.lexemes_space rfl,
    Token.lexemes_word (by decide) false (Token.endsWord_space _), Token.lexemes_space rfl,
    Token.lexemes_word identifier.1 false (Token.endsWord_lineFeed _), Token.lexemes_lineFeed,
    identifier.2]
  rfl

theorem lineFeed_shown (name : String) : '\n' ∉ (shown name).toList := by
  rw [shown, String.toList_ofList]
  intro member
  have spaced := spaced_withoutQuotes (Text.spaced_collapse name.toList)
  exact absurd (spaced.eq_space member (by decide)) (by decide)

theorem lineFeed_of_isIdentifier {word : String} (identifier : IsIdentifier word) :
    '\n' ∉ word.toList := fun member => absurd (identifier.1.2 _ member) (by decide)

theorem stay_actorLines {aliases : Aliases} {names : List String}
    (identifiers : ∀ name ∈ names, IsIdentifier (aliases.get name)) :
    Stay (names.map (actorLine aliases)) (names.map quoted) := by
  induction names with
  | nil => exact .nil
  | cons name rest ih =>
    obtain ⟨identifier, others⟩ := List.forall_mem_cons.1 identifiers
    have one : Stay [actorLine aliases name] [quoted name] := by
      constructor
      · apply count_written_line
        have shows := lineFeed_shown name
        have short := lineFeed_of_isIdentifier identifier
        rw [shown, String.toList_ofList] at shows
        simpa using ⟨shows, short⟩
      · intro rest
        exact ⟨_, lexemes_actorLine identifier rest, by simp, rfl, rfl⟩
    exact one.append (ih others)

/-! ## All other lines -/

theorem plain_inert (text : List Char) : Plain (inert text) := (inert_inert text).plain

theorem held_noteLine (line : List Char) : Held (noteLine line) where
  toPlain := (inert_noteLine line).plain
  starts := by
    intro c head
    refine ⟨fun same => head?_noteLine line (same ▸ head), ?_⟩
    rcases noteLine_eq line with ⟨-, same⟩ | ⟨rest, -, same⟩
    · have solid := head?_inert line c (same ▸ head)
      rw [Bool.eq_false_iff] at solid ⊢
      exact fun space => solid (Token.isBlank_of_isSpace space)
    · rw [same] at head
      cases head
      decide

/-- Words that leave what follows them as it is. -/
def Tame (words : String) : Prop := ∀ c ∈ words.toList, isTame c = true

instance (words : String) : Decidable (Tame words) := decidable_of_iff _ List.all_eq_true

theorem Tame.append {words more : String} (first : Tame words) (second : Tame more) :
    Tame (words ++ more) := by
  rw [Tame, String.toList_append]
  exact List.forall_mem_append.2 ⟨first, second⟩

structure Leads (words : String) : Prop where
  tame : Tame words
  starts : ∃ c ∈ words.toList.head?, c ≠ '\'' ∧ Lexeme.isSpace c = false

theorem leads_iff {words : String} :
    Tame words ∧ words.toList.head?.any (fun c => c != '\'' && !Lexeme.isSpace c) = true ↔
      Leads words := by
  rw [Option.any_eq_true]
  constructor
  · rintro ⟨tame, c, first, apart⟩
    exact ⟨tame, c, first, by simpa using apart⟩
  · rintro ⟨tame, c, first, apart⟩
    exact ⟨tame, c, first, by simpa using apart⟩

instance (words : String) : Decidable (Leads words) := decidable_of_iff _ leads_iff

namespace Leads

variable {words : String} (leads : Leads words)

include leads

theorem append {more : String} (tame : Tame more) : Leads (words ++ more) where
  tame := leads.tame.append tame
  starts := by
    obtain ⟨c, head, apart⟩ := leads.starts
    obtain ⟨rest, same⟩ := List.head?_eq_some_iff.1 head
    exact ⟨c, by rw [String.toList_append, same]; rfl, apart⟩

theorem held {text : List Char} (plain : Plain text) : Held (words ++ String.ofList text).toList := by
  rw [String.toList_append, String.toList_ofList]
  exact Token.held_append leads.tame leads.starts plain

theorem held_words : Held words.toList := by
  have held := leads.held Token.plain_nil
  rwa [String.ofList_nil, String.append_empty] at held

end Leads

theorem leads_of_isIdentifier {word : String} (identifier : IsIdentifier word) : Leads word where
  tame c member := Token.isTame_of_isIdentifierChar (identifier.1.2 c member)
  starts := by
    obtain ⟨c, head, start⟩ := identifier.1.1
    refine ⟨c, head, ?_, ?_⟩
    · rintro rfl
      exact absurd start (by decide)
    · rw [Bool.eq_false_iff]
      intro space
      have member := identifier.1.2 c (List.mem_of_mem_head? head)
      have solid := Token.isBlank_of_isIdentifierChar member
      rw [Token.isBlank_of_isSpace space] at solid
      cases solid

theorem held_labelled {keyword : String} (leads : Leads keyword) (label : String) :
    Held (labelled keyword label).toList := by
  unfold labelled
  dsimp only
  split
  · exact leads.held_words
  · exact (leads.append (by decide)).held (plain_inert _)

theorem held_messageLine {source target : String} (sender : IsIdentifier source)
    (receiver : IsIdentifier target) (text : List Char) :
    Held (messageLine source target text).toList := by
  have arrow : Leads (source ++ " -> " ++ target) :=
    ((leads_of_isIdentifier sender).append (by decide)).append (leads_of_isIdentifier receiver).tame
  unfold messageLine
  dsimp only
  split
  · exact arrow.held_words
  · exact (arrow.append (by decide)).held (plain_inert text)

theorem held_noteLines {position : String} (tame : Tame position) (depth : Nat) (text : List Char) :
    ∀ line ∈ noteLines depth position text, Held line.text.toList := by
  have head : Leads (if position.isEmpty then "note" else "note " ++ position) := by
    split
    · decide
    · exact Leads.append (by decide) tame
  unfold noteLines
  dsimp only
  split
  · intro line member
    rw [List.cons_append, List.mem_cons, List.mem_append, List.mem_singleton] at member
    rcases member with rfl | body | rfl
    · exact head.held_words
    · obtain ⟨source, -, rfl⟩ := List.mem_map.1 body
      rw [String.toList_ofList]
      exact held_noteLine source
    · have leads : Leads "end note" := by decide
      exact leads.held_words
  · intro line member
    rw [List.mem_singleton.1 member]
    exact (head.append (by decide)).held (plain_inert text)

theorem tame_names {names : List String} (tame : ∀ name ∈ names, Tame name) :
    Tame (", ".intercalate names) := by
  cases names with
  | nil => decide
  | cons first rest =>
    obtain ⟨head, later⟩ := List.forall_mem_cons.1 tame
    rw [Tame, toList_names, List.forall_mem_append]
    refine ⟨head, ?_⟩
    intro c member
    obtain ⟨name, inside, member⟩ := List.mem_flatMap.1 member
    rcases List.mem_append.1 member with comma | within
    · have known : Tame ", " := by decide
      exact known c comma
    · exact later name inside c within

theorem tame_write {aliases : Aliases} {position text : String}
    (sided : (Action.note position text).Sided)
    (identifiers : ∀ name ∈ (Placement.ofPosition position).names, IsIdentifier (aliases.get name)) :
    Tame ((Placement.ofPosition position).write aliases) := by
  have words : ∀ start ∈ placements ++ ["", "left", "right"], Tame start := by decide
  unfold Placement.ofPosition at identifiers ⊢
  dsimp only at identifiers ⊢
  split
  · rename_i start found
    rw [found] at identifiers
    rw [Placement.write]
    apply Tame.append
    · exact words start (List.mem_append_left _ (List.mem_of_find?_eq_some found))
    · apply tame_names
      intro short member
      obtain ⟨name, inside, rfl⟩ := List.mem_map.1 member
      exact (leads_of_isIdentifier (identifiers name inside)).tame
  · rename_i none
    rcases sided with plain | ⟨start, listed, starts⟩
    · exact words _ (List.mem_append_right _ plain)
    · exfalso
      rw [String.toList_ofList] at starts
      exact absurd (List.isPrefixOf_iff_prefix.2 starts) (List.find?_eq_none.1 none start listed)

/-! ## Actions -/

/-- Whether a step can be written: a note stands somewhere, and what it mentions has an identifier. -/
def Writes (aliases : Aliases) (step : Action) : Prop :=
  step.Sided ∧ ∀ name ∈ mentions step, IsIdentifier (aliases.get name)

section

variable {aliases : Aliases}

theorem AllHeld.block {depth : Nat} {text : String} {body : List Line} (first : Held text.toList)
    (inner : AllHeld body) : AllHeld (⟨depth, text⟩ :: body ++ [⟨depth, "end"⟩]) :=
  (cons first inner).append (cons (Leads.held_words (by decide)) nil)

theorem allHeld_else (label : String) {depth : Nat} {action : Action} {rest : List Action}
    (first : AllHeld (actionLines aliases (depth + 1) action))
    (later : AllHeld (actionsLines aliases (depth + 1) rest)) :
    AllHeld (⟨depth, labelled "else" label⟩ :: actionLines aliases (depth + 1) action ++
      actionsLines aliases (depth + 1) rest) :=
  (AllHeld.cons (held_labelled (by decide) label) first).append later

mutual

theorem held_action : (action : Action) → (∀ step ∈ action.steps, Writes aliases step) →
    (depth : Nat) → AllHeld (actionLines aliases depth action)
  | .message source target text, writes, depth => by
    obtain ⟨-, named⟩ := writes _ (Action.mem_steps _)
    rw [actionLines]
    apply AllHeld.cons _ AllHeld.nil
    exact held_messageLine (named source (by simp [mentions])) (named target (by simp [mentions])) _
  | .activation actor, writes, depth => by
    obtain ⟨-, named⟩ := writes _ (Action.mem_steps _)
    have identifier := leads_of_isIdentifier (named actor (by simp [mentions]))
    rw [actionLines]
    apply AllHeld.cons _ AllHeld.nil
    have leads : Leads "activate " := by decide
    exact (leads.append identifier.tame).held_words
  | .deactivation actor, writes, depth => by
    obtain ⟨-, named⟩ := writes _ (Action.mem_steps _)
    have identifier := leads_of_isIdentifier (named actor (by simp [mentions]))
    rw [actionLines]
    apply AllHeld.cons _ AllHeld.nil
    have leads : Leads "deactivate " := by decide
    exact (leads.append identifier.tame).held_words
  | .note position text, writes, depth => by
    obtain ⟨sided, named⟩ := writes _ (Action.mem_steps _)
    exact held_noteLines (tame_write sided named) depth text.toList
  | .alt condition whenTrue whenFalse otherwise, writes, depth => by
    simp only [Action.steps, List.mem_cons, List.mem_append] at writes
    have first := held_actions whenTrue
      (fun step member => writes step (.inr (.inl member))) (depth + 1)
    have later := held_else whenFalse
      (fun step member => writes step (.inr (.inr member))) otherwise depth
    rw [actionLines, List.cons_append]
    exact AllHeld.block (held_labelled (by decide) condition) (first.append later)
  | .loop condition actions, writes, depth => by
    simp only [Action.steps, List.mem_cons] at writes
    have inner := held_actions actions (fun step member => writes step (.inr member)) (depth + 1)
    exact AllHeld.block (held_labelled (by decide) condition) inner
  | .opt condition actions, writes, depth => by
    simp only [Action.steps, List.mem_cons] at writes
    have inner := held_actions actions (fun step member => writes step (.inr member)) (depth + 1)
    exact AllHeld.block (held_labelled (by decide) condition) inner
  | .par [], _, depth => by
    have leads : Leads "par" := by decide
    exact AllHeld.block leads.held_words AllHeld.nil
  | .par (branch :: rest), writes, depth => by
    simp only [Action.steps, stepsOfBranches, List.mem_cons, List.mem_append] at writes
    have first := held_actions branch
      (fun step member => writes step (.inr (.inl member))) (depth + 1)
    have later := held_laterBranches rest
      (fun step member => writes step (.inr (.inr member))) depth
    have leads : Leads "par" := by decide
    exact AllHeld.block leads.held_words (first.append later)

theorem held_actions : (actions : List Action) → (∀ step ∈ stepsOf actions, Writes aliases step) →
    (depth : Nat) → AllHeld (actionsLines aliases depth actions)
  | [], _, _ => AllHeld.nil
  | action :: rest, writes, depth => by
    simp only [stepsOf, List.mem_append] at writes
    rw [actionsLines]
    exact (held_action action (fun step member => writes step (.inl member)) depth).append
      (held_actions rest (fun step member => writes step (.inr member)) depth)

theorem held_else : (actions : List Action) → (∀ step ∈ stepsOf actions, Writes aliases step) →
    (label : String) → (depth : Nat) → AllHeld (elseLines aliases depth label actions)
  | [], _, label, depth => by
    rw [elseLines]
    split
    · exact AllHeld.nil
    · exact AllHeld.cons (held_labelled (by decide) label) AllHeld.nil
  | action :: rest, writes, label, depth => by
    simp only [stepsOf, List.mem_append] at writes
    have one := held_action action (fun step member => writes step (.inl member)) (depth + 1)
    have more := held_actions rest (fun step member => writes step (.inr member)) (depth + 1)
    have plain := allHeld_else label one more
    -- Only a single alternative under a blank label can go on as further branches.
    cases action with
    | alt condition whenTrue whenFalse otherwise =>
      cases rest with
      | cons => exact plain
      | nil =>
        rw [elseLines]
        split
        · simp only [Action.steps, List.mem_cons, List.mem_append] at writes
          have first := held_actions whenTrue
            (fun step member => writes step (.inl (.inr (.inl member)))) (depth + 1)
          have later := held_else whenFalse
            (fun step member => writes step (.inl (.inr (.inr member)))) otherwise depth
          exact (AllHeld.cons (held_labelled (by decide) condition) first).append later
        · simpa [actionsLines] using plain
    | _ => exact plain

theorem held_laterBranches : (branches : List (List Action)) →
    (∀ step ∈ stepsOfBranches branches, Writes aliases step) → (depth : Nat) →
    AllHeld (laterBranchLines aliases depth branches)
  | [], _, _ => AllHeld.nil
  | branch :: rest, writes, depth => by
    simp only [stepsOfBranches, List.mem_append] at writes
    have first := held_actions branch
      (fun step member => writes step (.inl member)) (depth + 1)
    have later := held_laterBranches rest
      (fun step member => writes step (.inr member)) depth
    rw [laterBranchLines]
    exact (AllHeld.cons (Leads.held_words (by decide)) first).append later

end

end

end Render

namespace Token

theorem filter_placed (kind : Kind) (position : Position) (found : List Lexeme) :
    ((placed position found).filter (·.kind = kind)).map Token.text =
      ((found.filter (·.kind = some kind)).map Lexeme.text).map String.ofList := by
  induction found generalizing position with
  | nil => rfl
  | cons lexeme rest ih =>
    rcases lexeme with ⟨_ | own, text⟩
    · simpa using ih _
    · by_cases same : own = kind
      · simp [same, ih]
      · simp [same, ih]

end Token

namespace Storyboard

open Render (Stay actorLine quoted shown)

variable {board : Storyboard}

theorem stay_titleLines (title : Option String) : Stay (Render.titleLines title) [] := by
  apply Render.stay_of_held
  have plain := Render.plain_inert (title.getD "").toList
  unfold Render.titleLines
  split
  · exact Render.AllHeld.nil
  · exact Render.AllHeld.cons (Render.Leads.held (by decide) plain) Render.AllHeld.nil

theorem stay_gapLines (board : Storyboard) : Stay (Render.gapLines board) [] := by
  apply Render.stay_of_held
  unfold Render.gapLines
  split
  · exact Render.AllHeld.nil
  · exact Render.AllHeld.cons ⟨Token.plain_nil, by simp⟩ Render.AllHeld.nil

theorem stay_lines (sided : ∀ step ∈ stepsOf board.actions, step.Sided) :
    Stay board.lines (board.actors.names.map quoted) := by
  have leads : Render.Leads "@startuml" := by decide
  have first : Stay [⟨0, "@startuml"⟩] [] := Render.stay_held leads.held_words
  have actors : Stay (board.actors.names.map (actorLine board.aliases))
      (board.actors.names.map quoted) :=
    Render.stay_actorLines fun name member =>
      Aliases.isIdentifier_get (List.mem_append_left _ member)
  have actions : Stay (Render.actionsLines board.aliases 0 board.actions) [] := by
    apply Render.stay_of_held
    apply Render.held_actions
    intro step member
    refine ⟨sided step member, fun name mentioned => Aliases.isIdentifier_get ?_⟩
    exact List.mem_append_right _ (mem_mentionsAll mentioned board.actions member)
  have whole := (((first.append (stay_titleLines board.title)).append actors).append
    (stay_gapLines board)).append actions
  simpa [lines] using whole

/-- Whatever the names and free texts of a storyboard are: as long as its notes stand somewhere, its text
has nothing to report and no comments, the names of the actors are its only strings, and each of its lines
ends once. -/
theorem tokenize_render (board : Storyboard) (sided : ∀ step ∈ stepsOf board.actions, step.Sided) :
    (tokenize board.render).issues = [] ∧
      (∀ token ∈ (tokenize board.render).tokens, token.kind ≠ .comment) ∧
      ((tokenize board.render).tokens.filter (·.kind = .string)).map Token.text =
        board.actors.names.map (fun name => "\"" ++ shown name ++ "\"") ∧
      ((tokenize board.render).tokens.filter (·.kind = .newline)).length = board.lines.length ∧
      board.render.toList.count '\n' = board.lines.length := by
  have stay := stay_lines sided
  obtain ⟨found, cut, comment, strings, newlines⟩ := stay.lexed "@enduml".toList
  have last : Token.lexemes true "@enduml".toList = [⟨some .endUml, "@enduml".toList⟩] := by
    decide +kernel
  rw [← toList_render, last] at cut
  have tokens := Token.tokens_tokenize board.render
  have ofKind (kind : Token.Kind) (apart : kind ≠ .endUml ∧ kind ≠ .eof) :
      ((tokenize board.render).tokens.filter (·.kind = kind)).map Token.text =
        ((found.filter (·.kind = some kind)).map Token.Lexeme.text).map String.ofList := by
    rw [tokens, List.filter_append, List.map_append, Token.filter_placed, cut]
    simp [Token.endOfInput, apart.1.symm, apart.2.symm]
  refine ⟨?_, ?_, ?_, ?_, ?_⟩
  · have ends : ∃ last : Token, last.kind = .endUml ∧
        [last] <:+ (Stream.ofTokens (tokenize board.render).tokens).ahead := by
      rw [ahead_ofTokens, cut, Token.placed_append, Token.placed_token, Token.placed_nil]
      exact ⟨_, rfl, List.suffix_append _ _⟩
    obtain ⟨last, endUml, ends⟩ := ends
    exact issues_tokenize_of_last endUml ends
  · intro token member
    rw [tokens, List.mem_append, List.mem_singleton] at member
    rcases member with inside | rfl
    · obtain ⟨lexeme, within, kind, -⟩ := Token.mem_placed inside
      intro same
      rw [same] at kind
      rw [cut, List.mem_append, List.mem_singleton] at within
      rcases within with early | rfl
      · exact comment lexeme early kind
      · cases kind
    · intro same
      cases same
  · rw [ofKind .string (by decide), strings, List.map_map]
    apply List.map_congr_left
    intro name _
    rw [Function.comp_apply, ← String.toList_inj, String.toList_ofList]
    simp [quoted]
  · have same := congrArg List.length (ofKind .newline (by decide))
    simpa only [List.length_map, newlines] using same
  · have mark : "@enduml".toList.count '\n' = 0 := by decide
    rw [toList_render, List.count_append, stay.feeds, mark, Nat.add_zero]

/-- Quotes, apostrophes, comment openers and ends of lines in every text, and notes in every place. -/
theorem tokenize_render_hostile :
    let name := "\"A\" /'\n'B"
    let board : Storyboard :=
      { actors := ⟨[name, "'"], by decide⟩
        actions := [
          .message name "\"" "/'/' \"\n' @enduml",
          .alt "'\"" [.note "Left of \"A\", /'" "'one\n\"two /'\r\n\n'"]
            [.loop "/'" [.note " RIGHT\n" "\"'"]] "\n\"",
          .par [[.opt "\"\"" [.note "" "/'\n"]], [.activation "\n"]]]
        mode := .split
        title := some "'\n\"/'" }
    (∀ step ∈ stepsOf board.actions, step.Sided) ∧
    (tokenize board.render).issues = [] ∧
      (∀ token ∈ (tokenize board.render).tokens, token.kind ≠ .comment) ∧
      ((tokenize board.render).tokens.filter (·.kind = .string)).map Token.text =
        board.actors.names.map (fun name => "\"" ++ shown name ++ "\"") ∧
      ((tokenize board.render).tokens.filter (·.kind = .newline)).length = board.lines.length ∧
      board.render.toList.count '\n' = board.lines.length := by
  intro name board
  have sided : ∀ step ∈ stepsOf board.actions, step.Sided := by decide +kernel
  exact ⟨sided, tokenize_render board sided⟩

end Storyboard

end Lifeline
