import Lifeline.Storyboard.Difference
import Lifeline.Proofs.Storyboard.Alias
import Lifeline.Proofs.Storyboard.Lines

/-! Changes that the text of a storyboard does not show.

A difference says whether actors have come or gone, not whether they have changed places. Storyboards
that it does not tell apart have the same text if their actors stand in the same order, and only then,
as long as no two of the names look alike in the text. -/

set_option autoImplicit false

namespace Lifeline

open Render (shown written actorLine)

namespace Roster

theorem sameNames_iff {first second : Roster} :
    first.sameNames second = true ↔ ∀ name, name ∈ first.names ↔ name ∈ second.names := by
  simp only [sameNames, Bool.and_eq_true, List.all_eq_true, List.contains_iff_mem]
  exact ⟨fun both name => ⟨both.1 name, both.2 name⟩,
    fun same => ⟨fun name => (same name).1, fun name => (same name).2⟩⟩

theorem length_eq_of_sameNames {first second : Roster} (same : first.sameNames second = true) :
    first.names.length = second.names.length :=
  ((List.perm_ext_iff_of_nodup first.nodup second.nodup).2
    fun _ => sameNames_iff.1 same _).length_eq

end Roster

namespace BoardDifference

theorem modifiedFrom_eq_nil_iff {place : Nat} {olds news : List Action}
    (length : olds.length = news.length) : modifiedFrom place olds news = [] ↔ olds = news := by
  fun_induction modifiedFrom place olds news with
  | case1 place olds action news ih =>
    rw [ih (Nat.succ.inj length), List.cons.injEq]
    exact ⟨fun same => ⟨rfl, same⟩, And.right⟩
  | case2 place old olds new news differ ih =>
    exact ⟨nofun, fun same => absurd (List.cons.inj same).1 differ⟩
  | case3 olds place news short =>
    obtain _ | ⟨old, olds⟩ := olds
    · simp [List.eq_nil_of_length_eq_zero length.symm]
    · obtain _ | ⟨new, news⟩ := news
      · cases length
      · exact (short old olds new news rfl rfl).elim

/-- What a difference finds unaffected is all that a text shows but the order of the actors. -/
theorem affectsCode_between_iff {old new : Storyboard} :
    (between old new).affectsCode = false ↔
      old.actors.sameNames new.actors = true ∧ old.actions = new.actions ∧
        old.title = new.title := by
  simp only [affectsCode, between, Bool.or_eq_false_iff, Bool.not_eq_false', List.isEmpty_iff,
    List.filter_eq_nil_iff, List.range'_eq_nil_iff, Roster.sameNames, Bool.and_eq_true,
    List.all_eq_true, bne_eq_false_iff_eq]
  constructor
  · rintro ⟨⟨⟨⟨⟨added, removed⟩, longer⟩, shorter⟩, modified⟩, title⟩
    refine ⟨⟨fun name member => ?_, fun name member => ?_⟩, ?_, title⟩
    · simpa using removed name member
    · simpa using added name member
    · exact (modifiedFrom_eq_nil_iff (by omega)).1 modified
  · rintro ⟨⟨kept, found⟩, actions, title⟩
    refine ⟨⟨⟨⟨⟨fun name member => ?_, fun name member => ?_⟩, ?_⟩, ?_⟩, ?_⟩, title⟩
    · rw [found name member]
      exact Bool.false_ne_true
    · rw [kept name member]
      exact Bool.false_ne_true
    · rw [actions, Nat.sub_self]
    · rw [actions, Nat.sub_self]
    · exact (modifiedFrom_eq_nil_iff (congrArg List.length actions)).2 actions

end BoardDifference

namespace Storyboard

def Unaffected (old new : Storyboard) : Prop :=
  (BoardDifference.between old new).affectsCode = false

theorem Unaffected.refl (board : Storyboard) : board.Unaffected board :=
  BoardDifference.affectsCode_between_iff.2 ⟨Roster.sameNames_iff.2 fun _ => Iff.rfl, rfl, rfl⟩

theorem Unaffected.trans {first second third : Storyboard} (one : first.Unaffected second)
    (two : second.Unaffected third) : first.Unaffected third := by
  obtain ⟨names, actions, title⟩ := BoardDifference.affectsCode_between_iff.1 one
  obtain ⟨names', actions', title'⟩ := BoardDifference.affectsCode_between_iff.1 two
  refine BoardDifference.affectsCode_between_iff.2 ⟨?_, actions.trans actions', title.trans title'⟩
  exact Roster.sameNames_iff.2 fun name =>
    (Roster.sameNames_iff.1 names name).trans (Roster.sameNames_iff.1 names' name)

theorem render_eq_of_actors {old new : Storyboard} (unaffected : old.Unaffected new)
    (actors : old.actors = new.actors) : old.render = new.render := by
  obtain ⟨-, actions, title⟩ := BoardDifference.affectsCode_between_iff.1 unaffected
  simp only [render, lines, aliases, Render.gapLines, actors, actions, title]

/-- Texts that are cut where a character first stands are the same if their pieces are. -/
theorem eq_of_append_cons {c : Char} {first second rest rest' : List Char} (without : c ∉ first)
    (without' : c ∉ second) (same : first ++ c :: rest = second ++ c :: rest') :
    first = second ∧ rest = rest' := by
  induction first generalizing second with
  | nil =>
    obtain _ | ⟨d, second⟩ := second
    · exact ⟨rfl, (List.cons.inj same).2⟩
    · exact absurd (List.cons.inj same).1 (List.ne_of_not_mem_cons without')
  | cons d first ih =>
    obtain _ | ⟨d', second⟩ := second
    · exact absurd (List.cons.inj same).1.symm (List.ne_of_not_mem_cons without)
    · obtain ⟨head, tail⟩ := List.cons.inj same
      obtain ⟨begins, ends⟩ :=
        ih (List.not_mem_of_not_mem_cons without) (List.not_mem_of_not_mem_cons without') tail
      exact ⟨by rw [head, begins], ends⟩

theorem map_shown_eq {aliases aliases' : Aliases} {names names' : List String}
    {rest rest' : List Char} (length : names.length = names'.length)
    (identifiers : ∀ name ∈ names, Token.IsIdentifier (aliases.get name))
    (identifiers' : ∀ name ∈ names', Token.IsIdentifier (aliases'.get name))
    (same : written (names.map (actorLine aliases)) ++ rest =
      written (names'.map (actorLine aliases')) ++ rest') : names.map shown = names'.map shown := by
  have oneLine {word : String} (identifier : Token.IsIdentifier word) : '\n' ∉ word.toList :=
    fun inside => absurd (identifier.1.2 '\n' inside) (by decide)
  have line (aliases : Aliases) (name : String) (more rest : List Char) :
      written [actorLine aliases name] ++ more ++ rest =
        "actor \"".toList ++ ((shown name).toList ++ '"' ::
          (" as ".toList ++ ((aliases.get name).toList ++ '\n' :: (more ++ rest)))) := by
    simp [written, actorLine, Render.Line.write, shown]
  induction names generalizing names' with
  | nil =>
    rw [List.eq_nil_of_length_eq_zero length.symm]
  | cons name names ih =>
    obtain _ | ⟨name', names'⟩ := names'
    · cases length
    rw [List.map_cons, List.map_cons, ← List.singleton_append,
      ← List.singleton_append (l := names'.map _), Render.written_append, Render.written_append, line, line, List.append_cancel_left_eq] at same
    obtain ⟨first, later⟩ :=
      eq_of_append_cons (Render.unquoted_shown name) (Render.unquoted_shown name') same
    rw [List.append_cancel_left_eq] at later
    obtain ⟨-, later⟩ := eq_of_append_cons (oneLine (identifiers name List.mem_cons_self))
      (oneLine (identifiers' name' List.mem_cons_self)) later
    rw [List.map_cons, List.map_cons, String.toList_injective first,
      ih (Nat.succ.inj length) (fun other member => identifiers other (.tail _ member))
        (fun other member => identifiers' other (.tail _ member)) later]

theorem map_shown_eq_of_render {old new : Storyboard} (unaffected : old.Unaffected new)
    (same : old.render = new.render) :
    old.actors.names.map shown = new.actors.names.map shown := by
  obtain ⟨names, -, title⟩ := BoardDifference.affectsCode_between_iff.1 unaffected
  have texts := congrArg String.toList same
  have cut (board : Storyboard) : board.render.toList =
      written (⟨0, "@startuml"⟩ :: Render.titleLines board.title) ++
        (written (board.actors.names.map (actorLine board.aliases)) ++
          (written (Render.gapLines board ++ Render.actionsLines board.aliases 0 board.actions) ++
            "@enduml".toList)) := by
    rw [render, String.toList_append, String.toList_join, lines]
    simp [written, List.flatMap_map]
  rw [cut, cut, title, List.append_cancel_left_eq] at texts
  have identifiers (board : Storyboard) :
      ∀ name ∈ board.actors.names, Token.IsIdentifier (board.aliases.get name) :=
    fun name member => Aliases.isIdentifier_get (List.mem_append_left _ member)
  exact map_shown_eq (Roster.length_eq_of_sameNames names) (identifiers old) (identifiers new) texts

/-- Where no two names look alike, an unaffected text stays the same if and only if the actors keep
their places. -/
theorem render_eq_iff {old new : Storyboard} (unaffected : old.Unaffected new)
    (distinct : (old.actors.names.map shown).Nodup) :
    old.render = new.render ↔ old.actors = new.actors := by
  refine ⟨fun same => ?_, render_eq_of_actors unaffected⟩
  have looks := map_shown_eq_of_render unaffected same
  obtain ⟨names, -, -⟩ := BoardDifference.affectsCode_between_iff.1 unaffected
  have alike := List.inj_on_of_nodup_map distinct
  have order : old.actors.names = new.actors.names := by
    refine List.ext_getElem (Roster.length_eq_of_sameNames names) fun place bound bound' => ?_
    refine alike (List.getElem_mem bound)
      ((Roster.sameNames_iff.1 names _).2 (List.getElem_mem bound')) ?_
    simpa [List.getElem?_eq_getElem bound, List.getElem?_eq_getElem bound'] using
      congrArg (·[place]?) looks
  obtain ⟨⟨_, _⟩, _, _, _⟩ := old
  obtain ⟨⟨_, _⟩, _, _, _⟩ := new
  cases order
  rfl

end Storyboard

end Lifeline
