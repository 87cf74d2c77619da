/-! Rosters: names without repetition, in the order in which they first appear. -/

set_option autoImplicit false

namespace Lifeline

structure Roster where
  names : List String
  nodup : names.Nodup := by simp
  deriving DecidableEq

namespace Roster

def empty : Roster := ⟨[], .nil⟩

def insert (roster : Roster) (name : String) : Roster :=
  if absent : name ∈ roster.names then roster
  else
    { names := roster.names ++ [name]
      nodup := List.nodup_append.2 ⟨roster.nodup, by simp, by
        intro other present last same
        rw [List.mem_singleton] at same
        exact fun equal => absent (same ▸ equal ▸ present)⟩ }

def ofList (names : List String) : Roster := names.foldl insert empty

def sameNames (first second : Roster) : Bool :=
  first.names.all (second.names.contains ·) && second.names.all (first.names.contains ·)

theorem names_insert_of_mem {roster : Roster} {name : String} (present : name ∈ roster.names) :
    (roster.insert name).names = roster.names := by
  simp [insert, present]

theorem names_insert_of_not_mem {roster : Roster} {name : String} (absent : name ∉ roster.names) :
    (roster.insert name).names = roster.names ++ [name] := by
  simp [insert, absent]

theorem mem_insert {roster : Roster} {name other : String} :
    other ∈ (roster.insert name).names ↔ other ∈ roster.names ∨ other = name := by
  by_cases present : name ∈ roster.names
  · rw [names_insert_of_mem present]
    exact ⟨.inl, fun member => member.elim id fun same => same ▸ present⟩
  · simp [names_insert_of_not_mem present]

end Roster

end Lifeline
