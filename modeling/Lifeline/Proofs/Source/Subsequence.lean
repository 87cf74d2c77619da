import Lifeline.Proofs.Source.CommonEnds
import Mathlib.Data.List.Induction
import Mathlib.Order.Bounds.Basic

/-! The lines that two texts have in common.

Row by row, the table gives the lengths of longest common subsequences of all starts of the two lists.
What both lists start and end with belongs to some longest common subsequence of them, so nothing is lost
by setting it aside. -/

set_option autoImplicit false

namespace Lifeline

variable {α : Type} {first second lead trail done others : List α} {item other : α} {row : List Nat}
  {count left : Nat}

def commonLengths (first second : List α) : Set Nat :=
  {length | ∃ run : List α, run.Sublist first ∧ run.Sublist second ∧ run.length = length}

/-- Whether a longest common subsequence of two lists has this length. -/
def LongestCommon (first second : List α) (count : Nat) : Prop :=
  IsGreatest (commonLengths first second) count

namespace LongestCommon

/-! ## Laws of longest common subsequences -/

theorem symm (longest : LongestCommon first second count) : LongestCommon second first count := by
  obtain ⟨⟨run, within, within', length⟩, most⟩ := longest
  refine ⟨⟨run, within', within, length⟩, ?_⟩
  rintro _ ⟨run, within, within', rfl⟩
  exact most ⟨run, within', within, rfl⟩

theorem le_left (longest : LongestCommon first second count) : count ≤ first.length := by
  obtain ⟨run, within, -, rfl⟩ := longest.1
  exact within.length_le

theorem eq_of_length (longest : LongestCommon first second count) (whole : first.length = count)
    (whole' : second.length = count) : first = second := by
  obtain ⟨run, within, within', rfl⟩ := longest.1
  rw [← within.eq_of_length whole.symm, ← within'.eq_of_length whole'.symm]

theorem nil_left (second : List α) : LongestCommon [] second 0 := by
  refine ⟨⟨[], List.nil_sublist _, List.nil_sublist _, rfl⟩, ?_⟩
  rintro _ ⟨run, within, -, rfl⟩
  simp [List.sublist_nil.1 within]

theorem nil_right (first : List α) : LongestCommon first [] 0 := (nil_left first).symm

theorem cons (longest : LongestCommon first second count) (item : α) :
    LongestCommon (item :: first) (item :: second) (count + 1) := by
  obtain ⟨⟨run, within, within', rfl⟩, most⟩ := longest
  refine ⟨⟨item :: run, within.cons_cons item, within'.cons_cons item, rfl⟩, ?_⟩
  rintro _ ⟨run', starts, starts', rfl⟩
  have rest := most ⟨run'.tail, starts.tail, starts'.tail, rfl⟩
  rw [List.length_tail] at rest
  omega

/-- If the first items differ, a common subsequence does without one of them. -/
theorem cons_max (differs : item ≠ other) (longest : LongestCommon first (other :: second) count)
    (longest' : LongestCommon (item :: first) second left) :
    LongestCommon (item :: first) (other :: second) (max left count) := by
  refine ⟨?_, ?_⟩
  · rcases Nat.le_total left count with less | more
    · rw [Nat.max_eq_right less]
      obtain ⟨run, within, within', length⟩ := longest.1
      exact ⟨run, within.cons item, within', length⟩
    · rw [Nat.max_eq_left more]
      obtain ⟨run, within, within', length⟩ := longest'.1
      exact ⟨run, within, within'.cons other, length⟩
  · rintro _ ⟨run, starts, starts', rfl⟩
    cases starts with
    | cons _ within =>
      exact (longest.2 ⟨run, within, starts', rfl⟩).trans (Nat.le_max_right _ _)
    | cons_cons _ within =>
      cases starts' with
      | cons _ within' =>
        exact (longest'.2 ⟨_, within.cons_cons item, within', rfl⟩).trans (Nat.le_max_left _ _)
      | cons_cons _ _ => exact absurd rfl differs

theorem reverse_iff :
    LongestCommon first.reverse second.reverse count ↔ LongestCommon first second count := by
  have same : commonLengths first.reverse second.reverse = commonLengths first second := by
    ext length
    constructor
    · rintro ⟨run, within, within', rfl⟩
      rw [← List.reverse_sublist, List.reverse_reverse] at within within'
      exact ⟨run.reverse, within, within', List.length_reverse⟩
    · rintro ⟨run, within, within', rfl⟩
      exact ⟨run.reverse, within.reverse, within'.reverse, List.length_reverse⟩
  rw [LongestCommon, LongestCommon, same]

theorem concat (longest : LongestCommon first second count) (item : α) :
    LongestCommon (first ++ [item]) (second ++ [item]) (count + 1) := by
  have turned := (reverse_iff.2 longest).cons item
  rwa [← reverse_iff, List.reverse_concat, List.reverse_concat]

theorem concat_max (differs : item ≠ other)
    (longest : LongestCommon first (second ++ [other]) count)
    (longest' : LongestCommon (first ++ [item]) second left) :
    LongestCommon (first ++ [item]) (second ++ [other]) (max left count) := by
  rw [← reverse_iff, List.reverse_concat] at longest longest' ⊢
  rw [List.reverse_concat]
  exact longest.cons_max differs longest'

theorem append_left (longest : LongestCommon first second count) (lead : List α) :
    LongestCommon (lead ++ first) (lead ++ second) (lead.length + count) := by
  induction lead with
  | nil => simpa using longest
  | cons item lead ih =>
    rw [List.length_cons, Nat.add_right_comm]
    exact ih.cons item

theorem append_right (longest : LongestCommon first second count) (trail : List α) :
    LongestCommon (first ++ trail) (second ++ trail) (count + trail.length) := by
  induction trail using List.reverseRecOn with
  | nil => simpa using longest
  | append_singleton trail item ih =>
    rw [← List.append_assoc, ← List.append_assoc, List.length_append, ← Nat.add_assoc]
    exact ih.concat item

end LongestCommon

namespace LineDifference

open LongestCommon

/-! ## The table -/

/-- A row of the table from the entry for `done` on: what the first list has in common with each start of
the second one. -/
inductive Row (first : List α) : List α → List α → List Nat → Prop where
  | last {done : List α} {count : Nat} : LongestCommon first done count → Row first done [] [count]
  | entry {done others : List α} {other : α} {count : Nat} {row : List Nat} :
      LongestCommon first done count → Row first (done ++ [other]) others row →
      Row first done (other :: others) (count :: row)

theorem row_nil (done others : List α) : Row [] done others (List.replicate (others.length + 1) 0) := by
  induction others generalizing done with
  | nil => exact .last (nil_left done)
  | cons other others ih => exact .entry (nil_left done) (ih _)

theorem Row.exists_cons (table : Row first done others row) :
    ∃ count rest, row = count :: rest ∧ LongestCommon first done count := by
  cases table with
  | last longest => exact ⟨_, _, rfl, longest⟩
  | entry longest _ => exact ⟨_, _, rfl, longest⟩

theorem Row.longest (table : Row first done others row) :
    LongestCommon first (done ++ others) (row.getLast?.getD 0) := by
  induction table with
  | last longest => simpa using longest
  | entry _ table ih =>
    obtain ⟨count, rest, rfl, -⟩ := table.exists_cons
    rw [List.getLast?_cons_cons]
    simpa using ih

variable [DecidableEq α]

theorem row_nextRow (table : Row first done others row)
    (longest : LongestCommon (first ++ [item]) done left) :
    Row (first ++ [item]) done others (left :: nextRow item left others row) := by
  induction table generalizing left with
  | last _ => exact .last longest
  | entry diagonal table ih =>
    obtain ⟨above, rest, rfl, longest'⟩ := table.exists_cons
    refine .entry longest (ih ?_)
    -- The entry is made from its three neighbours, of which two belong to the row above.
    split
    · rename_i same
      exact same ▸ diagonal.concat item
    · rename_i differs
      exact longest'.concat_max differs longest

theorem row_lastRow (first second : List α) : Row first [] second (lastRow first second) := by
  induction first using List.reverseRecOn with
  | nil => exact row_nil [] second
  | append_singleton first item ih =>
    rw [lastRow, List.foldl_append]
    exact row_nextRow ih (nil_right _)

theorem longest_commonLength (first second : List α) :
    LongestCommon first second (commonLength first second) :=
  (row_lastRow first second).longest

theorem commonLength_comm (first second : List α) :
    commonLength first second = commonLength second first :=
  (longest_commonLength first second).unique (longest_commonLength second first).symm

/-! ## Counts of lines -/

/-- The number of items that count as common to the parts that differ. -/
def commonCount (oldPart newPart : List α) : Nat :=
  if maxCells < oldPart.length * newPart.length then 0 else commonLength oldPart newPart

theorem commonCount_le_left (oldPart newPart : List α) :
    commonCount oldPart newPart ≤ oldPart.length := by
  unfold commonCount
  split
  · exact Nat.zero_le _
  · exact (longest_commonLength oldPart newPart).le_left

theorem commonCount_comm (oldPart newPart : List α) :
    commonCount oldPart newPart = commonCount newPart oldPart := by
  rw [commonCount, commonCount, Nat.mul_comm, commonLength_comm]

theorem exists_betweenLists (old new : List α) : ∃ lead oldPart newPart trail,
    CommonEnds old new lead oldPart newPart trail ∧ betweenLists old new =
      ⟨newPart.length - commonCount oldPart newPart, oldPart.length - commonCount oldPart newPart,
        old.length, new.length⟩ := by
  obtain ⟨lead, oldPart, newPart, trail, ends, start, finish⟩ := exists_commonEnds old new
  refine ⟨lead, oldPart, newPart, trail, ends, ?_⟩
  have oldRest : old.drop (commonStart old new) = oldPart ++ trail := by
    rw [← start, ends.old_eq, List.drop_left]
  have newRest : new.drop (commonStart old new) = newPart ++ trail := by
    rw [← start, ends.new_eq, List.drop_left]
  rw [betweenLists, ← finish, oldRest, newRest]
  simp [commonCount]

theorem betweenLists_swap (old new : List α) :
    betweenLists new old =
      ⟨(betweenLists old new).removed, (betweenLists old new).added,
        (betweenLists old new).newLength, (betweenLists old new).oldLength⟩ := by
  unfold betweenLists
  dsimp only
  rw [commonStart_comm new old, commonStart_comm (new.drop _).reverse, Nat.mul_comm,
    commonLength_comm]

theorem exists_kept (old new : List α) : ∃ lead oldPart newPart trail kept,
    CommonEnds old new lead oldPart newPart trail ∧
      (betweenLists old new).removed + kept = old.length ∧
      (betweenLists old new).added + kept = new.length ∧
      (oldPart.length * newPart.length ≤ maxCells → LongestCommon old new kept) ∧
      (maxCells < oldPart.length * newPart.length → kept = lead.length + trail.length) := by
  obtain ⟨lead, oldPart, newPart, trail, ends, same⟩ := exists_betweenLists old new
  have fits := commonCount_le_left oldPart newPart
  have fits' := commonCount_le_left newPart oldPart
  rw [commonCount_comm] at fits'
  refine ⟨lead, oldPart, newPart, trail,
    lead.length + (commonCount oldPart newPart + trail.length), ends, ?_, ?_, fun small => ?_,
    fun large => ?_⟩
  · rw [same, ends.old_eq]
    simp only [List.length_append]
    omega
  · rw [same, ends.new_eq]
    simp only [List.length_append]
    omega
  · rw [commonCount, if_neg (Nat.not_lt.2 small), ends.old_eq, ends.new_eq]
    exact ((longest_commonLength oldPart newPart).append_right trail).append_left lead
  · rw [commonCount, if_pos large, Nat.zero_add]

theorem isUnchanged_betweenLists_iff (old new : List α) :
    (betweenLists old new).isUnchanged = true ↔ old = new := by
  obtain ⟨lead, oldPart, newPart, trail, kept, ends, removed, added, longest, without⟩ :=
    exists_kept old new
  rw [isUnchanged, Bool.and_eq_true, beq_iff_eq, beq_iff_eq]
  constructor
  · rintro ⟨noneAdded, noneRemoved⟩
    rw [noneRemoved, Nat.zero_add] at removed
    rw [noneAdded, Nat.zero_add] at added
    by_cases large : maxCells < oldPart.length * newPart.length
    · -- Then nothing counts as common to the parts that differ, so there are none.
      have whole := congrArg List.length ends.old_eq
      rw [List.length_append, List.length_append, ← removed, without large] at whole
      have none : oldPart.length = 0 := by omega
      simp [none] at large
    · exact (longest (Nat.not_lt.1 large)).eq_of_length removed.symm added.symm
  · rintro rfl
    obtain ⟨lead, oldPart, newPart, trail, ends, same⟩ := exists_betweenLists old old
    obtain ⟨rfl, rfl, -⟩ := ends.parts_eq_nil
    simp [same]

/-! ## Lines -/

def lineList (text : String) : List String := (Text.lines text.toList).map String.ofList

/-- The lines that are neither removed nor added are the same number in both texts: as many as a longest
common subsequence of all their lines has, unless the parts that differ are too long for that; then as
many as the texts have in common at both ends. There are no others exactly if the texts have the same
lines. -/
theorem between_exact (old new : String) : ∃ lead oldPart newPart trail kept,
    CommonEnds (lineList old) (lineList new) lead oldPart newPart trail ∧
      (between old new).oldLength = (lineList old).length ∧
      (between old new).newLength = (lineList new).length ∧
      (between old new).removed + kept = (between old new).oldLength ∧
      (between old new).added + kept = (between old new).newLength ∧
      (oldPart.length * newPart.length ≤ maxCells →
        LongestCommon (lineList old) (lineList new) kept) ∧
      (maxCells < oldPart.length * newPart.length → kept = lead.length + trail.length) ∧
      ((between old new).isUnchanged = true ↔ lineList old = lineList new) ∧
      between new old =
        ⟨(between old new).removed, (between old new).added, (between old new).newLength,
          (between old new).oldLength⟩ := by
  obtain ⟨lead, oldPart, newPart, trail, kept, ends, removed, added, longest, without⟩ :=
    exists_kept (lineList old) (lineList new)
  exact ⟨lead, oldPart, newPart, trail, kept, ends, rfl, rfl, removed, added, longest, without,
    isUnchanged_betweenLists_iff _ _, betweenLists_swap _ _⟩

/-- A line that is repeated more often is neither lost nor counted twice. -/
example : between "a\na" "a\nb\na\na" = ⟨2, 0, 2, 4⟩ := by decide

end LineDifference

end Lifeline
