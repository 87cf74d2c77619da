import Lifeline.Source.LineDifference

/-! What two lists have in common at both ends.

The longest start that both have is set aside first, and then the longest end of what is left of each.
So the two never overlap, however much the lists repeat themselves. -/

set_option autoImplicit false

namespace Lifeline

variable {α : Type} {old new lead oldPart newPart trail : List α}

/-- Two lists as the longest start of both, what differs, and the longest end of both behind that
start. -/
structure CommonEnds (old new lead oldPart newPart trail : List α) : Prop where
  old_eq : old = lead ++ (oldPart ++ trail)
  new_eq : new = lead ++ (newPart ++ trail)
  lead_longest : ∀ run, run <+: old → run <+: new → run <+: lead
  trail_longest : ∀ run, run <:+ oldPart ++ trail → run <:+ newPart ++ trail → run <:+ trail

namespace CommonEnds

theorem parts_eq_nil (ends : CommonEnds old old lead oldPart newPart trail) :
    oldPart = [] ∧ newPart = [] ∧ trail = [] := by
  have whole := (ends.lead_longest old List.prefix_rfl List.prefix_rfl).length_le
  have old_eq := congrArg List.length ends.old_eq
  have new_eq := congrArg List.length ends.new_eq
  simp only [List.length_append] at old_eq new_eq
  simp only [← List.length_eq_zero_iff]
  omega

end CommonEnds

namespace LineDifference

variable [DecidableEq α]

theorem exists_commonStart (first second : List α) : ∃ lead rest rest',
    first = lead ++ rest ∧ second = lead ++ rest' ∧ lead.length = commonStart first second ∧
      ∀ run, run <+: first → run <+: second → run <+: lead := by
  fun_induction commonStart first second with
  | case1 first a second ih =>
    obtain ⟨lead, rest, rest', rfl, rfl, length, longest⟩ := ih
    refine ⟨a :: lead, rest, rest', rfl, rfl, congrArg (· + 1) length, fun run starts starts' => ?_⟩
    cases run with
    | nil => exact List.nil_prefix
    | cons b run =>
      rw [List.cons_prefix_cons] at starts starts' ⊢
      exact ⟨starts.1, longest run starts.2 starts'.2⟩
  | case2 a first b second differs =>
    refine ⟨[], _, _, rfl, rfl, rfl, fun run starts starts' => ?_⟩
    cases run with
    | nil => exact List.nil_prefix
    | cons c run =>
      rw [List.cons_prefix_cons] at starts starts'
      exact absurd (starts.1.symm.trans starts'.1) differs
  | case3 first second noPair =>
    refine ⟨[], _, _, rfl, rfl, rfl, fun run starts starts' => ?_⟩
    -- A start of an empty list is empty, and one of the two lists is.
    rcases first with _ | ⟨a, first⟩
    · exact starts
    · rcases second with _ | ⟨b, second⟩
      · exact starts'
      · exact absurd rfl (noPair a first b second rfl)

theorem commonStart_comm (first second : List α) :
    commonStart first second = commonStart second first := by
  fun_induction commonStart first second with
  | case1 first a second ih => simp [commonStart, ih]
  | case2 a first b second differs => simp [commonStart, Ne.symm differs]
  | case3 first second noPair =>
    rcases first with _ | ⟨a, first⟩
    · simp [commonStart]
    · rcases second with _ | ⟨b, second⟩
      · simp [commonStart]
      · exact absurd rfl (noPair a first b second rfl)

/-- What the ends in common come to when they are counted, the second one from the back. -/
theorem exists_commonEnds (old new : List α) : ∃ lead oldPart newPart trail,
    CommonEnds old new lead oldPart newPart trail ∧ lead.length = commonStart old new ∧
      trail.length = commonStart (old.drop (commonStart old new)).reverse
        (new.drop (commonStart old new)).reverse := by
  obtain ⟨lead, oldRest, newRest, rfl, rfl, length, longest⟩ := exists_commonStart old new
  obtain ⟨back, oldBack, newBack, old_eq, new_eq, count, longest'⟩ :=
    exists_commonStart oldRest.reverse newRest.reverse
  rw [List.reverse_eq_iff, List.reverse_append] at old_eq new_eq
  rw [← length, List.drop_left, List.drop_left, ← count]
  refine ⟨lead, oldBack.reverse, newBack.reverse, back.reverse, ?_, rfl, List.length_reverse⟩
  refine ⟨by rw [old_eq], by rw [new_eq], longest, fun run ends ends' => ?_⟩
  rw [← old_eq, ← List.reverse_prefix] at ends
  rw [← new_eq, ← List.reverse_prefix] at ends'
  rw [← List.reverse_prefix, List.reverse_reverse]
  exact longest' run.reverse ends ends'

end LineDifference

end Lifeline
