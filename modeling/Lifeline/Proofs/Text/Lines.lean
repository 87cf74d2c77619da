import Lifeline.Proofs.Text.Words
import Lifeline.Text.Lines

/-! Texts that are cut into pieces and lines.

Every piece is a run of the text. Lines that hold no line feed, and end without a carriage return,
are the lines of what they are joined to, unless an empty one comes last. -/

set_option autoImplicit false

namespace Lifeline.Text

theorem split_of_not_mem {p : Char → Bool} {text : List Char} (without : ∀ c ∈ text, p c = false) :
    split p text = [text] := by
  induction text with
  | nil => rfl
  | cons c rest ih =>
    have noCut := without c List.mem_cons_self
    rw [split, noCut, if_neg Bool.false_ne_true,
      ih fun d member => without d (List.mem_cons_of_mem c member)]

theorem split_append_cons {p : Char → Bool} {text : List Char} (without : ∀ c ∈ text, p c = false)
    {c : Char} (cut : p c = true) (rest : List Char) :
    split p (text ++ c :: rest) = text :: split p rest := by
  induction text with
  | nil => rw [List.nil_append, split, if_pos cut]
  | cons d text ih =>
    have noCut := without d List.mem_cons_self
    rw [List.cons_append, split, noCut, if_neg Bool.false_ne_true,
      ih fun e member => without e (List.mem_cons_of_mem d member)]

theorem not_mem_of_mem_split {p : Char → Bool} {text piece : List Char}
    (member : piece ∈ split p text) : ∀ c ∈ piece, p c = false := by
  induction text generalizing piece with
  | nil =>
    rw [split, List.mem_singleton] at member
    simp [member]
  | cons c rest ih =>
    rw [split] at member
    split at member
    · rcases List.mem_cons.1 member with rfl | later
      · simp
      · exact ih later
    · rename_i noCut
      obtain ⟨first, pieces, same⟩ := List.exists_cons_of_ne_nil (split_ne_nil p rest)
      rw [same] at member ih
      rcases List.mem_cons.1 member with rfl | later
      · exact List.forall_mem_cons.2 ⟨by simpa using noCut, ih List.mem_cons_self⟩
      · exact ih (List.mem_cons_of_mem first later)

theorem eq_of_split_eq_singleton {p : Char → Bool} {text piece : List Char}
    (single : split p text = [piece]) : text = piece := by
  induction text generalizing piece with
  | nil => exact (List.singleton_inj.1 single)
  | cons c rest ih =>
    obtain ⟨first, pieces, same⟩ := List.exists_cons_of_ne_nil (split_ne_nil p rest)
    rw [split, same] at single
    split at single
    · cases single
    · obtain ⟨rfl, rfl⟩ := List.cons.inj single
      rw [ih same]

/-- A text at the end of another one that holds no separator joins its last piece. -/
theorem split_append_of_not_mem {p : Char → Bool} {trail : List Char}
    (without : ∀ c ∈ trail, p c = false) (text : List Char) : ∃ pieces last,
      split p text = pieces ++ [last] ∧ split p (text ++ trail) = pieces ++ [last ++ trail] := by
  induction text with
  | nil => exact ⟨[], [], rfl, split_of_not_mem without⟩
  | cons c rest ih =>
    obtain ⟨pieces, last, same, same'⟩ := ih
    rw [List.cons_append, split, split, same, same']
    split
    · exact ⟨[] :: pieces, last, rfl, rfl⟩
    · cases pieces with
      | nil => exact ⟨[], c :: last, rfl, rfl⟩
      | cons first pieces => exact ⟨(c :: first) :: pieces, last, rfl, rfl⟩

theorem split_pieces (p : Char → Bool) (text : List Char) : ∃ piece pieces,
    split p text = piece :: pieces ∧ piece <+: text ∧ ∀ other ∈ pieces, other <:+: text := by
  -- A further character joins the first piece only, which therefore starts the text.
  induction text with
  | nil => exact ⟨[], [], rfl, List.prefix_rfl, by simp⟩
  | cons c rest ih =>
    obtain ⟨piece, pieces, same, starts, inside⟩ := ih
    have later := (List.suffix_cons c rest).isInfix
    by_cases cut : p c = true
    · refine ⟨[], piece :: pieces, by rw [split, if_pos cut, same], List.nil_prefix, ?_⟩
      intro other member
      rcases List.mem_cons.1 member with rfl | member
      · exact starts.isInfix.trans later
      · exact (inside other member).trans later
    · refine ⟨c :: piece, pieces, by rw [split, if_neg cut, same], ?_, ?_⟩
      · exact List.cons_prefix_cons.2 ⟨rfl, starts⟩
      · exact fun other member => (inside other member).trans later

theorem infix_of_mem_split {p : Char → Bool} {text piece : List Char}
    (member : piece ∈ split p text) : piece <:+: text := by
  obtain ⟨first, pieces, same, starts, inside⟩ := split_pieces p text
  rw [same] at member
  rcases List.mem_cons.1 member with rfl | later
  · exact starts.isInfix
  · exact inside piece later

theorem dropReturn_infix (line : List Char) : dropReturn line <:+: line := by
  unfold dropReturn
  split
  · exact (List.dropLast_prefix line).isInfix
  · exact List.infix_rfl

theorem infix_of_mem_linesOf {pieces : List (List Char)} {line : List Char}
    (member : line ∈ linesOf pieces) : ∃ piece ∈ pieces, line <:+: piece := by
  fun_induction linesOf pieces with
  | case1 => cases member
  | case2 => cases member
  | case3 last => exact ⟨last, List.mem_cons_self, List.mem_singleton.1 member ▸ List.infix_rfl⟩
  | case4 first next rest ih =>
    rcases List.mem_cons.1 member with rfl | later
    · exact ⟨first, List.mem_cons_self, dropReturn_infix first⟩
    · obtain ⟨piece, inside, within⟩ := ih later
      exact ⟨piece, List.mem_cons_of_mem first inside, within⟩

theorem infix_of_mem_lines {text line : List Char} (member : line ∈ lines text) :
    line <:+: text := by
  obtain ⟨piece, inside, within⟩ := infix_of_mem_linesOf member
  exact within.trans (infix_of_mem_split inside)

theorem split_intercalate {texts : List (List Char)} (nonempty : texts ≠ [])
    (noFeed : ∀ text ∈ texts, '\n' ∉ text) :
    split isLineFeed (['\n'].intercalate texts) = texts := by
  have without (text : List Char) (member : text ∈ texts) : ∀ c ∈ text, isLineFeed c = false := by
    intro c inside
    have other : c ≠ '\n' := fun same => noFeed text member (same ▸ inside)
    simpa [isLineFeed] using other
  induction texts with
  | nil => exact absurd rfl nonempty
  | cons text rest ih =>
    have first := without text List.mem_cons_self
    cases rest with
    | nil => simpa using split_of_not_mem first
    | cons next rest =>
      have later := ih (by simp)
        (fun other member => noFeed other (List.mem_cons_of_mem text member))
        fun other member => without other (List.mem_cons_of_mem text member)
      rw [List.intercalate_cons_cons, List.append_assoc, List.singleton_append,
        split_append_cons first (by decide), later]

theorem dropReturn_of_not_mem {line : List Char} (noReturn : '\r' ∉ line) :
    dropReturn line = line := by
  rw [dropReturn, if_neg]
  exact fun last => noReturn (List.mem_of_getLast? last)

theorem lines_append_cons {line : List Char} (noFeed : '\n' ∉ line) (noReturn : '\r' ∉ line)
    (rest : List Char) : lines (line ++ '\n' :: rest) = line :: lines rest := by
  have without : ∀ c ∈ line, isLineFeed c = false := fun c member =>
    beq_false_of_ne fun same => noFeed (same ▸ member)
  have kept := dropReturn_of_not_mem noReturn
  obtain ⟨piece, pieces, same⟩ := List.exists_cons_of_ne_nil (split_ne_nil isLineFeed rest)
  rw [lines, split_append_cons without (by decide), same, linesOf, kept, ← same, ← lines]

theorem lines_intercalate {texts : List (List Char)} (nonempty : ∀ text ∈ texts, text ≠ [])
    (noFeed : ∀ text ∈ texts, '\n' ∉ text) (noReturn : ∀ text ∈ texts, '\r' ∉ text) :
    lines (['\n'].intercalate texts) = texts := by
  by_cases some : texts = []
  · rw [some]
    rfl
  -- The pieces are the given texts, and no return at the end of one is dropped.
  rw [lines, split_intercalate some noFeed]
  fun_induction linesOf texts with
  | case1 => rfl
  | case2 last empty => exact absurd (List.isEmpty_iff.1 empty) (nonempty last List.mem_cons_self)
  | case3 => rfl
  | case4 first next rest ih =>
    have kept := dropReturn_of_not_mem (noReturn first List.mem_cons_self)
    have later := ih (fun text member => nonempty text (List.mem_cons_of_mem first member))
      (fun text member => noFeed text (List.mem_cons_of_mem first member))
      (fun text member => noReturn text (List.mem_cons_of_mem first member)) (by simp)
    rw [kept, later]

end Lifeline.Text
