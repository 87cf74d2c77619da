import Lifeline.Diagram.Basic

/-! The ranges of a document, as a tree.

Every node of a document has a range of the source: the document, its diagrams, their statements and
the branches of those. The tree is in order if no node reaches out of the one that holds it, and nodes
beside one another stand one behind the other. -/

set_option autoImplicit false

namespace Lifeline

/-- The range of a node, over those of the nodes that it holds. -/
inductive Outline where
  | node (span : Span) (parts : List Outline)

namespace Outline

def span : Outline → Span
  | node span _ => span

end Outline

mutual

def Statement.outline : Statement → Outline
  | .alternative _ branches span => .node span (outlinesOfBranches branches)
  | .parallel branches span => .node span (outlinesOfBranches branches)
  | .loop _ statements span => .node span (outlinesOf statements)
  | .optional _ statements span => .node span (outlinesOf statements)
  | .participant _ _ _ span | .message _ _ _ _ _ _ span | .note _ _ _ span | .activation _ span
  | .deactivation _ span | .title _ span | .autonumber _ span | .error _ span => .node span []

def outlinesOf : List Statement → List Outline
  | [] => []
  | statement :: rest => statement.outline :: outlinesOf rest

def Branch.outline : Branch → Outline
  | .mk _ statements span => .node span (outlinesOf statements)

def outlinesOfBranches : List Branch → List Outline
  | [] => []
  | branch :: rest => branch.outline :: outlinesOfBranches rest

end

theorem outlinesOf_eq_map (statements : List Statement) :
    outlinesOf statements = statements.map Statement.outline := by
  induction statements with
  | nil => rfl
  | cons statement rest ih => rw [outlinesOf, ih, List.map_cons]

theorem outlinesOfBranches_eq_map (branches : List Branch) :
    outlinesOfBranches branches = branches.map Branch.outline := by
  induction branches with
  | nil => rfl
  | cons branch rest ih => rw [outlinesOfBranches, ih, List.map_cons]

def Diagram.outline (diagram : Diagram) : Outline :=
  .node diagram.span (outlinesOf diagram.statements)

def Document.outline (document : Document) : Outline :=
  .node document.span (document.diagrams.map Diagram.outline)

def Span.Within (inner outer : Span) : Prop :=
  outer.start ≤ inner.start ∧ inner.stop ≤ outer.stop

namespace Outline

/-- Whether every range of a tree fits, parts lie within what holds them, and of parts beside one
another each ends before the next ones start. -/
inductive Ordered (fits : Span → Prop) : Outline → Prop where
  | node {span : Span} {parts : List Outline} : fits span →
      (∀ part ∈ parts, part.span.Within span) →
      parts.Pairwise (fun first second => first.span.stop ≤ second.span.start) →
      (∀ part ∈ parts, part.Ordered fits) → Ordered fits (.node span parts)

variable {fits : Span → Prop} {outline : Outline}

theorem Ordered.bounded (ordered : outline.Ordered fits) {limit : Nat}
    (bound : outline.span.stop ≤ limit) :
    outline.Ordered fun span => fits span ∧ span.stop ≤ limit := by
  induction ordered with
  | node fit within apart _ ih =>
    exact .node ⟨fit, bound⟩ within apart fun part member =>
      ih part member (Nat.le_trans (within part member).2 bound)

/-! ## Rows -/

/-- Trees that stand one behind the other between two offsets. -/
structure Row (fits : Span → Prop) (low high : Nat) (parts : List Outline) : Prop where
  inside : ∀ part ∈ parts, low ≤ part.span.start ∧ part.span.stop ≤ high
  apart : parts.Pairwise fun first second => first.span.stop ≤ second.span.start
  ordered : ∀ part ∈ parts, part.Ordered fits

namespace Row

variable {low middle high : Nat} {parts : List Outline}

theorem nil : Row fits low high [] := ⟨by simp, .nil, by simp⟩

theorem mono (row : Row fits low middle parts) (higher : middle ≤ high) : Row fits low high parts where
  inside part member := by
    obtain ⟨lower, upper⟩ := row.inside part member
    exact ⟨lower, Nat.le_trans upper higher⟩
  apart := row.apart
  ordered := row.ordered

theorem concat (row : Row fits low middle parts) (bounds : low ≤ middle) {part : Outline}
    (ordered : part.Ordered fits) (behind : middle ≤ part.span.start) (within : part.span.stop ≤ high)
    (higher : middle ≤ high) : Row fits low high (parts ++ [part]) where
  inside := by
    refine List.forall_mem_append.2 ⟨(row.mono higher).inside, ?_⟩
    exact List.forall_mem_singleton.2 ⟨Nat.le_trans bounds behind, within⟩
  apart := by
    refine List.pairwise_append.2 ⟨row.apart, .cons (by simp) .nil, fun first member second last => ?_⟩
    rw [List.mem_singleton.1 last]
    exact Nat.le_trans (row.inside first member).2 behind
  ordered := List.forall_mem_append.2 ⟨row.ordered, List.forall_mem_singleton.2 ordered⟩

theorem node {span : Span} (row : Row fits low high parts) (starts : span.start ≤ low)
    (stops : high ≤ span.stop) (fit : fits span) : (Outline.node span parts).Ordered fits := by
  refine .node fit (fun part member => ?_) row.apart row.ordered
  obtain ⟨lower, upper⟩ := row.inside part member
  exact ⟨Nat.le_trans starts lower, Nat.le_trans upper stops⟩

end Row

end Outline

end Lifeline
