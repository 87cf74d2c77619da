import Lifeline.Proofs.Diagram.Blocks
import Lifeline.Proofs.Storyboard.Inert
import Lifeline.Proofs.Storyboard.Placement
import Lifeline.Proofs.Storyboard.Rewording

/-! The lines of a storyboard's text, one by one, read as statements.

A line that writes a message, an activation or a note reads as the statement that stands for it,
with identifiers for names and inert text for free text. -/

set_option autoImplicit false

namespace Lifeline

open Token (Lexed IsIdentifier kinds)
open Parsing (Reads labelText)

namespace Render

def shown (name : String) : String :=
  String.ofList (withoutQuotes (Text.collapse name.toList))

theorem unquoted_shown (name : String) : '"' ∉ (shown name).toList := by
  rw [shown, String.toList_ofList]
  exact mem_withoutQuotes

def noteText (text : String) : String :=
  if text.toList.contains '\n' then
    "\n".intercalate
      ((((Text.lines text.toList).map noteLine).filter (! ·.isEmpty)).map String.ofList)
  else String.ofList (inert text.toList)

/-- Whether the label of a block can be read as a whole. -/
def LabelKept (label : String) : Prop :=
  ∀ kind ∈ kinds (inert label.toList),
    kind ≠ .endUml ∧ kind.isBlockBoundary = false ∧ kind ≠ .startUml

def NoteKept (text : String) : Prop :=
  if text.toList.contains '\n' then
    ∀ line ∈ Text.lines text.toList,
      .endUml ∉ kinds (noteLine line) ∧ ¬[.endMark, .note] <+: kinds (noteLine line)
  else .endUml ∉ kinds (inert text.toList)

instance (label : String) : Decidable (LabelKept label) :=
  inferInstanceAs (Decidable (∀ kind ∈ kinds (inert label.toList),
    kind ≠ .endUml ∧ kind.isBlockBoundary = false ∧ kind ≠ .startUml))

instance (text : String) : Decidable (NoteKept text) :=
  inferInstanceAs (Decidable (if text.toList.contains '\n' then
    ∀ line ∈ Text.lines text.toList,
      .endUml ∉ kinds (noteLine line) ∧ ¬[.endMark, .note] <+: kinds (noteLine line)
  else .endUml ∉ kinds (inert text.toList)))

theorem harmless_inert {text : List Char} (kept : .endUml ∉ kinds (inert text)) :
    Harmless (inert text) :=
  ⟨inert_inert text, kept⟩

theorem labels_inert {label : String} (kept : LabelKept label) : Labels (inert label.toList) where
  toInert := inert_inert _
  endUml member := (kept _ member).1 rfl
  boundary kind member := (kept kind member).2.1
  startUml member := (kept _ member).2.2 rfl

def written (lines : List Line) : List Char := lines.flatMap (·.write.toList)

@[simp] theorem written_nil : written [] = [] := rfl

@[simp] theorem written_append (first second : List Line) :
    written (first ++ second) = written first ++ written second := List.flatMap_append

theorem written_cons (depth : Nat) (text : String) (rest : List Line) :
    written (⟨depth, text⟩ :: rest) =
      List.replicate (2 * depth) ' ' ++ (text.toList ++ '\n' :: written rest) := by
  simp [written, Line.write]

theorem labelled_toList (keyword label : String) :
    (labelled keyword label).toList = keyword.toList ++ labelText (inert label.toList) := by
  unfold labelled labelText
  dsimp only
  split
  · simp
  · simp

/-! ## Statements -/

theorem reads_keyword (keyword : String) {kind : Token.Kind}
    (isWord : Token.IsWord keyword.toList) (known : Token.wordKind keyword.toList = kind)
    (starts : Parsing.startsLeaf kind = true) (body : List Char) {means : Statement → Prop}
    (reading : ∀ (token : Token) (tail : List Char) (stream : Stream), token.kind = kind →
      Lexed false (' ' :: (body ++ '\n' :: tail)) stream.ahead → ∃ statement left,
        Parsing.leaf token stream = ⟨some statement, none, left⟩ ∧ means statement ∧
          Lexed false ('\n' :: tail) left.ahead) :
    Reads ((keyword.toList ++ ' ' :: body) ++ ['\n']) fun statements =>
      ∃ statement, statements = [statement] ∧ means statement := by
  apply Reads.leaf
  intro tail tokens lexed
  rw [List.append_assoc, List.cons_append] at lexed
  obtain ⟨token, more, same, found, -, later⟩ := lexed.word _ isWord (Token.endsWord_space _)
  have found : token.kind = kind := found.trans known
  refine ⟨token, more, same, found ▸ starts, fun stream ahead => ?_⟩
  exact reading token tail stream found (ahead ▸ later)

theorem reads_line (depth : Nat) {text : String} (line : List Char) (cut : text.toList = line)
    {means : List Statement → Prop} (reads : Reads (line ++ ['\n']) means) :
    Reads (written [⟨depth, text⟩]) means := by
  rw [written_cons, cut]
  exact reads.indent (2 * depth)

theorem reads_onName (missing : String) (statement : String → Span → Statement) (keyword : String)
    {kind : Token.Kind} (isWord : Token.IsWord keyword.toList)
    (known : Token.wordKind keyword.toList = kind) (starts : Parsing.startsLeaf kind = true)
    (leaf : ∀ token stream, token.kind = kind →
      Parsing.leaf token stream = Leaf.onName missing statement token stream)
    {actor : String} (identifier : IsIdentifier actor) {line : String}
    (cut : line.toList = keyword.toList ++ ' ' :: actor.toList) (depth : Nat) :
    Reads (written [⟨depth, line⟩]) fun statements =>
      ∃ one, statements = [one] ∧ ∃ span, one = statement actor span := by
  apply reads_line depth _ cut
  apply reads_keyword keyword isWord known starts actor.toList
  intro token tail stream kind lexed
  obtain ⟨span, left, read, last⟩ := Leaf.onName_lexed missing statement token identifier lexed
  exact ⟨_, left, (leaf token stream kind).trans read, ⟨span, rfl⟩, last⟩

theorem reads_title {text : List Char} (harmless : Harmless text) :
    Reads (written [⟨0, "title " ++ String.ofList text⟩]) fun statements =>
      ∃ statement, statements = [statement] ∧
        ∃ span, statement = .title (String.ofList text) span := by
  apply reads_line 0 ("title".toList ++ ' ' :: text) (by simp)
  apply reads_keyword "title" (by decide) rfl rfl text
  intro token tail stream kind lexed
  obtain ⟨span, left, read, last⟩ := Leaf.title_lexed token harmless lexed
  exact ⟨_, left, by rw [Parsing.leaf, kind]; exact read, ⟨span, rfl⟩, last⟩

theorem reads_participant {name short : String} (identifier : IsIdentifier short) :
    Reads (written [⟨0, "actor \"" ++ shown name ++ "\" as " ++ short⟩]) fun statements =>
      ∃ statement, statements = [statement] ∧
        ∃ span, statement = .participant .actor (shown name) (some short) span := by
  apply reads_line 0 ("actor".toList ++ ' ' :: ('"' :: ((shown name).toList ++
    '"' :: ' ' :: 'a' :: 's' :: ' ' :: short.toList))) (by simp)
  apply reads_keyword "actor" (by decide) rfl rfl
  intro token tail stream kind lexed
  have closed : '"' ∉ withoutQuotes (Text.collapse name.toList) := mem_withoutQuotes
  obtain ⟨span, left, read, last⟩ :=
    Leaf.participant_lexed .actor token closed identifier (by simpa [shown] using lexed)
  exact ⟨_, left, by rw [Parsing.leaf, kind]; exact read, ⟨span, rfl⟩, last⟩

theorem reads_message {source target : String} (sender : IsIdentifier source)
    (receiver : IsIdentifier target) {text : List Char} (kept : .endUml ∉ kinds (inert text))
    (depth : Nat) :
    Reads (written [⟨depth, messageLine source target text⟩]) fun statements =>
      ∃ statement, statements = [statement] ∧ ∃ span,
        statement = .message source target (String.ofList (inert text)) "->" false false span := by
  rw [written_cons]
  apply Reads.indent
  apply Reads.leaf
  intro tail tokens lexed
  have arrow : (messageLine source target text).toList = source.toList ++
      ' ' :: '-' :: '>' :: ' ' :: (target.toList ++
        if (inert text).isEmpty then [] else ' ' :: ':' :: ' ' :: inert text) := by
    unfold messageLine
    dsimp only
    split <;> simp
  rw [arrow, List.append_assoc] at lexed
  obtain ⟨token, more, same, kind, -, value, later⟩ := lexed.identifier sender (Token.endsWord_space _)
  have isName : token.kind.isName = true := by rw [kind]; rfl
  refine ⟨token, more, same, by rw [kind]; rfl, fun stream ahead => ?_⟩
  rw [← ahead] at later
  simp only [List.cons_append, List.append_assoc] at later
  -- An empty text is left out, together with the colon before it.
  by_cases empty : (inert text).isEmpty = true
  · rw [if_pos empty] at later
    obtain ⟨span, left, read, last⟩ := Leaf.message_lexed isName receiver later
    refine ⟨_, left, by rw [Parsing.leaf, kind]; exact read, ⟨span, ?_⟩, last⟩
    rw [value, List.isEmpty_iff.1 empty]
  · rw [if_neg empty] at later
    obtain ⟨span, left, read, last⟩ :=
      Leaf.message_text_lexed isName receiver (harmless_inert kept) later
    refine ⟨_, left, by rw [Parsing.leaf, kind]; exact read, ⟨span, ?_⟩, last⟩
    rw [value]

/-! ## Notes -/

theorem bodyLine_noteLine {line : List Char} (endUml : .endUml ∉ kinds (noteLine line))
    (noEnd : ¬[.endMark, .note] <+: kinds (noteLine line)) : Leaf.BodyLine (noteLine line) where
  toInert := inert_noteLine line
  endUml := endUml
  apostrophe := head?_noteLine line
  noEnd := noEnd

/-- The text of a note on several lines, as one line of text that holds the others. -/
theorem written_noteLines (depth : Nat) (position : String) (lines : List (List Char)) :
    written (⟨depth, "note " ++ position⟩ ::
        lines.map (fun line => ⟨depth + 1, String.ofList (noteLine line)⟩) ++
      [⟨depth, "end note"⟩]) =
      List.replicate (2 * depth) ' ' ++
        (("note".toList ++ ' ' :: (position.toList ++ '\n' ::
          ((lines.map noteLine).flatMap
            (fun line => List.replicate (2 * (depth + 1)) ' ' ++ (line ++ ['\n'])) ++
              (List.replicate (2 * depth) ' ' ++ "end note".toList)))) ++ ['\n']) := by
  have body : written (lines.map fun line => ⟨depth + 1, String.ofList (noteLine line)⟩) =
      (lines.map noteLine).flatMap
        (fun line => List.replicate (2 * (depth + 1)) ' ' ++ (line ++ ['\n'])) := by
    induction lines with
    | nil => rfl
    | cons line lines ih =>
      rw [List.map_cons, written_cons, List.map_cons, List.flatMap_cons, String.toList_ofList, ih]
      simp
  rw [List.cons_append, written_cons, written_append, body, written_cons]
  simp

theorem Placement.isEmpty_write {declared : List String} {placement : Placement}
    (stands : placement.Stands declared) (aliases : Aliases) :
    (placement.write aliases).isEmpty = false := by
  have listed : ∀ words ∈ placements, words.toList ≠ [] := by decide
  rw [String.isEmpty_eq_false_iff, ne_eq, ← String.toList_eq_nil_iff]
  cases placement with
  | plain words =>
    rcases stands with rfl | rfl <;> simp [write]
  | near words names =>
    rw [write, String.toList_append, List.append_eq_nil_iff]
    exact fun none => listed words stands.1 none.1

theorem reads_note {aliases : Aliases} {declared : List String}
    (identifiers : ∀ name ∈ declared, IsIdentifier (aliases.get name)) {placement : Placement}
    (stands : placement.Stands declared) {text : String} (kept : NoteKept text) (depth : Nat) :
    Reads (written (noteLines depth (placement.write aliases) text.toList)) fun statements =>
      ∃ statement, statements = [statement] ∧ ∃ target side span,
        statement = .note (noteText text) target side span ∧
        ∀ nicknames, notePosition nicknames side target =
          placement.named fun name => nicknames.resolve (aliases.get name) := by
  unfold noteLines noteText
  unfold NoteKept at kept
  rw [Placement.isEmpty_write stands, if_neg Bool.false_ne_true]
  dsimp only
  -- A text with a line feed stands on lines of its own, and any other one behind a colon.
  by_cases several : text.toList.contains '\n' = true
  · rw [if_pos several] at kept ⊢
    rw [if_pos several]
    have texts : ∀ line ∈ (Text.lines text.toList).map noteLine, Leaf.BodyLine line := by
      intro line member
      obtain ⟨source, inside, rfl⟩ := List.mem_map.1 member
      exact bodyLine_noteLine (kept source inside).1 (kept source inside).2
    rw [written_noteLines]
    apply Reads.indent
    apply reads_keyword "note" (by decide) rfl rfl
    intro token tail stream kind lexed
    simp only [List.append_assoc, List.cons_append] at lexed
    obtain ⟨side, target, left, placed, later, position⟩ :=
      placement.read identifiers stands (Leaf.endsNames_lineFeed _) lexed
    obtain ⟨span, last, read, ends⟩ := Leaf.note_lines_lexed token placed _ _ texts later
    exact ⟨_, last, by rw [Parsing.leaf, kind]; exact read, ⟨target, side, span, rfl, position⟩,
      ends⟩
  · rw [if_neg several] at kept ⊢
    rw [if_neg several]
    apply reads_line depth ("note".toList ++ ' ' :: ((placement.write aliases).toList ++
      ' ' :: ':' :: ' ' :: inert text.toList)) (by simp)
    apply reads_keyword "note" (by decide) rfl rfl
    intro token tail stream kind lexed
    rw [List.append_assoc] at lexed
    obtain ⟨side, target, left, placed, later, position⟩ :=
      placement.read identifiers stands (Leaf.endsNames_colon _) lexed
    obtain ⟨span, last, read, ends⟩ :=
      Leaf.note_text_lexed token placed (harmless_inert kept) later
    exact ⟨_, last, by rw [Parsing.leaf, kind]; exact read, ⟨target, side, span, rfl, position⟩,
      ends⟩

end Render

end Lifeline
