import Lifeline.Json.Mark
import Lifeline.Json.Write
import Mathlib.Data.List.TakeWhile

/-! The marks of written values.

Written text is read back piece by piece: a number gives its value if 64 bits are enough for it, the
inside of a string gives its characters, and either layout of a value gives the marks of the value,
as blanks between marks do not count. -/

set_option autoImplicit false

namespace Lifeline.Json

/-! ## Numbers -/

namespace Numeral

theorem digits_of_isDigit {text : List Char} (all : ∀ c ∈ text, c.isDigit = true) :
    digits text = (text.map Text.digitValue, []) := by
  induction text with
  | nil => rfl
  | cons c text ih =>
    obtain ⟨first, rest⟩ := List.forall_mem_cons.1 all
    simp [digits, digit?, first, ih rest]

theorem map_digitValue_toDigits (n : Nat) :
    (Nat.toDigits 10 n).map Text.digitValue = [n] ∨
      ∃ d more, (Nat.toDigits 10 n).map Text.digitValue = d :: more ∧ d ≠ 0 := by
  have digit {d : Nat} (small : d < 10) : Text.digitValue d.digitChar = d :=
    Nat.toNat_digitChar_sub_48_of_lt_ten small
  induction n using Nat.strong_induction_on with
  | _ n ih =>
    by_cases small : n < 10
    · left
      rw [Nat.toDigits_of_lt_base small, List.map_singleton, digit small]
    · right
      have positive : 0 < n / 10 := Nat.div_pos (Nat.not_lt.1 small) (by decide)
      rw [Nat.toDigits_of_base_le (by decide) (Nat.not_lt.1 small), List.map_append]
      rcases ih (n / 10) (Nat.div_lt_self (by omega) (by decide)) with same | ⟨d, more, same, first⟩
      · rw [same]
        exact ⟨n / 10, _, rfl, Nat.ne_of_gt positive⟩
      · rw [same]
        exact ⟨d, _, rfl, first⟩

theorem ofText?_toDigits (n : Nat) : ofText? (Nat.toDigits 10 n) =
    some ⟨false, (Nat.toDigits 10 n).map Text.digitValue, none, none⟩ := by
  have all : ∀ c ∈ Nat.toDigits 10 n, c.isDigit = true := fun c member =>
    Nat.isDigit_of_mem_toDigits (by decide) (by decide) member
  have read := digits_of_isDigit all
  have shape := map_digitValue_toDigits n
  generalize Nat.toDigits 10 n = text at all read shape
  have unsigned : ∀ rest, text = '-' :: rest → False := by
    rintro rest rfl
    exact absurd (all '-' List.mem_cons_self) (by decide)
  simp only [ofText?, read]
  rcases shape with same | ⟨d, more, same, first⟩ <;> rw [same]
  · simp [exponentOf]
  · cases more <;> simp [first, exponentOf]

theorem le_foldl (value : Nat) (ds : List Nat) :
    value ≤ ds.foldl (fun value d => value * 10 + d) value := by
  induction ds generalizing value with
  | nil => exact Nat.le_refl _
  | cons d ds ih => exact Nat.le_trans (by omega) (ih (value * 10 + d))

theorem gather_eq {value : Nat} {ds : List Nat}
    (fits : ds.foldl (fun value d => value * 10 + d) value < UInt64.size) :
    gather value ds = (ds.foldl (fun value d => value * 10 + d) value, 0) := by
  induction ds generalizing value with
  | nil => rfl
  | cons d ds ih =>
    rw [List.foldl_cons] at fits ⊢
    rw [gather, if_pos (Nat.lt_of_le_of_lt (le_foldl _ ds) fits), ih fits]

theorem foldl_toDigits (n : Nat) : ((Nat.toDigits 10 n).map Text.digitValue).foldl
    (fun value d => value * 10 + d) 0 = n := by
  have same := Nat.ofDigitChars_ten_toDigits (n := n)
  rw [Nat.ofDigitChars_eq_foldl] at same
  rw [List.foldl_map]
  simpa only [Nat.mul_comm, Text.digitValue] using same

theorem value?_toDigits {n : Nat} (fits : n < UInt64.size) :
    value? ⟨false, (Nat.toDigits 10 n).map Text.digitValue, none, none⟩ = some (.natural n) := by
  have whole := foldl_toDigits n
  have gathered := gather_eq (whole.symm ▸ fits)
  rw [whole] at gathered
  simp [value?, gathered]

end Numeral

namespace Mark

theorem isSpace_cases {c : Char} (space : isSpace c = true) :
    c = ' ' ∨ c = '\n' ∨ c = '\t' ∨ c = '\r' := by
  simpa [isSpace, or_assoc] using space

theorem ofText?_space {c : Char} (space : isSpace c = true) (rest : List Char) :
    ofText? (c :: rest) = ofText? rest := by
  rcases isSpace_cases space with rfl | rfl | rfl | rfl <;> simp [ofText?, isSpace]

/-- Whether a number before a text ends there. -/
def EndsNumber (text : List Char) : Prop := ∀ c ∈ text.head?, isNumberChar c = false

theorem isNumberChar_of_isDigit {c : Char} (digit : c.isDigit = true) : isNumberChar c = true := by
  have bounds : '0' ≤ c ∧ c ≤ '9' := by
    simpa [Char.isDigit, Char.le_def] using digit
  simp [isNumberChar, bounds]

theorem ofText?_number {n : Nat} (fits : n < UInt64.size) {rest : List Char}
    (ends : EndsNumber rest) :
    ofText? (Nat.toDigits 10 n ++ rest) = (ofText? rest).map (.atom (.nat n) :: ·) := by
  have all : ∀ c ∈ Nat.toDigits 10 n, c.isDigit = true := fun c member =>
    Nat.isDigit_of_mem_toDigits (by decide) (by decide) member
  have read := Numeral.ofText?_toDigits n
  have value := Numeral.value?_toDigits fits
  cases whole : Nat.toDigits 10 n with
  | nil => exact absurd whole Nat.toDigits_ne_nil
  | cons c text =>
    rw [whole] at all read value
    obtain ⟨digit, later⟩ := List.forall_mem_cons.1 all
    have stops : rest.takeWhile isNumberChar = [] := by
      cases rest with
      | nil => rfl
      | cons d rest => rw [List.takeWhile_cons, ends d rfl, if_neg Bool.false_ne_true]
    have run : (text ++ rest).takeWhile isNumberChar = text := by
      rw [List.takeWhile_append_of_pos fun d member => isNumberChar_of_isDigit (later d member),
        stops, List.append_nil]
    have noSpace : isSpace c = false := by
      rw [Bool.eq_false_iff]
      intro space
      rcases isSpace_cases space with rfl | rfl | rfl | rfl <;> exact absurd digit (by decide)
    rw [List.cons_append, ofText?.eq_def]
    split
    case h_12 same =>
      cases same
      rw [noSpace, if_neg Bool.false_ne_true, if_pos (isNumberChar_of_isDigit digit), run, read]
      dsimp only
      rw [value, List.drop_left]
      rfl
    case h_1 same => cases same
    -- No other mark starts with a digit.
    all_goals
      rename_i same
      obtain rfl := List.head_eq_of_cons_eq same
      exact absurd digit (by decide)

/-! ## Strings -/

def written (c : Char) : Part :=
  if c.toNat < 32 ∧ c ∉ ['\x08', '\t', '\n', '\x0c', '\r'] then .code c.toNat else .char c

theorem hexCode?_hexPair : ∀ n < 32,
    hexCode? '0' '0' (Nat.digitChar (n / 16)) (Nat.digitChar (n % 16)) = some n := by
  decide

theorem parts_escape (c : Char) (rest : List Char) :
    parts (escape c ++ rest) = (parts rest).map (Prod.map (written c :: ·) id) := by
  unfold escape
  -- The characters with an escape of their own come first.
  iterate 7
    split
    · subst c
      simp [parts, escaped?, written]
  split
  · rename_i control
    simp [hexPair, parts, hexCode?_hexPair _ control, written, *]
  · rename_i quote backslash _ _ _ _ _ plain
    have same : written c = .char c := if_neg fun both => plain both.1
    rw [List.singleton_append, parts, if_neg (by simp [plain, backslash]), same]
    · exact quote
    all_goals
      intros
      exact absurd ‹c = '\\'› backslash

theorem spell_written (c : Char) (rest : List Part) :
    spell (written c :: rest) = (spell rest).map (c :: ·) := by
  unfold written
  split
  · rename_i control
    have high : isHigh c.toNat = false := by simp [isHigh]; omega
    have low : isLow c.toNat = false := by simp [isLow]; omega
    rcases rest with _ | ⟨_ | _, _⟩ <;> simp [spell, high, low]
  · rfl

theorem parts_flatMap_escape (text rest : List Char) :
    parts (text.flatMap escape ++ '"' :: rest) = some (text.map written, rest) := by
  induction text with
  | nil => simp [parts]
  | cons c text ih =>
    rw [List.flatMap_cons, List.append_assoc, parts_escape, ih]
    rfl

theorem spell_map_written (text : List Char) : spell (text.map written) = some text := by
  induction text with
  | nil => rfl
  | cons c text ih =>
    rw [List.map_cons, spell_written, ih]
    rfl

theorem ofText?_quote (text : String) (rest : List Char) :
    ofText? (quote text ++ rest) = (ofText? rest).map (.string (some text) :: ·) := by
  have inside := parts_flatMap_escape text.toList rest
  rw [quote, List.cons_append, List.cons_append, List.append_assoc, List.singleton_append, ofText?]
  split
  · rename_i found
    rw [inside] at found
    cases found
  · rename_i found
    rw [inside] at found
    cases found
    rw [spell_map_written, Option.map_some, String.ofList_toList]

end Mark

/-! ## Values -/

mutual

/-- Whether a value is written in full: it is readable, and its numbers are natural numbers of at
most 64 bits. -/
def isExact : Json → Bool
  | .array items => areExact items
  | .object members => areExactMembers members
  | .number (.natural value) => value < UInt64.size
  | .number _ | .unreadable => false
  | _ => true

def areExact : List Json → Bool
  | [] => true
  | item :: rest => isExact item && areExact rest

def areExactMembers : List (String × Json) → Bool
  | [] => true
  | (_, value) :: rest => isExact value && areExactMembers rest

end

mutual

def marks : Json → List Mark
  | .array items => .openArray :: itemMarks items ++ [.closeArray]
  | .object members => .openObject :: memberMarks members ++ [.closeObject]
  | .string value => [.string value]
  | value => [.atom value]

def itemMarks : List Json → List Mark
  | [] => []
  | item :: rest => marks item ++ moreMarks rest

def moreMarks : List Json → List Mark
  | [] => []
  | item :: rest => .comma :: marks item ++ moreMarks rest

def memberMarks : List (String × Json) → List Mark
  | [] => []
  | (name, value) :: rest => .string name :: .colon :: marks value ++ moreMemberMarks rest

def moreMemberMarks : List (String × Json) → List Mark
  | [] => []
  | (name, value) :: rest =>
    .comma :: .string name :: .colon :: marks value ++ moreMemberMarks rest

end

namespace Mark

theorem endsNumber_nil : EndsNumber [] := nofun

theorem endsNumber_cons {c : Char} (ends : isNumberChar c = false) (rest : List Char) :
    EndsNumber (c :: rest) := by
  rintro d ⟨⟩
  exact ends

theorem endsNumber_compactMore (items : List Json) {rest : List Char} (ends : EndsNumber rest) :
    EndsNumber (compactMore items ++ rest) := by
  cases items with
  | nil => exact ends
  | cons => exact endsNumber_cons (by decide) _

theorem endsNumber_compactMoreMembers (members : List (String × Json)) {rest : List Char}
    (ends : EndsNumber rest) : EndsNumber (compactMoreMembers members ++ rest) := by
  cases members with
  | nil => exact ends
  | cons => exact endsNumber_cons (by decide) _

mutual

theorem ofText?_compact (json : Json) (exact : json.isExact = true) {rest : List Char}
    (ends : EndsNumber rest) :
    ofText? (json.compact ++ rest) = (ofText? rest).map (json.marks ++ ·) := by
  match json with
  | .array items =>
    have inside := ofText?_compactItems items exact (endsNumber_cons (c := ']') (by decide) rest)
    simp [compact, marks, ofText?, inside, Function.comp_def]
  | .object members =>
    have inside :=
      ofText?_compactMembers members exact (endsNumber_cons (c := '\x7d') (by decide) rest)
    simp [compact, marks, ofText?, inside, Function.comp_def]
  | .string value => exact ofText?_quote value rest
  | .number (.natural value) => exact ofText?_number (of_decide_eq_true exact) ends
  | .null => simp [compact, Json.atom, marks, ofText?]
  | .bool true => simp [compact, Json.atom, marks, ofText?]
  | .bool false => simp [compact, Json.atom, marks, ofText?]

theorem ofText?_compactItems (items : List Json) (exact : areExact items = true) {rest : List Char}
    (ends : EndsNumber rest) :
    ofText? (compactItems items ++ rest) = (ofText? rest).map (itemMarks items ++ ·) := by
  match items with
  | [] => simp [compactItems, itemMarks]
  | item :: more =>
    rw [areExact, Bool.and_eq_true] at exact
    have later := ofText?_compactMore more exact.2 ends
    rw [compactItems, List.append_assoc,
      ofText?_compact item exact.1 (endsNumber_compactMore more ends), later]
    simp [itemMarks, Function.comp_def]

theorem ofText?_compactMore (items : List Json) (exact : areExact items = true) {rest : List Char}
    (ends : EndsNumber rest) :
    ofText? (compactMore items ++ rest) = (ofText? rest).map (moreMarks items ++ ·) := by
  match items with
  | [] => simp [compactMore, moreMarks]
  | item :: more =>
    rw [areExact, Bool.and_eq_true] at exact
    have later := ofText?_compactMore more exact.2 ends
    rw [compactMore, List.append_assoc, List.cons_append, ofText?,
      ofText?_compact item exact.1 (endsNumber_compactMore more ends), later]
    simp [moreMarks, Function.comp_def]

theorem ofText?_compactMembers (members : List (String × Json))
    (exact : areExactMembers members = true) {rest : List Char} (ends : EndsNumber rest) :
    ofText? (compactMembers members ++ rest) = (ofText? rest).map (memberMarks members ++ ·) := by
  match members with
  | [] => simp [compactMembers, memberMarks]
  | (name, value) :: more =>
    rw [areExactMembers, Bool.and_eq_true] at exact
    have later := ofText?_compactMoreMembers more exact.2 ends
    simp only [compactMembers, List.append_assoc, List.cons_append]
    rw [ofText?_quote, ofText?,
      ofText?_compact value exact.1 (endsNumber_compactMoreMembers more ends), later]
    simp [memberMarks, Function.comp_def]

theorem ofText?_compactMoreMembers (members : List (String × Json))
    (exact : areExactMembers members = true) {rest : List Char} (ends : EndsNumber rest) :
    ofText? (compactMoreMembers members ++ rest) =
      (ofText? rest).map (moreMemberMarks members ++ ·) := by
  match members with
  | [] => simp [compactMoreMembers, moreMemberMarks]
  | (name, value) :: more =>
    rw [areExactMembers, Bool.and_eq_true] at exact
    have later := ofText?_compactMoreMembers more exact.2 ends
    simp only [compactMoreMembers, List.append_assoc, List.cons_append]
    rw [ofText?, ofText?_quote, ofText?,
      ofText?_compact value exact.1 (endsNumber_compactMoreMembers more ends), later]
    simp [moreMemberMarks, Function.comp_def]

end

theorem ofText?_newLine (level : Nat) (rest : List Char) :
    ofText? (newLine level ++ rest) = ofText? rest := by
  have spaces (count : Nat) : ofText? (List.replicate count ' ' ++ rest) = ofText? rest := by
    induction count with
    | zero => rfl
    | succ count ih =>
      rw [List.replicate_succ, List.cons_append, ofText?_space (by decide), ih]
  rw [newLine, List.cons_append, ofText?_space (by decide), spaces]

theorem endsNumber_newLine (level : Nat) (rest : List Char) : EndsNumber (newLine level ++ rest) :=
  endsNumber_cons (by decide) _

theorem endsNumber_spreadMore (level : Nat) (items : List Json) {rest : List Char}
    (ends : EndsNumber rest) : EndsNumber (spreadMore level items ++ rest) := by
  cases items with
  | nil => exact ends
  | cons => exact endsNumber_cons (by decide) _

theorem endsNumber_spreadMoreMembers (level : Nat) (members : List (String × Json))
    {rest : List Char} (ends : EndsNumber rest) :
    EndsNumber (spreadMoreMembers level members ++ rest) := by
  cases members with
  | nil => exact ends
  | cons => exact endsNumber_cons (by decide) _

mutual

theorem ofText?_spread (level : Nat) (json : Json) (exact : json.isExact = true) {rest : List Char}
    (ends : EndsNumber rest) :
    ofText? (json.spread level ++ rest) = (ofText? rest).map (json.marks ++ ·) := by
  match json with
  | .array [] => simp [spread, marks, itemMarks, ofText?, Function.comp_def]
  | .array (item :: more) =>
    have closes := endsNumber_newLine level (']' :: rest)
    simp only [isExact, areExact, Bool.and_eq_true] at exact
    simp only [spread, List.append_assoc, List.cons_append, List.nil_append]
    rw [ofText?, ofText?_newLine, ofText?_spread (level + 1) item exact.1
        (endsNumber_spreadMore (level + 1) more closes),
      ofText?_spreadMore (level + 1) more exact.2 closes, ofText?_newLine, ofText?]
    simp [marks, itemMarks, Function.comp_def]
  | .object [] => simp [spread, marks, memberMarks, ofText?, Function.comp_def]
  | .object ((name, value) :: more) =>
    have closes := endsNumber_newLine level ('\x7d' :: rest)
    simp only [isExact, areExactMembers, Bool.and_eq_true] at exact
    simp only [spread, List.append_assoc, List.cons_append, List.nil_append]
    rw [ofText?, ofText?_newLine, ofText?_quote, ofText?, ofText?_space (by decide),
      ofText?_spread (level + 1) value exact.1
        (endsNumber_spreadMoreMembers (level + 1) more closes),
      ofText?_spreadMoreMembers (level + 1) more exact.2 closes, ofText?_newLine, ofText?]
    simp [marks, memberMarks, Function.comp_def]
  | .string value => exact ofText?_quote value rest
  | .number (.natural value) => exact ofText?_number (of_decide_eq_true exact) ends
  | .null => simp [spread, Json.atom, marks, ofText?]
  | .bool true => simp [spread, Json.atom, marks, ofText?]
  | .bool false => simp [spread, Json.atom, marks, ofText?]

theorem ofText?_spreadMore (level : Nat) (items : List Json) (exact : areExact items = true)
    {rest : List Char} (ends : EndsNumber rest) :
    ofText? (spreadMore level items ++ rest) = (ofText? rest).map (moreMarks items ++ ·) := by
  match items with
  | [] => simp [spreadMore, moreMarks]
  | item :: more =>
    rw [areExact, Bool.and_eq_true] at exact
    simp only [spreadMore, List.append_assoc, List.cons_append]
    rw [ofText?, ofText?_newLine,
      ofText?_spread level item exact.1 (endsNumber_spreadMore level more ends),
      ofText?_spreadMore level more exact.2 ends]
    simp [moreMarks, Function.comp_def]

theorem ofText?_spreadMoreMembers (level : Nat) (members : List (String × Json))
    (exact : areExactMembers members = true) {rest : List Char} (ends : EndsNumber rest) :
    ofText? (spreadMoreMembers level members ++ rest) =
      (ofText? rest).map (moreMemberMarks members ++ ·) := by
  match members with
  | [] => simp [spreadMoreMembers, moreMemberMarks]
  | (name, value) :: more =>
    rw [areExactMembers, Bool.and_eq_true] at exact
    simp only [spreadMoreMembers, List.append_assoc, List.cons_append]
    rw [ofText?, ofText?_newLine, ofText?_quote, ofText?, ofText?_space (by decide),
      ofText?_spread level value exact.1 (endsNumber_spreadMoreMembers level more ends),
      ofText?_spreadMoreMembers level more exact.2 ends]
    simp [moreMemberMarks, Function.comp_def]

end

theorem ofText?_write (layout : Layout) {json : Json} (exact : json.isExact = true) :
    ofText? (write layout json).toList = some json.marks := by
  have empty : ofText? [] = some [] := by simp [ofText?]
  cases layout with
  | compact =>
    have read := ofText?_compact json exact endsNumber_nil
    rw [empty, List.append_nil, Option.map_some, List.append_nil] at read
    rwa [write, String.toList_ofList]
  | spread =>
    have read := ofText?_spread 0 json exact endsNumber_nil
    rw [empty, List.append_nil, Option.map_some, List.append_nil] at read
    rwa [write, String.toList_ofList]

end Mark

end Lifeline.Json
