import Lifeline.Json.Number

/-! Marks: the lexical pieces of JSON text. -/

set_option autoImplicit false

namespace Lifeline.Json

inductive Mark where
  | openArray | closeArray | openObject | closeObject | comma | colon
  /-- A string, or none if it holds half of a surrogate pair. -/
  | string (value : Option String)
  | atom (value : Json)

namespace Mark

def isSpace (c : Char) : Bool := c == ' ' || c == '\n' || c == '\t' || c == '\r'

def hexDigit? (c : Char) : Option Nat :=
  if '0' ≤ c ∧ c ≤ '9' then some (c.toNat - '0'.toNat)
  else if 'a' ≤ c ∧ c ≤ 'f' then some (c.toNat - 'a'.toNat + 10)
  else if 'A' ≤ c ∧ c ≤ 'F' then some (c.toNat - 'A'.toNat + 10)
  else none

/-- What the inside of a string is written with: characters, and codes of 16 bits. -/
inductive Part where
  | char (c : Char)
  | code (n : Nat)
  deriving DecidableEq, Repr

def escaped? : Char → Option Char
  | '"' => some '"'
  | '\\' => some '\\'
  | '/' => some '/'
  | 'b' => some '\x08'
  | 'f' => some '\x0c'
  | 'n' => some '\n'
  | 'r' => some '\r'
  | 't' => some '\t'
  | _ => none

def hexCode? (a b c d : Char) : Option Nat := do
  return (← hexDigit? a) * 4096 + (← hexDigit? b) * 256 + (← hexDigit? c) * 16 + (← hexDigit? d)

def parts : List Char → Option (List Part × List Char)
  | [] => none
  | '"' :: rest => some ([], rest)
  | '\\' :: 'u' :: a :: b :: c :: d :: rest =>
    (hexCode? a b c d).bind fun code => (parts rest).map (Prod.map (.code code :: ·) id)
  | '\\' :: c :: rest =>
    (escaped? c).bind fun c => (parts rest).map (Prod.map (.char c :: ·) id)
  | c :: rest =>
    if c.toNat < 32 ∨ c = '\\' then none else (parts rest).map (Prod.map (.char c :: ·) id)

theorem length_parts {text left : List Char} {read : List Part}
    (found : parts text = some (read, left)) : left.length < text.length := by
  fun_induction parts text generalizing read left with
  | case1 => simp at found
  | case2 rest => simp at found; simp [found]
  | case3 a b c d rest ih =>
    simp only [Option.bind_eq_some_iff, Option.map_eq_some_iff] at found
    obtain ⟨_, _, ⟨_, left'⟩, read, same⟩ := found
    cases same
    have := ih read
    simp only [List.length_cons, id]
    omega
  | case4 c rest _ ih =>
    simp only [Option.bind_eq_some_iff, Option.map_eq_some_iff] at found
    obtain ⟨_, _, ⟨_, left'⟩, read, same⟩ := found
    cases same
    have := ih read
    simp only [List.length_cons, id]
    omega
  | case5 => simp at found
  | case6 c rest _ _ _ _ ih =>
    simp only [Option.map_eq_some_iff] at found
    obtain ⟨⟨_, left'⟩, read, same⟩ := found
    cases same
    have := ih read
    simp only [List.length_cons, id]
    omega

def isHigh (code : Nat) : Bool := 0xD800 ≤ code && code < 0xDC00

def isLow (code : Nat) : Bool := 0xDC00 ≤ code && code < 0xE000

/-- The text that parts spell: halves of surrogate pairs must come in order and together. -/
def spell : List Part → Option (List Char)
  | [] => some []
  | .char c :: rest => (spell rest).map (c :: ·)
  | .code high :: .code low :: rest =>
    if isHigh high then
      if isLow low then
        (spell rest).map (Char.ofNat (0x10000 + (high - 0xD800) * 1024 + (low - 0xDC00)) :: ·)
      else none
    else if isLow high then none
    else (spell (.code low :: rest)).map (Char.ofNat high :: ·)
  | .code code :: rest =>
    if isHigh code || isLow code then none else (spell rest).map (Char.ofNat code :: ·)

def isNumberChar (c : Char) : Bool :=
  ('0' ≤ c && c ≤ '9') || c == '-' || c == '+' || c == '.' || c == 'e' || c == 'E'

def ofText? : List Char → Option (List Mark)
  | [] => some []
  | '[' :: rest => (ofText? rest).map (.openArray :: ·)
  | ']' :: rest => (ofText? rest).map (.closeArray :: ·)
  | '\x7b' :: rest => (ofText? rest).map (.openObject :: ·)
  | '\x7d' :: rest => (ofText? rest).map (.closeObject :: ·)
  | ',' :: rest => (ofText? rest).map (.comma :: ·)
  | ':' :: rest => (ofText? rest).map (.colon :: ·)
  | 'n' :: 'u' :: 'l' :: 'l' :: rest => (ofText? rest).map (.atom .null :: ·)
  | 't' :: 'r' :: 'u' :: 'e' :: rest => (ofText? rest).map (.atom (.bool true) :: ·)
  | 'f' :: 'a' :: 'l' :: 's' :: 'e' :: rest => (ofText? rest).map (.atom (.bool false) :: ·)
  | '"' :: rest =>
    match found : parts rest with
    | none => none
    | some (read, left) =>
      have : left.length < rest.length := length_parts found
      (ofText? left).map (.string ((spell read).map String.ofList) :: ·)
  | c :: rest =>
    if isSpace c then ofText? rest
    else if isNumberChar c then
      match Numeral.ofText? (c :: rest.takeWhile isNumberChar) with
      | none => none
      | some numeral =>
        let value := match numeral.value? with
          | some value => Json.number value
          | none => .unreadable
        (ofText? (rest.drop (rest.takeWhile isNumberChar).length)).map (.atom value :: ·)
    else none
termination_by text => text.length

end Mark

end Lifeline.Json
