/-! White space, and the operations on text that depend on it.

A character is blank when it has the Unicode property White_Space. Texts are handled as lists of
characters; the byte size of a text is the length of its UTF-8 encoding. -/

set_option autoImplicit false

namespace Lifeline.Text

/-- The Unicode property White_Space. -/
def isBlank (c : Char) : Bool :=
  let code := c.toNat
  (9 ≤ code && code ≤ 13) || code == 0x20 || code == 0x85 || code == 0xA0 || code == 0x1680 ||
    (0x2000 ≤ code && code ≤ 0x200A) || code == 0x2028 || code == 0x2029 || code == 0x202F ||
    code == 0x205F || code == 0x3000

def skipBlanks (text : List Char) : List Char := text.dropWhile isBlank

def after? : List Char → List Char → Option (List Char)
  | [], text => some text
  | _ :: _, [] => none
  | c :: word, d :: text => if c = d then after? word text else none

def trim (text : List Char) : List Char :=
  ((text.dropWhile isBlank).reverse.dropWhile isBlank).reverse

/-- Cuts a text at every separator; a text with n separators has n + 1 pieces. -/
def split (separator : Char → Bool) : List Char → List (List Char)
  | [] => [[]]
  | c :: rest =>
    if separator c then [] :: split separator rest
    else match split separator rest with
      | [] => [[c]]
      | piece :: pieces => (c :: piece) :: pieces

theorem split_ne_nil (separator : Char → Bool) (text : List Char) : split separator text ≠ [] := by
  cases text with
  | nil => simp [split]
  | cons c rest =>
    rw [split]
    split
    · simp
    · split <;> simp

def words (text : List Char) : List (List Char) :=
  (split isBlank text).filter (! ·.isEmpty)

def collapse (text : List Char) : List Char :=
  [' '].intercalate (words text)

def byteSize (text : List Char) : Nat :=
  text.foldr (fun c size => c.utf8Size + size) 0

@[simp] theorem byteSize_nil : byteSize [] = 0 := rfl

@[simp] theorem byteSize_cons (c : Char) (rest : List Char) :
    byteSize (c :: rest) = c.utf8Size + byteSize rest := rfl

@[simp] theorem byteSize_append (first rest : List Char) :
    byteSize (first ++ rest) = byteSize first + byteSize rest := by
  induction first with
  | nil => simp
  | cons c first ih => rw [List.cons_append, byteSize_cons, ih, byteSize_cons, Nat.add_assoc]

theorem byteSize_pos {text : List Char} (some : text ≠ []) : 0 < byteSize text := by
  obtain ⟨c, rest, rfl⟩ := List.exists_cons_of_ne_nil some
  exact Nat.lt_of_lt_of_le c.utf8Size_pos (Nat.le_add_right _ _)

/-- Folds the ASCII letters to lower case and keeps every other character. -/
def asciiLower (text : String) : String :=
  String.ofList (text.toList.map Char.toLower)

end Lifeline.Text
