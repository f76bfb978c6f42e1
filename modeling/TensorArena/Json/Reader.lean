import TensorArena.Json.Basic

/-!
# Reading JSON

The reader accepts the grammar of JSON and nothing else. It sets no limit on nesting; a limit is a
matter of the document that is decoded from the value.
-/

set_option autoImplicit false

namespace TensorArena.Json.Reader

def isBlank (c : Char) : Bool := c == ' ' || c == '\n' || c == '\r' || c == '\t'

def skipBlanks (text : List Char) : List Char := text.dropWhile isBlank

/-- What follows a word that the text starts with. -/
def afterWord? (word : String) (text : List Char) : Option (List Char) :=
  if word.toList.isPrefixOf text then some (text.drop word.toList.length) else none

/-! ### Strings -/

/-- A part of a string: a character that stands for itself or is escaped by a letter, or a
16-bit unit that is escaped by its number. -/
inductive Piece where
  | char (c : Char)
  | unit (value : Nat)

def letterEscape? : Char → Option Char
  | '"' => some '"'
  | '\\' => some '\\'
  | '/' => some '/'
  | 'b' => some '\x08'
  | 'f' => some '\x0c'
  | 'n' => some '\n'
  | 'r' => some '\r'
  | 't' => some '\t'
  | _ => none

def hexDigit? (c : Char) : Option Nat :=
  if c.isDigit then some (c.toNat - '0'.toNat)
  else if 'a' ≤ c && c ≤ 'f' then some (c.toNat - 'a'.toNat + 10)
  else if 'A' ≤ c && c ≤ 'F' then some (c.toNat - 'A'.toNat + 10)
  else none

def hexUnit? (a b c d : Char) : Option Nat := do
  return (← hexDigit? a) * 4096 + (← hexDigit? b) * 256 + (← hexDigit? c) * 16 + (← hexDigit? d)

/-- The pieces up to the closing quote, and what follows it. -/
def pieces? : List Char → Option (List Piece × List Char)
  | [] => none
  | '"' :: rest => some ([], rest)
  | '\\' :: 'u' :: a :: b :: c :: d :: rest => do
    let value ← hexUnit? a b c d
    let (pieces, rest) ← pieces? rest
    return (.unit value :: pieces, rest)
  | '\\' :: letter :: rest => do
    let c ← letterEscape? letter
    let (pieces, rest) ← pieces? rest
    return (.char c :: pieces, rest)
  | c :: rest =>
    if c.toNat < 0x20 || c == '\\' then none
    else do
      let (pieces, rest) ← pieces? rest
      return (.char c :: pieces, rest)

/-- The characters that pieces spell. Units outside a surrogate pair must be characters. -/
def spell? : List Piece → Option (List Char)
  | [] => some []
  | .char c :: rest => (spell? rest).map (c :: ·)
  | .unit high :: .unit low :: rest =>
    if 0xD800 ≤ high && high < 0xDC00 then
      if 0xDC00 ≤ low && low < 0xE000 then
        (spell? rest).map
          (Char.ofNat (0x10000 + (high - 0xD800) * 0x400 + (low - 0xDC00)) :: ·)
      else none
    else if 0xDC00 ≤ high && high < 0xE000 then none
    else (spell? (.unit low :: rest)).map (Char.ofNat high :: ·)
  | .unit value :: rest =>
    if 0xD800 ≤ value && value < 0xE000 then none
    else (spell? rest).map (Char.ofNat value :: ·)

/-- The string after an opening quote. -/
def text? (text : List Char) : Option (Option String × List Char) :=
  (pieces? text).map fun (pieces, rest) => ((spell? pieces).map String.ofList, rest)

/-! ### Numbers -/

def digit? (c : Char) : Option (Fin 10) :=
  if c.isDigit then some ⟨(c.toNat - '0'.toNat) % 10, Nat.mod_lt _ (by decide)⟩ else none

/-- The longest run of digits, and what follows it. -/
def digitRun : List Char → List (Fin 10) × List Char
  | [] => ([], [])
  | c :: rest =>
    match digit? c with
    | some digit => let (digits, rest) := digitRun rest; (digit :: digits, rest)
    | none => ([], c :: rest)

/-- A whole part has no zero before another digit. -/
def wholePart? (text : List Char) : Option (Nat × List Char) :=
  match digitRun text with
  | ([], _) => none
  | ([digit], rest) => some (digit.val, rest)
  | (first :: digits, rest) =>
    if first.val = 0 then none else some (numeral (first :: digits), rest)

def fractionPart? : List Char → Option (List (Fin 10) × List Char)
  | '.' :: rest =>
    match digitRun rest with
    | ([], _) => none
    | (digits, rest) => some (digits, rest)
  | text => some ([], text)

def exponentDigits? (text : List Char) : Option (Nat × List Char) :=
  match digitRun text with
  | ([], _) => none
  | (digits, rest) => some (numeral digits, rest)

def exponentPart? : List Char → Option (Option Int × List Char)
  | [] => some (none, [])
  | mark :: rest =>
    if mark == 'e' || mark == 'E' then
      match rest with
      | '-' :: rest => (exponentDigits? rest).map fun (value, rest) => (some (-value), rest)
      | '+' :: rest => (exponentDigits? rest).map fun (value, rest) => (some value, rest)
      | rest => (exponentDigits? rest).map fun (value, rest) => (some value, rest)
    else some (none, mark :: rest)

def unsigned? (negative : Bool) (text : List Char) : Option (Number × List Char) := do
  let (whole, rest) ← wholePart? text
  let (fraction, rest) ← fractionPart? rest
  let (exponent, rest) ← exponentPart? rest
  return (⟨negative, whole, fraction, exponent⟩, rest)

def number? : List Char → Option (Number × List Char)
  | '-' :: rest => unsigned? true rest
  | text => unsigned? false text

/-! ### Values -/

mutual

/-- A value after blanks, and what follows it. The first argument bounds the recursion. -/
def value? : Nat → List Char → Option (Json × List Char)
  | 0, _ => none
  | fuel + 1, text =>
    match skipBlanks text with
    | '"' :: rest => (text? rest).map fun (text, rest) => (.string text, rest)
    | '[' :: rest =>
      match skipBlanks rest with
      | ']' :: rest => some (.array [], rest)
      | rest => (items? fuel rest).map fun (items, rest) => (.array items, rest)
    | '\x7b' :: rest =>
      match skipBlanks rest with
      | '\x7d' :: rest => some (.object [], rest)
      | rest => (members? fuel rest).map fun (members, rest) => (.object members, rest)
    | text =>
      match afterWord? "null" text, afterWord? "true" text, afterWord? "false" text with
      | some rest, _, _ => some (.null, rest)
      | _, some rest, _ => some (.bool true, rest)
      | _, _, some rest => some (.bool false, rest)
      | none, none, none => (number? text).map fun (value, rest) => (.number value, rest)

/-- The items of an array up to its closing bracket. -/
def items? : Nat → List Char → Option (List Json × List Char)
  | 0, _ => none
  | fuel + 1, text => do
    let (item, rest) ← value? fuel text
    match skipBlanks rest with
    | ',' :: rest =>
      let (items, rest) ← items? fuel rest
      return (item :: items, rest)
    | ']' :: rest => return ([item], rest)
    | _ => none

/-- The members of an object up to its closing brace. -/
def members? : Nat → List Char → Option (List (Option String × Json) × List Char)
  | 0, _ => none
  | fuel + 1, text =>
    match skipBlanks text with
    | '"' :: rest => do
      let (key, rest) ← text? rest
      match skipBlanks rest with
      | ':' :: rest =>
        let (value, rest) ← value? fuel rest
        match skipBlanks rest with
        | ',' :: rest =>
          let (members, rest) ← members? fuel rest
          return ((key, value) :: members, rest)
        | '\x7d' :: rest => return ([(key, value)], rest)
        | _ => none
      | _ => none
    | _ => none

end

end TensorArena.Json.Reader

namespace TensorArena

/-- The value that a whole text spells. Every bracket costs two levels of recursion and every
separator one, so twice the length is enough. -/
def Json.read? (text : String) : Option Json :=
  match Json.Reader.value? (2 * (text.toList.length + 1)) text.toList with
  | some (json, rest) => if (Json.Reader.skipBlanks rest).isEmpty then some json else none
  | none => none

end TensorArena
