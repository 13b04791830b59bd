/-!
# JSON strings

The content of a JSON string up to its closing quote. A backslash starts an escape of one letter or
of four hexadecimal digits; a code point beyond the first plane takes two of the latter, a high
surrogate and then a low one, and a surrogate that stands alone is refused. Control characters have
to be escaped.
-/

namespace DisplayLogic.JsonText

def hexDigit? (c : Char) : Option Nat :=
  if '0' ≤ c ∧ c ≤ '9' then some (c.toNat - '0'.toNat)
  else if 'a' ≤ c ∧ c ≤ 'f' then some (c.toNat - 'a'.toNat + 10)
  else if 'A' ≤ c ∧ c ≤ 'F' then some (c.toNat - 'A'.toNat + 10)
  else none

def codeUnit? (a b c d : Char) : Option Nat := do
  let a ← hexDigit? a
  let b ← hexDigit? b
  let c ← hexDigit? c
  let d ← hexDigit? d
  return ((a * 16 + b) * 16 + c) * 16 + d

def isHighSurrogate (unit : Nat) : Bool := 0xD800 ≤ unit && unit < 0xDC00

def isLowSurrogate (unit : Nat) : Bool := 0xDC00 ≤ unit && unit < 0xE000

def joinSurrogates (high low : Nat) : Nat := 0x10000 + (high - 0xD800) * 0x400 + (low - 0xDC00)

/-- The character that one letter after a backslash stands for. -/
def shortEscape? : Char → Option Char
  | '"' => some '"'
  | '\\' => some '\\'
  | '/' => some '/'
  | 'b' => some '\x08'
  | 'f' => some '\x0c'
  | 'n' => some '\n'
  | 'r' => some '\r'
  | 't' => some '\t'
  | _ => none

/-- A character put in front of a content that was read, and the characters that it took. -/
def consContent (c : Char) (taken : Nat) (content : List Char × Nat) : List Char × Nat :=
  (c :: content.1, taken + content.2)

/-- The content up to the closing quote and how many characters it took, the quote included. -/
def content? : List Char → Option (List Char × Nat)
  | [] => none
  | '"' :: _ => some ([], 1)
  | '\\' :: 'u' :: a :: b :: c :: d :: rest => do
    let unit ← codeUnit? a b c d
    if isHighSurrogate unit then
      match rest with
      | '\\' :: 'u' :: e :: f :: g :: h :: rest => do
        let low ← codeUnit? e f g h
        if isLowSurrogate low then
          (content? rest).map (consContent (Char.ofNat (joinSurrogates unit low)) 12)
        else none
      | _ => none
    else if isLowSurrogate unit then none
    else (content? rest).map (consContent (Char.ofNat unit) 6)
  | '\\' :: letter :: rest => do
    let c ← shortEscape? letter
    (content? rest).map (consContent c 2)
  | c :: rest =>
    if c = '\\' ∨ c.toNat < 0x20 then none else (content? rest).map (consContent c 1)

end DisplayLogic.JsonText
