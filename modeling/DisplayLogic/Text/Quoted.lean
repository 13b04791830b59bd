import DisplayLogic.Text.Hidden

/-!
# Quoted text

Diagnostics show a text between double quotes in a form that keeps it on one line and loses nothing:
the quote and the backslash carry a backslash, the null character, the tab and the two line ends
have escapes of one letter, every other hidden character is written by its number, and all else
stands as it is. `quote` is the whole form and `escape` its treatment of one character.
-/

namespace DisplayLogic.Text

/-- The escape of a character by its number, in hexadecimal between braces. -/
def escapeNumber (code : Nat) : List Char :=
  '\\' :: 'u' :: '\x7b' :: Nat.toDigits 16 code ++ ['\x7d']

/-- What stands for one character inside the quotes. -/
def escape (c : Char) : List Char :=
  if c = '\x00' then ['\\', '0']
  else if c = '\t' then ['\\', 't']
  else if c = '\r' then ['\\', 'r']
  else if c = '\n' then ['\\', 'n']
  else if c = '\\' then ['\\', '\\']
  else if c = '"' then ['\\', '"']
  else if isHidden c then escapeNumber c.toNat
  else [c]

/-- The characters of a text as they stand inside the quotes. -/
def escapeAll (cs : List Char) : List Char := cs.flatMap escape

def quote (text : String) : String := .ofList ('"' :: escapeAll text.toList ++ ['"'])

@[simp]
theorem escapeAll_nil : escapeAll [] = [] := rfl

@[simp]
theorem escapeAll_cons (c : Char) (cs : List Char) :
    escapeAll (c :: cs) = escape c ++ escapeAll cs := rfl

end DisplayLogic.Text
