import Proximity.Text.Extending
import Proximity.Text.Unseen

/-!
# Quoted texts

Messages show paths in double quotes.  Inside the quotes every character can be
told from every other one: double quotes and backslashes are escaped, and a
character that leaves no mark of its own is named by its number.  A single quote
cannot end the text and stands for itself.

## Main definitions

* `Text.isMarkless` — the characters that leave no mark of their own.
* `Text.quoted` — a text in double quotes.
-/

namespace Proximity.Text

/-- Whether a character leaves no mark of its own. -/
def isMarkless (c : Char) : Bool := extending.holds c || unseen.holds c

/-- A character inside quotes. -/
def quotedChar (c : Char) : List Char :=
  if c.toNat = 0 then ['\\', '0']
  else if c = '\t' then ['\\', 't']
  else if c = '\r' then ['\\', 'r']
  else if c = '\n' then ['\\', 'n']
  else if c = '"' ∨ c = '\\' then ['\\', c]
  else if isMarkless c then '\\' :: 'u' :: '\x7b' :: Nat.toDigits 16 c.toNat ++ ['\x7d']
  else [c]

/-- A text in double quotes. -/
def quoted (text : String) : String :=
  String.ofList ('"' :: text.toList.flatMap quotedChar ++ ['"'])

end Proximity.Text
