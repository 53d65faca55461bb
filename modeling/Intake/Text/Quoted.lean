import Intake.Text.Hidden

/-!
Texts shown in messages: between double quotes, with quotes, backslashes and
hidden characters escaped, so that a reader sees every character of the text.
-/
namespace Intake.Text.Quoted

/-- The hexadecimal digits of a number, in lower case and without leading zeros. -/
def hexText (n : Nat) : List Char := Nat.toDigits 16 n

/-- A character as a quoted text shows it. -/
def charText (c : Char) : List Char :=
  match c with
  | '\x00' => ['\\','0']
  | '\t' => ['\\','t']
  | '\r' => ['\\','r']
  | '\n' => ['\\','n']
  | '"' => ['\\','"']
  | '\\' => ['\\','\\']
  | c => if isHidden c then ['\\','u','{'] ++ hexText c.toNat ++ ['}'] else [c]

def text (s : String) : String := String.ofList ('"' :: s.toList.flatMap charText ++ ['"'])

end Intake.Text.Quoted
