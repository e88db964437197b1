import TierVm.Text.GraphicTable

/-!
# Quoted text

A text in double quotes in which every character can be told apart: the quote and the backslash
are escaped, and so is every character without a shape of its own or that attaches to the one in
front of it.
-/

namespace TierVm.Text

/-- Characters that have a shape of their own. -/
def isGraphic (c : Char) : Bool := !inRanges shapelessRanges c

/-- Characters that attach to the one in front of them. -/
def extendsGrapheme (c : Char) : Bool := inRanges graphemeExtendRanges c

/-- A character by its code point, in hexadecimal. -/
def codePointEscape (c : Char) : List Char :=
  "\\u\x7b".toList ++ Nat.toDigits 16 c.toNat ++ ['\x7d']

/-- A character inside quoted text. -/
def quotedChar (c : Char) : List Char :=
  match c with
  | '"' | '\\' => ['\\', c]
  | '\x00' => ['\\', '0']
  | '\t' => ['\\', 't']
  | '\n' => ['\\', 'n']
  | '\r' => ['\\', 'r']
  | c => if extendsGrapheme c || !isGraphic c then codePointEscape c else [c]

/-- A text in quotes. -/
def quoted (s : String) : String :=
  "\"" ++ String.ofList (s.toList.flatMap quotedChar) ++ "\""

end TierVm.Text
