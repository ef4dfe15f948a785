import TileCost.Text.Unprintable

/-! Text shown to people inside double quotes. Quote, backslash, line ends, tab
and the null character have short escapes; whatever has no visible form of its
own is shown by its code in lower-case hexadecimal. -/
namespace TileCost.Text

def hex (n : Nat) : List Char := Nat.toDigits 16 n

def shown (c : Char) : List Char :=
  match c with
  | '\x00' => ['\\', '0']
  | '\t' => ['\\', 't']
  | '\r' => ['\\', 'r']
  | '\n' => ['\\', 'n']
  | '"' => ['\\', '"']
  | '\\' => ['\\', '\\']
  | c =>
      if isUnprintable c then ['\\', 'u', '\x7b'] ++ hex c.toNat ++ ['\x7d'] else [c]

def quoted (text : List Char) : String :=
  String.ofList ('"' :: text.flatMap shown ++ ['"'])

end TileCost.Text
