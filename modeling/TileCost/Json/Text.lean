import TileCost.Json.Space

/-! JSON strings, after the opening quote. Reading decodes the escapes; a pair of
surrogate escapes is one character and a lone one is refused. Writing uses the
short escapes where JSON has one, a code for the other controls, and leaves all
else as it is. -/
namespace TileCost.Json

def hexDigit (c : Char) : Option Nat :=
  if '0' ≤ c ∧ c ≤ '9' then some (c.toNat - '0'.toNat)
  else if 'a' ≤ c ∧ c ≤ 'f' then some (c.toNat - 'a'.toNat + 10)
  else if 'A' ≤ c ∧ c ≤ 'F' then some (c.toNat - 'A'.toNat + 10)
  else none

def codeUnit (a b c d : Char) : Option Nat :=
  match hexDigit a, hexDigit b, hexDigit c, hexDigit d with
  | some a, some b, some c, some d => some (((a * 16 + b) * 16 + c) * 16 + d)
  | _, _, _, _ => none

/- Four bytes are taken before they are looked at; with fewer the string has
come to its end. -/
def badUnit (text : List Char) : Failure :=
  if size text < 4 then Cause.endOfString.before [] else ⟨.badEscape, size text - 4⟩

def isHighSurrogate (unit : Nat) : Bool := 0xd800 ≤ unit && unit ≤ 0xdbff

def isLowSurrogate (unit : Nat) : Bool := 0xdc00 ≤ unit && unit ≤ 0xdfff

def paired (high low : Nat) : Char :=
  Char.ofNat (0x10000 + (high - 0xd800) * 0x400 + (low - 0xdc00))

def shortEscape : Char → Option Char
  | '"' => some '"'
  | '\\' => some '\\'
  | '/' => some '/'
  | 'b' => some '\x08'
  | 'f' => some '\x0c'
  | 'n' => some '\n'
  | 'r' => some '\r'
  | 't' => some '\t'
  | _ => none

def isControl (c : Char) : Bool := c.toNat < 0x20

def unpaired : List Char → Failure
  | [] => Cause.endOfString.before []
  | '\\' :: [] => Cause.endOfString.before []
  | '\\' :: 'u' :: text => badUnit text
  | '\\' :: text => Cause.unpairedSurrogate.into text
  | text => Cause.unpairedSurrogate.into text

def string (done : List Char) : Reader (List Char)
  | [] => .error (Cause.endOfString.before [])
  | '"' :: rest => .ok (done.reverse, rest)
  | '\\' :: 'u' :: a :: b :: c :: d :: rest =>
      match codeUnit a b c d with
      | none => .error (badUnit (a :: b :: c :: d :: rest))
      | some unit =>
          if isLowSurrogate unit then .error (Cause.loneSurrogate.before rest)
          else if isHighSurrogate unit then
            match rest with
            | '\\' :: 'u' :: e :: f :: g :: h :: after =>
                match codeUnit e f g h with
                | none => .error (badUnit (e :: f :: g :: h :: after))
                | some second =>
                    if isLowSurrogate second then string (paired unit second :: done) after
                    else .error (Cause.loneSurrogate.before after)
            | rest => .error (unpaired rest)
          else string (Char.ofNat unit :: done) rest
  | '\\' :: 'u' :: rest => .error (badUnit rest)
  | '\\' :: [] => .error (Cause.endOfString.before [])
  | '\\' :: c :: rest =>
      match shortEscape c with
      | some decoded => string (decoded :: done) rest
      | none => .error (Cause.badEscape.into (c :: rest))
  | c :: rest =>
      if isControl c then .error (Cause.controlCharacter.into (c :: rest))
      else string (c :: done) rest

def skipString : List Char → Except Failure (List Char)
  | [] => .error (Cause.endOfString.before [])
  | '"' :: rest => .ok rest
  | '\\' :: 'u' :: a :: b :: c :: d :: rest =>
      match codeUnit a b c d with
      | none => .error (badUnit (a :: b :: c :: d :: rest))
      | some _ => skipString rest
  | '\\' :: 'u' :: rest => .error (badUnit rest)
  | '\\' :: [] => .error (Cause.endOfString.before [])
  | '\\' :: c :: rest =>
      match shortEscape c with
      | some _ => skipString rest
      | none => .error (Cause.badEscape.into (c :: rest))
  | c :: rest =>
      if isControl c then .error (Cause.controlCharacter.before (c :: rest))
      else skipString rest

def escaped (c : Char) : List Char :=
  match c with
  | '"' => ['\\', '"']
  | '\\' => ['\\', '\\']
  | '\x08' => ['\\', 'b']
  | '\t' => ['\\', 't']
  | '\n' => ['\\', 'n']
  | '\x0c' => ['\\', 'f']
  | '\r' => ['\\', 'r']
  | c =>
      if isControl c then
        ['\\', 'u', '0', '0', Nat.digitChar (c.toNat / 16), Nat.digitChar (c.toNat % 16)]
      else [c]

def writeString (text : List Char) : List Char := '"' :: text.flatMap escaped ++ ['"']

end TileCost.Json
