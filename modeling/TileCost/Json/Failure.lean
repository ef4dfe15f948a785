import TileCost.Json.Numbers
import TileCost.Text.Quoted

/-! Why a JSON text is refused, and where. A reader sees only the text that is
left, so it says how many bytes were left when it gave up; the line and the
column are worked out once, from the whole text. -/
namespace TileCost.Json

inductive Found where
  | null
  | boolean (value : Bool)
  | integer (value : Int)
  | floating (value : Float)
  | string (value : List Char)
  | sequence
  | map
  deriving DecidableEq, Repr

def Found.message : Found → String
  | null => "null"
  | boolean value => s!"boolean `{value}`"
  | integer value => s!"integer `{value}`"
  | floating value => s!"floating point `{String.ofList (writeFloat value)}`"
  | string value => s!"string {Text.quoted value}"
  | sequence => "sequence"
  | map => "map"

inductive Cause where
  | endOfValue
  | endOfList
  | endOfObject
  | endOfString
  | noValue
  | badWord
  | noColon
  | noListSeparator
  | noObjectSeparator
  | keyNotString
  | trailingComma
  | trailingText
  | badNumber
  | outOfRange
  | badEscape
  | loneSurrogate
  | unpairedSurrogate
  | controlCharacter
  | wrongType (found : Found) (expected : String)
  | wrongValue (found : Found) (expected : String)
  | wrongLength (given : Nat) (expected : String)
  | repeatedField (name : String)
  | missingField (name : String)
  deriving DecidableEq, Repr

def Cause.message : Cause → String
  | endOfValue => "EOF while parsing a value"
  | endOfList => "EOF while parsing a list"
  | endOfObject => "EOF while parsing an object"
  | endOfString => "EOF while parsing a string"
  | noValue => "expected value"
  | badWord => "expected ident"
  | noColon => "expected `:`"
  | noListSeparator => "expected `,` or `]`"
  | noObjectSeparator => "expected `,` or `\x7d`"
  | keyNotString => "key must be a string"
  | trailingComma => "trailing comma"
  | trailingText => "trailing characters"
  | badNumber => "invalid number"
  | outOfRange => "number out of range"
  | badEscape => "invalid escape"
  | loneSurrogate => "lone leading surrogate in hex escape"
  | unpairedSurrogate => "unexpected end of hex escape"
  | controlCharacter => "control character (\\u0000-\\u001F) found while parsing a string"
  | wrongType found expected => s!"invalid type: {found.message}, expected {expected}"
  | wrongValue found expected => s!"invalid value: {found.message}, expected {expected}"
  | wrongLength given expected => s!"invalid length {given}, expected {expected}"
  | repeatedField name => s!"duplicate field `{name}`"
  | missingField name => s!"missing field `{name}`"

structure Failure where
  cause : Cause
  left : Nat
  deriving DecidableEq, Repr

abbrev Reader (α : Type) := List Char → Except Failure (α × List Char)

def size (text : List Char) : Nat := text.foldl (fun bytes c => bytes + c.utf8Size) 0

def Cause.before (cause : Cause) (text : List Char) : Failure := ⟨cause, size text⟩

def Cause.into (cause : Cause) (text : List Char) : Failure := ⟨cause, size text - 1⟩

structure Error where
  cause : Cause
  line : Nat
  column : Nat
  deriving DecidableEq, Repr

def Error.message (e : Error) : String :=
  s!"{e.cause.message} at line {e.line} column {e.column}"

/- Lines are counted by the line ends before the index, columns in bytes from
the start of the line. The index may fall inside a character. -/
def place (index : Nat) (offset line start : Nat) : List Char → Nat × Nat
  | [] => (line, index - start)
  | c :: rest =>
      if index ≤ offset then (line, index - start)
      else if c = '\n' then place index (offset + 1) (line + 1) (offset + 1) rest
      else place index (offset + c.utf8Size) line start rest

def Failure.locate (text : List Char) (f : Failure) : Error :=
  let (line, column) := place (size text - f.left) 0 1 0 text
  ⟨f.cause, line, column⟩

end TileCost.Json
