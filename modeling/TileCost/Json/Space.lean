import TileCost.Json.Failure

/-! White space between tokens, the letters of the three words, and the end of a
document. -/
namespace TileCost.Json

def isSpace (c : Char) : Bool := c = ' ' || c = '\n' || c = '\t' || c = '\r'

def space (text : List Char) : List Char := text.dropWhile isSpace

def word : List Char → List Char → Except Failure (List Char)
  | [], text => .ok text
  | _ :: _, [] => .error (Cause.endOfValue.before [])
  | letter :: letters, c :: rest =>
      if c = letter then word letters rest else .error (Cause.badWord.into (c :: rest))

end TileCost.Json
