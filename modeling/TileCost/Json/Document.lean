import TileCost.Json.Record

/-! A document is one value with white space around it and nothing else. -/
namespace TileCost.Json

def finished (text : List Char) : Except Failure Unit :=
  match space text with
  | [] => .ok ()
  | rest => .error (Cause.trailingText.into rest)

def whole (read : Reader α) (text : List Char) : Except Failure α := do
  let (x, rest) ← read text
  finished rest
  return x

def document (read : Reader α) (text : String) : Except Error α :=
  (whole read text.toList).mapError (Failure.locate text.toList)

end TileCost.Json
