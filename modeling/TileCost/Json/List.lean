import TileCost.Json.Kinds

/-! JSON lists, after the opening bracket: of any length, and of a fixed one. A
reader of fixed length asks for no element beyond its last; what stands there
instead of the closing bracket is then trailing text. -/
namespace TileCost.Json

inductive Next where
  | item (text : List Char)
  | closed (rest : List Char)
  deriving DecidableEq, Repr

def nextItem (first : Bool) (text : List Char) : Except Failure Next :=
  match space text with
  | [] => .error (Cause.endOfList.before [])
  | ']' :: rest => .ok (.closed rest)
  | c :: rest =>
      if first then .ok (.item (c :: rest))
      else if c = ',' then
        match space rest with
        | [] => .error (Cause.endOfValue.before [])
        | ']' :: rest => .error (Cause.trailingComma.into (']' :: rest))
        | rest => .ok (.item rest)
      else .error (Cause.noListSeparator.into (c :: rest))

def closeList (text : List Char) : Except Failure (List Char) :=
  match space text with
  | [] => .error (Cause.endOfList.before [])
  | ']' :: rest => .ok rest
  | ',' :: rest =>
      match space rest with
      | ']' :: rest => .error (Cause.trailingComma.into (']' :: rest))
      | rest => .error (Cause.trailingText.into rest)
  | rest => .error (Cause.trailingText.into rest)

def items (read : Reader α) : Nat → List α → Reader (List α)
  | 0, _, text => .error (Cause.endOfList.before text)
  | fuel + 1, done, text => do
      match ← nextItem done.isEmpty text with
      | .closed rest => return (done.reverse, rest)
      | .item text =>
          let (x, rest) ← read text
          items read fuel (x :: done) rest

/- Every element takes at least one character. -/
def list (read : Reader α) : Reader (List α) := fun text =>
  match space text with
  | '[' :: rest => items read (rest.length + 1) [] rest
  | text => .error (mismatch "a sequence" text)

def element (read : Reader α) (expected : String) (index : Nat) : Reader α := fun text => do
  match ← nextItem (index = 0) text with
  | .closed rest => throw ((Cause.wrongLength index expected).before rest)
  | .item text => read text

def triple (read : Reader α) : Reader (α × α × α) := fun text =>
  let expected := "an array of length 3"
  match space text with
  | '[' :: rest => do
      let (a, rest) ← element read expected 0 rest
      let (b, rest) ← element read expected 1 rest
      let (c, rest) ← element read expected 2 rest
      let rest ← closeList rest
      return ((a, b, c), rest)
  | text => .error (mismatch expected text)

def joined : List (List Char) → List Char
  | [] => []
  | [item] => item
  | item :: next :: items => item ++ ',' :: joined (next :: items)

def writeList (items : List (List Char)) : List Char := '[' :: joined items ++ [']']

end TileCost.Json
