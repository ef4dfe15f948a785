import TileCost.Json.List

/-! Records: objects with known members, or lists of the members' values in the
order of the declaration. Reading starts from a value that holds the defaults and
lets each member replace its part. Members of other names are passed over, and a
known one may come once. In a complete record no member may be absent. -/
namespace TileCost.Json

structure Field (α : Type) where
  name : String
  update : α → Reader α

def Field.of (name : String) (read : Reader β) (put : α → β → α) : Field α :=
  ⟨name, fun x text => do
    let (y, rest) ← read text
    return (put x y, rest)⟩

structure Record (α : Type) where
  name : String
  fields : List (Field α)
  default : α
  complete : Bool

namespace Record

def expected (r : Record α) : String := s!"struct {r.name}"

def field? (r : Record α) (name : String) : Option (Field α) :=
  r.fields.find? (fun f => f.name = name)

def missing (r : Record α) (seen : List String) : Option String :=
  if r.complete then (r.fields.map Field.name).find? (fun name => name ∉ seen) else none

inductive Member where
  | key (text : List Char)
  | closed (rest : List Char)
  deriving DecidableEq, Repr

def nextMember (first : Bool) (text : List Char) : Except Failure Member :=
  match space text with
  | [] => .error (Cause.endOfObject.before [])
  | '\x7d' :: rest => .ok (.closed rest)
  | c :: rest =>
      if first then
        if c = '"' then .ok (.key rest) else .error (Cause.keyNotString.into (c :: rest))
      else if c = ',' then
        match space rest with
        | [] => .error (Cause.endOfValue.before [])
        | '"' :: rest => .ok (.key rest)
        | '\x7d' :: rest => .error (Cause.trailingComma.into ('\x7d' :: rest))
        | rest => .error (Cause.keyNotString.into rest)
      else .error (Cause.noObjectSeparator.into (c :: rest))

def colon (text : List Char) : Except Failure (List Char) :=
  match space text with
  | [] => .error (Cause.endOfObject.before [])
  | ':' :: rest => .ok rest
  | rest => .error (Cause.noColon.into rest)

/- The object is left before the report: space is passed over, and the closing
brace with it if it follows. -/
def repeated (name : String) (text : List Char) : Failure :=
  match space text with
  | '\x7d' :: rest => (Cause.repeatedField name).before rest
  | rest => (Cause.repeatedField name).before rest

def members (r : Record α) : Nat → Bool → List String → α → Reader α
  | 0, _, _, _, text => .error (Cause.endOfObject.before text)
  | fuel + 1, first, seen, x, text => do
      match ← nextMember first text with
      | .closed rest =>
          match r.missing seen with
          | some name => throw ((Cause.missingField name).before rest)
          | none => return (x, rest)
      | .key text =>
          let (key, rest) ← string [] text
          let name := String.ofList key
          match r.field? name with
          | none =>
              let rest ← skipValue (← colon rest)
              members r fuel false seen x rest
          | some field =>
              if name ∈ seen then throw (repeated name rest)
              else
                let (x, rest) ← field.update x (← colon rest)
                members r fuel false (name :: seen) x rest

def positions (r : Record α) : List (Field α) → Nat → α → Reader α
  | [], _, x, text => do return (x, ← closeList text)
  | field :: fields, index, x, text => do
      match ← nextItem (index = 0) text with
      | .closed rest =>
          if r.complete then
            let expected := s!"{r.expected} with {r.fields.length} elements"
            throw ((Cause.wrongLength index expected).before rest)
          else return (x, rest)
      | .item text =>
          let (x, rest) ← field.update x text
          positions r fields (index + 1) x rest

def read (r : Record α) : Reader α := fun text =>
  match space text with
  | '\x7b' :: rest => r.members (rest.length + 1) true [] r.default rest
  | '[' :: rest => r.positions r.fields 0 r.default rest
  | text => .error (mismatch r.expected text)

end Record

def writeMember (name : String) (value : List Char) : List Char :=
  writeString name.toList ++ ':' :: value

def writeObject (members : List (List Char)) : List Char :=
  '\x7b' :: joined members ++ ['\x7d']

end TileCost.Json
