import TileCost.Json.Numeral

/-! Passing over a value of any kind, to any depth. The lists and objects that are
still open are kept as a stack of frames, innermost first. After each value the
stack is unwound as far as closing brackets follow; then either nothing is open
any more, or a comma has announced the next value. -/
namespace TileCost.Json

inductive Frame where
  | list
  | object
  deriving DecidableEq, Repr

def Frame.isClosedBy : Frame → Char → Bool
  | list, c => c = ']'
  | object, c => c = '\x7d'

def Frame.unfinished : Frame → Cause
  | list => .endOfList
  | object => .endOfObject

def Frame.noSeparator : Frame → Cause
  | list => .noListSeparator
  | object => .noObjectSeparator

def skipScalar (text : List Char) : Except Failure (List Char) :=
  match text with
  | 'n' :: rest => word ['u', 'l', 'l'] rest
  | 't' :: rest => word ['r', 'u', 'e'] rest
  | 'f' :: rest => word ['a', 'l', 's', 'e'] rest
  | '"' :: rest => skipString rest
  | text =>
      if text.head? = some '-' ∨ startsDigit text then skipNumber text
      else .error (Cause.noValue.into text)

def Frame.announce (frame : Frame) (text : List Char) : Except Failure (List Char) :=
  match frame with
  | list => .ok text
  | object =>
      match space text with
      | [] => .error (Cause.endOfObject.before [])
      | '"' :: rest => do
          let rest ← skipString rest
          match space rest with
          | ':' :: rest => return rest
          | [] => throw (Cause.endOfObject.before [])
          | rest => throw (Cause.noColon.into rest)
      | rest => .error (Cause.keyNotString.into rest)

structure Opened where
  frames : List Frame
  rest : List Char
  deriving DecidableEq, Repr

def unwind : List Frame → List Char → Except Failure Opened
  | [], text => .ok ⟨[], text⟩
  | frame :: outer, text =>
      match space text with
      | [] => .error (frame.unfinished.before [])
      | c :: rest =>
          if c = ',' then (frame.announce rest).map (⟨frame :: outer, ·⟩)
          else if frame.isClosedBy c then unwind outer rest
          else .error (frame.noSeparator.into (c :: rest))

def enter (frame : Frame) (outer : List Frame) (text : List Char) : Except Failure Opened :=
  match space text with
  | [] => .error (frame.unfinished.before [])
  | c :: rest =>
      if frame.isClosedBy c then unwind outer rest
      else (frame.announce (c :: rest)).map (⟨frame :: outer, ·⟩)

def passOne (outer : List Frame) (text : List Char) : Except Failure Opened :=
  match space text with
  | [] => .error (Cause.endOfValue.before [])
  | '[' :: rest => enter .list outer rest
  | '\x7b' :: rest => enter .object outer rest
  | text => do unwind outer (← skipScalar text)

def passAll : Nat → List Frame → List Char → Except Failure (List Char)
  | 0, _, text => .error (Cause.endOfValue.before text)
  | fuel + 1, outer, text => do
      let opened ← passOne outer text
      if opened.frames.isEmpty then return opened.rest
      else passAll fuel opened.frames opened.rest

/- Every step takes at least one character, so the length of the text is enough. -/
def skipValue (text : List Char) : Except Failure (List Char) :=
  passAll (text.length + 1) [] text

end TileCost.Json
