/-! Text without what a terminal would act on: control characters and escape
sequences. Tab, line feed, form feed and carriage return are text. They also break
into a sequence they stand in, but not into a control string, which runs to its end. -/
namespace TileCost.Text

def isLayout (c : Char) : Bool := c = '\t' || c = '\n' || c = '\x0c' || c = '\r'

def isControl (c : Char) : Bool := c.toNat < 0x20 || c = '\x7f'

/- The terminator is the byte 9C, wherever in a character it stands. -/
def endsString (c : Char) : Bool := (String.utf8EncodeChar c).contains 0x9c

namespace Terminal

inductive Mode where
  | text
  | escape
  | designation
  | controlSequence
  | command
  | device
  | deviceParameters
  | deviceSelection
  | string
  deriving DecidableEq, Repr

def Mode.within (mode : Mode) (c : Char) : Mode :=
  let code := c.toNat
  match mode with
  | text => text
  | escape =>
      if c = '[' then controlSequence
      else if c = ']' then command
      else if c = 'P' then device
      else if c = 'X' || c = '^' || c = '_' then string
      else if 0x20 ≤ code ∧ code ≤ 0x2f then designation
      else if 0x30 ≤ code ∧ code ≤ 0x7e then text
      else escape
  | designation => if 0x30 ≤ code ∧ code ≤ 0x7e then text else designation
  | controlSequence => if 0x40 ≤ code ∧ code ≤ 0x7e then text else controlSequence
  | command => if c = '\x07' then text else command
  | device =>
      if 0x20 ≤ code ∧ code ≤ 0x2f then deviceSelection
      else if 0x30 ≤ code ∧ code ≤ 0x3f then deviceParameters
      else if 0x40 ≤ code ∧ code ≤ 0x7e then string
      else device
  | deviceParameters =>
      if 0x20 ≤ code ∧ code ≤ 0x2f then deviceSelection
      else if 0x3c ≤ code ∧ code ≤ 0x7e then string
      else deviceParameters
  | deviceSelection => if 0x30 ≤ code ∧ code ≤ 0x7e then string else deviceSelection
  | string => if endsString c then text else string

def Mode.shows (mode : Mode) (c : Char) : Bool :=
  match mode with
  | text => isLayout c || !isControl c
  | escape | designation | controlSequence => isLayout c
  | _ => false

def Mode.after (mode : Mode) (c : Char) : Mode :=
  if c = '\x1b' then escape
  else if c = '\x18' || c = '\x1a' then text
  else mode.within c

/- What text does to a sequence that it breaks into: the sequence is over, or it waits
for the next control character and goes on there. -/
inductive Interruption where
  | ends
  | suspends
  deriving DecidableEq, Repr

def Interruption.kept : Interruption → Mode → Mode
  | ends, _ => .text
  | suspends, mode => mode

inductive Place where
  | taken (mode : Mode)
  | shown (mode : Mode)
  deriving DecidableEq, Repr

def Place.shows : Place → Char → Bool
  | taken mode, c => mode.shows c
  | shown _, c => Mode.text.shows c

def Place.after (interruption : Interruption) (place : Place) (c : Char) : Place :=
  match place with
  | taken mode => if mode.shows c then shown (interruption.kept mode) else taken (mode.after c)
  | shown mode =>
      if Mode.text.shows c then shown (if c.toNat < 0x80 then mode else .text)
      else taken (mode.after c)

def visible (interruption : Interruption) : Place → List Char → List Char
  | _, [] => []
  | place, c :: rest =>
      let others := visible interruption (place.after interruption c) rest
      if place.shows c then c :: others else others

theorem visiblePlain {interruption : Interruption} {place : Place} {text : List Char}
    (start : place = .taken .text ∨ ∃ mode, place = .shown mode)
    (plain : ∀ c ∈ text, isControl c = false) : visible interruption place text = text := by
  induction text generalizing place with
  | nil => rfl
  | cons c rest ih =>
    have here : Mode.text.shows c = true := by simp [Mode.shows, plain c List.mem_cons_self]
    have others : ∀ x ∈ rest, isControl x = false := fun x member => plain x (.tail c member)
    rcases start with rfl | ⟨mode, rfl⟩
    · simp [visible, Place.shows, Place.after, here, ih (.inr ⟨_, rfl⟩) others]
    · simp [visible, Place.shows, Place.after, here, ih (.inr ⟨_, rfl⟩) others]

end Terminal

def withoutControls (interruption : Terminal.Interruption) (text : String) : String :=
  String.ofList (Terminal.visible interruption (.taken .text) text.toList)

end TileCost.Text
