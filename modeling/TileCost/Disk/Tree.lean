import TileCost.Disk
import TileCost.Text.Split

/-! A finite tree of files and folders under the working folder, with links and with places that
may not be entered or opened, and what a path leads to. A path is followed component by
component, the first one that goes wrong is the one reported, and a link is replaced by the
components it stands for. Both questions to a tree follow the path in the same way. Outside the
working folder there are folders to pass through and nothing else. -/
namespace TileCost

inductive Entry where
  | file (content : ByteArray)
  | folder

structure Tree where
  entries : List (List String × Entry)
  links : List (List String × String)
  closed : List (List String)

namespace Tree

def components (path : String) : List String := (Text.parts '/' path.toList).map String.ofList

def isStep (name : String) : Bool := name ≠ "" && name ≠ "."

def parents (names : List String) : List (List String) :=
  (List.range names.length).map names.take

def ofEntries (entries : List (String × Entry)) : Tree :=
  let named := entries.map fun (path, entry) => ((components path).filter isStep, entry)
  ⟨named ++ named.flatMap fun (names, _) => (parents names).map (·, Entry.folder), [], []⟩

inductive Place where
  | inside (names : List String)
  | outside
  deriving DecidableEq, Repr

def entryAt (t : Tree) : Place → Option Entry
  | .outside => some .folder
  | .inside [] => some .folder
  | .inside names => t.entries.lookup names

def linkAt (t : Tree) : Place → Option String
  | .outside => none
  | .inside names => t.links.lookup names

def isClosed (t : Tree) : Place → Bool
  | .outside => false
  | .inside names => t.closed.contains names

def Place.above : Place → Place
  | outside => outside
  | inside [] => outside
  | inside names => inside names.dropLast

def Place.child (name : String) : Place → Option Place
  | outside => none
  | inside names => some (inside (names ++ [name]))

def maxName : Nat := 255

def maxPath : Nat := 4095

def maxLinks : Nat := 40

inductive Step where
  | moved (place : Place) (here : Entry)
  | linked (target : String)

def advance (t : Tree) (place : Place) (name : String) : Except SystemFault Step :=
  if name = "" then .ok (.moved place .folder)
  else if t.isClosed place then .error .denied
  else if name = "." then .ok (.moved place .folder)
  else if name = ".." then .ok (.moved place.above .folder)
  else if maxName < name.utf8ByteSize then .error .longName
  else
    match place.child name with
    | none => .error .missing
    | some next =>
        match t.linkAt next, t.entryAt next with
        | some target, _ => .ok (.linked target)
        | none, none => .error .missing
        | none, some entry => .ok (.moved next entry)

inductive Walk where
  | arrived (place : Place) (here : Entry)
  | linked (folder : Place) (target : String) (rest : List String)

def walk (t : Tree) (place : Place) (here : Entry) : List String → Except SystemFault Walk
  | [] => .ok (.arrived place here)
  | name :: rest =>
      match here with
      | .file _ => .error .notFolder
      | .folder =>
          match t.advance place name with
          | .error fault => .error fault
          | .ok (.linked target) => .ok (.linked place target rest)
          | .ok (.moved next entry) => t.walk next entry rest

def Place.start (folder : Place) (path : String) : Place :=
  if path.toList.head? = some '/' then outside else folder

def resolve (t : Tree) : Nat → Place → List String → Except SystemFault (Place × Entry)
  | 0, _, _ => .error .manyLinks
  | walks + 1, place, names =>
      match t.walk place .folder names with
      | .error fault => .error fault
      | .ok (.arrived place here) => .ok (place, here)
      | .ok (.linked folder target rest) =>
          t.resolve walks (folder.start target) (components target ++ rest)

def find (t : Tree) (path : String) : Except SystemFault (Place × Entry) :=
  if path.toList.contains '\x00' then .error .nullCharacter
  else if path = "" then .error .missing
  else if maxPath < path.utf8ByteSize then .error .longName
  else t.resolve (maxLinks + 1) (Place.start (.inside []) path) (components path)

def openAt (t : Tree) : Place × Entry → Except SystemFault ByteArray
  | (place, here) =>
      if t.isClosed place then .error .denied
      else
        match here with
        | .folder => .error .folder
        | .file content => .ok content

def disk (t : Tree) : Disk where
  has path := (t.find path).isOk
  content path := t.find path >>= t.openAt

end Tree
end TileCost
