/-! What a program sees of the files around it. Whether something is at a path and what can be
read there are asked apart and answered apart, each with any fault of the system: what is there
need not be readable, and what cannot be reached need not be missing. -/
namespace TileCost

inductive SystemFault where
  | numbered (remark : String) (number : Nat)
  | nullCharacter
  deriving DecidableEq, Repr

namespace SystemFault

def missing : SystemFault := numbered "No such file or directory" 2

def denied : SystemFault := numbered "Permission denied" 13

def notFolder : SystemFault := numbered "Not a directory" 20

def folder : SystemFault := numbered "Is a directory" 21

def longName : SystemFault := numbered "File name too long" 36

def manyLinks : SystemFault := numbered "Too many levels of symbolic links" 40

def message : SystemFault → String
  | numbered remark number => s!"{remark} (os error {number})"
  | nullCharacter => "file name contained an unexpected NUL byte"

end SystemFault

structure Disk where
  has : String → Bool
  content : String → Except SystemFault ByteArray

inductive ReadFault where
  | system (fault : SystemFault)
  | notText
  deriving DecidableEq, Repr

def ReadFault.message : ReadFault → String
  | system fault => fault.message
  | notText => "stream did not contain valid UTF-8"

namespace Disk

def read (disk : Disk) (path : String) : Except ReadFault String :=
  match disk.content path with
  | .error fault => .error (.system fault)
  | .ok content =>
      match String.fromUTF8? content with
      | some text => .ok text
      | none => .error .notText

structure Holds (disk : Disk) (path text : String) : Prop where
  has : disk.has path = true
  content : disk.content path = .ok text.toUTF8

theorem Holds.read {disk : Disk} {path text : String} (holds : disk.Holds path text) :
    disk.read path = .ok text := by
  simp [Disk.read, holds.content, String.fromUTF8?, String.fromUTF8, text.isValidUTF8]

end Disk
end TileCost
