import RowSweep.File.Content
import RowSweep.File.Path

/-!
This module contains folders: files under their paths. A visit goes along a path part by part, and so finds
out what is a directory; a file can be put only where the way to it leads through directories.
-/

namespace RowSweep

structure Folder where
  files : List (Path × FileContent)
  directories : List Path

namespace Folder

def systemDirectories : List Path :=
  ["/dev", "/etc", "/home", "/mnt", "/opt", "/proc", "/root", "/run", "/srv", "/sys", "/tmp", "/usr",
   "/var"].map .ofText

def standard : Folder :=
  ⟨[(.ofText "/dev/null", .text "")], systemDirectories⟩

def write (f : Folder) (place : Path) (content : FileContent) : Folder :=
  { f with files := (place, content) :: f.files.filter (·.1 ≠ place) }

def erase (f : Folder) (place : Path) : Folder :=
  { f with files := f.files.filter (·.1 ≠ place) }

def isLasting (f : Folder) (place : Path) : Bool :=
  place.parts.all (· = "..") || f.directories.contains place

def isDirectory (f : Folder) (place : Path) : Bool :=
  f.isLasting place ||
    f.files.any fun (file, _) =>
      file.root = place.root && place.parts.isPrefixOf file.parts && file ≠ place

def look (f : Folder) (place : Path) : FileContent :=
  if f.isDirectory place then .unreadable .isDirectory
  else (f.files.lookup place).getD (.unreadable .missing)

def maxPartSize : Nat :=
  255

def maxPathSize : Nat :=
  4095

def follow (f : Folder) (here : Path) : List String → Except FileProblem Path
  | [] => .ok here
  | part :: rest =>
    match f.look here with
    | .unreadable .isDirectory =>
      if part.utf8ByteSize > maxPartSize then .error .nameTooLong else f.follow (here.step part) rest
    | .unreadable problem => .error problem
    | _ => .error .notDirectory

def reach (f : Folder) (p : Path) : Except FileProblem Path :=
  if p.text.utf8ByteSize > maxPathSize then .error .nameTooLong else f.follow p.start p.parts

def visit (f : Folder) (p : Path) : FileContent :=
  match f.reach p with
  | .ok place => f.look place
  | .error problem => .unreadable problem

def visitFrom (f : Folder) (directory p : Path) : FileContent :=
  if p.text.utf8ByteSize > maxPathSize then .unreadable .nameTooLong
  else if directory.root = p.root ∧ directory.parts.isPrefixOf p.parts then
    f.visit ⟨"", p.parts.drop directory.parts.length⟩
  else if directory.root = p.root ∧ p.parts.isPrefixOf directory.parts then .unreadable .isDirectory
  else f.visit p

def put (f : Folder) (p : Path) (content : FileContent) : Except FileProblem Folder := do
  let place ← f.reach p
  if f.isDirectory place then throw .isDirectory
  return f.write place content

def remove (f : Folder) (p : Path) : Except FileProblem Folder := do
  let place ← f.reach p
  match f.look place with
  | .unreadable problem => throw problem
  | _ => return f.erase place

end Folder

end RowSweep
