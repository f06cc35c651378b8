import MemoryBoard.Bytes
import MemoryBoard.Defect
import MemoryBoard.Files.Path

set_option autoImplicit false

/- A tree of files, and what the system answers for a path in it. A directory is there if it is
listed or a file lies somewhere below it. -/
namespace MemoryBoard

inductive SystemError where
  | notFound
  | notDirectory
  | isDirectory
  | nameTooLong
deriving DecidableEq, Repr

namespace SystemError

def code : SystemError → Nat
  | notFound => 2
  | notDirectory => 20
  | isDirectory => 21
  | nameTooLong => 36

def reason : SystemError → String
  | notFound => "No such file or directory"
  | notDirectory => "Not a directory"
  | isDirectory => "Is a directory"
  | nameTooLong => "File name too long"

end SystemError

/-- Why a path cannot be used. -/
inductive FileError where
  | system (path : Path) (error : SystemError)
  | defect (cause : Defect)
deriving DecidableEq, Repr

def FileError.message : FileError → String
  | system path error => s!"[Errno {error.code}] {error.reason}: {Text.quote path.text}"
  | defect _ => "embedded null byte"

namespace Files

/-- Where a chain of names begins. -/
inductive Anchor where
  /-- So many directories above the working directory. -/
  | working (up : Nat)
  | root
deriving DecidableEq, Repr

def Anchor.ofPath (path : Path) : Anchor :=
  if path.isAbsolute then .root else .working 0

/-- A place in the system. The names lead down from the anchor. -/
structure Place where
  anchor : Anchor
  names : List Bytes
deriving DecidableEq, Repr

namespace Place

def ofNames (names : List String) : Place :=
  ⟨.working 0, names.map fun name => Text.encodeUtf8 name.toList⟩

/-- The name that leads up. -/
def upward : Bytes := [0x2e, 0x2e]

/-- The names in the bytes of a path. -/
def namesOf (bytes : Bytes) : List Bytes :=
  (bytes.splitOn 0x2f).filter fun name => name ≠ [] ∧ name ≠ [0x2e]

/-- The place that a path names, if it can be a name at all and every name in it is there. -/
def ofPath? (path : Path) : Option Place :=
  path.text.nameForm?.map fun bytes => (namesOf bytes).foldl
    (fun place name =>
      if name ≠ upward then { place with names := place.names ++ [name] }
      else match place.names, place.anchor with
        | [], .working up => ⟨.working (up + 1), []⟩
        | [], .root => place
        | names, _ => { place with names := names.dropLast })
    ⟨.ofPath path, []⟩

def child (place : Place) (name : Bytes) : Place :=
  { place with names := place.names ++ [name] }

def parent (place : Place) : Place :=
  match place.names, place.anchor with
  | [], .working up => ⟨.working (up + 1), []⟩
  | [], .root => place
  | _ :: _, _ => { place with names := place.names.dropLast }

/-- Whether `file` lies below the place. -/
def contains (place file : Place) : Bool :=
  place.anchor == file.anchor && place.names.length < file.names.length &&
    place.names.isPrefixOf file.names

end Place

/-- Files by their place, and directories that may be empty. -/
structure Tree where
  files : List (Place × Bytes)
  directories : List Place := []
deriving Repr, Inhabited

/-- What is found at the end of a path. -/
inductive Found where
  | file (place : Place) (content : Bytes)
  | directory
  /-- Nothing, in a directory that is there. -/
  | vacancy (place : Place)
deriving Repr

namespace Tree

def empty : Tree := ⟨[], []⟩

def content? (tree : Tree) (place : Place) : Option Bytes :=
  (tree.files.find? (·.1 == place)).map (·.2)

/-- Whether a directory is at the place. The ones that chains begin at always are. -/
def hasDirectory (tree : Tree) (place : Place) : Bool :=
  place.names.isEmpty || tree.directories.contains place || tree.files.any (place.contains ·.1)

/-- Puts a file at a place, over the one that may be there. -/
def put (tree : Tree) (place : Place) (content : Bytes) : Tree :=
  if tree.files.any (·.1 == place) then
    { tree with
      files := tree.files.map fun file => if file.1 == place then (place, content) else file }
  else { tree with files := tree.files ++ [(place, content)] }

/-- The longest name and the longest path, in bytes. -/
def nameLimit : Nat := 255

def pathLimit : Nat := 4095

/-- Follows names from a directory. -/
def walk (tree : Tree) (place : Place) : List Bytes → Except SystemError Found
  | [] => .ok .directory
  | name :: rest =>
    if name = Place.upward then tree.walk place.parent rest
    else if nameLimit < name.length then .error .nameTooLong
    else
      let next := place.child name
      match tree.content? next with
      | some content => if rest = [] then .ok (.file next content) else .error .notDirectory
      | none =>
        if tree.hasDirectory next then tree.walk next rest
        else if rest = [] then .ok (.vacancy next)
        else .error .notFound

/-- What a path leads to from the working directory. -/
def find (tree : Tree) (path : Path) : Except FileError Found :=
  match path.text.nameForm? with
  | none => .error (.defect .unencodable)
  | some bytes =>
    if bytes.contains 0 then .error (.defect .nulInPath)
    else if pathLimit < bytes.length then .error (.system path .nameTooLong)
    else match tree.walk ⟨.ofPath path, []⟩ (Place.namesOf bytes) with
      | .ok found => .ok found
      | .error error => .error (.system path error)

/-- The content of a file. -/
def read (tree : Tree) (path : Path) : Except FileError Bytes := do
  match ← tree.find path with
  | .file _ content => return content
  | .directory => throw (.system path .isDirectory)
  | .vacancy _ => throw (.system path .notFound)

/-- The size that a directory is said to have. -/
def directorySize : Nat := 4096

/-- The size of what is at a path. -/
def size (tree : Tree) (path : Path) : Except FileError Nat := do
  match ← tree.find path with
  | .file _ content => return content.length
  | .directory => return directorySize
  | .vacancy _ => throw (.system path .notFound)

/-- Empties or creates the file to be written at a path. -/
def create (tree : Tree) (path : Path) : Except FileError Tree := do
  match ← tree.find path with
  | .file place _ => return tree.put place []
  | .directory => throw (.system path .isDirectory)
  | .vacancy place => return tree.put place []

/-- Adds bytes at the end of a file that has been created. -/
def append (tree : Tree) (path : Path) (bytes : Bytes) : Tree :=
  match tree.find path with
  | .ok (.file place content) => tree.put place (content ++ bytes)
  | _ => tree

end Tree

end Files

end MemoryBoard
