import Idl.Failure
import Idl.Text.Split

/-!
# Directories

A directory holds files by name. Writing replaces the content of one file or fails and changes
nothing. Which file a path denotes, or why it cannot be written, is part of the directory.
-/

namespace Idl

structure Directory where
  files : List (String × String)
  place : String → Except FileError String

namespace Directory

def content? (d : Directory) (name : String) : Option String := d.files.lookup name

def write (d : Directory) (path text : String) : Except FileError Directory := do
  let name ← d.place path
  return { d with files := (name, text) :: d.files.filter fun file => file.1 != name }

/-- Bytes in a path, the end mark included. -/
def pathLimit : Nat := 4096

/-- Bytes in a name. -/
def nameLimit : Nat := 255

/-- Finds a path, given by the texts between its slashes, where there are no other directories. -/
def placeAmong : List String → Except FileError String
  | [] => .error .noSuchDirectory
  | [last] =>
    if last ∈ ["", ".", ".."] then .error .isDirectory
    else if last.utf8ByteSize > nameLimit then .error .nameTooLong
    else .ok last
  | first :: rest =>
    if first ∈ ["", "."] then placeAmong rest
    else if first = ".." then (placeAmong rest).map fun name => "../" ++ name
    else if rest.all (·.isEmpty) then .error .isDirectory
    else if first.utf8ByteSize > nameLimit then .error .nameTooLong
    else .error .noSuchDirectory

/--
Finds a path from a directory with nothing in it. A path that starts with a slash leaves that
directory, as one that starts with two dots does, so the name it gives keeps the slash.
-/
def placeInEmpty (path : String) : Except FileError String :=
  if '\x00' ∈ path.toList then .error .nulInPath
  else if path = "" then .error .noSuchDirectory
  else if path.utf8ByteSize ≥ pathLimit then .error .nameTooLong
  else
    let (first, rest) := Text.pieces '/' path.toList
    if first = [] then (placeAmong (rest.map String.ofList)).map fun name => "/" ++ name
    else placeAmong ((first :: rest).map String.ofList)

/-- A directory with nothing in it. -/
def empty : Directory := ⟨[], placeInEmpty⟩

end Directory
end Idl
