import Idl.Text.Split

/-!
# Interface names

An interface is named `package@major.minor::Name`, with dots inside the package. The native name
is `::` and the parts joined by `::`, the version written `Vmajor_minor`; the managed name joins
the same parts by dots. A text of another form is named by as many parts as it has.
-/

namespace Idl.FqName

/-- Writes `::` for each dot. -/
def dotsToColons (s : List Char) : List Char :=
  s.flatMap fun c => if c = '.' then [':', ':'] else [c]

/-- Writes a dot for each `::`, from the left. -/
def colonsToDots : List Char → List Char
  | ':' :: ':' :: rest => '.' :: colonsToDots rest
  | c :: rest => c :: colonsToDots rest
  | [] => []

def dropColons : List Char → List Char
  | ':' :: ':' :: rest => dropColons rest
  | s => s

def version (s : List Char) : List Char := 'V' :: s.map fun c => if c = '.' then '_' else c

def nativeParts (package version' name : List Char) : List Char :=
  [':', ':'] ++ dotsToColons package ++ [':', ':'] ++ version version' ++
    if name = [] then [] else [':', ':'] ++ name

def nativeChars (s : List Char) : List Char :=
  match Text.splitAtFirst? ['@'] s with
  | none => [':', ':'] ++ dotsToColons s
  | some (package, rest) =>
    match Text.splitAtFirst? [':', ':'] rest with
    | some (v, name) => nativeParts package v name
    | none => nativeParts package rest []

def managedChars (s : List Char) : List Char := colonsToDots (dropColons (nativeChars s))

def native (name : String) : String := String.ofList (nativeChars name.toList)

def managed (name : String) : String := String.ofList (managedChars name.toList)

end Idl.FqName
