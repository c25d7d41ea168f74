import TableRules.Files.Surroundings

/-!
# Folders in memory

A folder in memory is a list of files, each at the names that lead to it; of two files at the same
names the later counts. A folder inside it is there as soon as a file is, or once it has been made.
Paths are followed name by name from the folder itself; what lies above it is not known.
-/

namespace TableRules

/-- Names that lead from a folder to a file or another folder. -/
abbrev Names : Type := List String

/-- Files and folders below a folder. -/
structure Folder where
  files : List (Names × Content)
  folders : List Names

namespace Folder

/-- The greatest number of octets of a name. -/
def greatestNameSize : Nat := 255

/-- The number of octets from which on a path is too long. -/
def pathSizeLimit : Nat := 4096

/-- The content of the file at some names. -/
def file? (f : Folder) (names : Names) : Option Content :=
  (f.files.reverse.find? fun e => e.1 == names).map (·.2)

/-- Whether there is a folder at some names. -/
def hasFolder (f : Folder) (names : Names) : Bool :=
  names.isEmpty || (f.files.map (·.1) ++ f.folders).any fun other =>
    names.isPrefixOf other && (names != other || f.folders.contains names)

/-- Follows names from the folder at `place`, whose names come last first. -/
def follow (f : Folder) (place : Names) : Names → Entry
  | [] => .folder
  | name :: rest =>
    if name == ".." then
      match place with
      | [] => if rest.isEmpty then .folder else .nothing .missing
      | _ :: above => follow f above rest
    else if greatestNameSize < name.utf8ByteSize then .nothing .nameTooLong
    else
      let here := name :: place
      match f.file? here.reverse with
      | some content => if rest.isEmpty then .file content else .nothing .insideFile
      | none => if f.hasFolder here.reverse then follow f here rest else .nothing .missing

/-- What is found at a path. -/
def entry (f : Folder) (p : Path) : Entry :=
  if p.text.toList.contains '\x00' then .nothing .nulInPath
  else if pathSizeLimit ≤ p.text.utf8ByteSize then .nothing .nameTooLong
  else match p.start with
    | .workingFolder => follow f [] p.names
    | _ => if p.names.isEmpty then .folder else .nothing .missing

/-- Names without those that lead back up. -/
def straight (names : Names) : Names :=
  names.foldl (fun before name => if name == ".." then before.dropLast else before ++ [name]) []

/-- Makes the folders at the last `n` names of a path, from the one that is highest up. -/
def makeFrom (f : Folder) (p : Path) : Nat → Folder × Option Obstacle
  | 0 => (f, none)
  | n + 1 =>
    let names := p.names.take (p.names.length - n)
    match f.entry ⟨p.start, names⟩ with
    | .folder => f.makeFrom p n
    | .file _ => (f, some (if n = 0 then .isFile else .insideFile))
    | .nothing .missing => Folder.makeFrom ⟨f.files, f.folders ++ [straight names]⟩ p n
    | .nothing o => (f, some o)

/-- The folder with a folder made in it, or what is in the way. -/
def makeFolder (f : Folder) (p : Path) : Folder × Option Obstacle := f.makeFrom p p.names.length

/-- The folder with a text written to a file in it, or what is in the way. -/
def write (f : Folder) (p : Path) (text : String) : Folder × Option Obstacle :=
  match f.entry p, f.entry p.folder with
  | .folder, _ => (f, some .isFolder)
  | .nothing .missing, .folder | .file _, .folder =>
    (⟨f.files ++ [(straight p.names, .octets (Text.octetsOf text))], f.folders⟩, none)
  | .nothing o, _ => (f, some o)
  | .file _, _ => (f, some .missing)

/-- Surroundings with a folder in memory, at an instant. -/
def surroundings (instant : Int) : Surroundings (StateM Folder) where
  entry p := do return (← get).entry p
  makeFolder p := modifyGet fun f =>
    let (g, o) := f.makeFolder p
    (o, g)
  write p text := modifyGet fun f =>
    let (g, o) := f.write p text
    (o, g)
  now := pure instant

end Folder

end TableRules
