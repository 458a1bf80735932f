import Stencil.Source

/-!
# File Trees

A working directory with the files and directories below it, as a value. Reading a
path follows it from directory to directory as a file system does: every part but
the last has to be a directory, `.` and empty parts stay where they are, `..` goes
back up.

Above the working directory, and at absolute paths, nothing is known to be there: a
name found nowhere below is missing.

## Main definitions

* `Entry`: A file with its bytes, or a directory with its entries.
* `Entry.put`, `Entry.remove`: A tree with an entry more or less.
* `Entry.follow`: The entry that a path leads to.
* `Entry.read`: The text of the file that a path leads to.
-/

namespace Stencil

/-- A file or a directory. -/
inductive Entry
  | file (bytes : ByteArray)
  | directory (entries : List (String × Entry))

namespace Entry

/-- The entries of a directory; a file has none. -/
def entries : Entry → List (String × Entry)
  | file _ => []
  | directory entries => entries

/-- A directory without entries. -/
def empty : Entry :=
  directory []

/-- The directory with an entry of this name in place of any other. -/
def set (dir : Entry) (name : String) (e : Entry) : Entry :=
  directory ((name, e) :: dir.entries.filter (·.1 != name))

/-- The parts of a path that name something, in order. -/
def parts (path : String) : List String :=
  (Text.pieces '/' path).filter fun part => part != "" && part != "."

/-- What stands where an entry is put: a directory that is there stays with what it
    holds if a directory is wanted, anything else gives way. -/
def replacing : Entry → Entry → Entry
  | directory _, directory entries => directory entries
  | new, _ => new

/-- The tree with an entry at the end of the parts, and with directories on the way. -/
def put (new : Entry) : List String → Entry → Entry
  | [], old => replacing new old
  | name :: names, dir =>
    dir.set name (put new names ((dir.entries.lookup name).getD empty))

/-- The tree without the entry at the end of the parts. -/
def remove : List String → Entry → Entry
  | [], dir => dir
  | [name], dir => directory (dir.entries.filter (·.1 != name))
  | name :: names, dir =>
    match dir.entries.lookup name with
    | some e => dir.set name (remove names e)
    | none => dir

/-- The most bytes that one part of a path may have. -/
def maxPartBytes : Nat := 255

/-- The most bytes that a whole path may have. -/
def maxPathBytes : Nat := 4095

/-- A part that stays in the directory it is met in. -/
def stays (part : String) : Bool :=
  part == "" || part == "."

/-- Where the parts of a path lead outside of the tree: to a directory, as long as they
    name nothing. -/
def followOutside : List String → Except ReadError (Option Entry)
  | [] => .ok (some empty)
  | part :: rest =>
    if stays part || part == ".." then followOutside rest
    else if maxPartBytes < part.utf8ByteSize then .error .invalidFilename
    else .ok none

/-- Where the parts of a path lead from a directory, given with those above it, the
    nearest first. -/
def follow (dir : Entry) (above : List Entry) : List String → Except ReadError (Option Entry)
  | [] => .ok (some dir)
  | part :: rest =>
    if stays part then follow dir above rest
    else if part == ".." then
      match above with
      | [] => followOutside rest
      | parent :: above => follow parent above rest
    else if maxPartBytes < part.utf8ByteSize then .error .invalidFilename
    else
      match dir.entries.lookup part with
      | none => .ok none
      | some (.file bytes) =>
        if rest.isEmpty then .ok (some (.file bytes)) else .error .notADirectory
      | some (.directory entries) => follow (.directory entries) (dir :: above) rest

/-- The entry that a path leads to from the working directory. -/
def find (root : Entry) (path : String) : Except ReadError (Option Entry) :=
  if '\x00' ∈ path.toList then .error .nullCharacter
  else if maxPathBytes < path.utf8ByteSize then .error .invalidFilename
  else if path.isEmpty then .ok none
  else if Text.hasFront "/" path then followOutside (Text.pieces '/' path)
  else follow root [] (Text.pieces '/' path)

/-- The text of the file that a path leads to. -/
def read (root : Entry) (path : String) : ReadResult :=
  match root.find path with
  | .error e => .error e
  | .ok none => .ok none
  | .ok (some (.directory _)) => .error .isADirectory
  | .ok (some (.file bytes)) =>
    match String.fromUTF8? bytes with
    | some text => .ok (some text)
    | none => .error .invalidData

end Entry

end Stencil
