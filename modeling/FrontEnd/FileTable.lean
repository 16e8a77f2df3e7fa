/-
# File tables

A file table says what is found under each name in a directory.  Paths are looked up in it
name by name, as a file system does: `.` stays, `..` goes up, and only a directory can be
gone through.
-/
import FrontEnd.Text.Bytes

namespace FrontEnd

/-- Why a file cannot be read. -/
inductive ReadError where
  | notFound
  | notADirectory
  | isADirectory
  | nameTooLong
  /-- The null character stands in the path. -/
  | nullCharacter
  /-- The file holds bytes that encode no text. -/
  | invalidData
  deriving DecidableEq, Repr

def ReadError.message : ReadError → String
  | notFound => "No such file or directory (os error 2)"
  | notADirectory => "Not a directory (os error 20)"
  | isADirectory => "Is a directory (os error 21)"
  | nameTooLong => "File name too long (os error 36)"
  | nullCharacter => "file name contained an unexpected NUL byte"
  | invalidData => "stream did not contain valid UTF-8"

/-- What a name stands for. -/
inductive Entry where
  | file (bytes : ByteArray)
  | directory

/-- The entries below a directory, each with the names that lead to it. -/
structure FileTable where
  entries : List (List String × Entry)

namespace FileTable

/-- The names of a path, from left to right; a name between two slashes may be empty. -/
def splitPath (path : String) : List String :=
  (go path.toList).map String.ofList
where
  go : List Char → List (List Char)
    | [] => [[]]
    | c :: rest =>
      if c = '/' then [] :: go rest
      else match go rest with
        | [] => [[c]]
        | name :: names => (c :: name) :: names

/-- A table of the given entries, each under its path. -/
def ofList (entries : List (String × Entry)) : FileTable :=
  ⟨entries.map fun (path, entry) => ((splitPath path).filter (· ≠ ""), entry)⟩

/-- What the names lead to.  A directory need not be listed if something below it is. -/
def entry? (t : FileTable) (names : List String) : Option Entry :=
  match t.entries.find? fun (listed, _) => listed = names with
  | some (_, entry) => some entry
  | none =>
    if t.entries.any fun (listed, _) => names.isPrefixOf listed then some .directory else none

/-- The longest name of a file, in bytes. -/
def longestName : Nat := 255

/-- The longest path, in bytes. -/
def longestPath : Nat := 4095

/-- Leads from a directory to a directory, whatever that directory holds. -/
def staysOrGoesUp (name : String) : Bool := name = "" || name = "." || name = ".."

/-- What is found outside the table's directory: directories, of which nothing is known. -/
def outside (names : List String) : Except ReadError Entry :=
  if names.all staysOrGoesUp then .ok .directory else .error .notFound

/-- Goes along the names from the directory `here`, whose names are given innermost first. -/
def resolve (t : FileTable) (here : List String) : List String → Except ReadError Entry
  | [] =>
    if here = [] then .ok .directory
    else match t.entry? here.reverse with
      | some entry => .ok entry
      | none => .error .notFound
  | name :: names =>
    match if here = [] then some .directory else t.entry? here.reverse with
    | none => .error .notFound
    | some (.file _) => .error .notADirectory
    | some .directory =>
      if name = "" ∨ name = "." then t.resolve here names
      else if longestName < name.utf8ByteSize then .error .nameTooLong
      else if name = ".." then
        match here with
        | [] => outside names
        | _ :: above => t.resolve above names
      else t.resolve (name :: here) names

/-- What a path leads to.  The empty path leads to nothing; a path that starts with a slash
leaves the table. -/
def lookup (t : FileTable) (path : String) : Except ReadError Entry :=
  if path.contains '\x00' then .error .nullCharacter
  else if longestPath < path.utf8ByteSize then .error .nameTooLong
  else match splitPath path with
  | [] | [_] => if path = "" then .error .notFound else t.resolve [] [path]
  | "" :: names => outside names
  | names => t.resolve [] names

/-- The names that are left of a path when those that stay and go up are carried out,
innermost first. -/
def settle (here : List String) : List String → List String
  | [] => here
  | name :: names =>
    if name = "" ∨ name = "." then settle here names
    else if name = ".." then settle here.tail names
    else settle (name :: here) names

/-- The table with another entry under a path. -/
def put (t : FileTable) (path : String) (entry : Entry) : FileTable :=
  let names := (settle [] (splitPath path)).reverse
  ⟨(names, entry) :: t.entries.filter fun (listed, _) => listed ≠ names⟩

/-- The table without the entry under a path and those below it. -/
def remove (t : FileTable) (path : String) : FileTable :=
  let names := (settle [] (splitPath path)).reverse
  ⟨t.entries.filter fun (listed, _) => !names.isPrefixOf listed⟩

/-- The names that are found in a directory. -/
def names (t : FileTable) (path : String) : List String :=
  let here := (settle [] (splitPath path)).reverse
  (t.entries.filterMap fun (listed, _) =>
    if here.isPrefixOf listed then listed[here.length]? else none).eraseDups

/-- The text of a file. -/
def read (t : FileTable) (path : String) : Except ReadError String :=
  match t.lookup path with
  | .error e => .error e
  | .ok .directory => .error .isADirectory
  | .ok (.file bytes) =>
    match Text.ofBytes? bytes with
    | some text => .ok text
    | none => .error .invalidData

end FileTable

end FrontEnd
