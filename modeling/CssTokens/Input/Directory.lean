import CssTokens.Failure

/-!
# Directories

The files that a program can be pointed to.

A place is reached from an anchor by names: from the working directory, from
one of the folders above it, or from the root. The directory says which places
hold a file or a folder. An anchor is always a folder. Nothing else is known
of what lies outside the working directory, and the root is not known to be
any of the folders above it.

A path is followed name by name. A file has nothing below it, not even the
empty name behind a slash, and a folder cannot be read.

## Main definitions

* `Anchor`, `Place`: Where a path begins, and where it leads.
* `Place.step`: One name of a path.
* `Entry`, `Directory`: What there is at a place.
* `Directory.ofList`: Entries placed at the ends of paths.
* `Directory.follow`: One name of a path, if there is such a place.
* `Directory.read`: The bytes of the file at a path.
-/

namespace CssTokens

/-- Where a path begins. -/
inductive Anchor where
  /-- The root, which is above itself. -/
  | root
  /-- The working directory, or the folder so many levels above it. -/
  | working (levels : Nat)
  deriving DecidableEq

/-- A place: names from an anchor downwards, the last one first. -/
structure Place where
  anchor : Anchor
  names : List String
  deriving DecidableEq

namespace Place

/-- The folder above. -/
def above : Place → Place
  | ⟨anchor, _ :: names⟩ => ⟨anchor, names⟩
  | ⟨.root, []⟩ => ⟨.root, []⟩
  | ⟨.working levels, []⟩ => ⟨.working (levels + 1), []⟩

/-- The place that a name leads to. The empty name and a point stay, and two
    points go up. -/
def step (p : Place) (name : String) : Place :=
  if name == "" || name == "." then p
  else if name == ".." then p.above
  else ⟨p.anchor, name :: p.names⟩

/-- Where a path begins. -/
def start (path : String) : Place :=
  if ['/'].isPrefixOf path.toList then ⟨.root, []⟩ else ⟨.working 0, []⟩

end Place

/-- What there is at a place. -/
inductive Entry where
  | file (bytes : ByteArray)
  | folder

/-- Entries by place. The first entry of a place counts. -/
abbrev Directory := List (Place × Entry)

namespace Directory

/-- The longest name in bytes. -/
def maxName : Nat := 255

/-- The longest path in bytes. -/
def maxPath : Nat := 4095

def notFound : SystemError := ⟨.notFound, "No such file or directory (os error 2)"⟩

def notADirectory : SystemError := ⟨.other, "Not a directory (os error 20)"⟩

def isADirectory : SystemError := ⟨.other, "Is a directory (os error 21)"⟩

def nameTooLong : SystemError := ⟨.other, "File name too long (os error 36)"⟩

/-- A path is handed over with a NUL behind it, so it cannot hold one. -/
def nullInName : SystemError := ⟨.other, "file name contained an unexpected NUL byte"⟩

/-- The names of a path, which slashes separate. -/
def components : List Char → List (List Char)
  | [] => [[]]
  | '/' :: cs => [] :: components cs
  | c :: cs =>
      match components cs with
      | [] => [[c]]
      | name :: names => (c :: name) :: names

/-- The names of a path, as texts. -/
def names (path : String) : List String := (components path.toList).map String.ofList

/-- The entry at a place, if there is any. -/
def entry? (d : Directory) (p : Place) : Option Entry :=
  if p.names = [] then some .folder else (d.find? (·.1 == p)).map Prod.snd

/-- Put an entry at a place. A folder leaves alone what is there already. -/
def assign (d : Directory) (p : Place) (e : Entry) : Directory :=
  match e, d.entry? p with
  | .folder, some _ => d
  | _, _ => (p, e) :: d

/-- Put an entry where names lead to, and folders on the way there. -/
def put (d : Directory) (p : Place) (e : Entry) : List String → Directory
  | [] => d
  | [name] => d.assign (p.step name) e
  | name :: rest => put (d.assign (p.step name) .folder) (p.step name) e rest

/-- The directory with entries at the ends of paths. -/
def ofList (entries : List (String × Entry)) : Directory :=
  entries.foldl (fun d (path, e) => d.put (.start path) e (names path)) []

/-- Follow one name of a path. No name leads on from a file. -/
def follow (d : Directory) (p : Place) (name : String) : Except SystemError Place :=
  match d.entry? p with
  | some (.file _) => .error notADirectory
  | _ =>
      if maxName < name.utf8ByteSize then .error nameTooLong
      else if (d.entry? (p.step name)).isSome then .ok (p.step name)
      else .error notFound

/-- The bytes of the file at a path. -/
def read (d : Directory) (path : String) : Except SystemError ByteArray :=
  if path.toList.contains '\x00' then .error nullInName
  else if path.isEmpty then .error notFound
  else if maxPath < path.utf8ByteSize then .error nameTooLong
  else do
    let place ← (names path).foldlM d.follow (.start path)
    match d.entry? place with
    | some (.file bytes) => return bytes
    | _ => throw isADirectory

end Directory

end CssTokens
