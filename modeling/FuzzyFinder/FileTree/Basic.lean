import FuzzyFinder.Bytes

/-!
# FuzzyFinder — directory trees

A `FileTree` is a snapshot of a part of a file system: files with their contents, directories,
symbolic links and devices, each under the names that lead to it from the root. The part of interest
lies below a directory, the top of the tree; around it are the few places that every system has.
Looking a path up follows symbolic links wherever they occur, up to a bound on their number, and
tells apart the ways in which a path can lead nowhere.
-/

namespace FuzzyFinder

/-- What sits at a place of a tree. -/
inductive Node where
  /-- A regular file. -/
  | file (content : Bytes)
  /-- A directory; what it holds is found under longer paths. -/
  | directory
  /-- A symbolic link with the path it stands for. -/
  | link (target : Bytes)
  /-- A device: neither a file nor a directory. -/
  | device
deriving DecidableEq

/-- The names that lead to a place from the root. -/
abbrev Place := List Bytes

/-- The places outside of the tree that every system has, each given by its path. -/
def Node.wellKnown : List (String × Node) :=
  let link (target : String) : Node := .link (Bytes.ofString target)
  [("bin", link "usr/bin"), ("dev", .directory), ("dev/fd", link "/proc/self/fd"),
   ("dev/full", .device), ("dev/null", .device), ("dev/pts", .directory), ("dev/random", .device),
   ("dev/shm", .directory), ("dev/stdin", link "/proc/self/fd/0"),
   ("dev/stdout", link "/proc/self/fd/1"), ("dev/stderr", link "/proc/self/fd/2"),
   ("dev/tty", .device), ("dev/urandom", .device), ("dev/zero", .device), ("etc", .directory),
   ("etc/group", .file []), ("etc/hostname", .file []), ("etc/hosts", .file []),
   ("etc/passwd", .file []), ("home", .directory), ("lib", link "usr/lib"), ("opt", .directory),
   ("proc", .directory), ("proc/self", .directory), ("proc/self/fd", .directory),
   ("proc/self/fd/0", .device), ("proc/self/fd/1", .device), ("proc/self/fd/2", .device),
   ("root", .directory), ("run", .directory), ("sbin", link "usr/sbin"), ("srv", .directory),
   ("sys", .directory), ("tmp", .directory), ("usr", .directory), ("usr/bin", .directory),
   ("usr/bin/[", .file []), ("usr/bin/cat", .file []), ("usr/bin/echo", .file []),
   ("usr/bin/env", .file []), ("usr/bin/false", .file []), ("usr/bin/printf", .file []),
   ("usr/bin/sh", .file []), ("usr/bin/sort", .file []), ("usr/bin/test", .file []),
   ("usr/bin/true", .file []), ("usr/bin/yes", .file []), ("usr/lib", .directory),
   ("usr/local", .directory), ("usr/local/bin", .directory), ("usr/sbin", .directory),
   ("usr/share", .directory), ("var", .directory), ("var/tmp", .directory)]

/-- A snapshot of a part of a file system. -/
structure FileTree where
  /-- The path of the top directory. -/
  mount : Bytes
  /-- Where the top directory is. -/
  top : Place := [Bytes.ofString "tmp", Bytes.ofString "tree"]
  /-- What sits where, the top and what is above it left out. -/
  nodes : List (Place × Node) :=
    Node.wellKnown.map fun (path, n) => ((Bytes.ofString path).splitOn Byte.slash, n)

/-- Why a path leads nowhere. -/
inductive LookupFault where
  /-- A name on the path does not exist. -/
  | missing
  /-- Something on the path is used as a directory and is none. -/
  | notDirectory
  /-- Too many symbolic links had to be followed. -/
  | tooManyLinks
  /-- A name on the path is longer than any name can be. -/
  | nameTooLong
deriving DecidableEq

namespace FileTree

/-- The name of the directory it is in. -/
def here : Bytes := [Byte.dot]

/-- The name of the directory above. -/
def above : Bytes := [Byte.dot, Byte.dot]

/-- What sits at a place; the top and what is above it are always directories. -/
def node? (t : FileTree) (place : Place) : Option Node :=
  if place.isPrefixOf t.top then some .directory
  else (t.nodes.find? fun (p, _) => p == place).map (·.2)

/-- Puts a node at a place unless that makes a directory anew; what was there before is replaced. -/
def put (t : FileTree) (place : Place) (n : Node) : FileTree :=
  if n == .directory && t.node? place == some .directory then t
  else { t with nodes := t.nodes.filter (fun (p, _) => p != place) ++ [(place, n)] }

/-- Puts a node at a path below the top, making the directories above it as needed. -/
def insert (t : FileTree) (path : Bytes) (n : Node) : FileTree :=
  let names := (path.splitOn Byte.slash).filter fun name => !name.isEmpty && name != here
  let parents := (List.range names.length).map fun count => t.top ++ names.take count
  (parents.foldl (fun t p => t.put p .directory) t).put (t.top ++ names) n

/-- The names in a directory with what they stand for, in the order of their bytes. -/
def children (t : FileTree) (place : Place) : List (Bytes × Node) :=
  let inside := t.nodes.filterMap fun (p, n) =>
    match p.getLast? with
    | some name => if p.dropLast == place then some (name, n) else none
    | none => none
  inside.mergeSort fun a b => compare a.1 b.1 != .gt

/-- No name is longer than this. -/
def maxNameLength : Nat := 255

/-- Follows `names` from a directory, through at most `links` symbolic links, to a place that is
no link. An absolute target begins at the root, and above the root is the root itself. -/
def follow (t : FileTree) (links : Nat) (place : Place) (names : List Bytes) :
    Except LookupFault Place :=
  match names with
  | [] => .ok place
  | name :: rest =>
    match t.node? place with
    | some .directory =>
      if name.isEmpty || name == here then follow t links place rest
      else if name == above then follow t links place.dropLast rest
      else if maxNameLength < name.length then .error .nameTooLong
      else
        match t.node? (place ++ [name]) with
        | none => .error .missing
        | some (.link target) =>
          match links with
          | 0 => .error .tooManyLinks
          | links + 1 =>
            let base := if target.head? == some Byte.slash then [] else place
            follow t links base (target.splitOn Byte.slash ++ rest)
        | some _ => follow t links (place ++ [name]) rest
    | _ => .error .notDirectory
termination_by (links, names.length)

/-- A path may lead through this many symbolic links. -/
def maxLinks : Nat := 40

/-- The place that `names` lead to from the top. -/
def resolve (t : FileTree) (names : List Bytes) : Except LookupFault Place :=
  t.follow maxLinks t.top names

/-- The content of the file that `names` lead to from the root, empty when there is none. -/
def contentAt (t : FileTree) (names : List Bytes) : Bytes :=
  match t.follow maxLinks [] names with
  | .ok place =>
    match t.node? place with
    | some (.file content) => content
    | _ => []
  | .error _ => []

/-- The names that lead from the top to `path`, if it lies in the tree. -/
def namesOf? (t : FileTree) (path : Bytes) : Option (List Bytes) :=
  if t.mount.isPrefixOf path then
    match path.drop t.mount.length with
    | [] => some []
    | b :: rest => if b == Byte.slash then some (rest.splitOn Byte.slash) else none
  else none

end FileTree

end FuzzyFinder
