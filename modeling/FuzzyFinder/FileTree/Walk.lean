import FuzzyFinder.FileTree.Basic
import FuzzyFinder.FileTree.Fault
import FuzzyFinder.FileTree.IgnoreRules
import FuzzyFinder.Intake.Files

/-!
# FuzzyFinder — walking a directory tree

A walk visits a directory's names in the order of their bytes and goes into a subdirectory right
after it has reported it, down to a greatest depth. Symbolic links are followed if asked for; a
link back to a directory that the walk is inside of is a fault and is not entered. If asked to
respect them, the walk reads the ignore lists `.gitignore` and `.git/info/exclude` of every
directory it is in, the place where it began included and those above that place left out. The
lists of nearer directories go before those of farther ones, and every `.gitignore` goes before
any `exclude` list. What is ignored is neither reported nor entered.
-/

namespace FuzzyFinder

/-- A directory that the walk is inside of. -/
structure OpenDirectory where
  /-- The names walked to get there. -/
  names : List Bytes
  /-- Where it really is. -/
  place : Place
  /-- Its `.gitignore`. -/
  ignoreList : IgnoreRules
  /-- Its `.git/info/exclude`. -/
  excludeList : IgnoreRules

namespace OpenDirectory

/-- The path of `names`, walked to get below this directory, from this directory on. -/
def pathBelow (d : OpenDirectory) (names : List Bytes) : Bytes :=
  [Byte.slash].intercalate (names.drop d.names.length)

/-- The first verdict that the lists of the open directories give, nearest first. -/
def firstVerdict (list : OpenDirectory → IgnoreRules) (names : List Bytes) (isDirectory : Bool)
    (directories : List OpenDirectory) : Option Verdict :=
  directories.findSome? fun d => (list d).verdict (d.pathBelow names) isDirectory

/-- A name in the first of the open directories is ignored. -/
def ignores (directories : List OpenDirectory) (names : List Bytes) (isDirectory : Bool) : Bool :=
  let byIgnore := firstVerdict ignoreList names isDirectory directories
  let byExclude := firstVerdict excludeList names isDirectory directories
  byIgnore.or byExclude == some .ignored

end OpenDirectory

namespace FileTree

/-- The name of the ignore list. -/
def ignoreName : Bytes := Bytes.ofString ".gitignore"

/-- The names that lead to the second ignore list. -/
def excludeNames : List Bytes :=
  [Bytes.ofString ".git", Bytes.ofString "info", Bytes.ofString "exclude"]

/-- A walk: where it began, and how it goes. -/
structure Walk where
  /-- The tree that is walked. -/
  tree : FileTree
  /-- The path where the walk began. -/
  start : Bytes
  /-- The names that lead there from the top. -/
  startNames : List Bytes
  options : WalkOptions

namespace Walk

/-- The path under which the walk reports what `names` lead to. -/
def pathOf (w : Walk) (names : List Bytes) : Bytes :=
  names.foldl (fun path name =>
    if path.getLast? == some Byte.slash then path ++ name else path ++ Byte.slash :: name) w.start

/-- A failed lookup as a fault of the walk. -/
def faultOf (path : Bytes) : LookupFault → WalkFault
  | .missing => .missing path
  | .notDirectory => .notDirectory path
  | .tooManyLinks => .tooManyLinks path
  | .nameTooLong => .nameTooLong path

/-- What the walk takes a name for. -/
inductive Kind where
  /-- A regular file. -/
  | file
  /-- A directory and where it really is. -/
  | directory (place : Place)
  /-- A link that is not followed, or a device. -/
  | other

/-- Looks at what `names` lead to, symbolic links followed. -/
def kindOf (w : Walk) (names : List Bytes) : Except WalkFault Kind :=
  match w.tree.resolve (w.startNames ++ names) with
  | .error fault => .error (faultOf (w.pathOf names) fault)
  | .ok place =>
    match w.tree.node? place with
    | some .directory => .ok (.directory place)
    | some .device => .ok .other
    | _ => .ok .file

/-- Opens a directory: its ignore lists are read if they are respected. -/
def openDirectory (w : Walk) (names : List Bytes) (place : Place) : OpenDirectory :=
  let rulesAt (list : List Bytes) : IgnoreRules :=
    if w.options.respectGitignore then .ofContent (w.tree.contentAt (place ++ list)) else []
  { names, place, ignoreList := rulesAt [ignoreName], excludeList := rulesAt excludeNames }

/-- What a name in the first of the open directories is. A link that is followed must not lead to
one of them. -/
def inspect (w : Walk) (directories : List OpenDirectory) (names : List Bytes) (here : Place) :
    Node → Except WalkFault Kind
  | .file _ => .ok .file
  | .directory => .ok (.directory here)
  | .device => .ok .other
  | .link _ =>
    if w.options.followLinks then do
      let kind ← w.kindOf names
      if let .directory place := kind then
        if let some d := directories.find? (·.place == place) then
          throw (.cycle (w.pathOf names) (w.pathOf d.names))
      return kind
    else .ok .other

/-- Visits the first of the open directories, at the given depth. `fuel` bounds how many
directories are open at a time. -/
def visit (w : Walk) : (fuel depth : Nat) → List OpenDirectory → List WalkResult
  | fuel + 1, depth, d :: above =>
    if w.options.maxDepth ≤ depth then []
    else
      (w.tree.children d.place).flatMap fun (name, node) =>
        let names := d.names ++ [name]
        match w.inspect (d :: above) names (d.place ++ [name]) node with
        | .error fault => [.error fault.message]
        | .ok kind =>
          let place? := match kind with
            | .directory place => some place
            | _ => none
          -- A fault ends a walk even where an ignore list names the path.
          if OpenDirectory.ignores (d :: above) names place?.isSome then []
          else
            let entry : WalkEntry := {
              path := [Byte.slash].intercalate names
              isFile := match kind with
                | .file => true
                | _ => false }
            match place? with
            | some place =>
              .ok entry :: visit w fuel (depth + 1) (w.openDirectory names place :: d :: above)
            | none => [.ok entry]
  | _, _, _ => []

/-- Every link that is entered leads to a directory not yet open, and between two links the walk
only descends, so no more directories are ever open than this. -/
def maxOpen (w : Walk) : Nat := (w.tree.nodes.length + 2) * (w.tree.nodes.length + 2)

/-- All that the walk yields. -/
def results (w : Walk) : List WalkResult :=
  match w.kindOf [] with
  | .error fault => [.error fault.message]
  | .ok (.directory place) =>
    .ok { path := [], isFile := false } :: w.visit w.maxOpen 0 [w.openDirectory [] place]
  | .ok .file => [.ok { path := [], isFile := true }]
  | .ok .other => [.ok { path := [], isFile := false }]

end Walk

/-- Walks the tree from a path on; a path outside of the tree leads nowhere. -/
def walk (t : FileTree) : Walker := fun start options =>
  match t.namesOf? start with
  | some startNames => Walk.results { tree := t, start, startNames, options }
  | none => [.error (WalkFault.missing start).message]

/-- The files below a path as candidates. -/
def find (t : FileTree) (start : Bytes) (options : WalkOptions) (maxFiles : Nat) : ScanResult :=
  findFiles t.walk start options maxFiles

end FileTree

end FuzzyFinder
