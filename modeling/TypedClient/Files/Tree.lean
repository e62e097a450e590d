import TypedClient.FilePath
import TypedClient.Files.Error
import TypedClient.Table

/-!
Files and folders held in memory. A place is a list of names from the working folder down; the root
of absolute paths is a place of its own, and so are the folders above the working folder.
-/

namespace TypedClient

open Text

abbrev Place := List Text

inductive Node
  | file (bytes : Bytes)
  | folder
  deriving DecidableEq, Repr

structure FileTree where
  files : List (Place × Bytes)
  /-- Folders that were made; the folders that files lie in need not be among them. -/
  folders : List Place
  deriving DecidableEq, Repr

namespace FileTree

def root : Place := ["/"]

/-- Whether a place is above the working folder, the working folder itself or the root. -/
def isBase (place : Place) : Bool := place == root || place.all FilePath.goesUp

def up (place : Place) : Place :=
  if place = root then root
  else if place.all FilePath.goesUp then place ++ ([".."] : Place)
  else place.dropLast

def isFolder (tree : FileTree) (place : Place) : Bool :=
  isBase place || tree.folders.any (place.isPrefixOf ·) ||
    tree.files.any fun (file, _) => file != place && place.isPrefixOf file

def node? (tree : FileTree) (place : Place) : Option Node :=
  match tree.files.lookup place with
  | some bytes => some (.file bytes)
  | none => if tree.isFolder place then some .folder else none

/-- Takes one step from a place, which has to be a folder. -/
def step (tree : FileTree) (place : Place) (name : Text) : Except FileError Place :=
  match tree.node? place with
  | none => .error .notFound
  | some (.file _) => .error .notFolder
  | some .folder =>
    if FilePath.staysPut name then .ok place
    else if FilePath.goesUp name then .ok (up place)
    else .ok (place ++ [name])

def startOf (path : Text) : Place := if FilePath.isAbsolute path then root else []

/-- The place of a path. All but the place itself has to be there. -/
def find (tree : FileTree) (path : Text) : Except FileError Place :=
  if path = [] then .error .notFound else (FilePath.steps path).foldlM tree.step (startOf path)

def exists? (tree : FileTree) (path : Text) : Bool :=
  match tree.find path with
  | .ok place => (tree.node? place).isSome
  | .error _ => false

def read (tree : FileTree) (path : Text) : Except FileError Bytes := do
  match tree.node? (← tree.find path) with
  | none => throw .notFound
  | some .folder => throw .isFolder
  | some (.file bytes) => return bytes

/-- The name of the folder directly under a place that a longer place leads through. -/
def childOf? (place longer : Place) : Option Text :=
  (place.isPrefixOf? longer).bind List.head?

/-- The names of the folders in a folder, ascending. -/
def foldersIn (tree : FileTree) (path : Text) : Except FileError (List Text) := do
  let place ← tree.find path
  match tree.node? place with
  | none => throw .notFound
  | some (.file _) => throw .notFolder
  | some .folder =>
    let children := (tree.files.filterMap fun (file, _) => childOf? place file.dropLast) ++
      tree.folders.filterMap (childOf? place)
    return (Table.sorted children).filter fun name => tree.isFolder (place ++ [name])

def putFile (place : Place) (bytes : Bytes) : List (Place × Bytes) → List (Place × Bytes)
  | [] => [(place, bytes)]
  | (file, content) :: rest =>
    if file = place then (file, bytes) :: rest else (file, content) :: putFile place bytes rest

/-- Writes a file, whose folder has to be there. -/
def write (tree : FileTree) (path : Text) (bytes : Bytes) : Except FileError FileTree := do
  let place ← tree.find path
  match tree.node? place with
  | some .folder => throw .isFolder
  | _ => return { tree with files := putFile place bytes tree.files }

/-- Goes on to a folder and makes it if it is not there; `isLast` says whether it is the one asked
for. -/
def enter (tree : FileTree) (place : Place) (isLast : Bool) : Except FileError FileTree :=
  match tree.node? place with
  | none => .ok { tree with folders := tree.folders ++ [place] }
  | some .folder => .ok tree
  | some (.file _) => .error (if isLast then .alreadyThere else .notFolder)

def makeFrom (tree : FileTree) (place : Place) : List Text → Except FileError FileTree
  | [] => .ok tree
  | name :: rest => do
    let next ← tree.step place name
    let tree ← tree.enter next rest.isEmpty
    makeFrom tree next rest

/-- Makes a folder and all folders above it that are not there. -/
def makeFolders (tree : FileTree) (path : Text) : Except FileError FileTree :=
  if path = [] then .ok tree else tree.makeFrom (startOf path) (FilePath.steps path)

/-- Copies a file. A file copied onto itself loses its content. -/
def copy (tree : FileTree) (source target : Text) : Except FileError FileTree := do
  let bytes ← tree.read source
  let isSame := match tree.find source, tree.find target with
    | .ok first, .ok second => first == second
    | _, _ => false
  tree.write target (if isSame then [] else bytes)

/-- A tree of files at these paths. -/
def ofFiles (files : List (Text × Bytes)) : FileTree where
  files := files.map fun (path, bytes) =>
    ((FilePath.steps path).filter fun step => !FilePath.staysPut step, bytes)
  folders := []

/-- Whether a place is below the working folder. -/
def isInside (place : Place) : Bool := !root.isPrefixOf place && !place.any FilePath.goesUp

/-- The files below the working folder that another tree does not have, or has with other
contents. -/
def changedSince (tree before : FileTree) : List (Text × Bytes) :=
  (tree.files.filter fun (place, bytes) =>
    isInside place && before.files.lookup place != some bytes).map
      fun (place, bytes) => (join "/" place, bytes)

end FileTree

end TypedClient
