import CodeCapsules.Disk.Basic
import CodeCapsules.Disk.Path

/-!
Contract: a disk in memory, with folders and a working folder.

Owns:
- the way that the names of a path lead through folders;
- making folders, reading and writing;
- the order in which files are listed.

Does not own: links and permissions, which this disk does not have.
-/

namespace CodeCapsules

/-- Where a file or folder is: the names that lead to it from the root, the
last one first. -/
abbrev Place : Type := List String

/-- A file, or a folder with its members in the order of their names. -/
inductive Node where
  | file (contents : Bytes)
  | folder (members : List (String × Node))

namespace Node

def get? : Node → (names : List String) → Option Node
  | node, [] => some node
  | .folder members, name :: rest => do (← members.lookup name).get? rest
  | .file _, _ :: _ => none

/-- Puts a member among others, in place of one with the same name. -/
def putMember (name : String) (node : Node) : List (String × Node) → List (String × Node)
  | [] => [(name, node)]
  | member :: rest =>
    if member.1 = name then (name, node) :: rest
    else if name < member.1 then (name, node) :: member :: rest
    else member :: putMember name node rest

/-- Puts a node where names lead to. -/
def put (new : Node) : Node → (names : List String) → Node
  | _, [] => new
  | .folder members, name :: rest =>
    let member := (members.lookup name).getD (.folder [])
    .folder (putMember name (new.put member rest) members)
  | .file contents, _ :: _ => .file contents

mutual

/-- The files in a node at a place. -/
def files (place : Place) : Node → List (Place × Bytes)
  | .file contents => [(place, contents)]
  | .folder members => memberFiles place members

def memberFiles (place : Place) : List (String × Node) → List (Place × Bytes)
  | [] => []
  | (name, node) :: rest => node.files (name :: place) ++ memberFiles place rest

end

end Node

/-- A place on the way along a path, with what is there. -/
structure Spot where
  place : Place
  node? : Option Node

/-- The members of the folder at a spot. -/
def Spot.members (spot : Spot) : Except DiskError (List (String × Node)) :=
  match spot.node? with
  | some (.folder members) => .ok members
  | some (.file _) => .error .notDirectory
  | none => .error .notFound

structure FileTree where
  /-- The folder in which relative paths start. -/
  working : Place
  root : Node

namespace FileTree

/-- A tree with an empty working folder. -/
def empty : FileTree := ⟨["work"], .folder [("work", .folder [])]⟩

def spotAt (tree : FileTree) (place : Place) : Spot := ⟨place, tree.root.get? place.reverse⟩

def put (tree : FileTree) (place : Place) (node : Node) : FileTree :=
  { tree with root := node.put tree.root place.reverse }

/-- The spot that a name leads to from a folder. -/
def follow (tree : FileTree) (spot : Spot) (name : String) : Except DiskError Spot := do
  let members ← spot.members
  if name = "." then return spot
  else if name = ".." then return tree.spotAt spot.place.tail
  else if Path.longestName < name.utf8ByteSize then throw .nameTooLong
  else return ⟨name :: spot.place, members.lookup name⟩

def start (tree : FileTree) (path : Path) : Spot :=
  tree.spotAt (if path.isAbsolute then [] else tree.working)

def walk (tree : FileTree) (path : Path) : Except DiskError Spot := do
  path.check
  path.steps.foldlM tree.follow (tree.start path)

/-- What has a path. A slash at the end asks for a folder. -/
def find (tree : FileTree) (path : Path) : Except DiskError Node := do
  match (← tree.walk path).node? with
  | none => throw .notFound
  | some (.folder members) => return .folder members
  | some (.file contents) =>
    if path.endsInSlash then throw .notDirectory else return .file contents

def hasFolder (tree : FileTree) (path : Path) : Bool :=
  match tree.find path with
  | .ok (.folder _) => true
  | _ => false

def makeFolder (tree : FileTree) (path : Path) : Except DiskError FileTree := do
  let spot ← tree.walk path
  if spot.node?.isSome then throw .alreadyExists else return tree.put spot.place (.folder [])

/-- Makes a folder that may be there already. -/
def ensureFolder (tree : FileTree) (path : Path) : Except DiskError FileTree :=
  match tree.makeFolder path with
  | .ok made => .ok made
  | .error cause => if tree.hasFolder path then .ok tree else .error cause

/-- Makes the first of the folders, if need be after the others, which are those
above it. A failed attempt may have made some of them. -/
def makeFolders (tree : FileTree) : List Path → Except DiskError Unit × FileTree
  | [] => (.ok (), tree)
  | folder :: above =>
    match tree.ensureFolder folder with
    | .ok made => (.ok (), made)
    | .error .notFound =>
      match tree.makeFolders above with
      | (.error cause, tree) => (.error cause, tree)
      | (.ok (), tree) =>
        match tree.ensureFolder folder with
        | .ok made => (.ok (), made)
        | .error cause => (.error cause, tree)
    | .error cause => (.error cause, tree)

def contains (tree : FileTree) (text : String) : Bool := (tree.find (.ofText text)).toBool

def read (tree : FileTree) (text : String) : Except DiskError Bytes := do
  match ← tree.find (.ofText text) with
  | .file contents => return contents
  | .folder _ => throw .isDirectory

/-- Writes a file into a folder that is there. A slash at the end is refused
once the folder is found, whatever stands before it. -/
def writeFile (tree : FileTree) (path : Path) (contents : Bytes) : Except DiskError FileTree := do
  path.check
  let folder ← path.steps.dropLast.foldlM tree.follow (tree.start path)
  let _ ← folder.members
  if path.endsInSlash then throw .isDirectory
  let spot ← tree.walk path
  match spot.node? with
  | some (.folder _) => throw .isDirectory
  | _ => return tree.put spot.place (.file contents)

/-- Writes a file and makes the folders above it. -/
def write (tree : FileTree) (text : String) (contents : Bytes) :
    Except DiskError Unit × FileTree :=
  let path := Path.ofText text
  match tree.makeFolders path.above with
  | (.error cause, tree) => (.error cause, tree)
  | (.ok (), tree) =>
    match tree.writeFile path contents with
    | .ok written => (.ok (), written)
    | .error cause => (.error cause, tree)

instance : Disk FileTree where
  contains := contains
  read := read
  write := write

/-- The files below the working folder, with their relative paths. -/
def workingFiles (tree : FileTree) : List (String × Bytes) :=
  match tree.root.get? tree.working.reverse with
  | some node =>
    (node.files []).map fun (place, contents) => (String.intercalate "/" place.reverse, contents)
  | none => []

end FileTree

end CodeCapsules
