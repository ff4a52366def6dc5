import StatAlmanac.Text.Utf8

/-!
A disk of folders and files, and what can be done to it by path. A path is
followed name by name from the top; every name but the last has to be a folder.
An operation fails because something is missing, or because it is refused: a
file or folder stands in the way, or a name is too long or no name at all.
-/

namespace StatAlmanac

inductive DiskFault where
  | missing
  | refused
  deriving DecidableEq, Repr

/-- The names that lead to a file or folder, the innermost first. -/
abbrev Place := List (List Char)

inductive Node where
  | folder
  | file (content : Bytes)
  deriving DecidableEq

structure Disk where
  nodes : List (Place × Node)

namespace Disk

def empty : Disk := ⟨[]⟩

/-- The top is always a folder. -/
def find? (d : Disk) (p : Place) : Option Node :=
  if p = [] then some .folder else d.nodes.lookup p

def erase (d : Disk) (p : Place) : Disk := ⟨d.nodes.filter (·.1 ≠ p)⟩

def set (d : Disk) (p : Place) (n : Node) : Disk := ⟨(p, n) :: (d.erase p).nodes⟩

def isBare (d : Disk) (p : Place) : Bool :=
  d.find? p == some .folder && !d.nodes.any fun n => n.1 != [] && n.1.tail == p

def longestName : Nat := 255

def longestPath : Nat := 4095

def isTooLong (name : List Char) : Bool := longestName < (Text.Utf8.encode name).length

/-- The folder that a name stands for without being in it: the folder itself,
or the one around it. -/
def turn? (here : Place) (name : List Char) : Option Place :=
  match name with
  | [] | ['.'] => some here
  | ['.', '.'] => some here.tail
  | _ => none

def enter (d : Disk) (here : Place) (name : List Char) : Except DiskFault Place :=
  match turn? here name with
  | some there => .ok there
  | none =>
      if isTooLong name then .error .refused
      else match d.find? (name :: here) with
        | some .folder => .ok (name :: here)
        | some (.file _) => .error .refused
        | none => .error .missing

/-- Follows the names, all but the last being folders. -/
def follow (d : Disk) (here : Place) : List (List Char) → Except DiskFault Place
  | [] => .ok here
  | [name] =>
      match turn? here name with
      | some there => .ok there
      | none => if isTooLong name then .error .refused else .ok (name :: here)
  | name :: more => do d.follow (← d.enter here name) more

def names? (path : List Char) : Option (List (List Char)) :=
  if path.contains '\x00' || longestPath < (Text.Utf8.encode path).length then none
  else some (path.splitOn '/')

/-- The place a path leads to; nothing has to be there. -/
def resolve (d : Disk) (path : String) : Except DiskFault Place :=
  match names? path.toList with
  | some names => d.follow [] names
  | none => .error .refused

def read (d : Disk) (path : String) : Except DiskFault Bytes := do
  match d.find? (← d.resolve path) with
  | some (.file content) => return content
  | some .folder => throw .refused
  | none => throw .missing

def write (d : Disk) (path : String) (content : Bytes) : Except DiskFault Disk := do
  let p ← d.resolve path
  match d.find? p with
  | some .folder => throw .refused
  | _ => return d.set p (.file content)

/-- Moves a file; one that stands at the target gives way. -/
def rename (d : Disk) (source target : String) : Except DiskFault Disk := do
  let p ← d.resolve source
  let q ← d.resolve target
  match d.find? p, d.find? q with
  | none, _ => throw .missing
  | some .folder, _ | _, some .folder => throw .refused
  | some n, _ => return (d.erase p).set q n

def remove (d : Disk) (path : String) : Except DiskFault Disk := do
  let p ← d.resolve path
  match d.find? p with
  | some (.file _) => return d.erase p
  | some .folder => throw .refused
  | none => throw .missing

/-- Follows the names, making the folders that are missing. What has been made stays when a later
name is refused. -/
def makeFrom (d : Disk) (here : Place) : List (List Char) → Except DiskFault Unit × Disk
  | [] => (.ok (), d)
  | name :: more =>
      match d.enter here name with
      | .ok there => d.makeFrom there more
      | .error .missing => (d.set (name :: here) .folder).makeFrom (name :: here) more
      | .error .refused => (.error .refused, d)

def makeFolders (d : Disk) (path : String) : Except DiskFault Unit × Disk :=
  match names? path.toList with
  | some names => d.makeFrom [] names
  | none => (.error .refused, d)

/-- The path of a folder may end in slashes. -/
def folderPath (path : String) : List Char := (path.toList.reverse.dropWhile (· == '/')).reverse

def resolveFolder (d : Disk) (path : String) : Except DiskFault Place :=
  d.resolve (String.ofList (folderPath path))

def makeFolder (d : Disk) (path : String) : Except DiskFault Disk := do
  let p ← d.resolveFolder path
  match d.find? p with
  | none => return d.set p .folder
  | some _ => throw .refused

/-- Removes an empty folder, named from outside it: never by a path that ends in a dot. -/
def removeFolder (d : Disk) (path : String) : Except DiskFault Disk := do
  let p ← d.resolveFolder path
  let isInside := ((folderPath path).splitOn '/').getLast? == some ['.']
  if d.isBare p && p != [] && !isInside then return d.erase p
  else if (d.find? p).isSome then throw .refused
  else throw .missing

/-- The path from `top` down to a place below it; a folder's ends in a slash. -/
def pathBelow? (top : Place) (entry : Place × Node) : Option String :=
  if top.isSuffixOf entry.1 && entry.1 != top then
    let names := (entry.1.take (entry.1.length - top.length)).reverse
    let path := ['/'].intercalate names
    some (String.ofList (if entry.2 = .folder then path ++ ['/'] else path))
  else none

def list (d : Disk) (top : Place) : List String :=
  (d.nodes.filterMap (pathBelow? top)).mergeSort fun a b => a ≤ b

end Disk

/-- `name` in the folder `dir`; a path that starts at the top stays as it is. -/
def joinPath (dir name : String) : String :=
  if name.toList.head? = some '/' || dir.isEmpty then name
  else if dir.toList.getLast? = some '/' then dir ++ name
  else dir ++ "/" ++ name

end StatAlmanac
