import StatAlmanac.Cache.Entry
import StatAlmanac.Job
import StatAlmanac.Text.Quoted

/-!
The cache on disk: a folder with one file for each key and an index, which alone
says what is stored and since when. A file is written beside its place and then
moved there. Changes of the index go through a gate; lookups do not.
-/

namespace StatAlmanac

inductive CacheError where
  /-- Something about this path failed. -/
  | disk (path : String)
  | invalidKey (key : String)
  deriving DecidableEq, Repr

/-- The message, for a disk error up to where the system's own words would follow. -/
def CacheError.message : CacheError → String
  | .disk path => s!"cache io error on {path}: "
  | .invalidKey key => "invalid cache key: " ++ String.ofList (Text.quoted key.toList)

structure Cache where
  folder : String := ".cache/wiki_stats"
  lifetime : Duration := .ofSeconds 86400
  isEnabled : Bool := true
  deriving DecidableEq, Repr

namespace Cache

def indexName : String := "index.json"

def documentEnding : String := "html"

def temporaryEnding : String := "tmp"

def documentPath (c : Cache) (key : String) : String :=
  joinPath c.folder (key ++ "." ++ documentEnding)

def indexPath (c : Cache) : String := joinPath c.folder indexName

def temporaryPath (path : String) : String := path ++ "." ++ temporaryEnding

def hasDots : List Char → Bool
  | '.' :: '.' :: _ => true
  | _ :: rest => hasDots rest
  | [] => false

/-- A key is not empty and does not lead out of the folder. -/
def isKey (key : String) : Bool :=
  !key.isEmpty && !key.toList.any (fun c => c == '/' || c == '\\') && !hasDots key.toList

def toEntry (c : Cache) (key : String) (r : Record) : Entry := .ofRecord key r c.lifetime

/-- The index, if it can be read. A missing one is empty. -/
def load (c : Cache) : Job (Option Index) := do
  match ← Job.read c.indexPath with
  | .ok content => return Index.read? content
  | .error .missing => return some Table.empty
  | .error .refused => return none

/-- The index; one that cannot be read counts as empty. -/
def index (c : Cache) : Job Index := do return (← c.load).getD Table.empty

/-- Writes a file beside its place and moves it there. -/
def writeFile (path : String) (content : Bytes) : Job (Except CacheError Unit) := do
  match ← Job.write (temporaryPath path) content with
  | .error _ => return .error (.disk (temporaryPath path))
  | .ok () =>
      match ← Job.rename (temporaryPath path) path with
      | .error _ => return .error (.disk path)
      | .ok () => return .ok ()

def save (c : Cache) (i : Index) : Job (Except CacheError Unit) := writeFile c.indexPath i.write

def entry (c : Cache) (key : String) : Job (Option Entry) := do
  if !c.isEnabled then return none
  return ((← c.index).find? key).map (c.toEntry key)

def entries (c : Cache) : Job (List Entry) := do
  if !c.isEnabled then return []
  return (← c.index).entries.map fun (key, r) => c.toEntry key r

def size (c : Cache) : Job Nat := do return (← c.entries).length

def isFresh (c : Cache) (key : String) : Job Bool := do
  match ← c.entry key with
  | none => return false
  | some e => return e.isFresh (← Job.now)

/-- The document of a key, if its entry is fresh and the file can be read. -/
def get (c : Cache) (key : String) : Job (Option Bytes) := do
  match ← c.entry key with
  | none => return none
  | some e =>
      if e.isFresh (← Job.now) then return (← Job.read (c.documentPath key)).toOption
      else return none

/-- Stores a document in place of the one before. A cache that is not enabled takes it and keeps
nothing. -/
def put (c : Cache) (key name : String) (document : Bytes) : Job (Except CacheError Unit) := do
  let now ← Job.now
  if !c.isEnabled then return .ok ()
  if !isKey key then return .error (.invalidKey key)
  Job.inside .index do
    match ← Job.makeFolders c.folder with
    | .error _ => return .error (.disk c.folder)
    | .ok () =>
        match ← writeFile (c.documentPath key) document with
        | .error e => return .error e
        | .ok () => c.save ((← c.index).insert key ⟨name, now, document.length⟩)

/-- Removes the documents of these keys, and the keys from the index. A key whose document is there
and cannot be removed stays. Also counts the keys removed. -/
def removeAll (c : Cache) : List String → Index → Nat → Job (Index × Nat)
  | [], i, removed => return (i, removed)
  | key :: keys, i, removed => do
      match ← Job.remove (c.documentPath key) with
      | .ok () | .error .missing => c.removeAll keys (i.erase key) (removed + 1)
      | .error .refused => c.removeAll keys i removed

def staleKeys (c : Cache) (now : Stamp) (i : Index) : List String :=
  (i.entries.filter fun (key, r) => !(c.toEntry key r).isFresh now).map (·.1)

/-- Removes all stale entries with their documents, and tells how many. -/
def sweep (c : Cache) : Job Nat := do
  if !c.isEnabled then return 0
  Job.inside .index do
    match ← c.load with
    | none => return 0
    | some i =>
        let (swept, removed) ← c.removeAll (c.staleKeys (← Job.now) i) i 0
        if 0 < removed then let _ ← c.save swept
        return removed

def summary (c : Cache) : Job Summary := do
  let es ← c.entries
  return Summary.ofEntries (← Job.now) es

end Cache

end StatAlmanac
