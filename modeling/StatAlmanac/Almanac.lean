import StatAlmanac.Cache.Store
import StatAlmanac.Entity.Name
import StatAlmanac.Fetch.Attempts
import StatAlmanac.Page.Markup
import StatAlmanac.Page.Stats

/-!
The almanac itself: pages of entities, from the cache as long as they are fresh
there and from their source otherwise, and the stat tables read off them. A page
that has been fetched is stored; if that fails the page is handed out all the
same.
-/

namespace StatAlmanac

structure Almanac where
  /-- The address that the paths of pages follow, without a slash at its end. -/
  base : String
  plan : FetchPlan
  cache : Cache

structure Document where
  key : String
  sourceName : String
  url : String
  body : Bytes
  fromCache : Bool
  deriving DecidableEq

structure EntityStats where
  kind : Kind
  name : String
  key : String
  url : String
  fromCache : Bool
  formulas : Table (List Formula)

namespace Almanac

def trimSlashes (s : List Char) : List Char := (s.reverse.dropWhile (· == '/')).reverse

def ofBase (base : String) (plan : FetchPlan) (cache : Cache) : Almanac :=
  ⟨String.ofList (trimSlashes base.toList), plan, cache⟩

def keyOf (k : Kind) (name : String) : String := String.ofList (Name.key k name.toList)

def url (a : Almanac) (k : Kind) (name : String) : String :=
  a.base ++ "/" ++ k.path (String.ofList (Name.segment name.toList))

def document (a : Almanac) (k : Kind) (name : String) (body : Bytes) (fromCache : Bool) :
    Document :=
  ⟨keyOf k name, String.ofList (Name.normalize name.toList), a.url k name, body, fromCache⟩

def fetchDocument (a : Almanac) (k : Kind) (name : String) : Job (Except FetchError Document) := do
  match ← Job.aside (a.cache.get (keyOf k name)) with
  | some body =>
      Job.count .hit
      return .ok (a.document k name body true)
  | none =>
      Job.count .miss
      match ← Fetch.fetch a.plan (a.url k name) with
      | .error e => return .error e
      | .ok body =>
          let page := a.document k name body false
          let _ ← Job.aside (a.cache.put page.key page.sourceName body)
          return .ok page

def statsOf (k : Kind) (d : Document) : EntityStats :=
  ⟨k, d.sourceName, d.key, d.url, d.fromCache, Page.statFormulas k (Page.documentText d.body)⟩

def entityStats (a : Almanac) (k : Kind) (name : String) :
    Job (Except FetchError EntityStats) := do
  return (← a.fetchDocument k name).map (statsOf k)

end Almanac

end StatAlmanac
