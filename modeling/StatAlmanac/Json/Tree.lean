import StatAlmanac.Json.Token

/-!
JSON texts as trees. A text that goes wrong still gives a tree: it ends at the
place of the fault, where a value is `broken` or a list or object stays open.
A reader that walks the tree in the order of the text therefore meets what is
wrong with the values before the fault first, and the fault after it.
-/

namespace StatAlmanac.Json

inductive Key where
  | name (s : String)
  | unreadable
  deriving DecidableEq

inductive Tree where
  | null
  | bool (b : Bool)
  | number (n : Option Number)
  | text (s : Option String)
  | list (items : List Tree) (isClosed : Bool)
  | object (members : List (Key × Tree)) (isClosed : Bool)
  | broken

/-- A list or object that is being read, with what it holds so far, last first. -/
inductive Open where
  | list (done : List Tree)
  | object (done : List (Key × Tree))
  | member (done : List (Key × Tree)) (key : Key)

inductive Want where
  | value
  | item
  | key
  | firstKey
  | colon
  | next
  deriving DecidableEq

def Open.stop (isClosed : Bool) : Open → Tree
  | .list done => .list done.reverse isClosed
  | .object done => .object done.reverse isClosed
  | .member done key => .object ((key, .broken) :: done).reverse isClosed

def Open.add (t : Tree) : Open → Open
  | .list done => .list (t :: done)
  | .object done => .object done
  | .member done key => .object ((key, t) :: done)

/-- Ends everything that is open, `t` being the innermost value. -/
def unwind (t : Tree) (stack : List Open) : Tree :=
  stack.foldl (fun t o => (o.add t).stop false) t

/-- The tree of a text that goes wrong here. -/
def cut (want : Want) (stack : List Open) : Tree :=
  match want, stack with
  | .value, _ => unwind .broken stack
  | _, [] => .broken
  | _, o :: outer => unwind (o.stop false) outer

def Key.ofText : Option String → Key
  | some s => .name s
  | none => .unreadable

def Token.scalar? : Token → Option Tree
  | .null => some .null
  | .bool b => some (.bool b)
  | .number n => some (.number n)
  | .text s => some (.text s)
  | _ => none

inductive Progress where
  | more (want : Want) (stack : List Open)
  | complete (t : Tree)
  | wrong (t : Tree)

def deliver (t : Tree) : List Open → Progress
  | [] => .complete t
  | o :: outer => .more .next (o.add t :: outer)

def advance (want : Want) (stack : List Open) (token : Token) : Progress :=
  match want, token, stack with
  | .item, .closeList, o :: outer => deliver (o.stop true) outer
  | .firstKey, .closeObject, o :: outer => deliver (o.stop true) outer
  | .next, .closeList, .list done :: outer => deliver ((Open.list done).stop true) outer
  | .next, .closeObject, .object done :: outer => deliver ((Open.object done).stop true) outer
  | .next, .comma, .list done :: outer => .more .value (.list done :: outer)
  | .next, .comma, .object done :: outer => .more .key (.object done :: outer)
  | .key, .text s, .object done :: outer => .more .colon (.member done (.ofText s) :: outer)
  | .firstKey, .text s, .object done :: outer => .more .colon (.member done (.ofText s) :: outer)
  | .colon, .colon, _ => .more .value stack
  | .value, .openList, _ => .more .item (.list [] :: stack)
  | .item, .openList, _ => .more .item (.list [] :: stack)
  | .value, .openObject, _ => .more .firstKey (.object [] :: stack)
  | .item, .openObject, _ => .more .firstKey (.object [] :: stack)
  | .value, _, _ =>
      match token.scalar? with
      | some t => deliver t stack
      | none => .wrong (cut want stack)
  | .item, _, _ =>
      match token.scalar? with
      | some t => deliver t stack
      | none => .wrong (cut .value stack)
  | _, _, _ => .wrong (cut want stack)

/-- The tree of the first value among tokens, and the tokens behind it. -/
def build (want : Want) (stack : List Open) : List Token → Tree × List Token
  | [] => (cut want stack, [])
  | token :: rest =>
      match advance want stack token with
      | .more want stack => build want stack rest
      | .complete t => (t, rest)
      | .wrong t => (t, [.broken])

def Tree.read (body : Bytes) : Tree × List Token := build .value [] (tokens body)

end StatAlmanac.Json
