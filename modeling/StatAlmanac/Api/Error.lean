import StatAlmanac.Fetch.Outcome
import StatAlmanac.Formula.Basic
import StatAlmanac.Json.Write

/-!
What can go wrong with a request, the status it is answered with, and the body
that says so.
-/

namespace StatAlmanac

inductive ApiError where
  | fetch (e : FetchError)
  | formula (e : FormulaError)
  | statNotFound (what : String)
  | invalidRequest (reason : String)
  | internal (reason : String)
  deriving DecidableEq, Repr

namespace ApiError

def message : ApiError → String
  | .fetch e => e.message
  | .formula e => e.message
  | .statNotFound what => "stat not found: " ++ what
  | .invalidRequest reason => "Invalid request: " ++ reason
  | .internal reason => "Internal error: " ++ reason

def cause? : ApiError → Option String
  | .fetch (.exhausted _ _ last) => some last.message
  | _ => none

def status : ApiError → Nat
  | .fetch (.notFound _) | .statNotFound _ => 404
  | .fetch _ => 502
  | .formula (.malformed _) => 422
  | .formula _ | .invalidRequest _ => 400
  | .internal _ => 500

def toValue (e : ApiError) : Json.Value := .object [("error", .text e.message)]

def write (e : ApiError) : List Char := Json.compact e.toValue

end ApiError

end StatAlmanac
