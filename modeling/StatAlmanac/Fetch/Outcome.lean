import StatAlmanac.Text.Utf8

/-!
What comes back when a page is asked for: a response, or a passing failure that
is worth another attempt. A fetch, which makes several attempts, ends with the
page or with one of three errors.
-/

namespace StatAlmanac

structure Response where
  status : Nat
  body : Bytes
  deriving DecidableEq

inductive Passing where
  | timeout
  | connect (reason : String)
  | status (code : Nat)
  | body (reason : String)
  deriving DecidableEq, Repr

def Passing.message : Passing → String
  | .timeout => "request timed out"
  | .connect reason => "connection error: " ++ reason
  | .status code => s!"server responded with status {code}"
  | .body reason => "failed to read response body: " ++ reason

abbrev Outcome := Except Passing Response

inductive Verdict where
  | success
  | notFound
  | passing
  | rejected
  deriving DecidableEq, Repr

def Verdict.ofStatus (status : Nat) : Verdict :=
  if 200 ≤ status ∧ status ≤ 299 then .success
  else if status = 404 ∨ status = 410 then .notFound
  else if status = 408 ∨ status = 429 ∨ 500 ≤ status ∧ status ≤ 599 then .passing
  else .rejected

inductive FetchError where
  | notFound (url : String)
  | exhausted (url : String) (attempts : Nat) (last : Passing)
  | rejected (url : String) (status : Nat)
  deriving DecidableEq, Repr

def FetchError.message : FetchError → String
  | .notFound url => "not found: " ++ url
  | .exhausted url attempts last =>
      s!"request to {url} failed after {attempts} attempts: {last.message}"
  | .rejected url status => s!"request to {url} rejected with status {status}"

end StatAlmanac
