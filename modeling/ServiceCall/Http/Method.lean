/-!
# Request methods

The five methods that a contract may route with.
-/

namespace ServiceCall.Http

/-- A request method. -/
inductive Method where
  | get
  | post
  | put
  | delete
  | patch
deriving DecidableEq, Repr

namespace Method

/-- Every method once. -/
def all : List Method := [.get, .post, .put, .delete, .patch]

/-- The method as it is written. -/
def text : Method → String
  | .get => "GET"
  | .post => "POST"
  | .put => "PUT"
  | .delete => "DELETE"
  | .patch => "PATCH"

/-- Whether a request bean travels as the body and not as pairs of the query. -/
def hasBody : Method → Bool
  | .post => true
  | .put => true
  | .patch => true
  | _ => false

/-- Just the methods that create, replace and change carry a body. -/
theorem hasBody_iff {m : Method} : m.hasBody = true ↔ m = .post ∨ m = .put ∨ m = .patch := by
  cases m <;> simp [hasBody]

/-- The method of a word, whatever its case. -/
def parse? (word : String) : Option Method :=
  all.find? fun m => m.text.toList == word.toList.map Char.toUpper

/-- The message for a word that is no method. -/
def unsupported (word : String) : String := "unsupported http method, method=" ++ word

end Method

end ServiceCall.Http
