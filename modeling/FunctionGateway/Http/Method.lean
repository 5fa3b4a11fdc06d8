/-!
# Request methods

A method is a non-empty token of the protocol's token characters. Letter case
counts: `get` is an extension method and not `GET`. The nine standard methods
carry their own label in the metrics; every other method is an extension.
-/

namespace FunctionGateway.Http

/-- One of the characters a protocol token may hold. -/
def isTokenChar (letter : Char) : Bool :=
  letter.isAlphanum || "!#$%&'*+-.^_\x60|~".toList.contains letter

/-- A request method; the token is never empty and holds token characters only. -/
structure Method where
  token : String
  isToken : (!token.toList.isEmpty && token.toList.all isTokenChar) = true
deriving DecidableEq

namespace Method

/-- Read a method, refusing text that is no token. -/
def ofString? (text : String) : Option Method :=
  if isToken : (!text.toList.isEmpty && text.toList.all isTokenChar) = true then
    some ⟨text, isToken⟩
  else
    none

theorem ofString?_token (method : Method) : ofString? method.token = some method := by
  simp only [ofString?]
  rw [dif_pos method.isToken]

def get : Method := ⟨"GET", by decide⟩
def head : Method := ⟨"HEAD", by decide⟩
def post : Method := ⟨"POST", by decide⟩
def put : Method := ⟨"PUT", by decide⟩
def delete : Method := ⟨"DELETE", by decide⟩
def connect : Method := ⟨"CONNECT", by decide⟩
def options : Method := ⟨"OPTIONS", by decide⟩
def trace : Method := ⟨"TRACE", by decide⟩
def patch : Method := ⟨"PATCH", by decide⟩

/-- The nine methods that are not extensions. -/
def standard : List Method :=
  [get, head, post, put, delete, connect, options, trace, patch]

end Method

end FunctionGateway.Http
