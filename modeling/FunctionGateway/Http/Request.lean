import FunctionGateway.Http.Header
import FunctionGateway.Http.Target

/-!
# Requests

A request has its body fully read. Its path parameters are empty until a router
has matched its path.
-/

namespace FunctionGateway.Http

open FunctionGateway.Text

/-- A request with the path parameters a router found, in pattern order. -/
structure Request where
  method : Method
  target : Target
  fields : Fields
  body : Bytes
  params : List (String × String) := []
deriving DecidableEq

namespace Request

/-- The path as received, escapes and all. -/
def path (request : Request) : String :=
  request.target.path

/-- The first value of a header field; nothing if it is absent or not visible ASCII. -/
def field? (request : Request) (name : FieldName) : Option String :=
  (request.fields.get? name).bind FieldValue.visible?

/-- The first value of the header field called `name`, in any letter case; nothing for
text that is no field name. -/
def header? (request : Request) (name : String) : Option String :=
  (FieldName.ofString? name).bind request.field?

def withParams (request : Request) (params : List (String × String)) : Request :=
  { request with params }

/-- A path parameter. Where a pattern uses a name twice, the last value counts. -/
def param? (request : Request) (name : String) : Option String :=
  request.params.reverse.lookup name

end Request

end FunctionGateway.Http
