-- SUMMARY: Names of the classes and functions of a generated client.
import ApiStubs.Naming.Identifier
import ApiStubs.Naming.SnakeCase

/-!
# Names in generated code

For an endpoint `Show` of a namespace `Statuses`, the aggregate client has an
accessor `statuses`, which gives a `StatusesClient`. Its method `show` gives a
`StatusesShowRequestBuilder`. A call that is written by hand is `statuses_show`.
-/

namespace ApiStubs.Naming

/-- The accessor of a namespace in the aggregate client. -/
def accessor (nameSpace : String) : String := identifier (snakeCase nameSpace)

/-- The client class of a namespace. -/
def clientClass (nameSpace : String) : String := s!"{nameSpace}Client"

/-- The method of an endpoint in the client of its namespace. -/
def methodName (endpoint : String) : String := identifier (snakeCase endpoint)

def builderClass (nameSpace endpoint : String) : String := s!"{nameSpace}{endpoint}RequestBuilder"

/-- The function that somebody writes by hand for an endpoint. -/
def implFunction (nameSpace endpoint : String) : String :=
  s!"{snakeCase nameSpace}_{snakeCase endpoint}"

end ApiStubs.Naming
