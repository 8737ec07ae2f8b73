import CanaryRouting.Store.Program

/-!
# Paths of requests

A request names the namespace, the sort and the name of its object in the path it is sent to.
Names are put there as they are. So a request is not sent if its path has a character that paths
cannot have, and what follows a question mark or a number sign is no part of the path: the server
takes the shorter name for the one that was asked for (`Request.arrival`).
-/

namespace CanaryRouting

namespace Path

/-- Whether a path can have the character. -/
def isPathChar (c : Char) : Bool :=
  c = '!' || ('$' ≤ c && c ≤ ';') || c = '=' || ('@' ≤ c && c ≤ '_') || ('a' ≤ c && c ≤ 'z')
    || c = '|' || c = '~' || c = '"' || c = '\x7b' || c = '\x7d' || '\u0080' ≤ c

/-- Whether a query behind a path can have the character. -/
def isQueryChar (c : Char) : Bool :=
  c = '!' || ('$' ≤ c && c ≤ ';') || c = '=' || ('?' ≤ c && c ≤ '~') || '\u0080' ≤ c

/-- What of a text counts as the path when the text is sent, if it can be sent. -/
def ofText? (text : List Char) : Option (List Char) :=
  let path := text.takeWhile fun c => c ≠ '?' && c ≠ '#'
  let query :=
    match text.dropWhile fun c => c ≠ '?' && c ≠ '#' with
    | '?' :: rest => rest.takeWhile (· ≠ '#')
    | _ => []
  if path.all isPathChar && query.all isQueryChar then some path else none

end Path

namespace Request

/-- The namespace of a request. -/
def space : Request → String
  | .getRoute space _ _ | .updateRoute space _ | .listRoutes space _ _ | .getDocument space _
  | .createDocument space _ | .updateDocument space _ => space

/-- The sort of object that a request is about, as paths name it. -/
def resource : Request → String
  | .getRoute _ kind _ | .listRoutes _ kind _ => kind.plural
  | .updateRoute _ route => route.kind.plural
  | .getDocument .. | .createDocument .. | .updateDocument .. => "configmaps"

/-- The name of the object that a request is about; a list has none. -/
def name : Request → String
  | .getRoute _ _ name | .getDocument _ name | .createDocument _ name => name
  | .updateRoute _ route => route.name
  | .updateDocument _ document => document.name
  | .listRoutes .. => ""

/-- Whether the path of a request ends with the name of its object. -/
def hasNameInPath : Request → Bool
  | .getRoute .. | .updateRoute .. | .getDocument .. | .updateDocument .. => true
  | .listRoutes .. | .createDocument .. => false

/-- The part of a request's path that depends on the request. -/
def path (r : Request) : List Char :=
  r.space.toList ++ '/' :: r.resource.toList
    ++ (if r.hasNameInPath then '/' :: r.name.toList else [])

/-- Whether a request has the name it needs; otherwise it is not sent. -/
def isNamed (r : Request) : Bool := !r.hasNameInPath || r.name ≠ ""

/-- The name under which a request reaches the server, if it does. A path that has lost its sort
of object is refused. -/
def arrival (r : Request) : Except ApiFailure String :=
  match Path.ofText? r.path with
  | none => .error .unsent
  | some path =>
    if !r.isNamed then .error .unsent
    else
      match (path.splitOn '/').map String.ofList with
      | space :: resource :: rest =>
        if space = r.space ∧ resource = r.resource then .ok (rest.headD r.name)
        else .error (.status 400)
      | _ => .error (.status 400)

end Request

end CanaryRouting
