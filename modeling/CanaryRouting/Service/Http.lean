/-!
# HTTP messages

Requests and responses of the service, as far as it looks at them. A body is taken for JSON if its
media type says so: `application/json`, with or without a suffix, or another type of `application`
with the suffix `+json`, in letters of either case and with any parameters.
-/

namespace CanaryRouting.Http

/-- A request. -/
structure Request where
  /-- The method. -/
  method : String
  /-- What is requested: a path with or without a query, or a whole address. -/
  path : String
  /-- The media type of the body. -/
  contentType : Option String := none
  /-- The body. -/
  body : String := ""
  deriving DecidableEq, Repr

/-- A response. -/
structure Response where
  /-- The status. -/
  status : Nat
  /-- The media type of the body. -/
  contentType : Option String := none
  /-- The body. -/
  body : String := ""
  deriving DecidableEq, Repr

/-- Whether the character begins the part of an address behind its path. -/
def endsPath (c : Char) : Bool := c = '?' || c = '#'

/-- The path in an address with a scheme and a host. An address without a path stands for the root,
and what is no such address has no path. -/
def pathOfAddress (cs : List Char) : List Char :=
  match cs.dropWhile (· ≠ ':') with
  | ':' :: '/' :: '/' :: rest =>
    let path := (rest.dropWhile fun c => c ≠ '/' && !endsPath c).takeWhile (!endsPath ·)
    if path.isEmpty then ['/'] else path
  | _ => []

/-- The path of a request without the query. -/
def Request.route (r : Request) : String :=
  match r.path.toList with
  | '/' :: cs => String.ofList ('/' :: cs.takeWhile (!endsPath ·))
  | cs => String.ofList (pathOfAddress cs)

/-! ### Media types -/

/-- Whether the character may be part of a token. -/
def isTokenChar (c : Char) : Bool :=
  c.isAlphanum || "!#$%&'*+-.^_`|~".toList.contains c

/-- Whether the character may stand in a quoted value. -/
def isQuotedChar (c : Char) : Bool := ' ' ≤ c && c ≤ '~'

/-- Takes the value of a parameter, quoted or not, and the semicolon behind it. A quoted value has
at least one character, so a quote at its beginning does not end it. -/
def dropValue (cs : List Char) : Option (List Char) :=
  match cs with
  | '"' :: c :: cs =>
    match cs.dropWhile fun c => isQuotedChar c && c ≠ '"' with
    | '"' :: rest =>
      if !isQuotedChar c then none
      else
        match rest.dropWhile (· = ' ') with
        | [] => some []
        | ';' :: rest => some rest
        | _ => none
    | _ => none
  | cs =>
    match cs.dropWhile isTokenChar with
    | [] => some []
    | ';' :: rest => if (cs.takeWhile isTokenChar).isEmpty then none else some rest
    | _ => none

/-- Whether the text is a list of parameters. No text of that length has more parameters than
`steps`. -/
def areParameters (cs : List Char) : Nat → Bool
  | 0 => cs.isEmpty
  | steps + 1 =>
    match cs.dropWhile (· = ' ') with
    | [] => true
    | cs =>
      !(cs.takeWhile isTokenChar).isEmpty &&
        match cs.dropWhile isTokenChar with
        | '=' :: rest =>
          match dropValue rest with
          | some rest => areParameters rest steps
          | none => false
        | _ => false

/-- The parts of a subtype before and behind its last plus sign; one that has none, or only at the
beginning, has no suffix. -/
def splitSubtype (cs : List Char) : List Char × Option (List Char) :=
  let suffix := (cs.reverse.takeWhile (· ≠ '+')).reverse
  let base := cs.take (cs.length - suffix.length - 1)
  if base.isEmpty then (cs, none) else (base, some suffix)

/-- Whether a media type says that a body is JSON. -/
def isJsonType (contentType : String) : Bool :=
  let cs := contentType.toList
  match cs.dropWhile isTokenChar with
  | '/' :: rest =>
    let (base, suffix) := splitSubtype ((rest.takeWhile isTokenChar).map Char.toLower)
    (cs.takeWhile isTokenChar).map Char.toLower = "application".toList
      && (base = "json".toList || suffix = some "json".toList)
      && match rest.dropWhile isTokenChar with
        | [] => true
        | ';' :: parameters => areParameters parameters (parameters.length + 1)
        | _ => false
  | _ => false

end CanaryRouting.Http
