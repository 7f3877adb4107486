/-
# Requests and replies

A request names a method and a path, may ask for something by named values, and may carry a body. In
a path an octet may be written as a percent sign and two hexadecimal digits; the octets of a path
are UTF-8, and what is none stands for the replacement character. A reply is a status and a JSON
value, or no value if the service failed.

Key definitions: `Request`, `Request.verb`, `Request.value?`, `Request.target`, `Route`, `Reply`.
-/
import TokenLedger.Json.Reader

namespace TokenLedger

/-- A request. -/
structure Request where
  method : String
  /-- The path with its percent signs. -/
  path : String
  query : List (String × String)
  body : Option String
deriving DecidableEq, Repr

/-- The method in upper case. -/
def Request.verb (r : Request) : String :=
  r.method.map Char.toUpper

/-- The value of a name; of several the last. -/
def Request.value? (r : Request) (name : String) : Option String :=
  (r.query.filter (·.1 == name)).getLast?.map Prod.snd

/-- A reply; a failure of the service says nothing. -/
structure Reply where
  status : Nat
  body : Option Json

/-! ### Paths -/

/-- The octets of a path. -/
def octets : List Char → List UInt8
  | [] => []
  | '%' :: a :: b :: rest =>
    match Json.hexValue? a, Json.hexValue? b with
    | some x, some y => UInt8.ofNat (16 * x + y) :: octets rest
    | _, _ => '%'.toUInt8 :: octets (a :: b :: rest)
  | c :: rest => (String.singleton c).toUTF8.data.toList ++ octets rest

/-- The value of an octet that continues a character. -/
def continuation? (b : UInt8) : Option Nat :=
  if 0x80 ≤ b ∧ b < 0xC0 then some (b.toNat - 0x80) else none

/-- The character of a code point, if it is one and not less than `least`. -/
def charFrom? (least n : Nat) : Option Char :=
  if least ≤ n ∧ n.isValidChar then some (Char.ofNat n) else none

/-- A character of several octets at the start of a list, and the octets behind it. -/
def takeChar? : List UInt8 → Option (Char × List UInt8)
  | a :: b :: c :: d :: rest =>
    if 0xF0 ≤ a ∧ a < 0xF8 then do
      let x ← continuation? b
      let y ← continuation? c
      let z ← continuation? d
      let char ← charFrom? 0x10000 ((((a.toNat - 0xF0) * 64 + x) * 64 + y) * 64 + z)
      return (char, rest)
    else takeShort? a b (some c) (d :: rest)
  | [a, b, c] => takeShort? a b (some c) []
  | [a, b] => takeShort? a b none []
  | _ => none
where
  /-- A character of two or three octets. -/
  takeShort? (a b : UInt8) (c : Option UInt8) (rest : List UInt8) : Option (Char × List UInt8) :=
    if 0xC0 ≤ a ∧ a < 0xE0 then do
      let x ← continuation? b
      let char ← charFrom? 0x80 ((a.toNat - 0xC0) * 64 + x)
      return (char, c.toList ++ rest)
    else if 0xE0 ≤ a ∧ a < 0xF0 then do
      let x ← continuation? b
      let y ← continuation? (← c)
      let char ← charFrom? 0x800 (((a.toNat - 0xE0) * 64 + x) * 64 + y)
      return (char, rest)
    else none

/-- The characters of octets, at most `bound` of them. -/
def charactersOf : Nat → List UInt8 → List Char
  | 0, _ => []
  | _, [] => []
  | bound + 1, a :: rest =>
    if a < 0x80 then Char.ofNat a.toNat :: charactersOf bound rest
    else
      match takeChar? (a :: rest) with
      | some (c, rest') => c :: charactersOf bound rest'
      | none => '\uFFFD' :: charactersOf bound rest

/-- The characters that a path stands for. -/
def decodedPath (path : String) : List Char :=
  let bytes := octets path.toList
  charactersOf bytes.length bytes

/-! ### Routes -/

/-- What the service offers. -/
inductive Route where
  | health
  | listActivities
  | transaction (version : String)
  | listErrors
  | normalize
  | ingest
deriving DecidableEq, Repr

namespace Route

/-- The method of a route. -/
def method : Route → String
  | .normalize => "POST"
  | .ingest => "POST"
  | _ => "GET"

/-- The path in front of a version. -/
def versionPath : List Char :=
  "/api/activities/transactions/".toList

/-- The routes of a fixed path. -/
def fixed : List (String × Route) :=
  [("/api/health", .health), ("/api/activities", .listActivities), ("/api/errors", .listErrors),
    ("/api/activities/normalize", .normalize), ("/api/activities/ingest", .ingest)]

/-- The route of a path. One line feed at its end does not count; a version is not empty and holds
no slash. -/
def ofPath? (path : List Char) : Option Route :=
  match fixed.find? fun r => r.1.toList == path || r.1.toList ++ ['\n'] == path with
  | some r => some r.2
  | none =>
    let version := path.drop versionPath.length
    if versionPath.isPrefixOf path && !version.isEmpty && !version.contains '/' then
      some (.transaction (String.ofList version))
    else none

end Route

/-- Where a path leads. -/
inductive Target where
  | route (r : Route)
  /-- Somewhere without the slashes at its end. -/
  | elsewhere
  | nowhere
deriving DecidableEq, Repr

/-- The path without the slashes at its end. -/
def withoutSlashes (path : List Char) : List Char :=
  (path.reverse.dropWhile (· == '/')).reverse

/-- Where the path of a request leads. -/
def Request.target (r : Request) : Target :=
  let path := decodedPath r.path
  match Route.ofPath? path with
  | some route => .route route
  | none =>
    if path.getLast? = some '/' && (Route.ofPath? (withoutSlashes path)).isSome then .elsewhere
    else .nowhere

end TokenLedger
