/-
# Settings

The settings of the ledger's service: where its database is, and whether it says more than usual.
Each setting is taken from the given arguments, else from the environment, else it has its default;
names are compared without regard to case. Of several arguments with one name the first counts, of
several variables the last. An argument of an unknown name is an issue, a variable of an unknown
name is not.

Key definitions: `Settings`, `Settings.names`, `Settings.check`, `Settings.databaseUrl`.
-/
import TokenLedger.Schema.Check
import TokenLedger.Text.LowerCase

namespace TokenLedger

structure Settings where
  host : String
  port : Int
  user : String
  password : String
  database : String
  debug : Bool
deriving DecidableEq, Repr

namespace Settings

/-- The names of the settings. -/
def names : List String :=
  ["db_host", "db_port", "db_user", "db_password", "db_name", "debug"]

/-- The setting that a name means. -/
def named? (name : RawText) : Option String :=
  let folded := String.ofList (Text.toLower name.shown.toList)
  if names.contains folded then some folded else none

/-- The members whose names are settings, under the names of those. -/
def known (ms : Json.Members) : Json.Members :=
  ms.filterMap fun (name, v) => (named? name).map fun s => (.text s, v)

/-- The issues of the arguments that are no settings. -/
def undeclared (ms : Json.Members) : List Issue :=
  (ms.filter fun m => (named? m.1).isNone).map fun m => ⟨[.field m.1.shown], .undeclared⟩

/-- The settings made of members in which the last of a name counts. -/
def ofMembers (ms : Json.Members) : Checked Settings :=
  ((((((Checked.value Settings.mk).ap
    (Check.defaulted ms "db_host" "localhost" Check.text)).ap
    (Check.defaulted ms "db_port" 54377 Check.int)).ap
    (Check.defaulted ms "db_user" "postgres" Check.text)).ap
    (Check.defaulted ms "db_password" "postgres" Check.text)).ap
    (Check.defaulted ms "db_name" "tokenindexer" Check.text)).ap
    (Check.defaulted ms "debug" true Check.truth)

/-- The settings of an environment and of arguments. -/
def check (environment arguments : Json.Members) : Checked Settings :=
  match ofMembers (known environment ++ (known arguments).reverse), undeclared arguments with
  | .ok s, [] => .ok s
  | .ok _, more => .error more
  | .error issues, more => .error (issues ++ more)

/-- The address of the database connection. -/
def databaseUrl (s : Settings) : String :=
  "postgresql+asyncpg://" ++ s.user ++ ":" ++ s.password ++ "@" ++ s.host ++ ":"
    ++ Whole.text s.port ++ "/" ++ s.database

def toJson (s : Settings) : Json :=
  .obj [("db_host", .str s.host), ("db_port", .whole s.port), ("db_user", .str s.user),
    ("db_password", .str s.password), ("db_name", .str s.database), ("debug", .bool s.debug)]

end Settings
end TokenLedger
