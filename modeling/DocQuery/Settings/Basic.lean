import DocQuery.Error

namespace DocQuery

structure Settings where
  host : String
  port : UInt16
  database : String
  username : Option String
  password : Option String
  applicationName : String
  deriving DecidableEq

structure Settings.Layer where
  host : Option String := none
  port : Option UInt16 := none
  database : Option String := none
  username : Option String := none
  password : Option String := none
  applicationName : Option String := none

namespace Settings

def ofLayer (l : Layer) : Settings :=
  let applicationName := l.applicationName.getD "application"
  { host := l.host.getD "localhost"
    port := l.port.getD 27017
    database := l.database.getD ("play." ++ applicationName)
    username := l.username
    password := l.password
    applicationName }

def fault? (s : Settings) : Option ConfigFault :=
  if s.host.isEmpty then some .emptyHost
  else if s.database.isEmpty then some .emptyDatabase
  else if s.username.isSome != s.password.isSome then some .unpairedCredentials
  else none

def resolve (l : Layer) : Except Error Settings :=
  match fault? (ofLayer l) with
  | some fault => .error (.config fault)
  | none => .ok (ofLayer l)

def credentials (s : Settings) : Option (String × String) :=
  match s.username, s.password with
  | some user, some password => some (user, password)
  | _, _ => none

def address (s : Settings) : String :=
  s.host ++ ":" ++ toString s.port.toNat ++ "/" ++ s.database

def uri (s : Settings) : String :=
  match s.credentials with
  | some (user, password) => "mongodb://" ++ user ++ ":" ++ password ++ "@" ++ s.address
  | none => "mongodb://" ++ s.address

def redactedUri (s : Settings) : String :=
  match s.username with
  | some user => "mongodb://" ++ user ++ ":***@" ++ s.address
  | none => s.uri

def toJson (s : Settings) : Json :=
  .object [("host", .string s.host), ("port", .int s.port.toNat), ("database", .string s.database),
    ("username", (s.username.map Json.string).getD .null),
    ("application_name", .string s.applicationName)]

def escape : Char → List Char
  | '"' => ['\\', '"']
  | '\\' => ['\\', '\\']
  | '\t' => ['\\', 't']
  | '\n' => ['\\', 'n']
  | '\r' => ['\\', 'r']
  | '\x00' => ['\\', '0']
  | c =>
    if c.toNat < 0x20 || c.toNat = 0x7f then
      ['\\', 'u', '\x7b'] ++ Nat.toDigits 16 c.toNat ++ ['\x7d']
    else [c]

def quote (s : String) : String :=
  String.ofList ('"' :: (s.toList.flatMap escape ++ ['"']))

def quoteOption : Option String → String
  | none => "None"
  | some s => "Some(" ++ quote s ++ ")"

def debugText (s : Settings) : String :=
  "StoreConfig \x7b host: " ++ quote s.host ++ ", port: " ++ toString s.port.toNat ++
    ", database: " ++ quote s.database ++ ", username: " ++ quoteOption s.username ++
    ", password: " ++ quoteOption (s.password.map fun _ => "***") ++
    ", application_name: " ++ quote s.applicationName ++ " \x7d"

end Settings

end DocQuery
