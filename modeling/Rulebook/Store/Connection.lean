import Rulebook.Text.Escape
import Rulebook.Settings.Database
import Rulebook.Store.Fault
import Rulebook.Store.IpAddress

/-!
# Connections

A database is reached at a URL: a scheme, perhaps a user with a password, a host and a port, then
the name of the database and parameters. `Connection.ofUrl` reads a URL as far as it matters for the
question whether a connection can be tried at all, and says what is wrong with it if not.
-/

namespace Rulebook

/-- What can be wrong with the URL of a database. -/
inductive UrlFault where
  /-- There is no scheme. -/
  | noScheme
  /-- There is no host where one is due. -/
  | noHost
  | unusableHost
  | unusablePort
  /-- Escaped octets make up no text. -/
  | unusableText
  | unusableParameter (name : String)
  deriving DecidableEq, Repr

/-- The words for a fault. -/
def UrlFault.text : UrlFault → String
  | .noScheme => "relative URL without a base"
  | .noHost => "empty host"
  | .unusableHost => "invalid host"
  | .unusablePort => "invalid port number"
  | .unusableText => "invalid utf-8 sequence"
  | .unusableParameter name => "invalid value of parameter " ++ name

/-- Where a database is. All parts but the scheme and the parameters are as they are written. -/
structure Connection where
  scheme : List Char
  user : List Char
  password : List Char
  host : List Char
  port : Option Nat
  path : List Char
  parameters : List (String × List Char)
  deriving DecidableEq, Repr

namespace Connection

/-! ### The parts of a URL -/

/-- The characters of a URL that count: no space around it, no tab and no end of a line in it. -/
def trimmed (url : String) : List Char :=
  let cs := Text.strip (fun c => decide (c.toNat ≤ 0x20)) url.toList
  cs.filter fun c => !(c = '\t' || c = '\n' || c = '\r')

/-- Reads a scheme and its colon. -/
def takeScheme (cs : List Char) : Option (List Char × List Char) :=
  let scheme := cs.takeWhile fun c => c.isAlphanum || c = '+' || c = '-' || c = '.'
  match scheme, cs.drop scheme.length with
  | c :: _, ':' :: rest => if c.isAlpha then some (scheme.map Char.toLower, rest) else none
  | _, _ => none

/-- The schemes that cannot do without a host. -/
def webSchemes : List String := ["http", "https", "ws", "wss", "ftp"]

/-- Reads what stands between the scheme and the path, if there is anything. -/
def takeAuthority (needsHost : Bool) (cs : List Char) : Option (List Char) × List Char :=
  let isEnd := fun c : Char => c = '/' || c = '?' || c = '#' || (needsHost && c = '\\')
  let cut := fun cs : List Char =>
    let authority := cs.takeWhile fun c => !isEnd c
    (some authority, cs.drop authority.length)
  -- with such a scheme any number of slashes, also of backslashes, leads to the host
  if needsHost then cut (cs.dropWhile fun c => c = '/' || c = '\\')
  else match cs with
    | '/' :: '/' :: cs => cut cs
    | cs => (none, cs)

/-- Cuts a host from the port behind it; a colon between brackets belongs to the host. -/
def cutHost (inBrackets : Bool) : List Char → List Char × Option (List Char)
  | [] => ([], none)
  | c :: cs =>
    if c = ':' ∧ !inBrackets then ([], some cs)
    else
      let inBrackets := if c = '[' then true else if c = ']' then false else inBrackets
      let (host, port) := cutHost inBrackets cs
      (c :: host, port)

/-- The characters that no host may hold. -/
def isForbidden (c : Char) : Bool :=
  "\x00 #/:<>?@[\\]^|".toList.contains c

/-- The text is usable as a host. -/
def isHost (cs : List Char) : Bool :=
  match cs with
  | '[' :: inner =>
    inner.getLast? = some ']' && IpAddress.isVersion6 inner.dropLast
  | cs => !cs.any isForbidden

/-- Reads a port; without digits there is none. -/
def portOf (cs : List Char) : Except UrlFault (Option Nat) :=
  if cs.isEmpty then .ok none
  else match Text.natOfDigits? cs with
    | some n => if n < UInt16.size then .ok (some n) else .error .unusablePort
    | none => .error .unusablePort

/-! ### Parameters -/

/-- The parameters of a query. -/
def parametersOf (query : List Char) : List (String × List Char) :=
  let read := fun cs : List Char => Text.unescape (cs.map fun c => if c = '+' then ' ' else c)
  ((Text.parts '&' query).filter fun p => !p.isEmpty).map fun p =>
    let (name, value) := Text.cutFirst '=' p
    (String.ofList (read name), read (value.getD []))

/-- The ways to use encryption. -/
def encryptionModes : List String :=
  ["disable", "allow", "prefer", "require", "verify-ca", "verify-full"]

/-- The parameter has a value that can be used. Parameters that are not known do not matter. -/
def isUsable (name : String) (value : List Char) : Bool :=
  if name = "sslmode" || name = "ssl-mode" then
    encryptionModes.contains (String.ofList (value.map Char.toLower))
  else if name = "port" then (Text.natBelow? UInt16.size value).isSome
  else if name = "statement-cache-capacity" then (Text.natBelow? UInt64.size value).isSome
  else if name = "hostaddr" then IpAddress.isAddress value
  else true

/-! ### Texts -/

/-- The octets that a part of a URL stands for, each as a character. -/
def octets (cs : List Char) : List Char :=
  Text.unescape ((String.ofList cs).toUTF8.toList.map fun b => Char.ofNat b.toNat)

/-- A part of a URL stands for a text. -/
def isText (cs : List Char) : Bool :=
  (ByteArray.mk ((octets cs).map fun c => UInt8.ofNat c.toNat).toArray).validateUTF8

/-- A host that is the path of a socket stands for a text. -/
def isSocketText (host : List Char) : Bool :=
  (octets host).head? ≠ some '/' || isText host

/-! ### URLs -/

/-- Demands a condition. -/
def demand (holds : Bool) (fault : UrlFault) : Except UrlFault Unit :=
  if holds then .ok () else .error fault

/-- Where the database is that a URL names. -/
def ofUrl (url : String) : Except UrlFault Connection := do
  match takeScheme (trimmed url) with
  | none => throw .noScheme
  | some (scheme, rest) =>
    let needsHost := webSchemes.contains (String.ofList scheme)
    let (authority, rest) := takeAuthority needsHost rest
    -- a password may hold at signs, so the last one counts
    let (userinfo, address) := match authority.bind (Text.cutLast '@') with
      | some (userinfo, address) => (some userinfo, address)
      | none => (none, authority.getD [])
    let (user, password) := Text.cutFirst ':' (userinfo.getD [])
    let password := password.getD []
    let (host, port) := cutHost false address
    let hasUser := !user.isEmpty || !password.isEmpty
    -- a host may be missing only if nothing in front of the path refers to it
    let dueHost := needsHost || hasUser || port.isSome || (userinfo.isSome && !rest.isEmpty)
    demand (!(host.isEmpty && dueHost)) .noHost
    demand (isHost host) .unusableHost
    let port ← portOf (port.getD [])
    -- a fragment is never sent anywhere
    let target := rest.takeWhile (· ≠ '#')
    let (path, query) := Text.cutFirst '?' target
    let parameters := parametersOf (query.getD [])
    demand (isSocketText host && isText user && isText password &&
      isText (path.dropWhile (· = '/'))) .unusableText
    match parameters.find? fun p => !isUsable p.1 p.2 with
    | some p => throw (.unusableParameter p.1)
    | none => return ⟨scheme, user, password, host, port, path, parameters⟩

end Connection

/-- Where the database of the settings is. -/
def DatabaseSettings.connection (s : DatabaseSettings) : Except StorageFault Connection :=
  (Connection.ofUrl s.url).mapError fun fault => .configuration fault.text

end Rulebook
