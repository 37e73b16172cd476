import Leasework.Queue.Failure
import Leasework.Text.Lowercase
import Leasework.Text.Numeral

/-!
# `Leasework.Broker.Address`: where a broker is reached

The address of a broker is a scheme, a host with an optional port, and the number of a
database. A name and a password may stand in front of the host. A broker on the same
machine is reached through a path instead.

An address that cannot be used is refused before a connection is tried, and
`AddressFault` says why.
-/

set_option autoImplicit false

namespace Leasework.Broker

/-- Why an address is refused. -/
inductive AddressFault where
  /-- It is no address, or the address of something else. -/
  | unreadable
  /-- It names no host. -/
  | noHost
  /-- It asks for an encrypted connection, which is not supported. -/
  | encrypted
  /-- It names a database by something that is no number. -/
  | badDatabase
  /-- It names no path. -/
  | noPath
deriving DecidableEq, Repr

/-- The wording of a fault. -/
def AddressFault.message : AddressFault → String
  | .unreadable => "Redis URL did not parse"
  | .noHost => "Missing hostname"
  | .encrypted => "can't connect with TLS, the feature is not enabled"
  | .badDatabase => "Invalid database number"
  | .noPath => "Missing path"

/-- The kind of error that reports an address that cannot be used. -/
def badAddress : Queue.BrokerFault := .other "InvalidClientConfig"

/-- The failure with which an address is refused. -/
def AddressFault.toFailure (f : AddressFault) : Queue.Failure :=
  .broker badAddress (f.message ++ "- " ++ badAddress.name)

/-! ### Parts of an address -/

/-- A character that is dropped from the ends of an address. -/
def isOuter (c : Char) : Bool := c.toNat ≤ 0x20

/-- The address without control characters and spaces at its ends, and without line breaks
and tabs anywhere. -/
def tidied (cs : List Char) : List Char :=
  ((cs.dropWhile isOuter).reverse.dropWhile isOuter).reverse.filter fun c =>
    c ≠ '\t' && c ≠ '\n' && c ≠ '\r'

/-- A character of a scheme. -/
def isSchemePart (c : Char) : Bool := c.isAlphanum || c = '+' || c = '-' || c = '.'

/-- The scheme in lower case, and what follows its colon. -/
def splitScheme? (cs : List Char) : Option (String × List Char) :=
  match cs, cs.dropWhile isSchemePart with
  | c :: _, ':' :: rest =>
    if c.isAlpha then
      some (Text.lowerAscii (String.ofList (cs.takeWhile isSchemePart)), rest)
    else none
  | _, _ => none

/-- A character that ends the part with the host. -/
def endsAuthority (c : Char) : Bool := c = '/' || c = '?' || c = '#'

/-- A character that ends the path. -/
def endsPath (c : Char) : Bool := c = '?' || c = '#'

/-- What comes behind the last `@`, and whether there is one. -/
def behindUser (cs : List Char) : List Char × Bool :=
  ((cs.reverse.takeWhile (· ≠ '@')).reverse, cs.contains '@')

/-- A character that no host contains. -/
def isForbidden (c : Char) : Bool :=
  c.toNat = 0 || " #/:<>?@[\\]^|".toList.contains c

/-- A port: digits below 2 to the power of 16, or nothing after the colon. -/
def isPort (cs : List Char) : Bool :=
  cs.all Char.isDigit && (Text.digitsBelow 65536 0 cs).toOption.isSome

/-- Checks the part with the host, without the user. -/
def hostFault? (cs : List Char) (hasUser : Bool) : Option AddressFault :=
  let (host, rest) :=
    match cs with
    | '[' :: inner =>
      (inner.takeWhile (· ≠ ']'), (inner.dropWhile (· ≠ ']')).drop 1)
    | _ => (cs.takeWhile (· ≠ ':'), cs.dropWhile (· ≠ ':'))
  let isGoodHost :=
    match cs with
    | '[' :: inner => inner.contains ']' && host.all fun c => hexOrMark c
    | _ => !host.any isForbidden
  let isGoodPort :=
    match rest with
    | [] => true
    | ':' :: port => isPort port
    | _ => false
  if host.isEmpty then
    if rest.isEmpty && !hasUser && cs.isEmpty then some .noHost else some .unreadable
  else if isGoodHost && isGoodPort then none
  else some .unreadable
where
  /-- A character of a numeric address between brackets. -/
  hexOrMark (c : Char) : Bool :=
    c.isDigit || ('a' ≤ c.toLower && c.toLower ≤ 'f') || c = ':' || c = '.'

/-- A path without the slashes at its ends. -/
def withoutSlashes (cs : List Char) : List Char :=
  ((cs.dropWhile (· = '/')).reverse.dropWhile (· = '/')).reverse

/-- Checks what follows the scheme of a broker that is reached through a network. -/
def networkFault? (encrypted : Bool) : List Char → Option AddressFault
  | '/' :: '/' :: rest =>
    let (authority, hasUser) := behindUser (rest.takeWhile fun c => !endsAuthority c)
    let path := (rest.dropWhile fun c => !endsAuthority c).takeWhile fun c => !endsPath c
    let database := String.ofList (withoutSlashes path)
    match hostFault? authority hasUser with
    | some f => some f
    | none =>
      if encrypted then some .encrypted
      else if database.isEmpty || (Text.int64? database).isSome then none
      else some .badDatabase
  | _ => some .noHost

/-- Checks what follows the scheme of a broker that is reached through a path. -/
def pathFault? : List Char → Option AddressFault
  | '/' :: '/' :: '/' :: _ => none
  | '/' :: '/' :: _ => some .noPath
  | '/' :: _ => none
  | _ => some .noPath

/-- Why an address is refused, if it is. -/
def addressFault? (address : String) : Option AddressFault :=
  match splitScheme? (tidied address.toList) with
  | some (scheme, rest) =>
    if scheme = "redis" || scheme = "valkey" then networkFault? false rest
    else if scheme = "rediss" || scheme = "valkeys" then networkFault? true rest
    else if scheme = "unix" || scheme = "redis+unix" || scheme = "valkey+unix" then pathFault? rest
    else some .unreadable
  | none => some .unreadable

end Leasework.Broker
