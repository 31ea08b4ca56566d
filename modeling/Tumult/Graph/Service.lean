import Tumult.Core.Text
import Tumult.Lib.Wildcard

/-!
# The service a target names

A raw target is reduced to a bare host name: without a scheme, credentials, a path and a port. On characters.
-/

namespace Tumult

/-- Argument keys, in priority order, that name the target a native fault acts on. -/
def SERVICE_ARG_KEYS : List String := ["upstream", "target", "host", "service", "endpoint", "address", "url", "pod"]

/-- What follows the first `://`; all of it when there is none. -/
def afterScheme (raw : List Char) : List Char :=
  match Wildcard.find "://".toList raw with
  | some pos => raw.drop (pos + 3)
  | none => raw

/-- What ends a host: the begin of a path, a query or a fragment. -/
def endsHost (c : Char) : Bool := c = '/' || c = '?' || c = '#'

/-- The part between the scheme and the path, after the last `@`. -/
def authority (raw : List Char) : List Char :=
  (((afterScheme raw).takeWhile (!endsHost ·)).reverse.takeWhile (· ≠ '@')).reverse

/-- A port: digits, at least one. -/
def isPort (port : List Char) : Bool := !port.isEmpty && port.all Char.isDigit

/-- An authority without its port; one with several colons is a bare address, and has none. -/
def withoutPort (authority : List Char) : List Char :=
  if authority.count ':' = 1 then
    if isPort ((authority.dropWhile (· ≠ ':')).drop 1) then authority.takeWhile (· ≠ ':') else authority
  else authority

/-- The host of an authority: a bracketed address up to its bracket, and otherwise what stands before the port. -/
def bareHost (authority : List Char) : List Char :=
  if authority.head? = some '[' ∧ ']' ∈ authority then authority.takeWhile (· ≠ ']') ++ [']']
  else Text.trimList (withoutPort authority)

/-- Reduce a raw target string to a bare host name. -/
def normalizeService (raw : String) : String := String.ofList (bareHost (authority raw.toList))

/-- The service of a native provider: the first of the keys that has a text, when its host is not empty. -/
def serviceFromArguments (arguments : List (String × String)) : Option String := do
  let raw ← SERVICE_ARG_KEYS.findSome? fun key => List.lookup key arguments
  let host := normalizeService raw
  if host ≠ "" then some host else none

end Tumult
