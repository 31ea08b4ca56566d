import Tumult.Net.Address

/-!
# The URLs of webhooks

Which URLs deliveries may be sent to. How a URL is read is taken from outside.
-/

namespace Tumult.Net

/-- A URL that was read: its scheme, and its host as text. -/
structure Url where
  scheme : String
  host : Option String
  deriving DecidableEq, Repr

/-- An address of IPv6 is in brackets. -/
def bareHost (host : String) : String :=
  String.ofList ((host.toList.dropWhile (· = '[')).reverse.dropWhile (· = ']')).reverse

/-- The reader of URLs, which knows every spelling of an address, with what is documented of it: the host of a URL that names an
address is the text of that address, in brackets if it is one of IPv6. -/
structure UrlReader where
  parse : String → Except String Url
  /-- The address that the host of a URL is a literal of. -/
  address : String → Option IpAddr
  host_address : ∀ text url ip, parse text = .ok url → address text = some ip →
    ∃ host, url.host = some host ∧ IpAddr.parse (bareHost host) = some ip

/-- Loopback, unspecified, private, or link-local address. -/
def isLocal : IpAddr → Bool
  | .v4 addr =>
    addr.a = 127 || addr = ⟨0, 0, 0, 0⟩ ||
      (addr.a = 10 || addr.a = 172 && 16 ≤ addr.b && addr.b ≤ 31 || addr.a = 192 && addr.b = 168) ||
      addr.a = 169 && addr.b = 254
  | .v6 addr =>
    if addr.segments = [0, 0, 0, 0, 0, 0, 0, 1] || addr.segments = [0, 0, 0, 0, 0, 0, 0, 0] then true
    else
      let seg := (addr.segments.headD 0).val
      seg &&& 0xffc0 = 0xfe80 || seg &&& 0xfe00 = 0xfc00

def validateUrlWith (R : UrlReader) (url : String) (allowInsecure allowLocal : Bool) : Except String Unit :=
  if 2000 < url.toList.length then .error "url too long"
  else
    match R.parse url with
    | .error e => .error ("invalid url: " ++ e)
    | .ok parsed =>
      if parsed.scheme = "https" || parsed.scheme = "http" && allowInsecure then
        match parsed.host with
        | none => .error "url must name a host"
        | some host =>
          match IpAddr.parse (bareHost host) with
          | some ip =>
            if !allowLocal && isLocal ip then
              .error ("loopback, private and link-local addresses are not allowed " ++
                "(TUMULTD_WEBHOOK_ALLOW_LOCAL=1 permits them)")
            else .ok ()
          | none => .ok ()
      else
        .error ("scheme \"" ++ parsed.scheme ++ "\" not allowed: webhooks must be https " ++
          "(TUMULTD_WEBHOOK_ALLOW_INSECURE=1 permits http)")

end Tumult.Net
