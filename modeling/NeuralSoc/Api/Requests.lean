import NeuralSoc.Api.Deps

/-!
# The headers of a request

`get_remote_address`, `_extract_token`, `verify_auth` and `get_tenant_aware_key` of `api/deps.py`. Headers
are decoded as latin-1, and of a header given twice the first one is read.
-/

namespace NeuralSoc.Api

open Handler

structure HttpRequest where
  authorization : Option String
  xApiKey : Option String
  xForwardedFor : Option String
  xRealIp : Option String
  /-- the host of `request.client` -/
  client : Option String
  deriving DecidableEq

/-- The configuration and the libraries that read a text. -/
structure Gateway where
  apiKey : String
  /-- `str(ipaddress.ip_address(text))`; `none` is a `ValueError` -/
  ipAddress : String → Option String
  /-- whether the address is in one of `TRUSTED_INGRESS_NETWORKS` -/
  trusted : String → Bool
  /-- the credentials `HTTPBearer` finds in an `Authorization` header -/
  httpBearer : String → Option String
  /-- the payload of a JWT with a good signature -/
  payload : String → Option Claims

variable (g : Gateway)

/-- A header that is there and not empty. -/
def present (header : Option String) : Option String := header.filter fun text => text ≠ ""

/-! ## The remote address -/

def maxXffHeaderLen : ℕ := 2048

def maxXffHops : ℕ := 20

def validateIp (text : String) : Option String := g.ipAddress (strip text)

def isTrustedProxy (ip : String) : Bool :=
  match g.ipAddress (strip ip) with
  | some addr => g.trusted addr
  | none => false

/-- The entries of a forwarded-for text that are not blank. -/
def forwardedEntries (forwarded : String) : List String :=
  ((forwarded.toList.splitOn ',').map fun part => strip (String.ofList part)).filter fun ip => ip ≠ ""

def lastHops (forwarded : String) : List String :=
  (forwardedEntries forwarded).drop ((forwardedEntries forwarded).length - maxXffHops)

/-- The loop over the hops from the right. When all of them are trusted it is the leftmost one. -/
def scanHops (validIps : List String) : List String → Option String
  | [] => validIps.getLast?
  | ip :: ips =>
      match validateIp g ip with
      | none => scanHops validIps ips
      | some valid =>
          if isTrustedProxy g valid then scanHops (validIps ++ [valid]) ips else some valid

def clientIp (r : HttpRequest) : String :=
  (validateIp g (r.client.getD "127.0.0.1")).getD "127.0.0.1"

def getRemoteAddress (r : HttpRequest) : String :=
  if isTrustedProxy g (clientIp g r) then
    match (present r.xForwardedFor).filter fun forwarded => forwarded.length ≤ maxXffHeaderLen with
    | some forwarded => (scanHops g [] (lastHops forwarded).reverse).getD (clientIp g r)
    | none => ((present r.xRealIp).bind (validateIp g)).getD (clientIp g r)
  else clientIp g r

/-! ## Credentials -/

/-- `auth_hdr.lower().startswith("bearer ")` -/
def isBearer (header : String) : Bool := (header.toList.take 7).map Char.toLower = "bearer ".toList

/-- `auth_hdr[7:].strip()` -/
def bearerText (header : String) : String := strip (String.ofList (header.toList.drop 7))

def extractToken (r : HttpRequest) (credentials : Option String) : Option String :=
  match present credentials with
  | some text => some text
  | none =>
      match present r.xApiKey with
      | some text => some text
      | none =>
          (present r.authorization).map fun header =>
            if isBearer header then bearerText header else strip header

def HttpRequest.credentials (r : HttpRequest) : Option String := r.authorization.bind g.httpBearer

/-- The service key is compared first. -/
def toToken (text : String) : Token :=
  if text = g.apiKey then .apiKey
  else
    match g.payload text with
    | some claims => .jwt claims
    | none => .text text

def verifyAuthOf (env : Env) (r : HttpRequest) : Route Principal :=
  verifyAuth env ((present (extractToken r (r.credentials g))).map (toToken g))

/-! ## The rate-limit key -/

/-- The tenant of a token; revocation is not asked about. -/
def tokenTenant (env : Env) (w : World) (text : String) : Option ℕ := do
  let claims ← g.payload text
  let claims ← verifyToken env w (.jwt claims)
  claims.tenantId

def getTenantAwareKey (env : Env) (w : World) (r : HttpRequest) : String :=
  match (present (extractToken r none)).bind (tokenTenant g env w) with
  | some tenantId => "tenant:" ++ toString tenantId
  | none => getRemoteAddress g r

end NeuralSoc.Api
