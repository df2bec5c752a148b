import Arbeiterfarm.Core.Text
import Arbeiterfarm.Foundation.Utf8
import Arbeiterfarm.Web.Rules

/-!
# The web gateway

`handleFetch` serves one request: from the cache if it has a response for the requested URL, and
else from the network, following redirects. Each hop is checked before anything is read from it:
the rules on the URL, the addresses the host resolves to, and the rules again with the addresses;
the connection goes to the addresses that were checked. The request is finished when its response
has been put into the cache (`Web.Cache`).
-/

namespace Arbeiterfarm.Web

open Foundation

/-- A reader of countries and the country codes that are blocked. -/
structure GeoIpChecker where
  lookup : IpAddr → Option String
  blocked_countries : List String

/-- The country of an address, if it is blocked; an unknown address is not. -/
def GeoIpChecker.check (toUppercase : String → String) (geoip : GeoIpChecker) (ip : IpAddr) :
    Option String :=
  if geoip.blocked_countries.isEmpty then none
  else
    (geoip.lookup ip).bind fun c =>
      let code := toUppercase c
      if code ∈ geoip.blocked_countries then some code else none

structure WebGateway where
  geoip : Option GeoIpChecker
  cache_ttl : ℕ
  max_response_bytes : ℕ
  max_redirects : ℕ

/-- What the gateway uses of other libraries. -/
structure GatewayLibs extends TextLibs where
  toUppercase : String → String
  parseUrl : String → Except String Url
  join : Url → String → Except String Url
  parseUuid : String → Option Uuid
  sha256Hex : String → String
  showIp : IpAddr → String
  html2text : List Utf8.Byte → String

/-- The fields of a fetch request. -/
structure GatewayRequest where
  url : Option String
  user_id : Option String
  project_id : Option String
  deriving DecidableEq, Repr

structure GatewayResponse where
  ok : Bool
  data : Option Json := none
  cached : Option Bool := none
  error : Option String := none
  message : Option String := none

namespace GatewayResponse

def success (data : Json) (cached : Bool) : GatewayResponse :=
  { ok := true, data := some data, cached := some cached }

def failure (code message : String) : GatewayResponse :=
  { ok := false, error := some code, message := some message }

end GatewayResponse

/-- A response as it is received; the body comes in chunks and may break off. A location that is
not text is `some none`. -/
structure HttpResponse where
  status : ℕ
  location : Option (Option String)
  content_type : Option String
  chunks : List (Except String (List Utf8.Byte))

/-- What a request meets outside the gateway. The number of the hop is the first argument of
`lookupHost` and `send`: neither has to answer twice in the same way. -/
structure Surroundings where
  userRate : Except String Unit
  rulesRead : Bool
  cacheRead : Bool
  globalRate : Except String Unit
  lookupHost : ℕ → String → ℕ → Except String (List IpAddr)
  send : ℕ → String → List IpAddr → Except String HttpResponse

/-- A response that has been read: where it came from, and what is returned and cached of it. -/
structure Fetched where
  url : Url
  addrs : List IpAddr
  status : ℕ
  content_type : Option String
  body : String
  truncated : Bool

/-! ### Checks -/

section

variable (libs : GatewayLibs) (gw : WebGateway)

open GatewayResponse

/-- Only `http` and `https`; the request and a redirect are refused with different messages. -/
def checkScheme (message : String) (url : Url) : Except GatewayResponse Unit :=
  if url.scheme = "http" || url.scheme = "https" then .ok ()
  else .error (failure "invalid_scheme" (message ++ url.scheme))

/-- The rules on the URL alone, before its host is resolved. -/
def checkUrl (message : String) (url : Url) (rules : List WebFetchRuleRow) :
    Except GatewayResponse Unit :=
  match evaluateRules libs.toTextLibs url [] rules with
  | .allowed => .ok ()
  | .blocked reason =>
    .error (failure "url_blocked" (message ++ reason.getD "no matching allow rule"))

/-- Resolve the host and check all its addresses. -/
def resolveAndValidate (lookupHost : String → ℕ → Except String (List IpAddr)) (url : Url)
    (rules : List WebFetchRuleRow) : Except GatewayResponse (List IpAddr) :=
  match url.host_str with
  | none => .error (failure "invalid_url" "URL has no host")
  | some host =>
    match lookupHost host (url.port_or_known_default.getD 443) with
    | .error e =>
      .error (failure "dns_error" ("DNS resolution failed for " ++ host ++ ": " ++ e))
    | .ok addrs =>
      if addrs.isEmpty then .error (failure "dns_error" ("no addresses found for " ++ host))
      else
        match addrs.find? isPrivateIp with
        | some ip =>
          .error (failure "ssrf_blocked" ("IP address " ++ libs.showIp ip ++
            " is in a private/reserved range (SSRF protection)"))
        | none =>
          match addrs.findSome? fun ip => (gw.geoip.bind fun geoip =>
              geoip.check libs.toUppercase ip).map fun country => (ip, country) with
          | some (ip, country) =>
            .error (failure "country_blocked"
              ("IP " ++ libs.showIp ip ++ " is in blocked country: " ++ country))
          | none =>
            match evaluateRules libs.toTextLibs url addrs rules with
            | .blocked reason =>
              .error (failure "url_blocked" ("URL blocked by IP rule: " ++ reason.getD "blocked"))
            | .allowed => .ok addrs

/-! ### Reading a response -/

def isRedirection (status : ℕ) : Bool := 300 ≤ status && status < 400

/-- Send the request and follow up to `remaining` redirects; a redirection without a location is
a response like any other. -/
def fetchLoop (net : Surroundings) (rules : List WebFetchRuleRow) (remaining hop : ℕ)
    (current_url : Url) (addrs : List IpAddr) :
    Except GatewayResponse (Url × List IpAddr × HttpResponse) :=
  match net.send hop current_url.as_str addrs with
  | .error e => .error (failure "fetch_error" ("HTTP request failed: " ++ e))
  | .ok resp =>
    if isRedirection resp.status then
      match remaining with
      | 0 =>
        .error (failure "too_many_redirects"
          ("exceeded " ++ toString gw.max_redirects ++ " redirects"))
      | remaining + 1 =>
        match resp.location with
        | none => .ok (current_url, addrs, resp)
        | some none => .error (failure "fetch_error" "invalid redirect location header")
        | some (some loc) =>
          match libs.join current_url loc with
          | .error e => .error (failure "fetch_error" ("invalid redirect URL: " ++ e))
          | .ok next_url => do
            checkScheme "redirect to non-HTTP scheme: " next_url
            checkUrl libs "redirect URL blocked by rule: " next_url rules
            let redir_addrs ← resolveAndValidate libs gw (net.lookupHost (hop + 1)) next_url rules
            fetchLoop net rules remaining (hop + 1) next_url redir_addrs
    else .ok (current_url, addrs, resp)

/-- The bytes of a body up to the limit, and whether it was cut off. -/
def readBody (max_response_bytes : ℕ) :
    List (Except String (List Utf8.Byte)) → List Utf8.Byte →
      Except String (List Utf8.Byte × Bool)
  | [], body_bytes => .ok (body_bytes, false)
  | .error e :: _, _ => .error e
  | .ok chunk :: chunks, body_bytes =>
    let remaining := max_response_bytes - body_bytes.length
    if remaining = 0 then .ok (body_bytes, true)
    else if remaining < chunk.length then .ok (body_bytes ++ chunk.take remaining, true)
    else readBody max_response_bytes chunks (body_bytes ++ chunk)

/-- The text before the first occurrence of an ASCII tag in any case, and the text after it. -/
def splitAroundTag (tag : List Char) : List Char → Option (List Char × List Char)
  | [] => none
  | c :: cs =>
    if ((c :: cs).take tag.length).map Char.toLower = tag then
      some ([], (c :: cs).drop tag.length)
    else (splitAroundTag tag cs).map fun (before, after) => (c :: before, after)

def extractHtmlTitle (html : List Utf8.Byte) : Option String := do
  let text ← String.fromUTF8? ⟨html.toArray⟩
  let (_, after) ← splitAroundTag "<title>".toList text.toList
  let (title, _) ← splitAroundTag "</title>".toList after
  return String.ofList (trim title)

/-- The text of a body; of a page, its title and its plain text. -/
def bodyText (content_type : Option String) (body_bytes : List Utf8.Byte) : String :=
  if content_type.any fun ct => (splitAround "text/html".toList ct.toList).isSome then
    let text := libs.html2text body_bytes
    match extractHtmlTitle body_bytes with
    | some t => "Title: " ++ t ++ "\n\n" ++ text
    | none => text
  else String.ofList (Utf8.decode body_bytes)

/-! ### Fetching -/

/-- The checks before the cache is asked; they end in the parsed URL. -/
def checkRequest (net : Surroundings) (req : GatewayRequest) (rules : List WebFetchRuleRow) :
    Except GatewayResponse Url :=
  match req.url.filter (· ≠ "") with
  | none => .error (failure "invalid_input" "url is required")
  | some url_str =>
    match libs.parseUrl url_str with
    | .error e => .error (failure "invalid_url" ("invalid URL: " ++ e))
    | .ok parsed => do
      checkScheme "only http and https are allowed, got: " parsed
      if parsed.host_str.isNone then throw (failure "invalid_url" "URL has no host")
      net.userRate.mapError (failure "rate_limited")
      if !net.rulesRead then throw (failure "internal_error" "failed to load URL rules")
      checkUrl libs "URL blocked by rule: " parsed rules
      return parsed

/-- Fetch from the network. -/
def fetchNetwork (net : Surroundings) (rules : List WebFetchRuleRow) (parsed : Url) :
    Except GatewayResponse Fetched := do
  let addrs ← resolveAndValidate libs gw (net.lookupHost 0) parsed rules
  net.globalRate.mapError fun e => failure "rate_limited" ("global: " ++ e)
  let (current_url, addrs, response) ← fetchLoop libs gw net rules gw.max_redirects 0 parsed addrs
  let (body_bytes, truncated) ← (readBody gw.max_response_bytes response.chunks []).mapError
    fun e => failure "fetch_error" ("failed to read response body: " ++ e)
  return ⟨current_url, addrs, response.status, response.content_type,
    bodyText libs response.content_type body_bytes, truncated⟩

/-- The `data` of a response. -/
def responseData (url : String) (status : ℕ) (content_type body : Option String)
    (truncated : Bool) : Json :=
  .obj [("url", .str url), ("status", .num (.int status)),
    ("content_type", (content_type.map Json.str).getD .null),
    ("body", (body.map Json.str).getD .null),
    ("body_length", .num (.int ((body.map String.utf8ByteSize).getD 0))),
    ("truncated", .bool truncated)]

end

end Arbeiterfarm.Web
