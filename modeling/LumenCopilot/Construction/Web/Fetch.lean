import LumenCopilot.Construction.Python.Numerals

namespace LumenCopilot.Web

open Python

/-- These are the parts that `urlsplit` finds; reading a malformed port raises a `ValueError`. -/
structure SplitUrl where
  scheme : Text
  netloc : Text
  path : Text
  query : Text
  fragment : Text
  hostname : Option Text
  port : Option (Option Nat)
  deriving DecidableEq

/-- An address of `ipaddress` is a number of 32 or of 128 bits. -/
inductive IpAddress where
  | v4 (bits : Nat)
  | v6 (bits : Nat)
  deriving DecidableEq

/-- These are the library functions of the fetcher. No answer is a `ValueError`. -/
structure UrlLibrary where
  table : CaseTable
  urlsplit : Text → Option SplitUrl
  join : Text → Text → Option Text
  ipAddress : Text → Option IpAddress
  isLoopback : IpAddress → Bool
  isPrivate : IpAddress → Bool
  isLinkLocal : IpAddress → Bool
  isUnspecified : IpAddress → Bool
  isReserved : IpAddress → Bool
  isMulticast : IpAddress → Bool
  decode : Option Text → List UInt8 → Text

/-- This is `ipv4_mapped` of an address of 128 bits. -/
def IpAddress.ipv4Mapped : IpAddress → Option IpAddress
  | .v4 _ => none
  | .v6 bits => if bits / 2 ^ 32 = 0xFFFF then some (.v4 (bits % 2 ^ 32)) else none

/-- This is membership in `_CGNAT_V4`, which is `100.64.0.0/10`. -/
def IpAddress.inCgnat : IpAddress → Bool
  | .v4 bits => bits / 2 ^ 22 = (100 * 2 ^ 24 + 64 * 2 ^ 16) / 2 ^ 22
  | .v6 _ => false

/-- A guarded fetch is refused for one of these reasons. -/
inductive Refusal where
  | scheme (scheme : Text)
  | noHost
  | blockedLiteral (host : Text)
  | unresolved (host : Text)
  | unparseable (host : Text)
  | blockedAddress (host address : Text)
  | noAddress (host : Text)
  | contentType (bare : Text)
  | tooLarge (maxBytes : Nat)
  | noLocation (url : Text)
  | tooManyRedirects (maxRedirects : Nat) (url : Text)
  deriving DecidableEq

/-- A fetch raises a `UrlBlockedError`, a `ConnectorError` with the code `fetch_failed`, for a
transport fault or a status, or an exception of another kind. -/
inductive FetchError where
  | urlBlocked (refusal : Refusal)
  | transport (url : Text)
  | status (url : Text) (statusCode : Nat)
  | raised
  deriving DecidableEq

/-- The web connector catches a `ConnectorError` and its subclasses. -/
def FetchError.isConnectorError : FetchError → Bool
  | .raised => false
  | _ => true

/-- The resolver finds addresses, finds none, or raises a `ValueError`. -/
inductive Resolution where
  | addresses (found : List Text)
  | gaierror
  | malformed
  deriving DecidableEq

/-- These are the parts of a response that the fetcher reads. -/
structure Response where
  statusCode : Nat
  location : Option Text
  contentType : Option Text
  encoding : Option Text
  chunks : List (List UInt8)
  deriving DecidableEq

/-- This is the request of one hop. -/
structure Request where
  url : Text
  host : Text
  userAgent : Text
  sniHostname : Text
  deriving DecidableEq

/-- Sending a request brings a response, an `HTTPError`, or raises for a request that cannot be
encoded. -/
inductive Reply where
  | response (response : Response)
  | httpError
  | malformed
  deriving DecidableEq

/-- The network answers each hop in its own way. -/
structure HopWorld where
  resolve : Text → Resolution
  reply : Request → Reply

section Guard

variable (lib : UrlLibrary)

/-- This is `is_blocked_ip`. -/
def isBlockedIp (address : IpAddress) : Bool :=
  let ip := address.ipv4Mapped.getD address
  lib.isLoopback ip || lib.isPrivate ip || lib.isLinkLocal ip || lib.isUnspecified ip ||
    lib.isReserved ip || lib.isMulticast ip || ip.inCgnat

/-- The loop of `resolve_safe_ip` checks every address. -/
def checkAddresses (host : Text) : List Text → Except Refusal (List Text)
  | [] => .ok []
  | found :: rest =>
      match lib.ipAddress found with
      | none => .error (.unparseable host)
      | some address =>
          if isBlockedIp lib address then .error (.blockedAddress host found)
          else (checkAddresses host rest).map (found :: ·)

/-- This is `resolve_safe_ip`, with the `EgressBlockedError` as the `UrlBlockedError` it becomes. -/
def resolveSafeIp (resolve : Text → Resolution) (host : Text) : Except FetchError Text :=
  match lib.ipAddress host with
  | some literal =>
      if isBlockedIp lib literal then .error (.urlBlocked (.blockedLiteral host)) else .ok host
  | none =>
      match resolve host with
      | .malformed => .error .raised
      | .gaierror => .error (.urlBlocked (.unresolved host))
      | .addresses infos =>
          match checkAddresses lib host infos with
          | .error refusal => .error (.urlBlocked refusal)
          | .ok [] => .error (.urlBlocked (.noAddress host))
          | .ok (first :: _) => .ok first

/-- This is `_ALLOWED_SCHEMES`. -/
def allowedSchemes : List Text := ["http".toList, "https".toList]

/-- This is `validate_url_syntactic`. -/
def validateUrlSyntactic (url : Text) : Except FetchError Text :=
  match lib.urlsplit url with
  | none => .error .raised
  | some parts =>
      let scheme := strLower lib.table parts.scheme
      if scheme ∉ allowedSchemes then .error (.urlBlocked (.scheme scheme))
      else
        match parts.hostname with
        | none => .error (.urlBlocked .noHost)
        | some [] => .error (.urlBlocked .noHost)
        | some host =>
            match lib.ipAddress host with
            | none => .ok host
            | some literal =>
                if isBlockedIp lib literal then .error (.urlBlocked (.blockedLiteral host))
                else .ok host

/-- A host that is an address skips the resolver. -/
def chooseIp (resolve : Text → Resolution) (host : Text) : Except FetchError Text :=
  match lib.ipAddress host with
  | some _ => .ok host
  | none => resolveSafeIp lib resolve host

/-- This is `_validate_url` without the port, which it only reads. -/
def validateUrl (resolve : Text → Resolution) (url : Text) : Except FetchError (Text × Text) := do
  let host ← validateUrlSyntactic lib url
  let safeIp ← chooseIp lib resolve host
  match (lib.urlsplit url).bind SplitUrl.port with
  | none => .error .raised
  | some _ => .ok (safeIp, host)

/-- This is `urlunsplit` for a network location that is not empty. -/
def urlunsplit (scheme netloc path query fragment : Text) : Text :=
  let path := if path ≠ [] ∧ path.head? ≠ some '/' then '/' :: path else path
  let url := '/' :: '/' :: (netloc ++ path)
  let url := if scheme = [] then url else scheme ++ ':' :: url
  let url := if query = [] then url else url ++ '?' :: query
  if fragment = [] then url else url ++ '#' :: fragment

/-- An address with a colon stands in brackets. -/
def hostLiteral (safeIp : Text) : Text :=
  if ':' ∈ safeIp then '[' :: (safeIp ++ [']']) else safeIp

/-- This is the port part that `pin_url_to_ip` keeps, where port 0 counts as no port. -/
def portPart : Option Nat → Text
  | some (port + 1) => ':' :: natText (port + 1)
  | _ => []

/-- This is `pin_url_to_ip` of a URL that splits. -/
def pinUrlToIp (parts : SplitUrl) (safeIp : Text) : Text :=
  urlunsplit parts.scheme (hostLiteral safeIp ++ portPart parts.port.join) parts.path parts.query
    parts.fragment

end Guard

/-- This is the media type before the parameters of a content type. -/
def bareType (table : CaseTable) (contentType : Text) : Text :=
  strLower table (strip (contentType.takeWhile (· != ';')))

/-- This is `_check_content_type`. -/
def checkContentType (table : CaseTable) (contentType : Text) (allowed : List Text) :
    Except FetchError Text :=
  let bare := bareType table contentType
  if bare ≠ [] ∧ bare ∉ allowed then .error (.urlBlocked (.contentType bare)) else .ok bare

/-- This is the loop of `_read_capped`. -/
def readCapped (maxBytes : Nat) : Nat → List (List UInt8) → Except FetchError (List UInt8)
  | _, [] => .ok []
  | total, chunk :: chunks =>
      if maxBytes < total + chunk.length then .error (.urlBlocked (.tooLarge maxBytes))
      else (readCapped maxBytes (total + chunk.length) chunks).map (chunk ++ ·)

/-- This is `is_redirect` of a response. -/
def Response.isRedirect (response : Response) : Bool :=
  300 ≤ response.statusCode && response.statusCode ≤ 399

/-- This is `is_success` of a response. -/
def Response.isSuccess (response : Response) : Bool :=
  200 ≤ response.statusCode && response.statusCode ≤ 299

/-- This is `FetchResult`. -/
structure FetchResult where
  url : Text
  finalUrl : Text
  contentType : Text
  text : Text
  deriving DecidableEq

/-- These are the options of one fetch. -/
structure FetchOptions where
  maxBytes : Nat
  maxRedirects : Nat
  allowedContentTypes : List Text
  userAgent : Text
  deriving DecidableEq

/-- A hop ends the fetch or leads to the next URL. -/
inductive HopOutcome where
  | done (result : Except FetchError FetchResult)
  | follow (next : Text)

/-- A sent request belongs to the URL of its hop. -/
structure Sent where
  current : Text
  request : Request
  deriving DecidableEq

section Fetch

variable (lib : UrlLibrary) (options : FetchOptions)

/-- The fetcher handles the response of a hop. -/
def handleResponse (start current : Text) (response : Response) : HopOutcome :=
  if response.isRedirect then
    match response.location with
    | none => .done (.error (.urlBlocked (.noLocation current)))
    | some [] => .done (.error (.urlBlocked (.noLocation current)))
    | some location =>
        match lib.join current location with
        | none => .done (.error .raised)
        | some next => .follow next
  else if !response.isSuccess then .done (.error (.status current response.statusCode))
  else
    .done do
      let bare ← checkContentType lib.table (response.contentType.getD []) options.allowedContentTypes
      let body ← readCapped options.maxBytes 0 response.chunks
      return ⟨start, current, bare, lib.decode response.encoding body⟩

/-- The request of a hop goes to the pinned URL and keeps the host in its header. -/
def hopRequest (parts : SplitUrl) (safeIp host : Text) : Request :=
  ⟨pinUrlToIp parts safeIp, parts.netloc, options.userAgent, host⟩

/-- This is one pass of the loop of `fetch_url`. -/
def fetchHop (world : HopWorld) (start current : Text) : Option Sent × HopOutcome :=
  match validateUrl lib world.resolve current, lib.urlsplit current with
  | .error error, _ => (none, .done (.error error))
  | .ok _, none => (none, .done (.error .raised))
  | .ok (safeIp, host), some parts =>
      let request := hopRequest options parts safeIp host
      match world.reply request with
      | .malformed => (some ⟨current, request⟩, .done (.error .raised))
      | .httpError => (some ⟨current, request⟩, .done (.error (.transport current)))
      | .response response => (some ⟨current, request⟩, handleResponse lib options start current response)

/-- This is the loop of `fetch_url` from one hop on: what it sends and what it returns. -/
def fetchLoop (worlds : Nat → HopWorld) (start : Text) :
    Nat → Nat → Text → List Sent × Except FetchError FetchResult
  | 0, _, _ => ([], .error (.urlBlocked (.tooManyRedirects options.maxRedirects start)))
  | passes + 1, hop, current =>
      match fetchHop lib options (worlds hop) start current with
      | (sent, .done result) => (sent.toList, result)
      | (sent, .follow next) =>
          let rest := fetchLoop worlds start passes (hop + 1) next
          (sent.toList ++ rest.1, rest.2)

/-- This is `fetch_url`. -/
def fetchUrl (worlds : Nat → HopWorld) (url : Text) : List Sent × Except FetchError FetchResult :=
  fetchLoop lib options worlds url (options.maxRedirects + 1) 0 url

end Fetch

end LumenCopilot.Web
