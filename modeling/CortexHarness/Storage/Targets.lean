import CortexHarness.Library.Text
import CortexHarness.Library.Url
import Mathlib.Data.List.Infix

/-!
# Identities of storage targets

Model of `canonical_remote_endpoint` and `EffectiveStorageTarget` (`targets.py:96-257`): the text of
an endpoint is read as a unix socket or as a network address (`readEndpoint`), and written again
without its credentials (`Endpoint.render`).

* `Platform` collects what lies outside: `urllib.parse`'s own parameters, `str.casefold` character
  by character, `repr`, `Path(…).expanduser().resolve()`, and the digest of a fingerprint. A path
  that cannot be resolved raises.
* `hostname` does not raise here: the brackets are checked before.
-/

namespace CortexHarness.Storage

open Url

/-! ## What lies outside -/

structure Platform extends Url.Rules where
  /-- `str.casefold` of one character -/
  fold : Char → Text
  fold_ascii : ∀ c, c.toNat < 128 → fold c = [c.toLower]
  fold_ne_nil : ∀ c, fold c ≠ []
  fold_fold : ∀ c, ∀ d ∈ fold c, fold d = [d]
  fold_letter : ∀ c, 128 ≤ c.toNat → ∀ d ∈ fold c, d.toNat < 128 → d.isAlpha = true
  fold_space : ∀ c, ∀ d ∈ fold c, isSpace d = isSpace c
  casefold_lower : ∀ t, (lower t).flatMap fold = t.flatMap fold
  /-- `repr` -/
  repr : Text → Text
  /-- `canonical_local_target` -/
  localTarget : Text → Except Text Text
  localTarget_idempotent : ∀ {path target}, localTarget path = .ok target →
    localTarget target = .ok target
  localTarget_absolute : ∀ {path target}, localTarget path = .ok target → target.head? = some '/'
  /-- only the first slash of a resolved path can be double -/
  localTarget_slashes : ∀ {path target}, localTarget path = .ok target →
    ¬ ['/', '/'] <:+: target.drop 1
  /-- `hashlib.sha256(text.encode("utf-8")).hexdigest()` -/
  digest : Text → Text

variable (P : Platform)

/-- `str.casefold` -/
def Platform.casefold (t : Text) : Text := t.flatMap P.fold

/-! ## Endpoints -/

/-- `_DEFAULT_PORTS` -/
def defaultPorts : List (Text × Nat) :=
  [("http".toList, 80), ("https".toList, 443), ("redis".toList, 6379), ("rediss".toList, 6379),
    ("falkor".toList, 6379), ("falkors".toList, 6379), ("bolt".toList, 7687),
    ("bolt+s".toList, 7687), ("neo4j".toList, 7687), ("neo4j+s".toList, 7687),
    ("neo4j+ssc".toList, 7687)]

/-- `_TLS_SCHEMES` -/
def tlsSchemes : List Text :=
  ["https", "rediss", "falkors", "bolt+s", "neo4j+s", "neo4j+ssc"].map String.toList

/-- `"://" in text` -/
def hasSeparator (text : Text) : Bool :=
  text.tails.any fun rest => [':', '/', '/'].isPrefixOf rest

/-- `text.partition("://")[0]` -/
def beforeSeparator : Text → Text
  | [] => []
  | c :: cs => if [':', '/', '/'].isPrefixOf (c :: cs) then [] else c :: beforeSeparator cs

/-- `_safe_endpoint_scheme_hint` -/
def safeEndpointSchemeHint (candidate defaultScheme : Text) : Text :=
  let hint := if hasSeparator candidate then beforeSeparator candidate else defaultScheme
  if isScheme hint then P.casefold hint else "<invalid-scheme>".toList

/-- The text of an error, with the endpoint it may show. -/
def endpointError (text diagnostic : String) (shown : Text) : Text :=
  text.toList ++ " (redacted endpoint: ".toList ++ P.repr (shown ++ diagnostic.toList) ++
    ")".toList

/-- What `canonical_remote_endpoint` reads. -/
inductive Endpoint where
  | unix (path : Text)
  | network (scheme host : Text) (port : Option Nat) (path : Text)
  deriving DecidableEq

/-- The host as an authority shows it. -/
def hostText (host : Text) : Text :=
  if ':' ∈ host ∧ host.head? ≠ some '[' then '[' :: host ++ [']'] else host

def portText : Option Nat → Text
  | some n => ':' :: Nat.toDigits 10 n
  | none => []

/-- `netloc` of the canonical endpoint. -/
def netlocText (host : Text) (port : Option Nat) : Text := hostText host ++ portText port

/-- The canonical text of an endpoint. -/
def Endpoint.render : Endpoint → Text
  | .unix path => urlunsplit "unix".toList [] path
  | .network scheme host port path => urlunsplit scheme (netlocText host port) path

/-- `text.rstrip(c)` -/
def rstripOf (c : Char) (text : Text) : Text := text.rdropWhile (· == c)

/-- The text that is split. -/
def candidateOf (raw defaultScheme : Text) : Text :=
  if hasSeparator raw then raw else defaultScheme ++ [':', '/', '/'] ++ raw

/-- What `canonical_remote_endpoint` makes of the parts of a text, with the principal. -/
def readParts (parsed : SplitResult) : Except Text (Endpoint × Option Text) :=
  let scheme := P.casefold parsed.scheme
  if scheme = [] then
    .error ("remote storage endpoint has no scheme ".toList ++
      "(redacted endpoint: '<missing-scheme>://<redacted>')".toList)
  else if scheme = "unix".toList then
    if parsed.path = [] then
      .error "unix storage endpoint requires an absolute socket path".toList
    else (P.localTarget parsed.path).map fun path => (.unix path, username parsed.netloc)
  else
    let name := hostname P.toRules parsed.netloc
    if name = [] then
      .error (endpointError P "remote storage endpoint has no host" "://<missing-host>" scheme)
    else
      let host := rstripOf '.' (P.casefold name)
      match port parsed.netloc with
      | none => .error (endpointError P "remote storage endpoint has an invalid port"
          ":<invalid-port>" (scheme ++ "://".toList ++ hostText host))
      | some port =>
        let port := port.or (defaultPorts.lookup scheme)
        .ok (.network scheme host port (rstripOf '/' parsed.path), username parsed.netloc)

/-- `canonical_remote_endpoint`, before the endpoint is written out. -/
def readEndpoint (value defaultScheme : Text) : Except Text (Endpoint × Option Text) :=
  let raw := stripChars value
  if raw = [] then .error "remote storage endpoint must not be empty".toList
  else
    let candidate := candidateOf raw defaultScheme
    match urlsplit P.toRules candidate with
    | none => .error (endpointError P "remote storage endpoint is malformed" "://<invalid-host>"
        (safeEndpointSchemeHint P candidate defaultScheme))
    | some parsed => readParts P parsed

/-- `canonical_remote_endpoint` -/
def canonicalRemoteEndpoint (value defaultScheme : Text) : Except Text (Text × Option Text) :=
  (readEndpoint P value defaultScheme).map fun e => (e.1.render, e.2)

/-! ## Targets -/

/-- `endpoint_uses_tls`, which raises where the text cannot be split. -/
def endpointUsesTls (endpoint : Text) (explicit : Bool) : Except Text Bool :=
  match urlsplit P.toRules
      (if hasSeparator endpoint then endpoint else ['/', '/'] ++ endpoint) with
  | none => .error "Invalid URL".toList
  | some parsed => .ok (explicit || tlsSchemes.contains (P.casefold parsed.scheme))

/-- The fields of an `EffectiveStorageTarget`. -/
structure EffectiveStorageTarget where
  component : Text
  provider : Text
  mode : Text
  location : Text
  namespace_ : Text
  role : Text
  tls : Bool := false
  principalFingerprint : Option Text := none
  capabilityFingerprint : Option Text := none
  schemaFingerprint : Option Text := none
  schemaVersion : Int := 1
  deriving DecidableEq

/-- `text.strip().casefold()` -/
def normalized (text : Text) : Text := P.casefold (stripChars text)

/-- `_role_value` -/
def roleValue (role : Text) : Except Text Text :=
  let value := normalized P role
  let value := if value = "document".toList then "doc".toList else value
  if value = "code".toList ∨ value = "doc".toList then .ok value
  else .error ("storage role must be 'code' or 'doc'; got ".toList ++ P.repr role)

/-- `_principal_fingerprint` -/
def principalFingerprint (value : Text) : Option Text :=
  if normalized P value = [] then none
  else some ("sha256:".toList ++ P.digest (normalized P value))

/-- A digest, as `__post_init__` checks it. -/
def isPrincipalDigest (text : Text) : Bool :=
  "sha256:".toList.isPrefixOf text && text.length == 71 &&
    (text.drop 7).all fun c => "0123456789abcdef".toList.contains c

/-- The scheme a remote location without one gets. -/
def defaultSchemeOf (component provider : Text) : Text :=
  if component = "vector".toList then "http".toList
  else if provider = "neo".toList ∨ provider = "neo4j".toList then "bolt".toList
  else "redis".toList

/-- The location, the TLS mode and the principal of a target. -/
def resolveLocation (t : EffectiveStorageTarget) (component provider mode : Text) :
    Except Text (Text × Bool × Option Text) :=
  if mode = "file".toList then do
    let location ← P.localTarget t.location
    if t.tls ∨ t.principalFingerprint.isSome then
      .error "file storage targets cannot declare TLS or a remote principal".toList
    else .ok (location, false, none)
  else do
    let (location, uriPrincipal) ←
      canonicalRemoteEndpoint P t.location (defaultSchemeOf component provider)
    let tls ← endpointUsesTls P location t.tls
    let principal := t.principalFingerprint.or (uriPrincipal.bind (principalFingerprint P))
    .ok (location, tls, principal)

/-- `__post_init__`: the target with these fields. -/
def EffectiveStorageTarget.postInit (t : EffectiveStorageTarget) :
    Except Text EffectiveStorageTarget :=
  let component := normalized P t.component
  let mode := normalized P t.mode
  let provider := normalized P t.provider
  let namespace_ := stripChars t.namespace_
  if component ≠ "graph".toList ∧ component ≠ "vector".toList then
    .error "storage target component must be graph or vector".toList
  else if mode ≠ "file".toList ∧ mode ≠ "remote".toList then
    .error "storage target mode must be file or remote".toList
  else if provider = [] ∨ stripChars t.location = [] ∨ namespace_ = [] then
    .error "storage target provider, location, and namespace must not be empty".toList
  else if t.schemaVersion ≠ 1 then
    .error ("unsupported effective storage target schema version: ".toList ++
      (toString t.schemaVersion).toList)
  else do
    let (location, tls, principal) ← resolveLocation P t component provider mode
    if principal.any fun p => !isPrincipalDigest p then
      .error "storage principal fingerprint must be a SHA-256 digest".toList
    else do
      let role ← roleValue P t.role
      .ok { t with component, mode, provider, location, namespace_, role, tls,
                   principalFingerprint := principal }

end CortexHarness.Storage
