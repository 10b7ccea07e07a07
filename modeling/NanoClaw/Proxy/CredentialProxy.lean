import NanoClaw.Library.Dict
import NanoClaw.Library.Url

/-! The credential proxy: the settings it starts with, and the upstream request it builds
from a client's request. -/
namespace NanoClaw.CredentialProxy
open PyText Url

/-- `a or b` on optional texts, where the empty text counts as missing. -/
def orElse (a b : Option String) : Option String :=
  match a with
  | some s => if s = "" then b else some s
  | none => b

inductive AuthMode where
  | apiKey
  | oauth
  deriving DecidableEq, Repr

structure Settings where
  apiKey : Option String
  oauthToken : Option String
  upstreamBase : String

/-- The mode is `api-key` exactly when there is a key that is not empty. -/
def Settings.authMode (s : Settings) : AuthMode :=
  match s.apiKey with
  | some key => if key = "" then .oauth else .apiKey
  | none => .oauth

/-- What `start_credential_proxy` reads from the environment and the secrets file. -/
def startCredentialProxy (env secrets : String → Option String) : Settings where
  apiKey := orElse (env "ANTHROPIC_API_KEY") (secrets "ANTHROPIC_API_KEY")
  oauthToken := orElse (env "CLAUDE_CODE_OAUTH_TOKEN") (orElse (env "ANTHROPIC_AUTH_TOKEN")
    (orElse (secrets "CLAUDE_CODE_OAUTH_TOKEN") (secrets "ANTHROPIC_AUTH_TOKEN")))
  upstreamBase := (orElse (env "ANTHROPIC_BASE_URL") (orElse (secrets "ANTHROPIC_BASE_URL")
    (some "https://api.anthropic.com"))).getD ""

/-- A request as the handler receives it. The request line is split at white space, so its
target is a text without any. -/
structure Incoming where
  command : String
  path : String
  headers : List (String × String)
  rfile : List UInt8
  path_ne : path ≠ ""
  path_solid : ∀ c ∈ path.toList, isSpace c = false

/-- The request handed to `urlopen`. -/
structure UpstreamRequest where
  url : String
  data : Option (List UInt8)
  method : String
  headers : Dict String String

/-- `headers.get(name)`: the first header of that name, whatever its case. -/
def getHeader (headers : List (String × String)) (name : String) : Option String :=
  (headers.find? (fun kv => kv.1.toLower = name.toLower)).map Prod.snd

def allowedHeaders : List String :=
  ["content-type", "accept", "anthropic-version", "x-request-id", "user-agent", "content-length"]

/-- The length of the body; none when it is no number or negative (answered with 400). -/
def contentLength (r : Incoming) : Option Nat :=
  let text := (getHeader r.headers "Content-Length").getD "0"
  (int? (if text = "" then "0" else text).toList).bind (fun n =>
    if n < 0 then none else some n.toNat)

def rstripSlash (s : String) : String := String.ofList (rstripBy (· == '/') s.toList)

/-- `urlparse(url).netloc` of a URL with an authority. -/
def netloc (url : String) : String :=
  match splitScheme url.toList with
  | some (_, rest) => String.ofList (authorityOf rest)
  | none => ""

/-- The headers that carry the credential. -/
def injectAuth (s : Settings) (r : Incoming) (headers : Dict String String) : Dict String String :=
  match s.authMode with
  | .apiKey => headers.set "x-api-key" (s.apiKey.getD "")
  | .oauth =>
    match orElse s.oauthToken none with
    | some token => headers.set "Authorization" ("Bearer " ++ token)
    | none =>
      match getHeader r.headers "Authorization" with
      | some auth => headers.set "Authorization" auth
      | none => headers

def forwardedHeaders (r : Incoming) : Dict String String :=
  (r.headers.filter (fun kv => kv.1.toLower ∈ allowedHeaders)).foldl
    (fun headers kv => headers.set kv.1 kv.2) Dict.empty

/-- The URL `_proxy` builds: the configured base without trailing slashes, then the target
of the request as it came. -/
def upstream (s : Settings) (r : Incoming) : String := rstripSlash s.upstreamBase ++ r.path

/-- `ProxyHandler._proxy` up to `urlopen`; none stands for the answer 400. -/
def proxyRequest (s : Settings) (r : Incoming) : Option UpstreamRequest :=
  (contentLength r).map (fun cl =>
    let body := r.rfile.take cl
    { url := upstream s r
      data := if body = [] then none else some body
      method := r.command
      headers := injectAuth s r ((forwardedHeaders r).set "Host" (netloc (upstream s r))) })

theorem proxyRequest_url {s : Settings} {r : Incoming} {req : UpstreamRequest}
    (h : proxyRequest s r = some req) : req.url = upstream s r := by
  obtain ⟨cl,_,rfl⟩ := Option.map_eq_some_iff.mp h
  rfl

theorem proxyRequest_isSome (s : Settings) (r : Incoming) :
    (proxyRequest s r).isSome = (contentLength r).isSome := by
  rw [proxyRequest, Option.isSome_map]

theorem orElse_eq_some {a b : Option String} {text : String} (h : orElse a b = some text) :
    a = some text ∨ b = some text := by
  cases a with
  | none => exact Or.inr h
  | some s =>
    rw [orElse] at h
    split at h
    · exact Or.inr h
    · exact Or.inl h

/-- In the mode `api-key` every request goes on with the key of the environment or of the secrets file,
which is not empty. -/
theorem proxyRequest_key {env secrets : String → Option String} {r : Incoming} {req : UpstreamRequest}
    (hmode : (startCredentialProxy env secrets).authMode = .apiKey)
    (h : proxyRequest (startCredentialProxy env secrets) r = some req) :
    ∃ key, key ≠ "" ∧ req.headers.get? "x-api-key" = some key ∧
      (env "ANTHROPIC_API_KEY" = some key ∨ secrets "ANTHROPIC_API_KEY" = some key) := by
  obtain ⟨cl,_,rfl⟩ := Option.map_eq_some_iff.mp h
  obtain ⟨key,hkey,hne⟩ : ∃ key, (startCredentialProxy env secrets).apiKey = some key ∧ key ≠ "" := by
    rw [Settings.authMode] at hmode
    split at hmode
    · rename_i key hkey
      split at hmode
      · cases hmode
      · exact ⟨key,hkey,‹_›⟩
    · cases hmode
  refine ⟨key,hne,?_,orElse_eq_some hkey⟩
  simp only [injectAuth, hmode, hkey, Option.getD_some, Dict.get?_set_self]

end NanoClaw.CredentialProxy
