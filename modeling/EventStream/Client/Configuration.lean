import EventStream.Addresses
import EventStream.Client.Duration
import EventStream.Client.Header
import EventStream.Text.Quoted
/-!
# Client configurations

A configuration says where a client connects, with which headers of its own, after which event it
resumes and how long the transport may wait. Settings are checked when they are made, and a refused
setting leaves the configuration as it was; the identifier to resume after is taken as it comes.

## Main definitions

* `Configuration` — the settings of a client
* `Configuration.ofBaseUrl` — the configuration for a base address
* `Configuration.withHeader`, `Configuration.withLastEventId`, `Configuration.withTimeout` — change
  one setting
* `ConfigurationError`, `ConfigurationError.message` — why a setting was refused
-/

namespace EventStream

/-- Why a setting was refused, or a request could not be made. -/
inductive ConfigurationError where
  /-- The base address cannot be read, for this reason. -/
  | invalidBaseUrl (input reason : String)
  /-- The base address has a scheme other than `http` and `https`. -/
  | unsupportedScheme (scheme : String)
  /-- The name of a header is not a token. -/
  | invalidHeaderName (name : String)
  /-- The value of a header is not one line of ASCII. -/
  | invalidHeaderValue (name : String)
  /-- The timeout has no length. -/
  | zeroTimeout
  /-- A path cannot be resolved against the base address, for this reason. -/
  | invalidPath (path reason : String)
deriving DecidableEq, Repr

namespace ConfigurationError

/-- What was wrong. -/
def detail : ConfigurationError → String
  | invalidBaseUrl input reason => "invalid base url " ++ Text.quote input ++ ": " ++ reason
  | unsupportedScheme scheme => "unsupported url scheme " ++ Text.quote scheme
  | invalidHeaderName name => "invalid header name " ++ Text.quote name
  | invalidHeaderValue name => "invalid value for header " ++ Text.quote name
  | zeroTimeout => "timeout must be non-zero"
  | invalidPath path reason => "invalid path " ++ Text.quote path ++ ": " ++ reason

/-- The message for an error. -/
def message (e : ConfigurationError) : String :=
  "invalid client configuration: " ++ e.detail

end ConfigurationError

/-- The settings of a client, with addresses of a certain kind. -/
@[ext] structure Configuration (α : Type) where
  /-- The address against which requests are resolved. -/
  baseUrl : α
  /-- The headers of the client's own, in the order in which they were added, with their names in
  lower case. -/
  headers : List Header := []
  /-- The identifier of the event to resume after. -/
  lastEventId : Option String := none
  /-- The time that the transport may take to connect. -/
  timeout : Duration := .ofParts 30 0
deriving DecidableEq, Repr

namespace Configuration

variable {α : Type}

/-- The configuration for a base address, with nothing else set. Only `http` and `https` are
supported. -/
def ofBaseUrl [Addresses α] (input : String) : Except ConfigurationError (Configuration α) :=
  match Addresses.parse input with
  | .error reason => .error (.invalidBaseUrl input reason)
  | .ok (baseUrl : α) =>
    if Addresses.scheme baseUrl = "http" ∨ Addresses.scheme baseUrl = "https" then .ok { baseUrl }
    else .error (.unsupportedScheme (Addresses.scheme baseUrl))

/-- Adds a header. Of a bad name and a bad value the name is reported. -/
def withHeader (c : Configuration α) (name value : String) :
    Except ConfigurationError (Configuration α) :=
  if ¬ IsToken name then .error (.invalidHeaderName name)
  else if ¬ (IsAscii value ∧ IsSingleLine value) then .error (.invalidHeaderValue name)
  else .ok { c with headers := c.headers ++ [⟨name.map Char.toLower, value⟩] }

/-- Sets the identifier of the event to resume after. -/
def withLastEventId (c : Configuration α) (id : String) : Configuration α :=
  { c with lastEventId := some id }

/-- Sets the timeout, which must have some length. -/
def withTimeout (c : Configuration α) (timeout : Duration) :
    Except ConfigurationError (Configuration α) :=
  if timeout = .ofParts 0 0 then .error .zeroTimeout else .ok { c with timeout }

/-- A change of one setting. -/
inductive Setting where
  /-- Adds a header. -/
  | header (name value : String)
  /-- Sets the identifier of the event to resume after. -/
  | lastEventId (id : String)
  /-- Sets the timeout. -/
  | timeout (timeout : Duration)
deriving DecidableEq, Repr

/-- The configuration after a change. -/
def set (c : Configuration α) : Setting → Except ConfigurationError (Configuration α)
  | .header name value => c.withHeader name value
  | .lastEventId id => .ok (c.withLastEventId id)
  | .timeout timeout => c.withTimeout timeout

/-- The configuration after several changes, of which the refused ones are left out. -/
def setAll (c : Configuration α) (settings : List Setting) : Configuration α :=
  settings.foldl (fun c setting => (c.set setting).toOption.getD c) c

end Configuration

end EventStream
