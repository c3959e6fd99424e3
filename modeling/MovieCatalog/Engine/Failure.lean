import MovieCatalog.Envelope
import MovieCatalog.Text.Utf8
import MovieCatalog.Url.Fault

/-!
# Failures of the engine

A search fails when the engine cannot be reached, when it refuses the search, or when its reply
cannot be read. A refusal is explained by the most specific reason in the engine's own account of
the error, which is also passed on as it is.
-/

namespace MovieCatalog

/-- Why a search fails. -/
inductive EngineFailure where
  | invalidUrl (fault : Url.Fault)
  /-- Nothing can be sent to a URL with such a scheme. -/
  | notSendable (url : String)
  /-- The engine at a URL cannot be reached. -/
  | unreachable (url : String)
  /-- The engine answers with a status other than success. -/
  | refused (status : UInt16) (reason : String) (account : Json)
  | unreadable (fault : Json.Fault)

namespace EngineFailure

/-- A value as a reason: a text as it is, and any other value as JSON. -/
def reasonText : Json → String
  | .string s => s
  | v => v.text

/-- The most specific reason in an account: the reason of its error, else the type of its error,
else the error, else the whole account. -/
def reasonOf (account : Json) : String :=
  let error := account.get? "error"
  reasonText <|
    ((error.bind (·.get? "reason")) <|> (error.bind (·.get? "type")) <|> error).getD account

/-- The account in the octets of a reply: a JSON value, or the octets as a text. -/
def accountOf (octets : List UInt8) : Json :=
  match Json.Decoder.json.readOctets octets with
  | .ok v => v
  | .error _ => .string (String.ofList (Text.Utf8.lossy octets))

/-- The failure when the engine replies with a status other than success. -/
def ofReply (status : UInt16) (octets : List UInt8) : EngineFailure :=
  let account := accountOf octets
  .refused status (reasonOf account) account

/-- The engine's account of the error, if it gave one. -/
def account? : EngineFailure → Option Json
  | refused _ _ account => some account
  | _ => none

/-- The message of a failure. -/
def message : EngineFailure → String
  | invalidUrl fault => "Invalid search engine URL: " ++ fault.message
  | notSendable url => "Search engine request failed: builder error for url (" ++ url ++ ")"
  | unreachable url =>
    "Search engine request failed: error sending request for url (" ++ url ++ ")"
  | refused status reason _ =>
    "Search engine returned " ++ String.ofList (Numeral.ofNat status.toNat) ++ ": " ++ reason
  | unreadable fault => "Unreadable search engine response: " ++ fault.message

/-- What is told about a failure. -/
def details (f : EngineFailure) : Failure :=
  ⟨f.message, f.account?⟩

end EngineFailure

end MovieCatalog
