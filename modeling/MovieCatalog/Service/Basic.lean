import MovieCatalog.Engine.Address
import MovieCatalog.Engine.Failure
import MovieCatalog.Engine.Reply
import MovieCatalog.Service.Endpoint
import MovieCatalog.Service.Target
import MovieCatalog.Version

/-!
# The service

The service answers requests of its callers. For movies and facets it asks the engine once and puts
the outcome into an envelope, so that also a failure is an ordinary answer. Callers of any origin
are admitted.
-/

namespace MovieCatalog

/-- The service: the URL that searches are sent to, and the index they are made in. -/
structure Service where
  searchUrl : Url
  index : String

/-- What the engine does when it is asked. -/
inductive EngineBehaviour where
  | unreachable
  | replies (status : UInt16) (octets : List UInt8)
deriving DecidableEq

/-- A request to the engine. It is posted as JSON. -/
structure EngineCall where
  target : String
  body : String
deriving DecidableEq

/-- A request of a caller. -/
structure Call where
  method : String
  target : Target

/-- An answer to a caller. -/
structure Answer where
  status : Nat
  headers : List (String × String)
  body : String
deriving DecidableEq

/-- An answer, and the requests that were made to the engine for its sake. -/
structure Exchange where
  answer : Answer
  calls : List EngineCall

namespace EngineReply

/-- What a reply with a status and octets comes to. -/
def ofOctets (status : UInt16) (octets : List UInt8) : Except EngineFailure EngineReply :=
  if 200 ≤ status ∧ status < 300 then
    match decoder.readOctets octets with
    | .ok reply => .ok reply
    | .error fault => .error (.unreadable fault)
  else .error (.ofReply status octets)

end EngineReply

namespace Envelope

/-- The envelope for what is made of a reply, or for a failure. -/
def ofOutcome {α : Type} (f : EngineReply → α) : Except EngineFailure EngineReply → Envelope α
  | .ok reply => success (f reply)
  | .error e => failure e.details

end Envelope

namespace Service

/-- The service for a configured host and index. -/
def configure (host index : String) : Except Url.Fault Service := do
  return ⟨← Engine.searchUrl host index, index⟩

/-- Searches can be sent to the URL. -/
def canSend (s : Service) : Bool :=
  s.searchUrl.scheme = "http".toList ∨ s.searchUrl.scheme = "https".toList

/-- The request that is made to the engine for a search. -/
def callFor (s : Service) (search : Search) : EngineCall :=
  ⟨String.ofList s.searchUrl.target, search.body.text⟩

/-- What comes of asking the engine. -/
def outcome (s : Service) (engine : EngineBehaviour) : Except EngineFailure EngineReply :=
  let url := String.ofList s.searchUrl.withoutAccount.text
  if s.canSend then
    match engine with
    | .unreachable => .error (.unreachable url)
    | .replies status octets => EngineReply.ofOctets status octets
  else .error (.notSendable url)

/-- The answer of an endpoint as JSON, given what comes of asking the engine. -/
def content (s : Service) (e : Endpoint) (found : Except EngineFailure EngineReply) : Json :=
  match e with
  | .movies => (Envelope.ofOutcome EngineReply.toResponse found).toJson MovieResponse.toJson
  | .facets =>
    (Envelope.ofOutcome (Facets.ofEngine ·.aggregations) found).toJson Facets.toJson
  | .version => (Version.ofIndex s.index).toJson

/-- The header that admits callers of any origin. -/
def anyOrigin : String × String := ("access-control-allow-origin", "*")

/-- The header that lets callers read all headers. -/
def exposed : String × String := ("access-control-expose-headers", "*")

/-- The header with the methods of an endpoint. -/
def allowed : String × String := ("allow", "GET,HEAD")

/-- The answer without content. -/
def bare (status : Nat) (headers : List (String × String)) : Answer :=
  ⟨status, headers, ""⟩

/-- The answer to a question for the methods that are admitted. It is given at every path. -/
def preflight (e : Option Endpoint) : Answer :=
  bare 200 <|
    [anyOrigin, ("access-control-allow-methods", "*"), ("access-control-allow-headers", "*")]
      ++ (e.map fun _ => allowed).toList

/-- The answer with JSON. -/
def answerJson (body : String) : Answer :=
  ⟨200, [("content-type", "application/json"), anyOrigin, exposed], body⟩

/-- Answers a request to an endpoint. -/
def visit (s : Service) (engine : EngineBehaviour) (e : Endpoint) (query : String) : Exchange :=
  let calls :=
    match engine, e.search? query with
    | .replies .., some search => if s.canSend then [s.callFor search] else []
    | _, _ => []
  ⟨answerJson (s.content e (s.outcome engine)).text, calls⟩

/-- Answers a request. Where only the headers are asked for, they are known without the engine. -/
def handle (s : Service) (engine : EngineBehaviour) (call : Call) : Exchange :=
  let endpoint := Endpoint.ofPath? call.target.path
  if call.method = "OPTIONS" then ⟨preflight endpoint, []⟩
  else
    match endpoint with
    | none => ⟨bare 404 [anyOrigin, exposed], []⟩
    | some e =>
      if call.method = "GET" then s.visit engine e (call.target.query.getD "")
      else if call.method = "HEAD" then ⟨answerJson "", []⟩
      else ⟨bare 405 [allowed, anyOrigin, exposed], []⟩

end Service

end MovieCatalog
