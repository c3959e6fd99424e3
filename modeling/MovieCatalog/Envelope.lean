import MovieCatalog.Json.Decode

/-!
# Envelopes

Every answer of a search is put into an envelope, an object with a status and data. The data of a
success are what was asked for; the data of a failure are a message and, if the engine sent one, the
engine's own account of the error. When an envelope is read its two members may stand in either
order, and other members are passed over.
-/

namespace MovieCatalog

/-- What is told about a failure. -/
structure Failure where
  message : String
  error : Option Json
deriving Inhabited

/-- An answer in its envelope. -/
inductive Envelope (α : Type) where
  | success (data : α)
  | failure (details : Failure)

namespace Failure

/-- The details as JSON. The account of the error is left out if there is none. -/
def toJson (f : Failure) : Json :=
  .object (("message", .string f.message) :: (f.error.map fun e => ("error", e)).toList)

/-- Reads details. -/
def decoder : Json.Decoder Failure := fun ctx n => do
  let (message, error, ()) ← Json.Fields.decode "FailureData"
    (.cons (.required "message" .string)
      (.cons (.withDefault "error" (.nullable .json) none) .nil)) ctx n
  return ⟨message, error⟩

end Failure

namespace Envelope

open Json (Context Decoder Node Fault StringLexeme ArrayEnd ObjectEnd)

variable {α : Type}

/-- The envelope of a success. -/
def isSuccess : Envelope α → Bool
  | success _ => true
  | failure _ => false

/-- The envelope as JSON. -/
def toJson (data : α → Json) : Envelope α → Json
  | success a => .object [("status", .string "success"), ("data", data a)]
  | failure f => .object [("status", .string "failure"), ("data", f.toJson)]

/-- Reads a status, which says how the data are to be read. -/
def statusDecoder (data : Decoder α) : Decoder (Decoder (Envelope α)) :=
  .oneOf [.plain "success" fun ctx n => success <$> data ctx n,
    .plain "failure" fun ctx n => failure <$> Failure.decoder ctx n]

/-- What has been read of an envelope. Data that stand before the status are kept unread. -/
inductive Seen (α : Type) where
  | nothing
  | status (decode : Decoder (Envelope α))
  | data (content : Node)
  | both (e : Envelope α)

namespace Seen

/-- Faults at the second occurrence of a member. -/
def checkNew (seen : Seen α) (name : String) : Except Fault Unit :=
  match seen with
  | nothing => .ok ()
  | status _ => if name = "status" then .error (.duplicateField name) else .ok ()
  | data _ => if name = "data" then .error (.duplicateField name) else .ok ()
  | both _ =>
    if name = "status" ∨ name = "data" then .error (.duplicateField name) else .ok ()

/-- Reads a member. Data before the status must be JSON, whatever they are to be read as. -/
def put (decode : Decoder α) (ctx : Context) (seen : Seen α) (name : String) (content : Node) :
    Except Fault (Seen α) := do
  seen.checkNew name
  if name = "status" then
    let dataDecoder ← statusDecoder decode ctx content
    match seen with
    | data content => return both (← dataDecoder { ctx with fromMemory := true } content)
    | _ => return status dataDecoder
  else if name = "data" then
    match seen with
    | status dataDecoder => return both (← dataDecoder ctx content)
    | _ =>
      let _ ← content.value ctx.room
      return data content
  else
    content.skip
    return seen

/-- Reads members one after the other. -/
def putAll (decode : Decoder α) (ctx : Context) :
    List (StringLexeme × Node) → Seen α → Except Fault (Seen α)
  | [], seen => .ok seen
  | (k, v) :: rest, seen => do
    let name ← k.read
    putAll decode ctx rest (← seen.put decode ctx name v)

/-- The fault met behind the last member. A member that is given twice is noticed at its key. -/
def close (seen : Seen α) : ObjectEnd → Except Fault Unit
  | .noColon key atEnd => do
    seen.checkNew (← key.read)
    throw (Json.colonFault atEnd)
  | ending => ending.read

/-- The envelope, if both members have been read. -/
def finish : Seen α → Except Fault (Envelope α)
  | both e => .ok e
  | status _ => .error (.missingField "data")
  | nothing | data _ => .error (.missingField "status")

end Seen

/-- Reads an envelope from an array of a status and data. -/
def decodeArray (data : Decoder α) (ctx : Context) (items : List Node) (ending : ArrayEnd) :
    Except Fault (Envelope α) :=
  match items with
  | [] => do
    ending.read
    throw (.invalidLength 0 (.envelope "ApiResponse"))
  | [s] => do
    let _ ← statusDecoder data ctx s
    ending.read
    throw (.invalidLength 1 (.envelope "ApiResponse"))
  | s :: content :: surplus => do
    let dataDecoder ← statusDecoder data ctx s
    let e ← dataDecoder ctx content
    Json.Fields.closeArray 2 ctx surplus ending
    return e

/-- Reads an envelope. -/
def decoder (data : Decoder α) : Decoder (Envelope α) := fun ctx n =>
  match n with
  | .object members ending => do
    let inside ← ctx.enter
    let seen ← Seen.putAll data inside members .nothing
    seen.close ending
    seen.finish
  | .array items ending => do
    decodeArray data (← ctx.enter) items ending
  | n => n.mismatch (.envelope "ApiResponse")

end Envelope

end MovieCatalog
