import MovieCatalog.Proofs.Json.Record
import MovieCatalog.Proofs.Service.Answer
import MovieCatalog.Proofs.Text.Utf8

/-!
# Accounts that are passed on

A failure with an account of the engine is put into an envelope, and a caller reads the envelope
again. The message arrives, and so does an account that is legible, unless it is `null`: a member
that is `null` is read as if it were not there (`Failure.heard`), though it is written. So an
envelope is read back as it is exactly if the account in the reply is not `null`
(`EngineFailure.readString_details_iff`).
-/

namespace MovieCatalog

open Json (Decoder Fields bind_of_ok)

/-- The octets of a text are read as the text is. -/
theorem Json.Decoder.readOctets_encode {α : Type} (d : Decoder α) (text : String) :
    d.readOctets (Text.Utf8.encode text.toList) = d.readString text := by
  rw [readOctets, Text.Utf8.pieces_encode]
  rfl

/-- A reader that allows `null` finds nothing in it. -/
theorem Json.Decoder.reads_nullable_null {α : Type} (d : Decoder α) :
    (nullable d).Reads 0 .null none :=
  fun _ _ => rfl

/-- Only `null` is written as `null`. -/
theorem Json.node_ne_null {v : Json} (h : v ≠ .null) : v.node ≠ .null := by
  cases v with
  | null => exact absurd rfl h
  | _ => exact fun hnode => nomatch hnode

namespace Failure

/-- The fields of the details of a failure. -/
abbrev fields : Fields (String × Option Json × Unit) :=
  .cons (.required "message" .string) (.cons (.withDefault "error" (.nullable .json) none) .nil)

/-- What a caller hears of the details: an account that is `null` is as good as none. -/
def heard (f : Failure) : Failure where
  message := f.message
  error :=
    match f.error with
    | some .null => none
    | error => error

/-- An account is heard as it is unless it is null. -/
theorem heard_of_ne_null {message : String} {account : Json} (h : account ≠ .null) :
    heard ⟨message, some account⟩ = ⟨message, some account⟩ := by
  cases account with
  | null => exact absurd rfl h
  | _ => rfl

/-- Details with an account are heard as they are exactly if the account is not `null`. -/
theorem heard_eq_self_iff {message : String} {account : Json} :
    heard ⟨message, some account⟩ = ⟨message, some account⟩ ↔ account ≠ .null := by
  constructor
  · rintro h rfl
    cases congrArg Failure.error h
  · exact heard_of_ne_null

/-- Details with an account that is read back are read as they are heard. -/
theorem reads_toJson {message : String} {account : Json} {depth : Nat}
    (h : Decoder.json.Reads depth account account) :
    Failure.decoder.Reads (depth + 1) (toJson ⟨message, some account⟩)
      (heard ⟨message, some account⟩) := by
  have hmessage : Decoder.string.Reads depth (.string message) message :=
    (Decoder.reads_string message).mono (Nat.zero_le depth)
  by_cases hnull : account = .null
  · subst hnull
    have herror := (Decoder.reads_nullable_null Decoder.json).mono (Nat.zero_le depth)
    have hrecord := fields.reads_decode "FailureData" (by decide)
      (.given hmessage (.given herror .nil))
    exact hrecord.bind rfl
  · rw [heard_of_ne_null hnull]
    have herror := Decoder.reads_nullable (Json.node_ne_null hnull) h
    have hrecord := fields.reads_decode "FailureData" (by decide)
      (.given hmessage (.given herror .nil))
    exact hrecord.bind rfl

end Failure

namespace Envelope

variable {α : Type}

/-- Below the status of a failure, a failure is read. -/
theorem reads_failure (data : Decoder α) :
    (statusDecoder data).Reads 0 (.string "failure") fun ctx n =>
      failure <$> Failure.decoder ctx n :=
  fun _ _ => bind_of_ok (Json.StringLexeme.read_ofString "failure") _

/-- The envelope of a failure is read as the details are heard, as long as there is room for the
account in two levels more. -/
theorem readString_failure (data : Decoder α) (dataJson : α → Json) {message : String}
    {account : Json} (h : Decoder.json.Reads account.depth account account)
    (hdepth : account.depth + 2 ≤ Json.Context.start.room) :
    (decoder data).readString ((failure ⟨message, some account⟩).toJson dataJson).text
      = .ok (failure (Failure.heard ⟨message, some account⟩)) := by
  have hdetails : Decoder.Reads (fun ctx n => failure (α := α) <$> Failure.decoder ctx n)
      (account.depth + 1) (Failure.toJson ⟨message, some account⟩)
      (failure (Failure.heard ⟨message, some account⟩)) :=
    (Failure.reads_toJson h).bind rfl
  exact (reads_status_data (reads_failure data) hdetails).readString hdepth

end Envelope

namespace EngineFailure

/-- A refusal is told with the account in the reply. -/
theorem details_ofReply {status : UInt16} {octets : List UInt8} {account : Json}
    (h : IsAccount octets account) :
    (ofReply status octets).details = ⟨(ofReply status octets).message, some account⟩ := by
  rw [eq_accountOf h]
  rfl

/-- An account has the levels of the value in the octets; a text has none. -/
theorem depth_lt_of_isAccount {octets : List UInt8} {account : Json} {bound : Nat}
    (h : IsAccount octets account) (hbound : 0 < bound)
    (hdepth : ∀ v, Decoder.json.readOctets octets = .ok v → v.depth < bound) :
    account.depth < bound := by
  obtain h | ⟨-, rfl⟩ := h
  · exact hdepth account h
  · exact hbound

/-- Whatever status and octets the engine refuses a search with, there is one account in the
octets, and the failure is told with it. If it has fewer than a hundred levels and is legible, a
caller who reads the envelope hears the same message, and also the same account unless it is `null`,
of which the caller hears nothing; so the envelope is read back as it is exactly if the account is
not `null`. -/
theorem readString_details_iff {α : Type} (data : Decoder α) (dataJson : α → Json)
    (status : UInt16) (octets : List UInt8)
    (hdepth : ∀ v, Decoder.json.readOctets octets = .ok v → v.depth < 100) :
    let e := ofReply status octets
    let text := ((Envelope.failure e.details).toJson dataJson).text
    ∃ account, IsAccount octets account ∧ e.details = ⟨e.message, some account⟩ ∧
      (account.Legible →
        ((Envelope.decoder data).readString text = .ok (.failure e.details) ↔ account ≠ .null)) ∧
      (account = .null →
        (Envelope.decoder data).readString text = .ok (.failure ⟨e.message, none⟩)) := by
  intro e text
  have haccount := isAccount_accountOf octets
  have hdetails : e.details = ⟨e.message, some (accountOf octets)⟩ := details_ofReply haccount
  have hread (hlegible : (accountOf octets).Legible) : (Envelope.decoder data).readString text
      = .ok (.failure (Failure.heard ⟨e.message, some (accountOf octets)⟩)) := by
    have hlevels := depth_lt_of_isAccount haccount (by decide) hdepth
    have hroom : (accountOf octets).depth + 2 ≤ Json.Context.start.room := by
      change (accountOf octets).depth + 2 ≤ 127
      omega
    subst text
    rw [hdetails]
    exact Envelope.readString_failure data dataJson (reads_account haccount hlegible) hroom
  refine ⟨accountOf octets, haccount, hdetails, fun hlegible => ?_, fun hnull => ?_⟩
  · rw [hread hlegible, hdetails, Except.ok.injEq, Envelope.failure.injEq]
    exact Failure.heard_eq_self_iff
  · rw [hread (hnull ▸ .null), hnull]
    rfl

/-- A list and members in another order arrive as they are read, and octets that are no UTF-8 as a
text. -/
theorem readString_details_ragged :
    let error := Json.array [.null, .string "\"é\x00"]
    let reply := Json.object [("status", .ofUInt64 404), ("error", error)]
    let e := ofReply 404 (Text.Utf8.encode reply.text.toList)
    let stray := ofReply 502 [0x22, 0xff]
    (Envelope.decoder Decoder.json).readString ((Envelope.failure e.details).toJson id).text
        = .ok (.failure e.details) ∧
      e.details.error = some (.object [("error", error), ("status", .ofUInt64 404)]) ∧
      (Envelope.decoder Decoder.json).readString ((Envelope.failure stray.details).toJson id).text
        = .ok (.failure stray.details) ∧
      stray.details.error = some (.string "\"\uFFFD") := by
  intro error reply e stray
  have hread : Decoder.json.readOctets (Text.Utf8.encode reply.text.toList)
      = .ok (.object [("error", error), ("status", .ofUInt64 404)]) := by
    have hsorted : reply.sorted = .object [("error", error), ("status", .ofUInt64 404)] := by
      subst reply error
      cbv
    have hlegible : reply.Legible := by simp [reply, error]
    rw [Decoder.readOctets_encode, ← hsorted]
    exact (Decoder.reads_json hlegible).readString (by decide)
  have hlevels : ∀ v, Decoder.json.readOctets (Text.Utf8.encode reply.text.toList) = .ok v →
      v.depth < 100 := by
    intro v hv
    obtain rfl := Except.ok.inj (hread.symm.trans hv)
    decide
  have hstray : ∀ v, Decoder.json.readOctets [0x22, 0xff] ≠ .ok v := by
    intro v hv
    cases hv
  obtain ⟨account, haccount, hdetails, hback, -⟩ :=
    readString_details_iff Decoder.json id 404 _ hlevels
  obtain ⟨text, htext, hstrayDetails, hstrayBack, -⟩ :=
    readString_details_iff Decoder.json id 502 [0x22, 0xff] fun v hv => absurd hv (hstray v)
  obtain rfl := (eq_accountOf haccount).trans (eq_accountOf (.inl hread)).symm
  have hlossy : IsAccount [0x22, 0xff] (.string "\"\uFFFD") :=
    .inr ⟨hstray, congrArg Json.string (by decide +kernel)⟩
  obtain rfl := (eq_accountOf htext).trans (eq_accountOf hlossy).symm
  exact ⟨(hback (by simp [error])).2 (by simp), congrArg Failure.error hdetails, (hstrayBack (.string _)).2 (by simp),
    congrArg Failure.error hstrayDetails⟩

/-- An account that is `null` is written into the envelope and does not arrive. -/
theorem readString_details_null :
    let e := ofReply 500 (Text.Utf8.encode "null".toList)
    let text := ((Envelope.failure e.details).toJson id).text
    e.details.error = some .null ∧
      text = "\x7b\"status\":\"failure\",\"data\":\x7b"
        ++ "\"message\":\"Search engine returned 500: null\",\"error\":null\x7d\x7d" ∧
      (Envelope.decoder Decoder.json).readString text ≠ .ok (.failure e.details) := by
  intro e text
  have haccount : IsAccount (Text.Utf8.encode "null".toList) .null := .inl rfl
  have hdetails : e.details = ⟨e.message, some .null⟩ := details_ofReply haccount
  have hread := @Envelope.readString_failure _ Decoder.json id e.message _
    (reads_account haccount .null) (by decide)
  refine ⟨by rw [hdetails], by decide +kernel, ?_⟩
  subst text
  rw [hdetails, hread]
  intro h
  cases h

end EngineFailure

end MovieCatalog
