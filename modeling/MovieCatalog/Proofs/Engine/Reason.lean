import MovieCatalog.Proofs.Engine.Account

/-!
# The reason of a refusal

A refusal is told with one part of the engine's account: the first that is there of the reason of
the error, its type, the error itself and the whole account (`EngineFailure.given`,
`EngineFailure.reasonOf_eq`). A part that is `null` is there like any other, so it is told as `null`
though a part that could be used stands further on (`EngineFailure.usable`). The two agree exactly
if the part that is given is not `null`, or there is nothing else to tell
(`EngineFailure.message_ofReply_iff`).
-/

namespace MovieCatalog

namespace Json

/-- The part of a value below keys, one under the other. -/
def below? (v : Json) (keys : List String) : Option Json :=
  keys.foldlM (fun v key => v.get? key) v

/-- The value is `null`. -/
def isNull : Json → Bool
  | null => true
  | _ => false

theorem isNull_iff {v : Json} : v.isNull = true ↔ v = .null := by
  cases v <;> simp [isNull]

/-- No other value is written as `null` is. -/
theorem text_eq_null_iff {v : Json} : v.text = "null" ↔ v = .null := by
  constructor
  · intro h
    have hread := Document.read_text v
    have hnull : Document.read (Text.pieces "null") = ⟨.null, false⟩ := Document.read_text .null
    rw [h, hnull, Document.mk.injEq] at hread
    by_contra hne
    exact node_ne_null hne hread.1.symm
  · rintro rfl
    rfl

end Json

open Json (Decoder)

namespace EngineFailure

/-- The places in an account where a reason may stand, the most specific one first. -/
def places : List (List String) :=
  [["error", "reason"], ["error", "type"], ["error"], []]

/-- The part of an account that is given as the reason: the first that is there. -/
def given (account : Json) : Json :=
  (places.findSome? account.below?).getD account

/-- The first part of an account that is there and not `null`, or the account if all of it is `null`.
-/
def usable (account : Json) : Json :=
  (places.findSome? fun keys => (account.below? keys).filter (!·.isNull)).getD account

/-- The message that the engine refuses a search, with a part of its account as the reason. -/
def refusal (status : UInt16) (reason : Json) : String :=
  "Search engine returned " ++ String.ofList (Numeral.ofNat status.toNat) ++ ": "
    ++ reasonText reason

/-- The reason in an account is the part that is given. -/
theorem reasonOf_eq (account : Json) : reasonOf account = reasonText (given account) := by
  unfold reasonOf given places Json.below?
  cases herror : account.get? "error" with
  | none => simp [List.findSome?, herror]
  | some error =>
    cases hreason : error.get? "reason" with
    | some reason => simp [List.findSome?, herror, hreason]
    | none => cases htype : error.get? "type" <;> simp [List.findSome?, herror, hreason, htype]

/-- The message of a refusal tells the part of the account that is given. -/
theorem message_ofReply {octets : List UInt8} {account : Json} (h : IsAccount octets account)
    (status : UInt16) : (ofReply status octets).message = refusal status (given account) := by
  unfold refusal
  rw [← reasonOf_eq account, eq_accountOf h]
  rfl

/-! ## What is given and what could be used -/

/-- What is given stands at one of the places, and nothing stands at those before it. -/
theorem exists_place_of_given (account : Json) :
    ∃ before place after, places = before ++ place :: after ∧
      account.below? place = some (given account) ∧ ∀ p ∈ before, account.below? p = none := by
  have hwhole : account.below? [] = some account := rfl
  cases h : places.findSome? account.below? with
  | none =>
    have hnone := List.findSome?_eq_none_iff.1 h [] (by decide)
    exact absurd (hwhole.symm.trans hnone) (Option.some_ne_none account)
  | some part =>
    have hgiven : given account = part := by rw [given, h, Option.getD_some]
    rw [hgiven]
    exact List.findSome?_eq_some_iff.1 h

/-- What is given is also what could be used, unless it is `null`. -/
theorem usable_eq_given {account : Json} (h : given account ≠ .null) :
    usable account = given account := by
  obtain ⟨before, place, after, hplaces, hplace, hbefore⟩ := exists_place_of_given account
  have hnull : (!(given account).isNull) = true := by
    rw [Bool.not_eq_true', Bool.eq_false_iff, ne_eq, Json.isNull_iff]
    exact h
  have hfirst : places.findSome? (fun keys => (account.below? keys).filter (!·.isNull))
      = some (given account) := by
    refine List.findSome?_eq_some_iff.2 ⟨before, place, after, hplaces, ?_, fun p hp => ?_⟩
    · rw [hplace, Option.filter_some, if_pos hnull]
    · rw [hbefore p hp, Option.filter_none]
  rw [usable, hfirst, Option.getD_some]

/-- Only of an account that is `null` nothing could be used. -/
theorem usable_eq_null_iff {account : Json} : usable account = .null ↔ account = .null := by
  unfold usable
  cases h : places.findSome? fun keys => (account.below? keys).filter (!·.isNull) with
  | none => rw [Option.getD_none]
  | some part =>
    obtain ⟨-, place, -, -, hplace, -⟩ := List.findSome?_eq_some_iff.1 h
    have hpart : part ≠ .null := by
      rintro rfl
      exact absurd (Option.filter_eq_some_iff.1 hplace).2 (by decide)
    rw [Option.getD_some]
    refine ⟨fun hnull => absurd hnull hpart, ?_⟩
    rintro rfl
    have hnothing : ∀ keys, (Json.below? .null keys).filter (!·.isNull) = none := by
      intro keys
      cases keys <;> rfl
    exact absurd (hplace.symm.trans (hnothing place)) (Option.some_ne_none part)

/-- A reason that is told as `null` is `null`, or the text of these letters. -/
theorem reasonText_eq_null_iff {reason : Json} :
    reasonText reason = "null" ↔ reason = .null ∨ reason = .string "null" := by
  cases reason with
  | string s => simp [reasonText]
  | _ => simp [reasonText, Json.text_eq_null_iff]

/-- Two messages of one status are the same exactly if their reasons are told alike. -/
theorem refusal_eq_iff {status : UInt16} {reason reason' : Json} :
    refusal status reason = refusal status reason' ↔ reasonText reason = reasonText reason' :=
  String.append_right_inj _

/-- What is given does not depend on the account beside its error. -/
theorem given_congr_of_error {account account' : Json}
    (h : account'.get? "error" = account.get? "error") (hsome : (account.get? "error").isSome) :
    given account' = given account := by
  obtain ⟨error, herror⟩ := Option.isSome_iff_exists.1 hsome
  have herror' := h.trans herror
  unfold given places Json.below?
  cases hreason : error.get? "reason" with
  | some reason => simp [List.findSome?, herror, herror', hreason]
  | none =>
    cases htype : error.get? "type" <;> simp [List.findSome?, herror, herror', hreason, htype]

/-- What is given is the reason of the error, if there is one, whatever stands beside it. -/
theorem given_eq_of_reason {account error reason : Json} (herror : account.get? "error" = some error)
    (hreason : error.get? "reason" = some reason) : given account = reason := by
  simp [given, places, Json.below?, herror, hreason]

/-- Whatever status and octets the engine refuses a search with, the message gives the status and the
first part that is there of the reason of the error, its type, the error and the account in the
octets. This is the first part that could be used, or is told alike, exactly if it is not `null`, or
the account is `null`, or what could be used is the text `null`. No other account changes the
message that has the same error, or another error with the same reason. -/
theorem message_ofReply_iff (status : UInt16) (octets : List UInt8) :
    ∃ account, IsAccount octets account ∧
      (ofReply status octets).message = refusal status (given account) ∧
      ((ofReply status octets).message = refusal status (usable account) ↔
        given account ≠ .null ∨ account = .null ∨ usable account = .string "null") ∧
      ∀ octets' account', IsAccount octets' account' →
        ((account.get? "error").isSome ∧ account'.get? "error" = account.get? "error" ∨
          ∃ error error' reason, account.get? "error" = some error ∧
            account'.get? "error" = some error' ∧
            error.get? "reason" = some reason ∧ error'.get? "reason" = some reason) →
        (ofReply status octets').message = (ofReply status octets).message := by
  have haccount := isAccount_accountOf octets
  refine ⟨accountOf octets, haccount, message_ofReply haccount status, ?_, ?_⟩
  · rw [message_ofReply haccount, refusal_eq_iff]
    by_cases hgiven : given (accountOf octets) = .null
    · have htext : reasonText .null = "null" := rfl
      rw [hgiven, htext, eq_comm, reasonText_eq_null_iff, usable_eq_null_iff]
      simp
    · simp [hgiven, usable_eq_given hgiven]
  · intro octets' account' haccount' hsame
    rw [message_ofReply haccount, message_ofReply haccount']
    obtain ⟨hsome, herror⟩ | ⟨error, error', reason, herror, herror', hreason, hreason'⟩ := hsame
    · rw [given_congr_of_error herror hsome]
    · rw [given_eq_of_reason herror hreason, given_eq_of_reason herror' hreason']

/-- A reason that is `null` is told though there is a type. -/
theorem message_ofReply_null_reason :
    let account := Json.object [("error",
      .object [("reason", .null), ("type", .string "parsing_exception")])]
    let octets := Text.Utf8.encode account.text.toList
    account.text = "\x7b\"error\":\x7b\"reason\":null,\"type\":\"parsing_exception\"\x7d\x7d" ∧
      IsAccount octets account ∧
      (ofReply 400 octets).message = "Search engine returned 400: null" ∧
      refusal 400 (usable account) = "Search engine returned 400: parsing_exception" := by
  intro account octets
  have hread : Decoder.json.readOctets octets = .ok account := by
    have hsorted : account.sorted = account := by
      subst account
      cbv
    have hlegible : account.Legible := by simp [account]
    rw [Decoder.readOctets_encode, ← hsorted]
    exact (Decoder.reads_json hlegible).readString (by decide)
  refine ⟨by decide +kernel, .inl hread, ?_, by decide +kernel⟩
  rw [message_ofReply (.inl hread)]
  decide +kernel

end EngineFailure

end MovieCatalog
