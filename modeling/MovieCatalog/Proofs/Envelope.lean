import MovieCatalog.Envelope
import MovieCatalog.Proofs.Json.Sorted

/-!
# Envelopes written and read

What is written for an envelope is one JSON object with a status and data (`Envelope.Encloses`). An
envelope is read back if its data are, whichever of its two members comes first
(`Envelope.reads_status_data`, `Envelope.reads_data_status`): data that come first must be JSON of
no more levels than there is room for, and are read when the status is known.
-/

namespace MovieCatalog

open Json (Context Decoder Document Node StringLexeme bind_of_ok)

/-- Different strings are written differently. -/
theorem Json.StringLexeme.ofString_injective {s t : String}
    (h : StringLexeme.ofString s = .ofString t) : s = t := by
  have hread := StringLexeme.read_ofString s
  rw [h, StringLexeme.read_ofString] at hread
  exact (Except.ok.inj hread).symm

namespace Envelope

variable {α : Type}

/-! ## Texts -/

/-- The text is one JSON object with a status and data, in this order, and with nothing else. -/
def Encloses (text status : String) (data : Node) : Prop :=
  Document.read (Text.pieces text)
    = ⟨.object [(.ofString "status", .string (.ofString status)), (.ofString "data", data)] .closed,
      false⟩

/-- The text of an envelope encloses its data under its status. -/
theorem encloses_text (status : String) (data : Json) :
    Encloses (Json.object [("status", .string status), ("data", data)]).text status data.node :=
  Document.read_text _

/-- A text encloses one status and data only. -/
theorem Encloses.unique {text status status' : String} {data data' : Node}
    (h : Encloses text status data) (h' : Encloses text status' data') :
    status = status' ∧ data = data' := by
  rw [Encloses, h] at h'
  injection h' with hroot _
  simp only [Node.object.injEq, List.cons.injEq, Prod.mk.injEq, Node.string.injEq] at hroot
  exact ⟨StringLexeme.ofString_injective hroot.1.1.2, hroot.1.2.1.2⟩

/-! ## Reading -/

/-- Below the status of a success, the data is read. -/
theorem reads_success (data : Decoder α) :
    (statusDecoder data).Reads 0 (.string "success") fun ctx n => success <$> data ctx n :=
  fun _ _ => bind_of_ok (StringLexeme.read_ofString "success") _

section
variable {data : Decoder α} {status : String} {content : Decoder (Envelope α)} {depth : Nat}
  {v w : Json} {e : Envelope α}

/-- An object of two members is read member by member. -/
theorem decoder_pair {ctx inside : Context} (henter : ctx.enter = .ok inside) {k l : String}
    {between : Seen α} (hfirst : Seen.nothing.put data inside k v.node = .ok between)
    (hsecond : between.put data inside l w.node = .ok (.both e)) :
    decoder data ctx (Json.object [(k, v), (l, w)]).node = .ok e := by
  have hrest : Seen.putAll data inside (Json.memberNodes [(l, w)]) between = .ok (.both e) :=
    (bind_of_ok (StringLexeme.read_ofString l) _).trans (bind_of_ok hsecond _)
  have hall : Seen.putAll data inside (Json.memberNodes [(k, v), (l, w)]) .nothing
      = .ok (.both e) :=
    (bind_of_ok (StringLexeme.read_ofString k) _).trans ((bind_of_ok hfirst _).trans hrest)
  exact (bind_of_ok henter _).trans (bind_of_ok hall _)

/-- An envelope is read back when its status stands first. -/
theorem reads_status_data (hstatus : (statusDecoder data).Reads 0 (.string status) content)
    (h : content.Reads depth v e) :
    (decoder data).Reads (depth + 1) (.object [("status", .string status), ("data", v)]) e := by
  intro ctx hroom
  obtain ⟨inside, henter, hinside⟩ := Context.enter_of_le hroom
  have hfirst : Seen.nothing.put data inside "status" (Json.string status).node
      = .ok (.status content) :=
    bind_of_ok (hstatus inside (Nat.zero_le _)) _
  have hsecond : (Seen.status content).put data inside "data" v.node = .ok (.both e) :=
    bind_of_ok (h inside hinside) _
  exact decoder_pair henter hfirst hsecond

/-- An envelope with legible data is read back when its data stand first. They are kept until the
status is known. -/
theorem reads_data_status (hstatus : (statusDecoder data).Reads 0 (.string status) content)
    (h : content.Reads depth v e) (hlegible : v.Legible) (hdepth : v.depth ≤ depth) :
    (decoder data).Reads (depth + 1) (.object [("data", v), ("status", .string status)]) e := by
  intro ctx hroom
  obtain ⟨inside, henter, hinside⟩ := Context.enter_of_le hroom
  have hfirst : Seen.nothing.put data inside "data" v.node = .ok (.data v.node) :=
    bind_of_ok (Json.value_node v hlegible (Nat.le_trans hdepth hinside)) _
  have hsecond : (Seen.data v.node).put data inside "status" (Json.string status).node
      = .ok (.both e) :=
    (bind_of_ok (hstatus inside (Nat.zero_le _)) _).trans
      (bind_of_ok (h { inside with fromMemory := true } hinside) _)
  exact decoder_pair henter hfirst hsecond

end

end Envelope

end MovieCatalog
