import MovieCatalog.Proofs.Engine.Reply
import MovieCatalog.Proofs.Json.Change

/-!
# What does not count in a reply

The engine writes the parts of a reply in any order and adds others that are not asked for, and a
property that is not known may be `null` or missing. A reply may be changed in this way at each of its
five levels (`EngineReply.Change`), in any number of hits; the answer that is made of it stays the
same (`EngineReply.toResponse_eq_of_changes`).
-/

namespace MovieCatalog

open Json (Decoder Document Fields Node NoChange StringLexeme)

/-! ## Changes of a reply -/

/-- A change of a record. Each property may be missing instead of `null`. -/
abbrev MovieRecord.Change : Node → Node → Prop :=
  Node.Change MovieRecord.names MovieRecord.names NoChange

/-- A change of a hit, or of its record. -/
abbrev EngineHit.Change : Node → Node → Prop :=
  Node.Change EngineHit.names [] fun name n n' => name = "_source" ∧ MovieRecord.Change n n'

/-- A change of what gives the number of matches. -/
abbrev EngineHits.TotalChange : Node → Node → Prop :=
  Node.Change ["value"] [] NoChange

/-- A change of what a reply has for its hits, or of one of them. -/
abbrev EngineHits.Change : Node → Node → Prop :=
  Node.Change EngineReply.hitsNames [] fun name n n' =>
    name = "total" ∧ EngineHits.TotalChange n n' ∨
    name = "hits" ∧ Node.ItemChange EngineHit.Change n n'

/-- A change of a reply. The counts may be missing instead of `null`. -/
abbrev EngineReply.Change : Node → Node → Prop :=
  Node.Change EngineReply.names ["aggregations"] fun name n n' =>
    name = "hits" ∧ EngineHits.Change n n'

/-! ## Readers ignore the changes -/

/-- A document of the index is read the same after a change. -/
theorem MovieRecord.ignores_change : MovieRecord.decoder.Ignores MovieRecord.Change := by
  have hallows : MovieRecord.fields.Allows MovieRecord.names NoChange := by
    repeat refine Fields.allows_cons_nullable (Decoder.ignores_noChange _ _) ?_
    trivial
  exact (Decoder.ignores_record MovieRecord.fields "MovieSource" hallows fun h => h.elim).bind _

/-- A hit is read the same after a change of it or of its document. -/
theorem EngineHit.ignores_change : EngineHit.decoder.Ignores EngineHit.Change := by
  refine (Decoder.ignores_record EngineHit.fields "RawHit" ?_ ?_).bind _
  · refine Fields.allows_cons List.not_mem_nil ?_
      (Fields.allows_cons List.not_mem_nil ?_ trivial)
    · rintro ctx n n' id ⟨hname, -⟩
      exact absurd hname (by decide)
    · rintro ctx n n' record ⟨-, hchange⟩
      exact MovieRecord.ignores_change hchange
  · rintro _ _ _ ⟨rfl, -⟩
    decide

/-- The total is read the same after a change of it. -/
theorem EngineHits.ignores_totalChange :
    EngineHits.totalDecoder.Ignores EngineHits.TotalChange := by
  have hallows : EngineHits.totalFields.Allows [] NoChange :=
    Fields.allows_cons List.not_mem_nil (Decoder.ignores_noChange _ _) trivial
  exact (Decoder.ignores_record EngineHits.totalFields "RawTotal" hallows fun h => h.elim).bind _

/-- The hits are read the same after a change at their level, in the total or in any one of them. -/
theorem EngineHits.ignores_change : EngineHits.decoder.Ignores EngineHits.Change := by
  refine (Decoder.ignores_record EngineHits.fields "RawHits" ?_ ?_).bind _
  · refine Fields.allows_cons List.not_mem_nil ?_
      (Fields.allows_cons List.not_mem_nil ?_ trivial)
    · rintro ctx n n' total (⟨-, hchange⟩ | ⟨hname, -⟩)
      · exact EngineHits.ignores_totalChange hchange
      · exact absurd hname (by decide)
    · rintro ctx n n' hits (⟨hname, -⟩ | ⟨-, hchange⟩)
      · exact absurd hname (by decide)
      · exact Decoder.ignores_list EngineHit.ignores_change hchange
  · rintro _ _ _ (⟨rfl, -⟩ | ⟨rfl, -⟩) <;> decide

/-- A reply is read the same after a change at any level. -/
theorem EngineReply.ignores_change : EngineReply.decoder.Ignores EngineReply.Change := by
  refine (Decoder.ignores_record EngineReply.fields "RawSearchResponse" ?_ ?_).bind _
  · refine Fields.allows_cons (by decide) ?_ (Fields.allows_cons (by decide) ?_
      (Fields.allows_cons_nullable ?_ trivial))
    · rintro ctx n n' took ⟨hname, -⟩
      exact absurd hname (by decide)
    · rintro ctx n n' hits ⟨-, hchange⟩
      exact EngineHits.ignores_change hchange
    · rintro ctx n n' aggregations ⟨hname, -⟩
      exact absurd hname (by decide)
  · rintro _ _ _ ⟨rfl, -⟩
    decide

/-! ## Replies -/

/-- A reply in which the members of the objects at any of its five levels are put into another order,
members with other names and any values are put in, and members that are `null` are taken out where
they are optional, can still be read, and the answer that is made of it stays the same. -/
theorem EngineReply.toResponse_eq_of_changes {text text' : Json.Rest} {reply : EngineReply}
    (h : EngineReply.decoder.read text = .ok reply)
    (hchanges : Relation.ReflTransGen EngineReply.Change (Document.read text).root
      (Document.read text').root)
    (hmore : (Document.read text').more = false) :
    ∃ reply', EngineReply.decoder.read text' = .ok reply' ∧
      reply'.toResponse = reply.toResponse := by
  have hroot := (Decoder.read_eq_ok_iff.1 h).1
  exact ⟨reply, Decoder.read_eq_ok_iff.2 ⟨ignores_change.reflTransGen hchanges hroot, hmore⟩, rfl⟩

/-- The hits are put in front of the time, a score is added to a hit, and a property that is `null` is
taken out of its record. -/
theorem EngineReply.toResponse_eq_of_changes_score :
    let hit := Json.object [("_id", .string "tt1"),
      ("_source", .object [("title", .string "Alien"), ("votes", .null)])]
    let hit' := Json.object [("_id", .string "tt1"), ("_score", .ofUInt64 1),
      ("_source", .object [("title", .string "Alien")])]
    let text := Text.pieces
      (Json.object [("took", .ofUInt64 3), ("hits", .object [("hits", .array [hit])])]).text
    let text' := Text.pieces
      (Json.object [("hits", .object [("hits", .array [hit'])]), ("took", .ofUInt64 3)]).text
    let reply : EngineReply :=
      ⟨3, ⟨0, [⟨"tt1", { MovieRecord.empty with title := some "Alien" }⟩]⟩, none⟩
    EngineReply.decoder.read text = .ok reply ∧
      Relation.ReflTransGen EngineReply.Change (Document.read text).root
        (Document.read text').root ∧
      (Document.read text').more = false ∧
      ∃ reply', EngineReply.decoder.read text' = .ok reply' ∧
        reply'.toResponse = reply.toResponse := by
  intro hit hit' text text' reply
  have hread : EngineReply.decoder.read text = .ok reply := by
    subst reply text hit
    cbv
  have hhit : Relation.ReflTransGen EngineHit.Change hit.node hit'.node := by
    refine .head (.object (.insert [_] (StringLexeme.read_ofString "_score") (by decide)
      (Json.wellFormed_node (.ofUInt64 1)))) ?_
    refine .single (.object (.inside [_, _] (StringLexeme.read_ofString "_source") ⟨rfl, ?_⟩))
    exact .object (.remove [_] (StringLexeme.read_ofString "votes") (by decide))
  have hhits : Relation.ReflTransGen EngineHits.Change
      (Json.object [("hits", .array [hit])]).node (Json.object [("hits", .array [hit'])]).node := by
    refine hhit.lift (fun n => Node.object [(.ofString "hits", .array [n] .closed)] .closed) ?_
    intro _ _ h
    exact .object (.inside [] (StringLexeme.read_ofString "hits") (.inr ⟨rfl, .item [] h⟩))
  have hchanges : Relation.ReflTransGen EngineReply.Change (Document.read text).root
      (Document.read text').root := by
    rw [Document.read_text, Document.read_text]
    refine .head (.object (.permute (.swap ..))) ?_
    refine hhits.lift (fun n => Node.object [(.ofString "hits", n), _] .closed) ?_
    intro _ _ h
    exact .object (.inside [] (StringLexeme.read_ofString "hits") ⟨rfl, h⟩)
  have hmore : (Document.read text').more = false := by rw [Document.read_text]
  exact ⟨hread, hchanges, hmore, toResponse_eq_of_changes hread hchanges hmore⟩

end MovieCatalog
