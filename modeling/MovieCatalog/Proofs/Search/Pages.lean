import MovieCatalog.Proofs.Search.Agreement

/-!
# Pages tile the result

The window of a search holds the results from its offset on, as many as its size says. The offset is
the number of the page times the size, up to the greatest number of 64 bits
(`Search.toNat_offset_ofRequest`). Below this number no offset is cut short, so a result lies in the
window of the page that division gives and of no other one (`Search.shows_page_iff`), and the
windows of pages whose offset is cut short begin behind it.
-/

namespace MovieCatalog.Search

/-- The result with a given rank, counted from zero, lies in the window of a search. -/
def Shows (s : Search) (rank : Nat) : Prop :=
  s.offset.toNat ≤ rank ∧ rank < s.offset.toNat + s.size.toNat

instance (s : Search) (rank : Nat) : Decidable (s.Shows rank) :=
  inferInstanceAs (Decidable (_ ∧ _))

/-- A page has room for one movie at least. -/
theorem size_ofRequest_pos (r : Request) : 0 < (ofRequest r).size.toNat := by
  rw [ofRequest, toNat_sizeOf, Request.pageSize]
  split
  · decide
  · next limit =>
    split
    · decide
    · next hne => exact Nat.pos_of_ne_zero hne

/-- The offset is the product of the page and the size, or the greatest number of 64 bits if the
product exceeds it. -/
theorem toNat_offset_ofRequest (r : Request) :
    (ofRequest r).offset.toNat
      = min ((r.page.getD 0).toNat * (ofRequest r).size.toNat) (Word.size64 - 1) := by
  have hoffset : (ofRequest r).offset.toNat = r.pageOffset := toNat_offsetOf r
  have hsize : (ofRequest r).size.toNat = r.pageSize := toNat_sizeOf r
  rw [hoffset, hsize, Request.pageOffset]
  cases r.page with
  | none => simp
  | some page => rfl

/-- A result whose rank is below the greatest number of 64 bits is shown on the page that division
gives, and on no other one. -/
theorem shows_page_iff (r : Request) (page : UInt64) {rank : Nat} (h : rank < Word.size64 - 1) :
    (ofRequest { r with page := some page }).Shows rank
      ↔ page.toNat = rank / (ofRequest r).size.toNat := by
  have hoffset := toNat_offset_ofRequest { r with page := some page }
  have hsize : (ofRequest { r with page := some page }).size = (ofRequest r).size := rfl
  rw [hsize, Option.getD_some] at hoffset
  have hpos := size_ofRequest_pos r
  rw [Shows, hsize, hoffset, @eq_comm _ page.toNat, Nat.div_eq_iff hpos]
  -- an offset that is cut short is above the rank, as the product that it stands for is
  omega

/-- The pages of a given size tile the result. Every rank below the greatest number of 64 bits lies
in the window of exactly one page; without a page the window is that of page zero; a window is never
empty, and it begins where the product of page and size says or, if this exceeds 64 bits, at their
greatest number. -/
theorem ofRequest_pages_tile (r : Request) :
    (∀ rank, rank < Word.size64 - 1 →
      ∃! page : UInt64, (ofRequest { r with page := some page }).Shows rank) ∧
    ofRequest { r with page := none } = ofRequest { r with page := some 0 } ∧
    1 ≤ (ofRequest r).size.toNat ∧
    (ofRequest r).offset.toNat
      = min ((r.page.getD 0).toNat * (ofRequest r).size.toNat) (Word.size64 - 1) := by
  refine ⟨fun rank h => ?_, rfl, size_ofRequest_pos r, toNat_offset_ofRequest r⟩
  have hword : rank / (ofRequest r).size.toNat < UInt64.size := by
    have hle := Nat.div_le_self rank (ofRequest r).size.toNat
    have hsize : Word.size64 = UInt64.size := rfl
    omega
  refine ⟨.ofNat (rank / (ofRequest r).size.toNat), ?_, fun page hpage => ?_⟩
  · exact (shows_page_iff r _ h).2 (UInt64.toNat_ofNat_of_lt' hword)
  · rw [← UInt64.toNat_inj, (shows_page_iff r page h).1 hpage, UInt64.toNat_ofNat_of_lt' hword]

/-- The last rank that has a page, with pages of the size that is taken if the limit is zero, and the
page behind it, whose offset is cut short. -/
theorem ofRequest_pages_tile_last :
    let r := { Request.empty with limit := some 0 }
    18446744073709551614 < Word.size64 - 1 ∧
      (∃! page : UInt64, (ofRequest { r with page := some page }).Shows 18446744073709551614) ∧
      (ofRequest { r with page := some 1844674407370955161 }).Shows 18446744073709551614 ∧
      (ofRequest { r with page := some 1844674407370955162 }).offset.toNat = Word.size64 - 1 := by
  intro r
  exact ⟨by decide, (ofRequest_pages_tile r).1 _ (by decide), by decide +kernel, by decide +kernel⟩

end MovieCatalog.Search
