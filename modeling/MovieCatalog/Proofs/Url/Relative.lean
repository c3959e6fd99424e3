import MovieCatalog.Proofs.Url.Segments
import MovieCatalog.Url.Resolve
import Mathlib.Data.List.TakeWhile

/-!
# References relative to the URL of a network

A reference without a scheme keeps the scheme and the authority of its base, and if it does not begin
with a slash, it leads on from the base's path without its last segment
(`Url.relativeTo_of_not_mark`). One that begins with a slash leads to a path that no longer depends
on the base's (`Url.path_of_relativeTo_mark`), and one that names another scheme has this scheme
(`Url.scheme_of_resolve`).
-/

namespace MovieCatalog.Url

/-! ## What counts of a text -/

/-- A character that counts inside a text: no tab and no line break. -/
def counts (c : Char) : Bool :=
  c ≠ '\t' ∧ c ≠ '\n' ∧ c ≠ '\r'

/-- A character that ends the path: a mark of the query or of the fragment. -/
def endsPath (c : Char) : Bool :=
  c = '?' || c = '#'

/-- Of a text with a last character that is no edge all counts but the edges in front. -/
theorem tidy_concat {s : List Char} {c : Char} (h : isEdge c = false) :
    tidy (s ++ [c]) = ((s ++ [c]).dropWhile isEdge).filter counts := by
  have hlast : ∃ front, (s ++ [c]).dropWhile isEdge = front ++ [c] := by
    rw [List.dropWhile_append]
    split
    · exact ⟨[], List.dropWhile_cons_of_neg (by simp [h])⟩
    · exact ⟨_, rfl⟩
  obtain ⟨front, hfront⟩ := hlast
  have hback : (front ++ [c]).reverse.dropWhile isEdge = (front ++ [c]).reverse := by
    rw [List.reverse_append]
    exact List.dropWhile_cons_of_neg (by simp [h])
  rw [tidy, hfront, hback, List.reverse_reverse]
  rfl

/-- What stands before a mark. -/
theorem fst_cutAt {α : Type} [DecidableEq α] (mark : α) (s : List α) :
    (Text.cutAt mark s).1 = s.takeWhile (· ≠ mark) := by
  unfold Text.cutAt
  split
  · next h =>
    have hall := List.takeWhile_append_dropWhile (p := (· ≠ mark)) (l := s)
    rwa [h, List.append_nil, eq_comm] at hall
  · rfl

/-- The path of a reference is what stands before the marks of its query and its fragment. -/
theorem body_ofText (s : List Char) : (Cut.ofText s).body = s.takeWhile (!endsPath ·) := by
  have hmarks : (fun c => decide (decide (c ≠ '?') = true ∧ decide (c ≠ '#') = true))
      = fun c => !endsPath c := by
    funext c
    simp [endsPath]
  rw [Cut.ofText]
  simp only [fst_cutAt, List.takeWhile_takeWhile]
  rw [hmarks]

/-- Without marks there is neither a query nor a fragment. -/
theorem ofText_of_no_mark {s : List Char} (h : ∀ c ∈ s, endsPath c = false) :
    Cut.ofText s = ⟨s, none, none⟩ := by
  have hfragment : '#' ∉ s := fun hc => by simpa [endsPath] using h _ hc
  have hquery : '?' ∉ s := fun hc => by simpa [endsPath] using h _ hc
  rw [Cut.ofText, Text.cutAt_of_notMem hfragment]
  simp only [Text.cutAt_of_notMem hquery]

/-! ## Schemes -/

/-- A text that begins with the name of a scheme and its colon. -/
def NamesScheme (s : List Char) : Prop :=
  ∃ c name rest, s = c :: name ++ ':' :: rest ∧ c.isAlpha = true ∧
    ∀ d ∈ name, isSchemeChar d = true

/-- The scheme of a text is found up to its colon. -/
theorem schemeThen?_append {c : Char} {name rest : List Char} (hc : c.isAlpha = true)
    (hname : ∀ d ∈ name, isSchemeChar d = true) :
    schemeThen? (c :: name ++ ':' :: rest) = some ((c :: name).map Char.toLower, rest) := by
  have hcolon : isSchemeChar ':' = false := by decide
  rw [List.cons_append, schemeThen?, if_pos hc, List.dropWhile_append_of_pos hname,
    List.takeWhile_append_of_pos hname, List.dropWhile_cons_of_neg (by simp [hcolon]),
    List.takeWhile_cons_of_neg (by simp [hcolon]), List.append_nil]
  rfl

/-- No scheme is found exactly if the text does not begin with one. -/
theorem schemeThen?_eq_none_iff {s : List Char} : schemeThen? s = none ↔ ¬ NamesScheme s := by
  constructor
  · rintro h ⟨c, name, rest, rfl, hc, hname⟩
    rw [schemeThen?_append hc hname] at h
    cases h
  · intro h
    unfold schemeThen?
    split
    · next c rest =>
      split
      · next hc =>
        split
        · next behind hbehind =>
          have hrest := List.takeWhile_append_dropWhile (p := isSchemeChar) (l := rest)
          rw [hbehind] at hrest
          refine absurd ⟨c, rest.takeWhile isSchemeChar, behind, ?_, hc, ?_⟩ h
          · rw [List.cons_append, hrest]
          · exact fun d => List.mem_takeWhile_imp
        · rfl
      · rfl
    · rfl

/-- Only one scheme is that of files. -/
theorem eq_file_of_ofScheme {scheme : List Char} (h : SchemeKind.ofScheme scheme = .file) :
    scheme = "file".toList := by
  simp only [SchemeKind.ofScheme] at h
  split at h
  · cases h
  · split at h
    · cases h
    · split at h
      · cases h
      · split at h
        · next hfile => rw [← hfile, String.toList_ofList]
        · cases h

/-! ## References -/

/-- What follows two slashes is read as an authority and a path behind the scheme. -/
theorem afterSlashes_eq_ok {scheme : List Char} {kind : SchemeKind} {s : List Char} {cut : Cut}
    {u : Url} (h : afterSlashes scheme kind s cut = .ok u) :
    ∃ a, u = ⟨scheme, some a,
      .segments (match s.dropWhile (!kind.isSlash ·) with
        | [] => if kind.isSpecial then [[]] else []
        | _ :: rest => followText kind [] rest),
      encodeQuery kind cut.query, encodeFragment cut.fragment⟩ := by
  unfold afterSlashes at h
  cases ha : Authority.read kind (s.takeWhile (!kind.isSlash ·)) with
  | error fault =>
    rw [ha] at h
    cases h
  | ok a =>
    rw [ha] at h
    exact ⟨a, (Except.ok.inj h).symm⟩

/-- A URL of a scheme that is not special has this scheme. -/
theorem scheme_of_afterOther {scheme s : List Char} {cut : Cut} {u : Url}
    (h : afterOther scheme s cut = .ok u) : u.scheme = scheme := by
  unfold afterOther at h
  split at h
  · obtain ⟨a, rfl⟩ := afterSlashes_eq_ok h
    rfl
  · obtain rfl := Except.ok.inj h
    rfl

/-- A URL that is read as one of a file without a base has the scheme of files. -/
theorem scheme_of_ofFile {s : List Char} {cut : Cut} {slashes : Nat} {drive : Bool} {u : Url}
    (h : filePath.ofFile cut s slashes drive = .ok u) : u.scheme = "file".toList := by
  unfold filePath.ofFile at h
  simp only at h
  split at h
  · obtain rfl := Except.ok.inj h
    rfl
  · cases hhost : fileHost ((s.drop 2).takeWhile (!SchemeKind.file.isSlash ·)) with
    | error fault =>
      rw [hhost] at h
      cases h
    | ok host =>
      rw [hhost] at h
      obtain rfl := Except.ok.inj h
      rfl

/-- The URL of a place in a network: there is an authority, and a path of segments below it. A
reference replaces the last segment. -/
structure InNetwork (u : Url) (port : Nat) (front : List (List Char)) (last : List Char) : Prop where
  kind : SchemeKind.ofScheme u.scheme = .network port
  authority : u.authority.isSome = true
  path : u.path = .segments (front ++ [last])
  last_noSlash : '/' ∉ last

/-- The path of the URL ends in a slash. -/
def EndsInSlash (u : Url) : Prop :=
  (u.path.text u.authority.isSome).getLast? = some '/'

/-- Below an authority the text of a path ends with its last segment. -/
theorem InNetwork.text_path {u : Url} {port : Nat} {front : List (List Char)} {last : List Char}
    (h : InNetwork u port front last) :
    u.path.text u.authority.isSome = segmentsText front ++ '/' :: last := by
  rw [h.authority, h.path, text_segments, segmentsText_concat]

/-- A path ends in a slash if its last segment is empty. -/
theorem InNetwork.endsInSlash_iff {u : Url} {port : Nat} {front : List (List Char)}
    {last : List Char} (h : InNetwork u port front last) : u.EndsInSlash ↔ last = [] := by
  rw [EndsInSlash, h.text_path, List.getLast?_append, List.getLast?_cons, Option.some_or,
    Option.some.injEq]
  cases hlast : last.getLast? with
  | none => simp [List.getLast?_eq_none_iff.1 hlast]
  | some c =>
    have hmem := List.mem_of_getLast? hlast
    have hc : c ≠ '/' := fun hc => h.last_noSlash (hc ▸ hmem)
    simp [hc, List.ne_nil_of_mem hmem]

/-- What follows two slashes leads to a place in a network. If a slash ends it, its path ends in a
slash. -/
theorem inNetwork_of_afterSlashes {scheme : List Char} {port : Nat} {s : List Char} {cut : Cut}
    {u : Url} (hkind : SchemeKind.ofScheme scheme = .network port)
    (h : afterSlashes scheme (.network port) s cut = .ok u) :
    ∃ front last, InNetwork u port front last ∧
      ((∀ c ∈ s.getLast?, isMark c = true) → last = []) := by
  obtain ⟨a, rfl⟩ := afterSlashes_eq_ok h
  have hslash : (SchemeKind.network port).isSlash = isMark := funext (isSlash_network port)
  rw [hslash]
  cases hbehind : s.dropWhile (!isMark ·) with
  | nil => exact ⟨[], [], ⟨hkind, rfl, rfl, List.not_mem_nil⟩, fun _ => rfl⟩
  | cons mark rest =>
    obtain ⟨before, piece, front, hpieces, hpiece, hfollow⟩ := exists_follow_splitOnP port [] rest
    refine ⟨front, lastSegment piece, ⟨hkind, rfl, ?_, notMem_lastSegment hpiece⟩, fun hend => ?_⟩
    · simp only [followText, slashParts_network, hfollow]
    · have hsuffix : rest <:+ s :=
        (List.suffix_cons mark rest).trans (hbehind ▸ List.dropWhile_suffix (!isMark ·))
      obtain ⟨before', hbefore'⟩ := exists_splitOnP_eq_concat_nil (s := rest) fun c hc => by
        obtain ⟨skipped, rfl⟩ := hsuffix
        exact hend c (List.mem_getLast?_append_of_mem_getLast? hc)
      obtain rfl := List.singleton_inj.1 (List.append_inj' (hpieces.symm.trans hbefore') rfl).2
      rfl

section
variable {base : Url} {port : Nat} {front : List (List Char)} {last : List Char}

/-- A text without a scheme is a reference relative to the base. -/
theorem resolve_of_no_scheme {text : String} (h : ¬ NamesScheme (Cut.ofText (tidy text.toList)).body) :
    resolve (some base) text
      = relativeTo base (Cut.ofText (tidy text.toList)).body (Cut.ofText (tidy text.toList)) := by
  simp only [resolve, schemeThen?_eq_none_iff.2 h]

/-- Below the scheme, a text with another scheme than its base has the scheme that it names. -/
theorem scheme_of_resolve {text : String} {scheme rest : List Char} {u : Url}
    (hbase : InNetwork base port front last)
    (hscheme : schemeThen? (Cut.ofText (tidy text.toList)).body = some (scheme, rest))
    (hne : base.scheme ≠ scheme) (hu : resolve (some base) text = .ok u) : u.scheme = scheme := by
  simp only [resolve, hscheme] at hu
  cases hkind : SchemeKind.ofScheme scheme with
  | other =>
    rw [hkind] at hu
    exact scheme_of_afterOther hu
  | file =>
    have hfile := eq_file_of_ofScheme hkind
    have hbaseFile : base.scheme ≠ "file".toList := by
      intro h
      have hkind := hbase.kind
      rw [h] at hkind
      cases hkind
    have hother : (some base).filter (fun b => b.scheme = "file".toList) = none := by
      rw [Option.filter_some, if_neg (by rwa [decide_eq_true_eq])]
    rw [hkind] at hu
    simp only [filePath, hother] at hu
    exact (scheme_of_ofFile hu).trans hfile.symm
  | network port' =>
    rw [hkind] at hu
    have hother : (some base).filter (fun b => b.scheme = scheme ∧
        (rest.takeWhile (SchemeKind.network port').isSlash).length < 2) = none := by
      simp [hne]
    simp only [hother] at hu
    obtain ⟨a, rfl⟩ := afterSlashes_eq_ok hu
    rfl

/-- A reference that does not begin with a slash leads on from the place of the base. -/
theorem relativeTo_of_not_mark (hbase : InNetwork base port front last) {c : Char} {s : List Char}
    (hc : isMark c = false) (cut : Cut) :
    relativeTo base (c :: s) cut = .ok { base with
      path := .segments (follow (.network port) front ((c :: s).splitOnP isMark))
      query := encodeQuery (.network port) cut.query
      fragment := encodeFragment cut.fragment } := by
  have hslash : (SchemeKind.network port).isSlash c = false := (isSlash_network port c).trans hc
  simp only [relativeTo, hbase.kind, hbase.path]
  rw [List.takeWhile_cons_of_neg (by simp [hslash]), if_neg (by simp), if_neg (by simp [hslash]),
    followText, shorten_network, List.dropLast_concat, slashParts_network]

/-- A reference that does not begin with two slashes keeps the scheme and the authority. -/
theorem exists_relativeTo (hbase : InNetwork base port front last) {s : List Char}
    (hs : (s.takeWhile isMark).length < 2) (cut : Cut) :
    ∃ u, relativeTo base s cut = .ok u ∧ u.scheme = base.scheme ∧ u.authority = base.authority := by
  have hslash : (SchemeKind.network port).isSlash = isMark := funext (isSlash_network port)
  cases s with
  | nil =>
    simp only [relativeTo, hbase.path]
    exact ⟨_, rfl, rfl, rfl⟩
  | cons c s =>
    simp only [relativeTo, hbase.kind, hbase.path, hslash]
    rw [if_neg (Nat.not_le_of_lt hs)]
    exact ⟨_, rfl, rfl, rfl⟩

/-- An empty reference leads nowhere else. -/
theorem path_of_relativeTo_nil (hbase : InNetwork base port front last) {cut : Cut} {u : Url}
    (h : relativeTo base [] cut = .ok u) : u.path = base.path := by
  simp only [relativeTo, hbase.path] at h
  obtain rfl := Except.ok.inj h
  exact hbase.path.symm

/-- A reference that begins with a slash leads to one path, whatever the path of its base is. -/
theorem path_of_relativeTo_mark {base' : Url} {front' : List (List Char)} {last' : List Char}
    (hbase : InNetwork base port front last) (hbase' : InNetwork base' port front' last')
    (hscheme : base.scheme = base'.scheme) {c : Char} {s : List Char} (hc : isMark c = true)
    {cut : Cut} {u u' : Url} (hu : relativeTo base (c :: s) cut = .ok u)
    (hu' : relativeTo base' (c :: s) cut = .ok u') : u.path = u'.path := by
  have hslash : (SchemeKind.network port).isSlash c = true := (isSlash_network port c).trans hc
  simp only [relativeTo, hbase.kind, hbase.path] at hu
  simp only [relativeTo, ← hscheme, hbase.kind, hbase'.path] at hu'
  split at hu
  · next htwo =>
    rw [if_pos htwo, hu] at hu'
    rw [Except.ok.inj hu']
  · next hone =>
    rw [if_neg hone, if_pos hslash] at hu'
    obtain rfl := Except.ok.inj hu
    obtain rfl := Except.ok.inj hu'
    rfl

end

end MovieCatalog.Url
