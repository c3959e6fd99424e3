import MovieCatalog.Proofs.Engine.Node

/-!
# Where searches are sent

The name of an index is read as a reference relative to the node. If all its characters are plain,
it becomes a segment of the path below the node (`searchUrl_of_plain`). Other names may have a
meaning in a URL: those that lead below every node whatever its path are described by `Confined`
(`below_of_confined`, `confined_of_below`), and a node that all of them lead below has a path that
ends in a slash (`endsInSlash_of_below`).
-/

namespace MovieCatalog.Engine

open Url (Cut isMark counts endsPath isEdge tidy NamesScheme InNetwork Stays)

/-! ## The way from the node -/

/-- What counts of the text that refers to the search of an index: no edges in front, no tabs and no
line breaks. -/
def written (index : String) : List Char :=
  ((index ++ "/_search").toList.dropWhile isEdge).filter counts

/-- The part of the text that is read as a path, up to the mark of a query or a fragment. -/
def way (index : String) : List Char :=
  (written index).takeWhile (!endsPath ·)

/-- What is resolved against the node is the index as it is written, with the search behind it. -/
theorem tidy_eq_written (index : String) : tidy (index ++ "/_search").toList = written index := by
  have hlast : (index ++ "/_search").toList = (index.toList ++ "/_searc".toList) ++ ['h'] := by
    simp
  rw [hlast, Url.tidy_concat (by decide), written, hlast]

/-- Without query and fragment, this is the way. -/
theorem body_written (index : String) : (Cut.ofText (written index)).body = way index :=
  Url.body_ofText _

/-- The segments along the way. -/
def steps (index : String) : List (List Char) :=
  (way index).splitOnP isMark

/-- The name of an index leads to a search below the node, whatever the path of the node is: it names
no scheme, does not begin with a slash, never leads above the node, and nothing in it takes the
search away from the end of the path. -/
structure Confined (index : String) : Prop where
  noScheme : ¬ NamesScheme (way index)
  noSlash : (steps index).head? ≠ some []
  stays : Stays 0 (steps index)
  search : (steps index).getLast? = some "_search".toList

/-- The URL is that of a search on the same node: it has the scheme, the host and the port of the
node's URL, and its path begins with the node's and ends with a search. -/
structure Below (base u : Url) : Prop where
  scheme : u.scheme = base.scheme
  host : u.authority.map (·.host) = base.authority.map (·.host)
  port : u.authority.map (·.port) = base.authority.map (·.port)
  path_begins : base.path.text base.authority.isSome <+: u.path.text u.authority.isSome
  path_ends : "/_search".toList <:+ u.path.text u.authority.isSome

section
variable {host index : String} {base : Url} {port : Nat} {front : List (List Char)}
  {last : List Char}

/-- The way begins with no slash exactly if its first segment is not empty. -/
theorem head?_steps_eq_nil_iff :
    (steps index).head? = some [] ↔ ∀ c ∈ (way index).head?, isMark c = true := by
  unfold steps
  cases way index with
  | nil => simp
  | cons c s =>
    rw [List.splitOnP_cons_eq_if_modifyHead]
    cases hc : isMark c with
    | true => simp [hc]
    | false => simp [hc, List.head?_modifyHead]

/-- The text of a search is resolved against the node. -/
theorem searchUrl_of_base (hbase : Url.resolve none (baseText host) = .ok base) :
    searchUrl host index = Url.resolve (some base) (index ++ "/_search") := by
  simp only [searchUrl, hbase, bind, Except.bind]

/-- A name without a scheme leads from the node by the way of its reference. -/
theorem searchUrl_of_no_scheme (hbase : Url.resolve none (baseText host) = .ok base)
    (hscheme : ¬ NamesScheme (way index)) :
    searchUrl host index = Url.relativeTo base (way index) (Cut.ofText (written index)) := by
  rw [searchUrl_of_base hbase]
  rw [← body_written, ← tidy_eq_written] at hscheme ⊢
  exact Url.resolve_of_no_scheme hscheme

/-- A name that begins with neither a scheme nor two slashes stays on the node. -/
theorem exists_searchUrl (hbase : Url.resolve none (baseText host) = .ok base)
    (hscheme : ¬ NamesScheme (way index)) (hslashes : ((way index).takeWhile isMark).length < 2) :
    ∃ u, searchUrl host index = .ok u ∧ u.scheme = base.scheme ∧ u.authority = base.authority := by
  obtain ⟨port, front, last, hnet⟩ := inNetwork_of_resolve hbase
  rw [searchUrl_of_no_scheme hbase hscheme]
  exact Url.exists_relativeTo hnet hslashes _

/-- A name that begins with neither a scheme nor a slash leads on from the place of the node. -/
theorem searchUrl_of_no_slash (hbase : Url.resolve none (baseText host) = .ok base)
    (hnet : InNetwork base port front last) (hscheme : ¬ NamesScheme (way index))
    (hslash : (steps index).head? ≠ some []) :
    searchUrl host index = .ok { base with
      path := .segments (Url.follow (.network port) front (steps index))
      query := Url.encodeQuery (.network port) (Cut.ofText (written index)).query
      fragment := Url.encodeFragment (Cut.ofText (written index)).fragment } := by
  rw [searchUrl_of_no_scheme hbase hscheme]
  rw [ne_eq, head?_steps_eq_nil_iff] at hslash
  unfold steps
  cases hway : way index with
  | nil => simp [hway] at hslash
  | cons c s =>
    have hc : isMark c = false := by simpa [hway] using hslash
    exact Url.relativeTo_of_not_mark hnet hc _

/-- The last segment of the way to a search does not lead up. -/
theorem isDoubleDot_search : Url.isDoubleDot "_search".toList = false :=
  rfl

/-- A path that ends with a search is reached by a way that does. -/
theorem getLast?_steps_of_suffix {path : List (List Char)}
    (h : "/_search".toList <:+ Url.segmentsText (Url.follow (.network port) path (steps index))) :
    (steps index).getLast? = some "_search".toList := by
  obtain ⟨before, piece, front, hsteps, hpiece, hfollow⟩ :=
    Url.exists_follow_splitOnP port path (way index)
  rw [steps, hfollow] at h
  have hlast : "_search".toList = Url.lastSegment piece :=
    (Url.suffix_segmentsText_iff (by decide) (Url.notMem_lastSegment hpiece)).1 h
  have hwritten : "_search".toList = Text.Percent.encode Url.reservedInPath piece := by
    rw [Url.lastSegment] at hlast
    split at hlast
    · cases hlast
    · exact hlast
  have hself : Text.Percent.encode Url.reservedInPath piece = piece :=
    Text.Percent.eq_encode_of_notMem (hwritten ▸ by decide)
  rw [steps, hsteps, List.getLast?_concat, hwritten, hself]

/-- A confined name leads on from the place of the node through segments of its own to a search. -/
theorem searchUrl_of_confined (hbase : Url.resolve none (baseText host) = .ok base)
    (hnet : InNetwork base port front last) (hindex : Confined index) :
    ∃ below, searchUrl host index = .ok { base with
      path := .segments (front ++ (below ++ ["_search".toList]))
      query := Url.encodeQuery (.network port) (Cut.ofText (written index)).query
      fragment := Url.encodeFragment (Cut.ofText (written index)).fragment } := by
  obtain ⟨before, hsteps⟩ := List.getLast?_eq_some_iff.1 hindex.search
  have hstays := hindex.stays
  rw [hsteps, Url.stays_concat_iff isDoubleDot_search] at hstays
  refine ⟨before.foldl Url.step [], ?_⟩
  have hfold : before.foldl Url.step front = front ++ before.foldl Url.step [] := by
    have happend := Url.foldl_step_append hstays front List.length_nil
    rwa [List.append_nil] at happend
  have hsearch : Url.lastSegment "_search".toList = "_search".toList := rfl
  rw [searchUrl_of_no_slash hbase hnet hindex.noScheme hindex.noSlash, hsteps, Url.follow_concat,
    isDoubleDot_search, if_neg Bool.false_ne_true, hfold, hsearch, List.append_assoc]

/-- A confined name leads below every node whose path ends in a slash. -/
theorem below_of_confined (hbase : Url.resolve none (baseText host) = .ok base)
    (hslash : base.EndsInSlash) (hindex : Confined index) :
    ∃ u, searchUrl host index = .ok u ∧ Below base u := by
  obtain ⟨port, front, last, hnet⟩ := inNetwork_of_resolve hbase
  obtain ⟨below, hsearch⟩ := searchUrl_of_confined hbase hnet hindex
  obtain rfl := hnet.endsInSlash_iff.1 hslash
  refine ⟨_, hsearch, rfl, rfl, rfl, ?_, ?_⟩
  · obtain ⟨s, hs⟩ : ∃ s, Url.segmentsText (below ++ ["_search".toList]) = '/' :: s := by
      cases below with
      | nil => exact ⟨_, rfl⟩
      | cons t below => exact ⟨_, rfl⟩
    rw [hnet.text_path, hnet.authority, Url.text_segments, Url.segmentsText_append, hs]
    exact (List.prefix_append_right_inj _).2 (List.prefix_append ['/'] s)
  · rw [hnet.authority, Url.text_segments, ← List.append_assoc]
    exact (Url.suffix_segmentsText_iff (by decide) (by decide)).2 rfl

/-! ## Names of letters and digits -/

/-- A letter or a digit of ASCII, a hyphen or an underscore. -/
def isPlain (c : Char) : Bool :=
  c.isAlphanum || c = '_' || c = '-'

/-- The characters of plain names are ASCII. -/
theorem toNat_of_isPlain {c : Char} (h : isPlain c = true) : c.toNat < 0x80 := by
  delta isPlain Char.isAlphanum Char.isAlpha Char.isUpper Char.isLower Char.isDigit at h
  simp only [Bool.or_eq_true, Bool.and_eq_true, decide_eq_true_eq, ge_iff_le,
    UInt32.le_iff_toNat_le] at h
  obtain (((h | h) | h) | rfl) | rfl := h
  · exact Nat.lt_of_le_of_lt h.2 (by decide)
  · exact Nat.lt_of_le_of_lt h.2 (by decide)
  · exact Nat.lt_of_le_of_lt h.2 (by decide)
  · decide
  · decide

/-- A plain character has no meaning in a URL. -/
structure Meaningless (c : Char) : Prop where
  isEdge : isEdge c = false
  counts : counts c = true
  endsPath : endsPath c = false
  isMark : isMark c = false
  reserved : Url.reservedInPath c = false
  notSign : c ≠ ':' ∧ c ≠ '.' ∧ c ≠ '%'

/-- No character of a plain name has a meaning in a reference. There are 128 candidates, which are
checked one by one. -/
theorem meaningless_of_isPlain {c : Char} (h : isPlain c = true) : Meaningless c := by
  have hascii := toNat_of_isPlain h
  have hall : ∀ n : Fin 0x80, isPlain (Char.ofNat n) = true →
      isEdge (Char.ofNat n) = false ∧ counts (Char.ofNat n) = true ∧
        endsPath (Char.ofNat n) = false ∧ isMark (Char.ofNat n) = false ∧
        Url.reservedInPath (Char.ofNat n) = false ∧
        Char.ofNat n ≠ ':' ∧ Char.ofNat n ≠ '.' ∧ Char.ofNat n ≠ '%' := by
    decide +kernel
  have hc := hall ⟨c.toNat, hascii⟩
  rw [Char.ofNat_toNat] at hc
  obtain ⟨hedge, hcounts, hends, hmark, hreserved, hsign⟩ := hc h
  exact ⟨hedge, hcounts, hends, hmark, hreserved, hsign⟩

/-- All of a plain name counts, and of the search behind it. -/
theorem written_of_plain (h : ∀ c ∈ index.toList, isPlain c = true) :
    written index = index.toList ++ "/_search".toList := by
  have hcounts : ∀ c ∈ index.toList ++ "/_search".toList, counts c = true := by
    intro c hc
    obtain hc | hc := List.mem_append.1 hc
    · exact (meaningless_of_isPlain (h c hc)).counts
    · exact List.all_eq_true.1 (by decide) c hc
  have hfront : (index.toList ++ "/_search".toList).dropWhile isEdge
      = index.toList ++ "/_search".toList := by
    cases hindex : index.toList with
    | nil => rfl
    | cons c s =>
      have hplain := meaningless_of_isPlain (h c (hindex ▸ List.mem_cons_self))
      exact List.dropWhile_cons_of_neg (by simp [hplain.isEdge])
  rw [written, String.toList_append, hfront, List.filter_eq_self.2 hcounts]

/-- Neither a query nor a fragment is in a plain name. -/
theorem cut_of_plain (h : ∀ c ∈ index.toList, isPlain c = true) :
    Cut.ofText (written index) = ⟨index.toList ++ "/_search".toList, none, none⟩ := by
  rw [written_of_plain h]
  refine Url.ofText_of_no_mark fun c hc => ?_
  obtain hc | hc := List.mem_append.1 hc
  · exact (meaningless_of_isPlain (h c hc)).endsPath
  · have hsearch : "/_search".toList.all (!endsPath ·) = true := by decide
    simpa using List.all_eq_true.1 hsearch c hc

/-- The way of a plain name is the name and the search behind it. -/
theorem way_of_plain (h : ∀ c ∈ index.toList, isPlain c = true) :
    way index = index.toList ++ "/_search".toList := by
  rw [← body_written, cut_of_plain h]

/-- The way of a plain name has two segments. -/
theorem steps_of_plain (h : ∀ c ∈ index.toList, isPlain c = true) :
    steps index = [index.toList, "_search".toList] := by
  have hname : index.toList.splitOnP isMark = [index.toList] :=
    List.splitOnP_eq_singleton fun c hc => (meaningless_of_isPlain (h c hc)).isMark
  have hslash : "/_search".toList = '/' :: "_search".toList := rfl
  rw [steps, way_of_plain h, hslash, List.splitOnP_append_cons _ _ rfl, hname]
  rfl

/-- No plain name is a segment of dots. -/
theorem noDots_of_plain {s : List Char} (hne : s ≠ []) (h : ∀ c ∈ s, isPlain c = true) :
    Url.isDoubleDot s = false ∧ Url.isSingleDot s = false := by
  cases s with
  | nil => exact absurd rfl hne
  | cons c s =>
    obtain ⟨-, hdot, hpercent⟩ := (meaningless_of_isPlain (h c List.mem_cons_self)).notSign
    have hdots : Url.plainDots (c :: s) = c :: Url.plainDots s := by
      rw [Url.plainDots]
      · exact fun rest hc => absurd hc hpercent
      · exact fun rest hc => absurd hc hpercent
    simp [Url.isDoubleDot, Url.isSingleDot, hdots, hdot]

/-- Plain names are confined. -/
theorem confined_of_plain (hne : index ≠ "") (h : ∀ c ∈ index.toList, isPlain c = true) :
    Confined index := by
  have hsteps := steps_of_plain h
  have hlist : index.toList ≠ [] := by simpa using hne
  obtain ⟨hup, hhere⟩ := noDots_of_plain hlist h
  refine ⟨?_, ?_, ?_, ?_⟩
  · rintro ⟨c, name, rest, hway, -, -⟩
    have hcolon : ':' ∈ way index := hway ▸ List.mem_append_right _ List.mem_cons_self
    rw [way_of_plain h, List.mem_append] at hcolon
    obtain hcolon | hcolon := hcolon
    · exact (meaningless_of_isPlain (h _ hcolon)).notSign.1 rfl
    · exact absurd hcolon (by decide)
  · simpa [hsteps] using hlist
  · rw [hsteps]
    exact .down hup hhere (.down rfl rfl .nil)
  · rw [hsteps]
    rfl

/-- A plain name leads to its own segment below the node, and to the search in it. -/
theorem searchUrl_of_plain (hbase : Url.resolve none (baseText host) = .ok base)
    (hnet : InNetwork base port front last) (hne : index ≠ "")
    (h : ∀ c ∈ index.toList, isPlain c = true) :
    searchUrl host index = .ok { base with
      path := .segments (front ++ [index.toList, "_search".toList])
      query := none
      fragment := none } := by
  obtain ⟨hup, hhere⟩ := noDots_of_plain (by simpa using hne) h
  have hindex := confined_of_plain hne h
  have hsearch : Url.lastSegment "_search".toList = "_search".toList := rfl
  have hstep : Url.step front index.toList = front ++ [index.toList] := by
    have hself : Text.Percent.encode Url.reservedInPath index.toList = index.toList :=
      Text.Percent.encode_eq_self fun c hc =>
        ⟨toNat_of_isPlain (h c hc), (meaningless_of_isPlain (h c hc)).reserved⟩
    rw [Url.step, hup, hhere, if_neg Bool.false_ne_true, if_neg Bool.false_ne_true, hself]
  have hfollow : Url.follow (.network port) front [index.toList, "_search".toList]
      = front ++ [index.toList, "_search".toList] := by
    rw [← List.singleton_append, Url.follow_concat, isDoubleDot_search,
      if_neg Bool.false_ne_true, List.foldl_cons, List.foldl_nil, hstep, hsearch, List.append_assoc,
      List.singleton_append]
  rw [searchUrl_of_no_slash hbase hnet hindex.noScheme hindex.noSlash, steps_of_plain h, hfollow,
    cut_of_plain h]
  rfl

/-- The search in an index stands in the index's segment below the node. -/
theorem text_path_of_plain (hnet : InNetwork base port front last) {name : List Char} :
    (Url.Path.segments (front ++ [name, "_search".toList])).text base.authority.isSome
      = Url.segmentsText front ++ '/' :: (name ++ "/_search".toList) := by
  rw [hnet.authority, Url.text_segments, Url.segmentsText_append]
  rfl

end

/-- A plain name is added to a node that is configured without the marks of a query and a fragment:
the URL of the search is that of the node, followed by the name and the search. It does not matter
whether the node is configured with a slash at its end. -/
theorem searchUrl_plain_name {host index : String} {base : Url} (hquery : '?' ∉ host.toList)
    (hfragment : '#' ∉ host.toList) (hbase : Url.resolve none (baseText host) = .ok base)
    (hne : index ≠ "") (hplain : ∀ c ∈ index.toList, isPlain c = true) :
    ∃ u, searchUrl host index = .ok u ∧
      u.scheme = base.scheme ∧ u.authority = base.authority ∧
      u.path.text u.authority.isSome
        = base.path.text base.authority.isSome ++ index.toList ++ "/_search".toList ∧
      u.query = none ∧ u.fragment = none ∧
      u.text = base.text ++ index.toList ++ "/_search".toList ∧
      (host.toList.getLast? ≠ some '/' → searchUrl (host ++ "/") index = .ok u) := by
  obtain ⟨hslash, hnoQuery, hnoFragment⟩ := plain_of_resolve hbase hquery hfragment
  obtain ⟨port, front, last, hnet⟩ := inNetwork_of_resolve hbase
  have hsearch := searchUrl_of_plain hbase hnet hne hplain
  have hpath : (Url.Path.segments (front ++ [index.toList, "_search".toList])).text
      base.authority.isSome
      = base.path.text base.authority.isSome ++ index.toList ++ "/_search".toList := by
    rw [text_path_of_plain hnet, hnet.text_path, hnet.endsInSlash_iff.1 hslash]
    simp
  refine ⟨_, hsearch, rfl, rfl, hpath, rfl, rfl, ?_, fun hlast => ?_⟩
  · simp only [Url.text, Url.target, hpath, hnoQuery, hnoFragment, Url.marked, Option.map_none,
      Option.getD_none, List.append_nil, List.append_assoc]
  · have hhost : host ≠ "" := by
      rintro rfl
      cases hbase
    rw [← hsearch]
    unfold searchUrl
    rw [baseText_append_slash hhost hlast]

/-- A node with an account behind a proxy, whose path has an empty segment and dot segments. -/
theorem searchUrl_plain_name_proxy :
    ∃ u, searchUrl "https://user:pw@es.example.com:9243/a//b/../proxy" "movie_index-2" = .ok u ∧
      u.text = "https://user:pw@es.example.com:9243/a//proxy/movie_index-2/_search".toList ∧
      searchUrl "https://user:pw@es.example.com:9243/a//b/../proxy/" "movie_index-2" = .ok u := by
  have hbase : Url.resolve none (baseText "https://user:pw@es.example.com:9243/a//b/../proxy")
      = .ok ⟨"https".toList,
          some ⟨"user".toList, "pw".toList, .name "es.example.com".toList, some 9243⟩,
          .segments ["a".toList, [], "proxy".toList, []], none, none⟩ := by
    decide +kernel
  obtain ⟨u, hu, -, -, -, -, -, htext, hslash⟩ :=
    @searchUrl_plain_name _ "movie_index-2" _ (by decide) (by decide) hbase (by decide)
      (List.all_eq_true.1 rfl)
  exact ⟨u, hu, htext.trans rfl, hslash (by decide)⟩

/-! ## Names that lead elsewhere -/

section
variable {host index : String} {base : Url} {port : Nat} {front : List (List Char)}
  {last : List Char}

/-- A node whose path has one segment. -/
def nodeAt (scheme segment : List Char) : Url where
  scheme := scheme
  authority := some ⟨[], [], .name ['a'], none⟩
  path := .segments [segment, []]
  query := none
  fragment := none

/-- The three nodes, resolved. -/
theorem resolve_nodeAt :
    Url.resolve none (baseText "http://a/p") = .ok (nodeAt "http".toList ['p']) ∧
      Url.resolve none (baseText "http://a/q") = .ok (nodeAt "http".toList ['q']) ∧
      Url.resolve none (baseText "https://a/p") = .ok (nodeAt "https".toList ['p']) := by
  decide +kernel

/-- Such a node lies in a network and has one segment as its path. -/
theorem inNetwork_nodeAt {scheme segment : List Char}
    (h : Url.SchemeKind.ofScheme scheme = .network port) :
    InNetwork (nodeAt scheme segment) port [segment] [] :=
  ⟨h, rfl, rfl, List.not_mem_nil⟩

/-- A URL below another has an authority exactly if the other does. -/
theorem Below.isSome_authority {u : Url} (h : Below base u) :
    u.authority.isSome = base.authority.isSome := by
  have hsome := congrArg Option.isSome h.host
  rwa [Option.isSome_map, Option.isSome_map] at hsome

/-- No path begins with those of two nodes. -/
theorem path_ne_of_below {scheme : List Char} {u v : Url} (hu : Below (nodeAt scheme ['p']) u)
    (hv : Below (nodeAt scheme ['q']) v) : u.path ≠ v.path := by
  intro hpath
  have hp := hu.path_begins
  have hq := hv.path_begins
  rw [hu.isSome_authority, hpath] at hp
  rw [hv.isSome_authority] at hq
  have hprefix := List.prefix_of_prefix_length_le hp hq (Nat.le_refl 3)
  exact absurd (List.prefix_iff_eq_take.1 hprefix) (by simp [nodeAt, Url.Path.text, Url.segmentsText])

/-- A name with a scheme that leads below a node names the scheme of the node. -/
theorem scheme_eq_of_below {scheme rest : List Char} {u : Url}
    (hbase : Url.resolve none (baseText host) = .ok base) (hnet : InNetwork base port front last)
    (hscheme : Url.schemeThen? (way index) = some (scheme, rest))
    (hu : searchUrl host index = .ok u) (hbelow : Below base u) : scheme = base.scheme := by
  by_contra hne
  rw [searchUrl_of_base hbase] at hu
  rw [← body_written, ← tidy_eq_written] at hscheme
  have hfound := Url.scheme_of_resolve hnet hscheme (Ne.symm hne) hu
  exact hne (hfound.symm.trans hbelow.scheme)

/-- A name that leads below nodes of both schemes names none. -/
theorem not_namesScheme_of_below {host' : String} {base' u v : Url} {port' : Nat}
    {front' : List (List Char)} {last' : List Char}
    (hbase : Url.resolve none (baseText host) = .ok base) (hnet : InNetwork base port front last)
    (hu : searchUrl host index = .ok u) (hbelow : Below base u)
    (hbase' : Url.resolve none (baseText host') = .ok base')
    (hnet' : InNetwork base' port' front' last') (hv : searchUrl host' index = .ok v)
    (hbelow' : Below base' v) (hne : base.scheme ≠ base'.scheme) : ¬ NamesScheme (way index) := by
  rw [← Url.schemeThen?_eq_none_iff]
  cases hfound : Url.schemeThen? (way index) with
  | none => rfl
  | some found =>
    have hscheme := scheme_eq_of_below hbase hnet hfound hu hbelow
    have hscheme' := scheme_eq_of_below hbase' hnet' hfound hv hbelow'
    exact absurd (hscheme.symm.trans hscheme') hne

section
variable {hostp hostq : String} {scheme : List Char} {u v : Url}
  (hkind : Url.SchemeKind.ofScheme scheme = .network port)
  (hp : Url.resolve none (baseText hostp) = .ok (nodeAt scheme ['p']))
  (hq : Url.resolve none (baseText hostq) = .ok (nodeAt scheme ['q']))
  (hscheme : ¬ NamesScheme (way index))
  (hu : searchUrl hostp index = .ok u) (hbelow : Below (nodeAt scheme ['p']) u)
  (hv : searchUrl hostq index = .ok v) (hbelow' : Below (nodeAt scheme ['q']) v)
include hkind hp hq hscheme hu hbelow hv hbelow'

/-- A name that leads below nodes with different paths does not begin with a slash. -/
theorem head?_steps_ne_of_below : (steps index).head? ≠ some [] := by
  rw [ne_eq, head?_steps_eq_nil_iff]
  intro hhead
  rw [searchUrl_of_no_scheme hp hscheme] at hu
  rw [searchUrl_of_no_scheme hq hscheme] at hv
  cases hway : way index with
  | nil =>
    rw [hway] at hu
    have hends := hbelow.path_ends
    rw [hbelow.isSome_authority, Url.path_of_relativeTo_nil (inNetwork_nodeAt hkind) hu] at hends
    exact absurd hends.length_le (by simp [nodeAt, Url.Path.text, Url.segmentsText])
  | cons c s =>
    rw [hway] at hu hv hhead
    have hnetp : InNetwork (nodeAt scheme ['p']) port [['p']] [] := inNetwork_nodeAt hkind
    have hnetq : InNetwork (nodeAt scheme ['q']) port [['q']] [] := inNetwork_nodeAt hkind
    exact path_ne_of_below hbelow hbelow'
      (Url.path_of_relativeTo_mark hnetp hnetq rfl (hhead c rfl) hu hv)

/-- A name that leads below nodes with different paths ends with a search and does not lead above
them. -/
theorem stays_of_below :
    (steps index).getLast? = some "_search".toList ∧ Stays 0 (steps index) := by
  have hslash := head?_steps_ne_of_below hkind hp hq hscheme hu hbelow hv hbelow'
  rw [searchUrl_of_no_slash hp (inNetwork_nodeAt hkind) hscheme hslash] at hu
  rw [searchUrl_of_no_slash hq (inNetwork_nodeAt hkind) hscheme hslash] at hv
  obtain rfl := Except.ok.inj hu
  obtain rfl := Except.ok.inj hv
  have hends := hbelow.path_ends
  rw [hbelow.isSome_authority] at hends
  have hsearch : (steps index).getLast? = some "_search".toList :=
    getLast?_steps_of_suffix ((Url.text_segments _).symm ▸ hends)
  refine ⟨hsearch, ?_⟩
  obtain ⟨before, hsteps⟩ := List.getLast?_eq_some_iff.1 hsearch
  rw [hsteps, Url.stays_concat_iff isDoubleDot_search]
  -- If the segments led above the nodes, they would forget which node they came from.
  by_contra hstays
  have hsame : before.foldl Url.step [['p']] = before.foldl Url.step [['q']] :=
    Url.foldl_step_cons_congr ['p'] ['q'] hstays
  refine path_ne_of_below hbelow hbelow' ?_
  simp only [hsteps, Url.follow_concat, hsame]

end

/-- A name that leads below every node is confined. -/
theorem confined_of_below
    (h : ∀ host base, Url.resolve none (baseText host) = .ok base → base.EndsInSlash →
      ∃ u, searchUrl host index = .ok u ∧ Below base u) : Confined index := by
  obtain ⟨hp, hq, hs⟩ := resolve_nodeAt
  obtain ⟨u, hu, hbelow⟩ := h _ _ hp rfl
  obtain ⟨v, hv, hbelow'⟩ := h _ _ hq rfl
  obtain ⟨w, hw, hbelow''⟩ := h _ _ hs rfl
  have hhttp : Url.SchemeKind.ofScheme "http".toList = .network 80 := rfl
  have hhttps : Url.SchemeKind.ofScheme "https".toList = .network 443 := rfl
  have hscheme : ¬ NamesScheme (way index) :=
    not_namesScheme_of_below hp (inNetwork_nodeAt hhttp) hu hbelow hs (inNetwork_nodeAt hhttps) hw
      hbelow'' (by simp [nodeAt])
  obtain ⟨hsearch, hstays⟩ := stays_of_below hhttp hp hq hscheme hu hbelow hv hbelow'
  exact ⟨hscheme, head?_steps_ne_of_below hhttp hp hq hscheme hu hbelow hv hbelow', hstays, hsearch⟩

/-- A node that all confined names lead below has a path that ends in a slash. -/
theorem endsInSlash_of_below (hbase : Url.resolve none (baseText host) = .ok base)
    (h : ∀ index, Confined index → ∃ u, searchUrl host index = .ok u ∧ Below base u) :
    base.EndsInSlash := by
  obtain ⟨port, front, last, hnet⟩ := inNetwork_of_resolve hbase
  -- What stands behind the last slash of the node begins every plain name.
  have hlast : ∀ name : String, name ≠ "" → (∀ c ∈ name.toList, isPlain c = true) →
      last <+: name.toList ++ "/_search".toList := by
    intro name hne hplain
    obtain ⟨u, hu, hbelow⟩ := h name (confined_of_plain hne hplain)
    have hsearch := searchUrl_of_plain hbase hnet hne hplain
    obtain rfl := Except.ok.inj (hsearch.symm.trans hu)
    have hbegins := hbelow.path_begins
    rw [hnet.text_path, text_path_of_plain hnet] at hbegins
    exact (List.prefix_cons_inj _).1 ((List.prefix_append_right_inj _).1 hbegins)
  rw [hnet.endsInSlash_iff]
  cases last with
  | nil => rfl
  | cons c rest =>
    have ha := hlast "a" (by decide) (List.all_eq_true.1 rfl)
    have hb := hlast "b" (by decide) (List.all_eq_true.1 rfl)
    have hca : c = 'a' := (List.cons_prefix_cons.1 ha).1
    have hcb : c = 'b' := (List.cons_prefix_cons.1 hb).1
    exact absurd (hca.symm.trans hcb) (by decide)

end

/-- A name leads below every node whose path ends in a slash exactly if it is confined, and all
confined names lead below a node exactly if its path ends in a slash. This is the case if the node is
configured without the marks of a query and a fragment. Other names, too, stay on the node unless
they begin with a scheme or two slashes. -/
theorem searchUrl_below_iff (host index : String) :
    ((∀ node base, Url.resolve none (baseText node) = .ok base → base.EndsInSlash →
        ∃ u, searchUrl node index = .ok u ∧ Below base u) ↔ Confined index) ∧
      ∀ base, Url.resolve none (baseText host) = .ok base →
        ((∀ name, Confined name → ∃ u, searchUrl host name = .ok u ∧ Below base u) ↔
          base.EndsInSlash) ∧
        ('?' ∉ host.toList → '#' ∉ host.toList → base.EndsInSlash) ∧
        (¬ NamesScheme (way index) → ((way index).takeWhile isMark).length < 2 →
          ∃ u, searchUrl host index = .ok u ∧
            u.scheme = base.scheme ∧ u.authority = base.authority) := by
  refine ⟨⟨confined_of_below, fun hindex node base hbase hslash => ?_⟩, fun base hbase =>
    ⟨⟨endsInSlash_of_below hbase, fun hslash name hname => ?_⟩, fun hquery hfragment => ?_, ?_⟩⟩
  · exact below_of_confined hbase hslash hindex
  · exact below_of_confined hbase hslash hname
  · exact (plain_of_resolve hbase hquery hfragment).1
  · exact exists_searchUrl hbase

/-- The name of an index on another cluster is read as a scheme and a text, and the node is lost. -/
theorem searchUrl_remote_name :
    ∃ base u, Url.resolve none (baseText "http://localhost:9200") = .ok base ∧
      searchUrl "http://localhost:9200" "remote:movies" = .ok u ∧
      u.text = "remote:movies/_search".toList ∧ u.authority = none ∧ ¬ Below base u := by
  refine ⟨⟨"http".toList, some ⟨[], [], .name "localhost".toList, some 9200⟩, .segments [[]], none,
    none⟩, ⟨"remote".toList, none, .opaqueText "movies/_search".toList, none, none⟩, ?_, ?_, ?_, ?_,
    ?_⟩
  · decide +kernel
  · decide +kernel
  · rfl
  · rfl
  · intro h
    cases h.scheme

end MovieCatalog.Engine
