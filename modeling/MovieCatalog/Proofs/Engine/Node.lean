import MovieCatalog.Engine.Address
import MovieCatalog.Proofs.Url.Relative

/-!
# The URL of the engine's node

A configured host stands for a text that begins with the scheme of a network and ends in a slash
(`exists_of_baseText`). If it is read as a URL, this is a place in a network (`inNetwork_of_resolve`).
The slash at the end of the text is one at the end of the path, unless the host holds the mark of a
query or a fragment (`plain_of_resolve`).
-/

namespace MovieCatalog.Engine

open Url (Cut isMark endsPath isEdge tidy InNetwork)

/-- A scheme under which a node can be configured. -/
def NodeScheme (scheme : List Char) : Prop :=
  scheme = "http".toList ∨ scheme = "https".toList

/-- The schemes of nodes are those of networks. -/
theorem NodeScheme.exists_port {scheme : List Char} (h : NodeScheme scheme) :
    ∃ port, Url.SchemeKind.ofScheme scheme = .network port := by
  obtain rfl | rfl := h
  · exact ⟨80, rfl⟩
  · exact ⟨443, rfl⟩

/-- The scheme of a node is found in front of its colon. -/
theorem NodeScheme.schemeThen? {scheme : List Char} (h : NodeScheme scheme) (rest : List Char) :
    Url.schemeThen? (scheme ++ ':' :: rest) = some (scheme, rest) := by
  obtain rfl | rfl := h
  · exact @Url.schemeThen?_append 'h' "ttp".toList rest rfl (List.all_eq_true.1 rfl)
  · exact @Url.schemeThen?_append 'h' "ttps".toList rest rfl (List.all_eq_true.1 rfl)

/-- All characters of a node's scheme count, and none ends the path. -/
theorem NodeScheme.counts {scheme : List Char} (h : NodeScheme scheme) :
    (∀ c ∈ scheme, Url.counts c = true) ∧ ∀ c ∈ scheme, (!endsPath c) = true := by
  obtain rfl | rfl := h <;> exact ⟨List.all_eq_true.1 rfl, List.all_eq_true.1 rfl⟩

/-- No edge stands in front of a node's scheme. -/
theorem NodeScheme.dropWhile_isEdge {scheme : List Char} (h : NodeScheme scheme)
    (rest : List Char) : (scheme ++ rest).dropWhile isEdge = scheme ++ rest := by
  obtain rfl | rfl := h <;> rfl

/-- A node is configured by the scheme of a network, two slashes and a text that ends in a slash. But
for the scheme and slashes, all of it stands in the configured text. -/
theorem exists_of_baseText (host : String) :
    ∃ scheme rest, NodeScheme scheme ∧
      (baseText host).toList = scheme ++ ':' :: '/' :: '/' :: rest ∧
      (baseText host).toList.getLast? = some '/' ∧ ∀ c ∈ rest, c ∈ host.toList ∨ c = '/' := by
  have hfront : ∃ s : String, baseText host = (if s.toList.getLast? = some '/' then s else s ++ "/") ∧
      ∃ scheme rest, NodeScheme scheme ∧ s.toList = scheme ++ ':' :: '/' :: '/' :: rest ∧
        ∀ c ∈ rest, c ∈ host.toList := by
    refine ⟨_, rfl, ?_⟩
    split
    · next hprefix =>
      rw [List.isPrefixOf_iff_prefix, List.isPrefixOf_iff_prefix] at hprefix
      obtain ⟨rest, hrest⟩ | ⟨rest, hrest⟩ := hprefix
      · exact ⟨_, rest, .inl rfl, hrest.symm, fun c hc => hrest ▸ List.mem_append_right _ hc⟩
      · exact ⟨_, rest, .inr rfl, hrest.symm, fun c hc => hrest ▸ List.mem_append_right _ hc⟩
    · exact ⟨_, host.toList, .inl rfl, by simp, fun _ hc => hc⟩
  obtain ⟨s, hs, scheme, rest, hscheme, htext, hrest⟩ := hfront
  rw [hs]
  split
  · next hlast => exact ⟨scheme, rest, hscheme, htext, hlast, fun c hc => .inl (hrest c hc)⟩
  · refine ⟨scheme, rest ++ ['/'], hscheme, by simp [htext], by simp, fun c hc => ?_⟩
    obtain hc | hc := List.mem_append.1 hc
    · exact .inl (hrest c hc)
    · exact .inr (List.mem_singleton.1 hc)

/-- A slash behind a configured host is the one that would be added to it. -/
theorem baseText_append_slash {host : String} (hne : host ≠ "")
    (hlast : host.toList.getLast? ≠ some '/') : baseText (host ++ "/") = baseText host := by
  have hscheme : ∀ scheme : List Char, scheme.dropLast.getLast? = some '/' →
      scheme.isPrefixOf (host ++ "/").toList = scheme.isPrefixOf host.toList := by
    intro scheme hend
    rw [Bool.eq_iff_iff, List.isPrefixOf_iff_prefix, List.isPrefixOf_iff_prefix,
      String.toList_append]
    refine List.prefix_concat_iff.trans (or_iff_right ?_)
    rintro rfl
    rw [List.dropLast_concat] at hend
    exact hlast hend
  have hlist : host.toList ≠ [] := by simpa using hne
  have hbehind : ("http://" ++ host).toList.getLast? ≠ some '/' := by
    rwa [String.toList_append, List.getLast?_append_of_ne_nil _ hlist]
  have hadded : ∀ s : String, (s ++ "/").toList.getLast? = some '/' := fun s => by simp
  simp only [baseText, hscheme "http://".toList rfl, hscheme "https://".toList rfl]
  by_cases hprefix : "http://".toList.isPrefixOf host.toList ∨ "https://".toList.isPrefixOf host.toList
  · rw [if_pos hprefix, if_pos hprefix, if_neg hlast, if_pos (hadded host)]
  · rw [if_neg hprefix, if_neg hprefix, if_neg hbehind, ← String.append_assoc, if_pos (hadded _)]

/-- What counts of the text that a configured host stands for: the scheme of a network, two slashes
and a rest that ends in a slash. But for a slash all of the rest stands in the host. -/
structure NodeText (host : String) (scheme rest : List Char) : Prop where
  ofNode : NodeScheme scheme
  tidied : tidy (baseText host).toList = scheme ++ ':' :: '/' :: '/' :: rest
  ends : ('/' :: rest).getLast? = some '/'
  mem : ∀ c ∈ rest, c ∈ host.toList ∨ c = '/'

/-- Whatever the host is, its node has a scheme. -/
theorem exists_nodeText (host : String) : ∃ scheme rest, NodeText host scheme rest := by
  obtain ⟨scheme, rest, hscheme, htext, hlast, hrest⟩ := exists_of_baseText host
  refine ⟨scheme, rest.filter Url.counts, hscheme, ?_, ?_, fun c hc =>
    hrest c (List.mem_of_mem_filter hc)⟩
  · obtain ⟨front, hfront⟩ := List.getLast?_eq_some_iff.1 hlast
    rw [hfront, Url.tidy_concat (by decide), ← hfront, htext, hscheme.dropWhile_isEdge,
      List.filter_append, List.filter_eq_self.2 hscheme.counts.1]
    rfl
  · have hmarked : ('/' :: rest).getLast? = some '/' := by
      rw [htext, List.getLast?_append] at hlast
      simpa using hlast
    obtain ⟨front, hfront⟩ := List.getLast?_eq_some_iff.1 hmarked
    have hfilter : '/' :: rest.filter Url.counts = front.filter Url.counts ++ ['/'] := by
      have hfiltered := congrArg (List.filter Url.counts) hfront
      rwa [List.filter_append] at hfiltered
    rw [hfilter, List.getLast?_concat]

section
variable {host : String} {scheme rest : List Char} {base : Url}

/-- A node's URL is read as an authority and a path behind the scheme of a network. -/
theorem NodeText.resolve (h : NodeText host scheme rest) {port : Nat}
    (hport : Url.SchemeKind.ofScheme scheme = .network port) :
    Url.resolve none (baseText host)
      = Url.afterSlashes scheme (.network port)
          (('/' :: '/' :: rest.takeWhile (!endsPath ·)).dropWhile isMark)
          (Cut.ofText (scheme ++ ':' :: '/' :: '/' :: rest)) := by
  have hbody : (Cut.ofText (scheme ++ ':' :: '/' :: '/' :: rest)).body
      = scheme ++ ':' :: '/' :: '/' :: rest.takeWhile (!endsPath ·) := by
    rw [Url.body_ofText, List.takeWhile_append_of_pos h.ofNode.counts.2]
    rfl
  have hslash : (Url.SchemeKind.network port).isSlash = isMark := funext (Url.isSlash_network port)
  simp only [Url.resolve, h.tidied, hbody, h.ofNode.schemeThen?, hport, hslash, Option.filter_none]

/-- The marks of a query and a fragment in a node's text stand in the configured host. -/
theorem NodeText.endsPath_eq_false (h : NodeText host scheme rest) (hquery : '?' ∉ host.toList)
    (hfragment : '#' ∉ host.toList) : ∀ c ∈ rest, endsPath c = false := by
  intro c hc
  obtain hc | rfl := h.mem c hc
  · have hne : c ≠ '?' := fun e => hquery (e ▸ hc)
    have hne' : c ≠ '#' := fun e => hfragment (e ▸ hc)
    simp [endsPath, hne, hne']
  · rfl

/-- Without these marks nothing is cut off. -/
theorem NodeText.ofText_of_no_mark (h : NodeText host scheme rest)
    (hmarks : ∀ c ∈ rest, endsPath c = false) :
    Cut.ofText (scheme ++ ':' :: '/' :: '/' :: rest)
      = ⟨scheme ++ ':' :: '/' :: '/' :: rest, none, none⟩ := by
  refine Url.ofText_of_no_mark fun c hc => ?_
  simp only [List.mem_append, List.mem_cons] at hc
  obtain hc | rfl | rfl | rfl | hc := hc
  · simpa using h.ofNode.counts.2 c hc
  · rfl
  · rfl
  · rfl
  · exact hmarks c hc

/-- What stands behind the scheme ends in a slash, however many slashes are skipped. -/
theorem NodeText.getLast?_dropWhile (h : NodeText host scheme rest) :
    ∀ c ∈ (('/' :: '/' :: rest).dropWhile isMark).getLast?, isMark c = true := by
  intro c hc
  obtain ⟨slashes, hslashes⟩ := List.dropWhile_suffix isMark (l := '/' :: '/' :: rest)
  have hend : c ∈ ('/' :: '/' :: rest).getLast? :=
    hslashes ▸ List.mem_getLast?_append_of_mem_getLast? hc
  rw [List.getLast?_cons_cons, h.ends, Option.mem_some_iff] at hend
  rw [← hend]
  rfl

/-- A node's URL is that of a place in a network. -/
theorem inNetwork_of_resolve (h : Url.resolve none (baseText host) = .ok base) :
    ∃ port front last, InNetwork base port front last := by
  obtain ⟨scheme, rest, htext⟩ := exists_nodeText host
  obtain ⟨port, hport⟩ := htext.ofNode.exists_port
  rw [htext.resolve hport] at h
  obtain ⟨front, last, hbase, -⟩ := Url.inNetwork_of_afterSlashes hport h
  exact ⟨port, front, last, hbase⟩

/-- Without the marks of a query and a fragment, a node's URL has neither, and its path ends in a
slash. -/
theorem plain_of_resolve (h : Url.resolve none (baseText host) = .ok base)
    (hquery : '?' ∉ host.toList) (hfragment : '#' ∉ host.toList) :
    base.EndsInSlash ∧ base.query = none ∧ base.fragment = none := by
  obtain ⟨scheme, rest, htext⟩ := exists_nodeText host
  obtain ⟨port, hport⟩ := htext.ofNode.exists_port
  have hmarks := htext.endsPath_eq_false hquery hfragment
  have hwhole : rest.takeWhile (!endsPath ·) = rest :=
    List.takeWhile_eq_self_iff.2 fun c hc => by simp [hmarks c hc]
  rw [htext.resolve hport, hwhole, htext.ofText_of_no_mark hmarks] at h
  obtain ⟨front, last, hnet, hend⟩ := Url.inNetwork_of_afterSlashes hport h
  obtain ⟨a, rfl⟩ := Url.afterSlashes_eq_ok h
  exact ⟨hnet.endsInSlash_iff.2 (hend htext.getLast?_dropWhile), rfl, rfl⟩

end

end MovieCatalog.Engine
