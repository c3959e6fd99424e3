import MovieCatalog.Proofs.Form.Urlencoded
import MovieCatalog.Url.Basic
import MovieCatalog.Url.Segments

/-!
# Paths that are reached from a path

The segments that are added to a path end with what is written for the last of them
(`Url.follow_concat`). Those that never lead above the place where they begin (`Url.Stays`) leave
the path in front of that place alone, and add what they would add to an empty one
(`Url.foldl_step_append`). Those that do lead above it forget the segment that they take away there,
so that it does not matter which one it was (`Url.foldl_step_cons_congr`).
-/

namespace MovieCatalog

namespace Text.Percent

/-- An octet behind a percent sign is no slash. -/
theorem notMem_escaped (b : UInt8) : '/' ∉ ascii (escaped b) := by
  have h : ∀ n : Fin UInt8.size, '/' ∉ ascii (escaped (UInt8.ofFin n)) := by decide +kernel
  exact h b.toFin

/-- A text without slashes is written without slashes. -/
theorem notMem_encode {reserved : Char → Bool} {s : List Char} (h : '/' ∉ s) :
    '/' ∉ encode reserved s := by
  rw [encode, List.mem_flatMap]
  rintro ⟨c, hc, hslash⟩
  split at hslash
  · rw [List.mem_singleton] at hslash
    exact h (hslash ▸ hc)
  · rw [ascii, List.map_flatMap, List.mem_flatMap] at hslash
    obtain ⟨b, -, hb⟩ := hslash
    exact notMem_escaped b hb

/-- Characters of ASCII that are not reserved are written as they are. -/
theorem encode_eq_self {reserved : Char → Bool} {s : List Char}
    (h : ∀ c ∈ s, c.toNat < 0x80 ∧ reserved c = false) : encode reserved s = s := by
  induction s with
  | nil => rfl
  | cons c s ih =>
    obtain ⟨hascii, hreserved⟩ := h c List.mem_cons_self
    rw [encode, List.flatMap_cons, if_pos (by simp [hascii, hreserved]), ← encode,
      ih fun d hd => h d (List.mem_cons_of_mem c hd), List.singleton_append]

/-- What is written without a percent sign is written as it is. -/
theorem eq_encode_of_notMem {reserved : Char → Bool} {s : List Char}
    (h : '%' ∉ encode reserved s) : encode reserved s = s := by
  refine encode_eq_self fun c hc => ?_
  by_contra hescaped
  have hsign : '%' ∈ ascii ((String.utf8EncodeChar c).flatMap escaped) := by
    obtain ⟨b, rest, hoctets⟩ := List.exists_cons_of_ne_nil (String.utf8EncodeChar_ne_nil (c := c))
    rw [hoctets]
    exact List.mem_cons_self
  refine h (List.mem_flatMap.2 ⟨c, hc, ?_⟩)
  rw [if_neg (by simpa using hescaped)]
  exact hsign

end Text.Percent

namespace Url

/-! ## Segments -/

/-- The scheme of a network has the paths that are described here: every segment can be taken away.
-/
theorem shorten_network (port : Nat) (path : List (List Char)) :
    shorten (.network port) path = path.dropLast := by
  unfold shorten
  split
  · simp
  · rfl

/-- In a network, a segment is added at the end, in its escaped form. -/
theorem addSegment_network (port : Nat) (path : List (List Char)) (s : List Char) :
    addSegment (.network port) path s = path ++ [Text.Percent.encode reservedInPath s] := by
  simp [addSegment]

section
variable {port : Nat} {path : List (List Char)} {s last : List Char} {rest : List (List Char)}

/-- The path with one segment more that something stands behind. -/
def step (path : List (List Char)) (s : List Char) : List (List Char) :=
  if isDoubleDot s then path.dropLast
  else if isSingleDot s then path
  else path ++ [Text.Percent.encode reservedInPath s]

/-- What is written for the last segment. -/
def lastSegment (s : List Char) : List Char :=
  if isDoubleDot s ∨ isSingleDot s then [] else Text.Percent.encode reservedInPath s

/-- A segment that is not the last one is one step. -/
theorem follow_cons_cons :
    follow (.network port) path (s :: last :: rest)
      = follow (.network port) (step path s) (last :: rest) := by
  rw [follow, step]
  · split
    · rw [shorten_network]
    · split
      · rfl
      · rw [addSegment_network]
  · simp

/-- The last segment is written behind what the one before it leave. -/
theorem follow_concat (front : List (List Char)) :
    follow (.network port) path (front ++ [last])
      = (if isDoubleDot last then (front.foldl step path).dropLast else front.foldl step path)
        ++ [lastSegment last] := by
  induction front generalizing path with
  | nil =>
    rw [List.nil_append, follow, lastSegment, shorten_network, addSegment_network, List.foldl_nil]
    cases isDoubleDot last <;> cases isSingleDot last <;> simp
  | cons s front ih =>
    rw [List.foldl_cons, ← ih]
    cases front with
    | nil => exact follow_cons_cons
    | cons t front => exact follow_cons_cons

/-! ## Staying below a place -/

/-- Segments that lead from a place `depth` levels below the start to no place above the start. -/
inductive Stays : Nat → List (List Char) → Prop
  | nil {depth : Nat} : Stays depth []
  | up {depth : Nat} {s : List Char} {rest : List (List Char)} (hup : isDoubleDot s = true)
      (hrest : Stays depth rest) : Stays (depth + 1) (s :: rest)
  | here {depth : Nat} {s : List Char} {rest : List (List Char)} (hup : isDoubleDot s = false)
      (hhere : isSingleDot s = true) (hrest : Stays depth rest) : Stays depth (s :: rest)
  | down {depth : Nat} {s : List Char} {rest : List (List Char)} (hup : isDoubleDot s = false)
      (hhere : isSingleDot s = false) (hrest : Stays (depth + 1) rest) : Stays depth (s :: rest)

/-- Segments that stay below the start do so with one more that does not lead up, and without it. -/
theorem stays_concat_iff {depth : Nat} {front : List (List Char)} (h : isDoubleDot last = false) :
    Stays depth (front ++ [last]) ↔ Stays depth front := by
  induction front generalizing depth with
  | nil =>
    refine ⟨fun _ => .nil, fun _ => ?_⟩
    cases hhere : isSingleDot last with
    | true => exact .here h hhere .nil
    | false => exact .down h hhere .nil
  | cons s front ih =>
    constructor
    · rintro (_ | ⟨hup, hrest⟩ | ⟨hup, hhere, hrest⟩ | ⟨hup, hhere, hrest⟩)
      · exact .up hup (ih.1 hrest)
      · exact .here hup hhere (ih.1 hrest)
      · exact .down hup hhere (ih.1 hrest)
    · rintro (_ | ⟨hup, hrest⟩ | ⟨hup, hhere, hrest⟩ | ⟨hup, hhere, hrest⟩)
      · exact .up hup (ih.2 hrest)
      · exact .here hup hhere (ih.2 hrest)
      · exact .down hup hhere (ih.2 hrest)

/-- Segments that stay below a place leave the path to it alone. -/
theorem foldl_step_append {depth : Nat} {segments : List (List Char)} (h : Stays depth segments)
    (start : List (List Char)) {below : List (List Char)} (hdepth : below.length = depth) :
    segments.foldl step (start ++ below) = start ++ segments.foldl step below := by
  induction h generalizing below with
  | nil => rfl
  | up hup _ ih =>
    have hne : below ≠ [] := List.ne_nil_of_length_eq_add_one hdepth
    rw [List.foldl_cons, List.foldl_cons, step, step, if_pos hup, if_pos hup,
      List.dropLast_append_of_ne_nil hne,
      ih (by rw [List.length_dropLast, hdepth, Nat.add_sub_cancel])]
  | here hup hhere _ ih =>
    rw [List.foldl_cons, List.foldl_cons, step, step, if_neg (by simp [hup]), if_pos hhere,
      if_neg (by simp [hup]), if_pos hhere, ih hdepth]
  | down hup hhere _ ih =>
    rw [List.foldl_cons, List.foldl_cons, step, step, if_neg (by simp [hup]),
      if_neg (by simp [hhere]), if_neg (by simp [hup]), if_neg (by simp [hhere]),
      List.append_assoc, ih (by rw [List.length_append, hdepth]; rfl)]

/-- Segments that lead above a place take its segment away, whichever it is. -/
theorem foldl_step_cons_congr {segments : List (List Char)} (x y : List Char)
    {below : List (List Char)} (h : ¬ Stays below.length segments) :
    segments.foldl step (x :: below) = segments.foldl step (y :: below) := by
  induction segments generalizing below with
  | nil => exact absurd .nil h
  | cons s rest ih =>
    rw [List.foldl_cons, List.foldl_cons]
    cases hup : isDoubleDot s with
    | true =>
      rw [step, step, if_pos hup, if_pos hup]
      cases below with
      | nil => rfl
      | cons z below =>
        rw [List.dropLast_cons_cons, List.dropLast_cons_cons]
        refine ih fun hstays => h (.up hup ?_)
        rwa [List.length_dropLast] at hstays
    | false =>
      cases hhere : isSingleDot s with
      | true =>
        rw [step, step, if_neg (by simp [hup]), if_pos hhere, if_neg (by simp [hup]), if_pos hhere]
        exact ih fun hstays => h (.here hup hhere hstays)
      | false =>
        rw [step, step, if_neg (by simp [hup]), if_neg (by simp [hhere]), if_neg (by simp [hup]),
          if_neg (by simp [hhere]), List.cons_append, List.cons_append]
        refine ih fun hstays => h (.down hup hhere ?_)
        rwa [List.length_append, List.length_singleton] at hstays

end

/-! ## Texts of paths -/

theorem segmentsText_append (path rest : List (List Char)) :
    segmentsText (path ++ rest) = segmentsText path ++ segmentsText rest :=
  List.flatMap_append

/-- The last segment stands behind a slash at the end of the text. -/
theorem segmentsText_concat (path : List (List Char)) (last : List Char) :
    segmentsText (path ++ [last]) = segmentsText path ++ '/' :: last := by
  simp [segmentsText]

/-- Below an authority a path is written as its segments are. -/
theorem text_segments (path : List (List Char)) :
    (Path.segments path).text true = segmentsText path := by
  unfold Path.text
  split <;> simp_all

/-- What stands behind the last slash of a path is its last segment. -/
theorem suffix_segmentsText_iff {path : List (List Char)} {s last : List Char} (hs : '/' ∉ s)
    (hlast : '/' ∉ last) : '/' :: s <:+ segmentsText (path ++ [last]) ↔ s = last := by
  rw [segmentsText_concat]
  constructor
  · rintro ⟨front, h⟩
    have hcut : ∀ {t : List Char}, '/' ∉ t → ∀ front : List Char,
        ((front ++ '/' :: t).reverse.takeWhile (· ≠ '/')).reverse = t := by
      intro t ht front
      rw [List.reverse_append, List.reverse_cons, List.append_assoc,
        List.takeWhile_append_of_pos fun c hc => ?_]
      · simp
      · exact Text.forall_ne_of_notMem ht c (List.mem_reverse.1 hc)
    rw [← hcut hs front, h, hcut hlast]
  · rintro rfl
    exact List.suffix_append _ _

/-! ## Cutting at slashes -/

/-- A character that separates the segments of a network's URL. -/
def isMark (c : Char) : Bool :=
  c = '/' || c = '\\'

/-- In a network, a backslash is a slash. -/
theorem isSlash_network (port : Nat) (c : Char) : (SchemeKind.network port).isSlash c = isMark c := by
  simp [SchemeKind.isSlash, SchemeKind.isSpecial, isMark]

/-- The segments of a network's URL are cut at slashes of both kinds. -/
theorem slashParts_network (port : Nat) (s : List Char) :
    slashParts (.network port) s = s.splitOnP isMark := by
  induction s with
  | nil => rfl
  | cons c s ih =>
    rw [slashParts, List.map_cons, List.splitOn_cons_eq_if_modifyHead, ← slashParts, ih,
      List.splitOnP_cons_eq_if_modifyHead, isSlash_network]
    cases hc : isMark c with
    | true => simp
    | false =>
      have hne : c ≠ '/' := by
        rintro rfl
        cases hc
      simp [hne]

/-- No segment holds a slash when it is written. -/
theorem notMem_lastSegment {s : List Char} (h : '/' ∉ s) : '/' ∉ lastSegment s := by
  unfold lastSegment
  split
  · exact List.not_mem_nil
  · exact Text.Percent.notMem_encode h

/-- There is a last piece between slashes, and it decides how a path ends that goes this way. -/
theorem exists_follow_splitOnP (port : Nat) (path : List (List Char)) (s : List Char) :
    ∃ before piece front, s.splitOnP isMark = before ++ [piece] ∧ '/' ∉ piece ∧
      follow (.network port) path (s.splitOnP isMark) = front ++ [lastSegment piece] := by
  obtain ⟨before, piece, hpieces⟩ :=
    (List.eq_nil_or_concat' (s.splitOnP isMark)).resolve_left (List.splitOnP_ne_nil isMark s)
  have hslash : '/' ∉ piece := by
    have hpiece := Text.not_of_mem_splitOnP (hpieces ▸ List.mem_concat_self)
    exact fun h => absurd (hpiece '/' h) (by decide)
  exact ⟨before, piece, _, hpieces, hslash, by rw [hpieces, follow_concat]⟩

/-- Behind a slash at the end stands an empty piece. -/
theorem exists_splitOnP_eq_concat_nil {s : List Char} (h : ∀ c ∈ s.getLast?, isMark c = true) :
    ∃ before, s.splitOnP isMark = before ++ [[]] := by
  obtain rfl | ⟨front, c, rfl⟩ := List.eq_nil_or_concat' s
  · exact ⟨[], rfl⟩
  · have hc : isMark c = true := h c (by simp)
    exact ⟨front.splitOnP isMark, List.splitOnP_append_cons front [] hc⟩

end Url

end MovieCatalog
