import MovieCatalog.Text.Percent
import MovieCatalog.Url.Reserved
import MovieCatalog.Url.Scheme

/-!
# Segments of a path

A path is cut at its slashes. A segment of one dot stands for nothing, and one of two dots takes the
segment before it away; a dot may be written behind a percent sign. If such a segment is the last
one, the path ends in a slash. In paths of files, a drive letter at the front is never taken away.
-/

namespace MovieCatalog.Url

/-- A segment with its dots, and nothing else, written as dots. -/
def plainDots : List Char → List Char
  | '%' :: '2' :: 'e' :: rest => '.' :: plainDots rest
  | '%' :: '2' :: 'E' :: rest => '.' :: plainDots rest
  | c :: rest => c :: plainDots rest
  | [] => []

/-- A segment that stands for nothing. -/
def isSingleDot (s : List Char) : Bool :=
  plainDots s = ['.']

/-- A segment that takes away the one before it. -/
def isDoubleDot (s : List Char) : Bool :=
  plainDots s = ['.', '.']

/-- A drive letter with its mark, as a segment of a file's path. -/
def isDriveLetter : List Char → Bool
  | [c, m] => c.isAlpha && (m = ':' || m = '|')
  | _ => false

/-- The segments without the last one. A drive letter that stands alone stays. -/
def shorten (kind : SchemeKind) (path : List (List Char)) : List (List Char) :=
  match path with
  | [d] => if kind = .file ∧ isDriveLetter d then [d] else []
  | path => path.dropLast

/-- The path with a segment added, as it is written in the path. -/
def addSegment (kind : SchemeKind) (path : List (List Char)) (segment : List Char) :
    List (List Char) :=
  let drive := if kind = .file ∧ path.isEmpty ∧ isDriveLetter segment then
    segment.take 1 ++ [':'] else segment
  path ++ [Text.Percent.encode reservedInPath drive]

/-- The path with segments added one after the other. -/
def follow (kind : SchemeKind) : List (List Char) → List (List Char) → List (List Char)
  | path, [] => path
  | path, [last] =>
    if isDoubleDot last then shorten kind path ++ [[]]
    else if isSingleDot last then path ++ [[]]
    else addSegment kind path last
  | path, segment :: rest =>
    if isDoubleDot segment then follow kind (shorten kind path) rest
    else if isSingleDot segment then follow kind path rest
    else follow kind (addSegment kind path segment) rest

/-- The parts of a text between slashes. -/
def slashParts (kind : SchemeKind) (s : List Char) : List (List Char) :=
  (s.map fun c => if kind.isSlash c then '/' else c).splitOn '/'

/-- The path that is reached from a path by a relative one. -/
def followText (kind : SchemeKind) (path : List (List Char)) (s : List Char) : List (List Char) :=
  follow kind path (slashParts kind s)

end MovieCatalog.Url
