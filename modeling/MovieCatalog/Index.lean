/-!
# Fields of the index

The names under which the engine knows the properties of a movie. Texts that are compared as a whole
have a name of their own beside the one under which words are looked up.
-/

namespace MovieCatalog.Index

/-- The fields in which words are looked up. A word found in the title weighs double. -/
def wordFields : List String := ["title^2", "description", "actors", "directors", "genre"]

/-- The countries of a movie. -/
def country : String := "countries"

/-- The users' rating. -/
def rating : String := "users_rating"

/-- The languages of a movie, as whole texts. -/
def language : String := "languages.keyword"

/-- The year of release. -/
def year : String := "year"

/-- The genres of a movie, as whole texts. -/
def genre : String := "genre.keyword"

/-- The running time in hours. -/
def duration : String := "runtime"

end MovieCatalog.Index
