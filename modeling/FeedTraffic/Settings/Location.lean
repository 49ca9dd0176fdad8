/-!
# Where a settings file lies

A relative path is looked for in the working directory and then in each directory above it.
Messages name a file by its path from the working directory, unless the full path is as short.
-/

namespace FeedTraffic.Settings.Location

/-- The names in a path; empty ones and single points say nothing. -/
def parts (path : String) : List String :=
  (path.splitOn "/").filter fun s => s ≠ "" && s ≠ "."

/-- Whether a path can name a file at all. -/
def namesFile (path : String) : Bool :=
  match (path.splitOn "/").getLast? with
  | some last => last ≠ "" && last ≠ "."
  | none => false

def full (names : List String) : String := "/" ++ "/".intercalate names

/-- A directory and those above it, the nearest first. -/
def ancestors (names : List String) : List (List String) :=
  (List.range (names.length + 1)).map fun k => names.take (names.length - k)

/-- The full paths at which a file may lie, the first choice first. -/
def candidates (directory path : String) : List String :=
  if !namesFile path then []
  else if path.startsWith "/" then [path]
  else (ancestors (parts directory)).map fun names => full (names ++ parts path)

/-- The names behind those that two lists begin with alike. -/
def behind : List String → List String → List String × List String
  | a :: as, b :: bs => if a = b then behind as bs else (a :: as, b :: bs)
  | as, bs => (as, bs)

/-- The name of a file in messages. -/
def shown (directory path : String) : String :=
  let (rest, up) := behind (parts path) (parts directory)
  let names := up.map (fun _ => "..") ++ rest
  if names.length ≤ (parts path).length then "/".intercalate names else path

end FeedTraffic.Settings.Location
