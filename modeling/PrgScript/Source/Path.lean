import PrgScript.Text.Basic

/-!
# Paths

Paths are texts with components separated by slashes. Everything here is lexical: no
file is consulted.
-/

namespace PrgScript.Path

def separator : UInt8 := 47

def isAbsolute (path : Text) : Bool := path.head? == some separator

/-- Appends a component to those before it, given the last one first: `.` and the empty one
vanish, and `..` takes back a component, stays at the root, or piles up. -/
def step (rooted : Bool) (before : List Text) (component : Text) : List Text :=
  if component = [] || component = "." then before
  else if component = ".." then
    match before with
    | [] => if rooted then [] else [component]
    | last :: rest => if last = ".." then component :: before else rest
  else component :: before

/-- The components of the shortest path equal to the given one. -/
def components (path : Text) : List Text :=
  ((Text.splitOn separator path).foldl (step (isAbsolute path)) []).reverse

/-- The shortest path equal to the given one. -/
def clean (path : Text) : Text :=
  let body := Text.join [separator] (components path)
  if isAbsolute path then separator :: body else if body = [] then "." else body

def trimSlashes (path : Text) : Text := (path.reverse.dropWhile (· == separator)).reverse

/-- The last component of a path: `.` for the empty path and `/` for one of slashes only. -/
def base (path : Text) : Text :=
  if path = [] then "."
  else
    let trimmed := trimSlashes path
    if trimmed = [] then [separator]
    else (trimmed.reverse.takeWhile (· != separator)).reverse

/-- The ending of the last component from its last dot on, or nothing. -/
def extension (path : Text) : Text :=
  let last := path.reverse.takeWhile (· != separator)
  if last.contains 46 then (last.takeWhile (· != 46) ++ [46]).reverse else []

/-- The last component without its ending. -/
def stem (path : Text) : Text :=
  let name := base path
  Text.dropEnding (extension name) name

def directory (path : Text) : Text :=
  clean ((path.reverse.dropWhile (· != separator)).reverse)

/-- The path that leads along all the given ones, empty ones left out. -/
def join (paths : List Text) : Text :=
  match paths.dropWhile (· == []) with
  | [] => []
  | first => clean (Text.join [separator] first)

/-- The path seen from the root, given the working directory. -/
def absolute (workingDirectory path : Text) : Text :=
  if isAbsolute path then clean path else join [workingDirectory, path]

def dropCommon : List Text → List Text → List Text × List Text
  | a :: as, b :: bs => if a = b then dropCommon as bs else (a :: as, b :: bs)
  | as, bs => (as, bs)

/-- The way from a directory to an absolute path, if the directory is absolute too. -/
def relative? (directory target : Text) : Option Text :=
  if isAbsolute directory && isAbsolute target then
    let (up, down) := dropCommon (components directory) (components target)
    let way := up.map (fun _ => Text.ofString "..") ++ down
    some (if way = [] then "." else Text.join [separator] way)
  else none

end PrgScript.Path
