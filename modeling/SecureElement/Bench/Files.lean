import SecureElement.Octets

/-!
A tree of files under one directory, by the paths of its members.

Paths are relative to that directory. A component of a path may be a name, a single point, which
stays, or two points, which go up; going up from the directory itself leads nowhere.
-/

namespace SecureElement.Bench

/-- What stands at a path. -/
inductive Node where
  | file (content : Octets)
  | directory
  deriving DecidableEq, Repr

/-- The names from the top of the tree to a member. -/
abbrev Route := List String

/-- A tree of files; the last entry for a route counts. -/
structure Files where
  entries : List (Route × Node)
  deriving Repr

namespace Files

/-- The tree with nothing in it. -/
def empty : Files := ⟨[]⟩

/-- What stands at a route; the top is a directory. -/
def node? (files : Files) (route : Route) : Option Node :=
  if route = [] then some .directory
  else (files.entries.find? (·.1 = route)).map (·.2)

/-- Whether a route leads to a directory. -/
def isDirectory (files : Files) (route : Route) : Bool :=
  files.node? route == some .directory

/-- The tree with a node at a route, in place of what stood there. -/
def set (files : Files) (route : Route) (node : Node) : Files :=
  ⟨(route, node) :: files.entries.filter (·.1 ≠ route)⟩

/-- The components of a path. -/
def components (path : List Char) : List String :=
  (path.splitOn '/').map String.ofList

/-- The greatest number of octets in a name. -/
def maxNameSize : Nat := 255

/-- Whether a component can name something: it holds no NUL and is not too long. -/
def isName (component : String) : Bool :=
  !component.toList.contains '\x00' && component.utf8ByteSize ≤ maxNameSize

/-- The components of a path that does not start at the root of all files. -/
def components? (path : String) : Option (List String) :=
  let parts := components path.toList
  if path.toList.head? = some '/' ∨ ¬ parts.all isName then none else some parts

/-- The route one component further on, from a directory. -/
def enter? (files : Files) (route : Route) (component : String) : Option Route :=
  if ¬ files.isDirectory route then none
  else if component = "" ∨ component = "." then some route
  else if component = ".." then (if route = [] then none else some route.dropLast)
  else some (route ++ [component])

/-- The route that a path takes; every component but the last has to lead to a directory. -/
def route? (files : Files) (path : String) : Option Route := do
  (← components? path).foldlM files.enter? []

/-- The content of the file at a path. -/
def read? (files : Files) (path : String) : Option Octets := do
  match files.node? (← files.route? path) with
  | some (.file content) => some content
  | _ => none

/-- The tree with a directory at a route, if no file stands there. -/
def ensureDirectory? (files : Files) (route : Route) : Option Files :=
  match files.node? route with
  | some .directory => some files
  | some (.file _) => none
  | none => some (files.set route .directory)

/-- The tree with the directories of a path, and the route of the last of them. -/
def ensureDirectories? (files : Files) (components : List String) : Option (Files × Route) :=
  components.foldlM (fun (files, route) component => do
    let route ← files.enter? route component
    some (← files.ensureDirectory? route, route)) (files, [])

/-- The tree after a file has been written at a path. The directories that it is to stand in are made
first, and stay if the file cannot be written; the Boolean tells whether it has been. -/
def write (files : Files) (path : String) (content : Octets) : Files × Bool :=
  match components? path with
  | none => (files, false)
  | some components =>
      match files.ensureDirectories? components.dropLast with
      | none => (files, false)
      | some (files, above) =>
          match files.enter? above (components.getLastD "") with
          | none => (files, false)
          | some route =>
              if files.isDirectory route then (files, false)
              else (files.set route (.file content), true)

/-- A tree of the given files and directories, each with the directories that it stands in. -/
def ofList (members : List (String × Node)) : Files :=
  members.foldl (fun files (path, node) =>
    match node with
    | .file content => (files.write path content).1
    | .directory =>
        match (components? path).bind files.ensureDirectories? with
        | some (files, _) => files
        | none => files) empty

/-- The path of a route. -/
def pathOf (route : Route) : String :=
  String.intercalate "/" route

/-- The files that are new or have another content than before, by their paths. -/
def changes (before after : Files) : List (String × Octets) :=
  after.entries.filterMap fun (route, node) =>
    match node with
    | .directory => none
    | .file content =>
        if before.node? route = some (.file content) then none else some (pathOf route, content)

end Files

end SecureElement.Bench
