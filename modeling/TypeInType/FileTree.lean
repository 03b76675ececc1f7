import TypeInType.Datum.Flat
import TypeInType.Files

/-!
A tree of directories and files held in memory. A path is followed name by name,
so every directory on the way must exist, also one that is left again. Files in it
that hold YAML are flat.
-/

namespace TypeInType

structure FileTree where
  directories : List Route
  contents : List (Route × String)

namespace FileTree

def status (tree : FileTree) (route : Route) : FileStatus :=
  match tree.contents.lookup route with
  | some content => .file content
  | none => if tree.directories.contains route then .directory else .missing

def follow (tree : FileTree) (route : Route) : List String → FileStatus
  | [] => tree.status route
  | name :: rest =>
      match tree.status route with
      | .directory => tree.follow (route.enter name) rest
      | _ => .missing

def statusOfPath (tree : FileTree) (workingDirectory : Route) (path : String) : FileStatus :=
  if path.isEmpty then .missing
  else
    tree.follow (if Route.isAbsolute path then [] else workingDirectory) (Route.names path)

def ofEntries (workingDirectory : Route) (entries : List (String × Option String)) : FileTree :=
  let routes := entries.map fun entry => (Route.ofPath workingDirectory entry.1, entry.2)
  { directories :=
      workingDirectory.upward ++ routes.flatMap fun (route, content) =>
        match content with
        | some _ => Route.upward route.tail
        | none => route.upward
    contents := routes.filterMap fun (route, content) => content.map (route, ·) }

def files (tree : FileTree) (workingDirectory : Route) : Files :=
  ⟨workingDirectory, tree.statusOfPath workingDirectory⟩

end FileTree

end TypeInType
