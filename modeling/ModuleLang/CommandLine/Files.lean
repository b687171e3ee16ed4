/-!
Files that a command reads. A path may lead to nothing, to a text, or to
something that is no text. A set of named files answers for itself: the
directories are those that the names mention, and a path leads through
directories only.
-/

namespace ModuleLang

inductive FileContent
  | missing
  | unreadable
  | text (content : String)
deriving DecidableEq

/-- Texts under relative paths. -/
structure FileSet where
  files : List (List String × String)

namespace FileSet

/-- A set of files under paths with slashes. -/
def ofNames (files : List (String × String)) : FileSet :=
  ⟨files.map fun file => (file.1.splitOn "/", file.2)⟩

/-- Whether names of files lead through a directory. -/
def isDirectory (set : FileSet) (directory : List String) : Bool :=
  directory.isEmpty || set.files.any fun file =>
    directory.length < file.1.length && directory.isPrefixOf file.1

/-- Whether a part of a path stays in the directory that it stands in. -/
def staysIn (part : String) : Bool := part == "" || part == "."

/-- What a path leads to outside of the set: directories that hold nothing. -/
def outside (parts : List String) : FileContent :=
  if parts.all fun part => staysIn part || part == ".." then .unreadable else .missing

/-- Follows the parts of a path from a directory, where two dots lead back. -/
def follow (set : FileSet) (directory : List String) : List String → FileContent
  | [] => .unreadable
  | part :: rest =>
      if staysIn part then set.follow directory rest
      else if part = ".." then
        if directory.isEmpty then outside rest else set.follow directory.dropLast rest
      else
        let path := directory ++ [part]
        match set.files.lookup path with
        | some content => if rest.isEmpty then .text content else .missing
        | none => if set.isDirectory path then set.follow path rest else .missing

/-- What a path leads to. A path from the root of all files leads outside. -/
def read (set : FileSet) (path : String) : FileContent :=
  if path.isEmpty then .missing
  else if path.startsWith "/" then outside (path.splitOn "/")
  else set.follow [] (path.splitOn "/")

end FileSet

end ModuleLang
