import Abacus.Text.CodePoint

/-!
# Trees of text files

The directories and text files of a file system. A name may hold surrogates, which stand for bytes.
A path lists its names from the innermost outwards, so that the directory of a file is the tail of
its path. The root is the empty path, and the directory around the root is the root itself.
-/

namespace Abacus

/-- The names of a file or directory and of the directories around it, the innermost first. -/
abbrev Path := List Wide

/-- The path that a name stands for in a directory. -/
def Path.enter (dir : Path) (name : Wide) : Path :=
  if name = [] ∨ name = Wide.ofString "." then dir
  else if name = Wide.ofString ".." then dir.tail
  else name :: dir

/-- Text files by their paths, and the directories that were made. -/
structure FileTree where
  files : List (Path × String) := []
  directories : List Path := []
  deriving DecidableEq

namespace FileTree

/-- The text of a file. -/
def read? (tree : FileTree) (path : Path) : Option String := tree.files.lookup path

/-- Write a file, whether it exists or not. -/
def write (tree : FileTree) (path : Path) (text : String) : FileTree :=
  { tree with files := (path, text) :: tree.files.filter fun file => file.1 != path }

/-- Make a directory and those around it, whether they exist or not. -/
def makeDirectory (tree : FileTree) (dir : Path) : FileTree :=
  { tree with directories := dir :: tree.directories }

/-- Whether a path is a directory, that is the root, a directory that was made or one around it,
or one with a file below it. -/
def isDirectory (tree : FileTree) (dir : Path) : Bool :=
  dir.isEmpty || (tree.directories.any fun made => dir.isSuffixOf made) ||
    tree.files.any fun file => dir.isSuffixOf file.1.tail

/-- Follow names from a place, which has to be a directory as long as a name is left. -/
def follow (tree : FileTree) : Path → List Wide → Option Path
  | place, [] => some place
  | place, name :: names =>
    if tree.isDirectory place then follow tree (place.enter name) names else none

/-- The place that a text names, seen from the root if the text starts with a slash and else from
the working directory, which always exists. -/
def resolve? (tree : FileTree) (working : Path) (text : Wide) : Option Path :=
  let slash := CodePoint.char '/'
  (tree.makeDirectory working).follow (if text.head? = some slash then [] else working)
    (text.splitOn slash)

/-- The text of the nearest file of a name in a directory or around it. -/
def readNearest? (tree : FileTree) (name : Wide) : Path → Option String
  | [] => tree.read? [name]
  | dir :: outer => (tree.read? (name :: dir :: outer)).or (readNearest? tree name outer)

end FileTree
end Abacus
