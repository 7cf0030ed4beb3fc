/-!
# Folders

A folder of files in memory, looked up by paths as a file system does it, and the ways in which
reading a file can fail.
-/

namespace GameLang.Command

/-- Why a file cannot be read as text. -/
inductive ReadFailure where
  | missing
  | notDirectory
  | isDirectory
  | notText
  | other (message : String)
  deriving DecidableEq

def ReadFailure.message : ReadFailure → String
  | missing => "No such file or directory (os error 2)"
  | notDirectory => "Not a directory (os error 20)"
  | isDirectory => "Is a directory (os error 21)"
  | notText => "stream did not contain valid UTF-8"
  | other message => message

def textOf (bytes : ByteArray) : Except ReadFailure String :=
  match String.fromUTF8? bytes with
  | some text => .ok text
  | none => .error .notText

/-- The names that a path goes through; slashes separate them. -/
def pathNames (path : String) : List String := go path.toList []
where
  /-- The names of the rest of a path, with the start of the first name, last character first. -/
  go : List Char → List Char → List String
    | [], name => [String.ofList name.reverse]
    | c :: rest, name =>
      if c = '/' then String.ofList name.reverse :: go rest [] else go rest (c :: name)

/-- Files in a folder: the names on the way to each, and its bytes. -/
structure Folder where
  files : List (List String × ByteArray)

/-- Where a path leads: to a place inside the folder, by the names from the innermost out, or to
some directory outside. -/
inductive Location where
  | inside (names : List String)
  | outside

namespace Folder

def ofFiles (files : List (String × ByteArray)) : Folder :=
  ⟨files.map fun (path, bytes) =>
    ((pathNames path).filter (fun name => name ≠ "" && name ≠ "."), bytes)⟩

def file? (folder : Folder) (names : List String) : Option ByteArray :=
  folder.files.lookup names.reverse

/-- Whether a file lies below a place; the folder itself is always there. -/
def isDirectory (folder : Folder) (names : List String) : Bool :=
  names.isEmpty || folder.files.any fun (way, _) =>
    names.reverse.isPrefixOf way && names.length < way.length

/-- One name further. The empty name and a dot stay, two dots lead out; only a directory leads on.
-/
def enter (folder : Folder) (name : String) : Location → Except ReadFailure Location
  | .outside =>
    if name = "" || name = "." || name = ".." then .ok .outside else .error .missing
  | .inside names =>
    if (folder.file? names).isSome then .error .notDirectory
    else if name = "" || name = "." then .ok (.inside names)
    else if name = ".." then
      match names with
      | [] => .ok .outside
      | _ :: outer => .ok (.inside outer)
    else
      let inner := name :: names
      if (folder.file? inner).isSome || folder.isDirectory inner then .ok (.inside inner)
      else .error .missing

/-- Where a path leads from the folder, or from the root if it starts with a slash. -/
def locate (folder : Folder) (path : String) : Except ReadFailure Location :=
  let start := if path.toList.head? = some '/' then .outside else .inside []
  (pathNames path).foldlM (fun place name => folder.enter name place) start

def read (folder : Folder) (path : String) : Except ReadFailure String :=
  match folder.locate path with
  | .error failure => .error failure
  | .ok .outside => .error .isDirectory
  | .ok (.inside names) =>
    match folder.file? names with
    | some bytes => textOf bytes
    | none => .error .isDirectory

end Folder

end GameLang.Command
