import HoareProof.Text.Encoding
import HoareProof.Text.Split

namespace HoareProof

/-!
The files a command works on.  A disk holds files and directories by their
places below the root of the file system; a file holds text, or bytes that may
be none.  There are also sinks, which take any text and keep nothing.  A name
leads to a place, from the root if it starts with a slash and from the working
directory otherwise.
-/

/-- What stands at a place. -/
inductive DiskEntry where
  | text (content : String)
  | bytes (content : List Nat)
  | sink
  | directory

def DiskEntry.text? : DiskEntry -> Option String
  | .text content => some content
  | .bytes content => (Text.decode content).toOption
  | .sink => none
  | .directory => none

/-- A place, by the names that lead to it from the root. -/
abbrev Place := List String

/-- The files and directories, and the directory from which names start. -/
structure Disk where
  working : Place
  entries : List (Place × DiskEntry)

/-- Why the file system refuses a name. -/
inductive DiskFault where
  | noEntry
  | notDirectory
  | isDirectory
  | nameTooLong
deriving DecidableEq, Repr

def DiskFault.message : DiskFault -> String
  | .noEntry => "[Errno 2] No such file or directory"
  | .notDirectory => "[Errno 20] Not a directory"
  | .isDirectory => "[Errno 21] Is a directory"
  | .nameTooLong => "[Errno 36] File name too long"

def DiskFault.about (fault : DiskFault) (name : String) : String :=
  fault.message ++ ": " ++ Text.quoted name

/-- Why a file cannot be used: the file system refuses, the bytes are no text,
or the name holds the null character, which no file system is asked about. -/
inductive DiskError where
  | refused (fault : DiskFault)
  | encoding (error : Text.EncodingError)
  | nullCharacter
deriving DecidableEq, Repr

def DiskError.message (name : String) : DiskError -> String
  | .refused fault => fault.about name
  | .encoding error => error.message
  | .nullCharacter => "embedded null byte"

namespace Disk

def entry? (disk : Disk) (place : Place) : Option DiskEntry :=
  disk.entries.lookup place

/-- Whether a place is a directory: one that was put on the disk, or one that
leads to something or to the working directory. -/
def isDirectory (disk : Disk) (place : Place) : Bool :=
  place.isPrefixOf disk.working || disk.entries.any fun entry =>
    match entry.2 with
    | .directory => place.isPrefixOf entry.1
    | _ => place.isPrefixOf entry.1 && place.length < entry.1.length

def isFile (disk : Disk) (place : Place) : Bool :=
  match disk.entry? place with
  | some (.text _) => true
  | some (.bytes _) => true
  | _ => false

def setEntry (place : Place) (entry : DiskEntry) :
    List (Place × DiskEntry) -> List (Place × DiskEntry)
  | [] => [(place, entry)]
  | head :: rest =>
    if head.1 = place then (place, entry) :: rest else head :: setEntry place entry rest

def insert (disk : Disk) (place : Place) (entry : DiskEntry) : Disk :=
  ⟨disk.working, setEntry place entry disk.entries⟩

def parts (name : String) : List String :=
  (Text.splitAt '/' name.toList).map String.ofList

def isAbsolute (name : String) : Bool :=
  name.toList.head? = some '/'

/-- Checks that a place is a directory, because the name goes on from it. -/
def enter (disk : Disk) (place : Place) : Except DiskFault Unit :=
  if disk.isDirectory place then .ok ()
  else if (disk.entry? place).isSome then .error .notDirectory
  else .error .noEntry

def longestPart : Nat := 255

def longestName : Nat := 4095

/-- The place that one part of a name leads to from a directory.  The root is
its own parent. -/
def step (directory : Place) (part : String) : Place :=
  if part = "" || part = "." then directory
  else if part = ".." then directory.dropLast
  else directory ++ [part]

/-- The place that parts of a name lead to.  Nothing need be there. -/
def follow (disk : Disk) (place : Place) : List String -> Except DiskFault Place
  | [] => .ok place
  | part :: rest => do
    disk.enter place
    if longestPart < part.utf8ByteSize then .error .nameTooLong
    else disk.follow (step place part) rest

def origin (disk : Disk) (name : String) : Place :=
  if isAbsolute name then [] else disk.working

def locate (disk : Disk) (name : String) : Except DiskFault Place :=
  if name.isEmpty then .error .noEntry
  else if longestName < name.utf8ByteSize then .error .nameTooLong
  else disk.follow (disk.origin name) (parts name)

def uniformLines (text : String) : String :=
  String.ofList (Text.normalizeLineEnds text.toList)

/-- The text of a file, with uniform line ends. -/
def read (disk : Disk) (name : String) : Except DiskError String :=
  if name.toList.contains '\x00' then .error .nullCharacter
  else
    match disk.locate name with
    | .error fault => .error (.refused fault)
    | .ok place =>
      if disk.isDirectory place then .error (.refused .isDirectory)
      else
        match disk.entry? place with
        | some (.text content) => .ok (uniformLines content)
        | some (.bytes content) =>
          match Text.decode content with
          | .ok text => .ok (uniformLines text)
          | .error e => .error (.encoding e)
        | some .sink => .ok ""
        | _ => .error (.refused .noEntry)

def withoutTrailingSlashes (name : String) : String :=
  String.ofList (name.toList.reverse.dropWhile (· = '/')).reverse

/-- The disk after a text was written to a place that can take one. -/
def accept (disk : Disk) (place : Place) (content : String) : Disk :=
  match disk.entry? place with
  | some .sink => disk
  | _ => disk.insert place (.text content)

/-- Writes a text to a file, which is created if need be.  A name that ends in
a slash can only be that of a directory. -/
def write (disk : Disk) (name content : String) : Except DiskError Disk :=
  if name.toList.contains '\x00' then .error .nullCharacter
  else
    let short := withoutTrailingSlashes name
    if short.isEmpty && !name.isEmpty then .error (.refused .isDirectory)
    else
      match disk.locate short with
      | .error fault => .error (.refused fault)
      | .ok place =>
        if disk.isDirectory place || short.length < name.length then
          .error (.refused .isDirectory)
        else .ok (disk.accept place content)

/-- The place of a name by its parts alone, without a look at the disk. -/
def lexicalPlace (disk : Disk) (name : String) : Place :=
  (parts name).foldl step (disk.origin name)

/-- A directory and those above it, the nearest one first. -/
def ancestors (place : Place) : List Place :=
  (List.range (place.length + 1)).map fun levels => place.take (place.length - levels)

/-- The nearest file with one of some names, in a directory or above it. -/
def nearest? (disk : Disk) (names : List String) (directory : Place) : Option Place :=
  (ancestors directory).findSome? fun candidate =>
    (names.map fun name => candidate ++ [name]).find? disk.isFile

def absoluteName (place : Place) : String :=
  "/" ++ Text.joinWith "/" place

/-- The name of a place from the working directory, if it is below it. -/
def shortName (disk : Disk) (place : Place) : String :=
  if disk.working.isPrefixOf place then
    Text.joinWith "/" (place.drop disk.working.length)
  else absoluteName place

/-- The texts that were written between two states of a disk. -/
def changes (before after : Disk) : List (Place × String) :=
  after.entries.filterMap fun (place, entry) =>
    match entry with
    | .text content =>
      if (before.entry? place).bind DiskEntry.text? = some content then none
      else some (place, content)
    | _ => none

end Disk
end HoareProof
