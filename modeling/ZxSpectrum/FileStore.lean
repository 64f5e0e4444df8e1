/-!
# Files

Reading and writing whole files, with any kind of storage behind it. `FileStore` is a tree of files held in memory with a
working directory in it; of the files at one place the newest counts (`fileAt?_cons_self`).
-/

namespace ZxSpectrum

/-- Why a file cannot be read or written. -/
inductive FileError where
  | noSuchFile
  | notADirectory
  | isADirectory
  | noSpace
  | nameTooLong
  /-- Another reason, in the words of the system. -/
  | other (reason : String)
deriving DecidableEq, Repr

def FileError.message : FileError → String
  | .noSuchFile => "No such file or directory (os error 2)"
  | .notADirectory => "Not a directory (os error 20)"
  | .isADirectory => "Is a directory (os error 21)"
  | .noSpace => "No space left on device (os error 28)"
  | .nameTooLong => "File name too long (os error 36)"
  | .other reason => reason

/-- Whole files, read and written by path. -/
structure Files (m : Type → Type) where
  read : String → m (Except FileError (List UInt8))
  write : String → List UInt8 → m (Except FileError Unit)

/-- The names that lead from the root of the tree to a file or directory. -/
abbrev Place := List String

inductive FileContent where
  | bytes (data : List UInt8)
  /-- A device that is empty and loses what is written. -/
  | sink
  /-- A device that is empty and takes nothing. -/
  | full
deriving DecidableEq, Repr

/-- A tree of files and directories. The parents of files are directories, too. -/
structure FileStore where
  files : List (Place × FileContent) := [(["dev", "null"], .sink), (["dev", "full"], .full)]
  directories : List Place :=
    [["bin"], ["etc"], ["home"], ["lib"], ["opt"], ["proc"], ["root"], ["run"], ["sbin"], ["sys"], ["usr"], ["var"],
      ["tmp", "work"]]
  workingDirectory : Place := ["tmp", "work"]

namespace FileStore

/-- The most bytes that a path may have. -/
def pathLimit : Nat := 4095

/-- The most bytes that a name in a path may have. -/
def nameLimit : Nat := 255

/-- The file at a place. -/
def fileAt? (store : FileStore) (place : Place) : Option FileContent :=
  (store.files.find? fun file => file.1 = place).map (·.2)

/-- Whether there is a directory at a place. -/
def isDirectory (store : FileStore) (place : Place) : Bool :=
  place.isEmpty || (store.directories.any fun directory => place.isPrefixOf directory) ||
    store.files.any fun file => place.length < file.1.length && place.isPrefixOf file.1

/-- Goes on from a directory by one name. -/
def step (store : FileStore) (place : Place) (name : String) : Except FileError Place :=
  if (store.fileAt? place).isSome then .error .notADirectory
  else if !store.isDirectory place then .error .noSuchFile
  else if name = "" ∨ name = "." then .ok place
  else if name = ".." then .ok place.dropLast
  else if nameLimit < name.utf8ByteSize then .error .nameTooLong
  else .ok (place ++ [name])

/-- The place that names lead to: from the root on if there is an empty name before them. -/
def follow (store : FileStore) (names : List String) : Except FileError Place :=
  names.foldlM store.step (if names.head? = some "" then [] else store.workingDirectory)

/-- The names in a path. -/
def namesOf (path : String) : Except FileError (List String) :=
  if path = "" then .error .noSuchFile
  else if pathLimit < path.utf8ByteSize then .error .nameTooLong
  else .ok (path.splitOn "/")

/-- Puts a file at a path below the working directory. -/
def insert (store : FileStore) (path : String) (data : List UInt8) : FileStore :=
  let names := (path.splitOn "/").filter fun name => name ≠ "" ∧ name ≠ "."
  { store with files := (store.workingDirectory ++ names, .bytes data) :: store.files }

/-- Reads a file. -/
def read (store : FileStore) (path : String) : Except FileError (List UInt8) := do
  let place ← store.follow (← namesOf path)
  if store.isDirectory place then .error .isADirectory
  else
    match store.fileAt? place with
    | some (.bytes data) => .ok data
    | some _ => .ok []
    | none => .error .noSuchFile

/-- Where a path asks for a new file. No file is made under a name with a slash behind it. -/
def target (store : FileStore) (names : List String) : Except FileError Place := do
  match names.reverse.dropWhile (· = "") with
  | [] => .error .isADirectory
  | last :: parents =>
    let directory ← store.follow (parents.reverse ++ ["."])
    if last = "." ∨ last = ".." ∨ names.getLast? = some "" then .error .isADirectory
    else store.step directory last

/-- Writes a file, which is made if it does not exist. -/
def write (store : FileStore) (path : String) (data : List UInt8) : Except FileError FileStore := do
  let place ← store.target (← namesOf path)
  if store.isDirectory place then .error .isADirectory
  else
    match store.fileAt? place with
    | some .sink => .ok store
    | some .full => .error .noSpace
    | _ => .ok { store with files := (place, .bytes data) :: store.files }

theorem fileAt?_cons_self (store : FileStore) (place : Place) (content : FileContent) :
    fileAt? { store with files := (place, content) :: store.files } place = some content := by
  simp [fileAt?]

/-- The tree as storage. -/
def storage : Files (StateM FileStore) where
  read path := do return (← get).read path
  write path data := do
    match (← get).write path data with
    | .ok store => set store; return .ok ()
    | .error error => return .error error

end FileStore

end ZxSpectrum
