/-!
# Scripts

What a command does, as a tree: it prints, reads and writes whole files, and ends with an exit code. What
it does after a step may depend on the outcome of the step, and is only unfolded then. A script is
interpreted over the files of a directory by `Script.runIn`.

Main statements: `read_write_same`, `read_write_of_ne`.
-/

namespace ByteMachine.Console

/-- Why a file cannot be read or written. -/
inductive FileError where
  | notFound
  | isDirectory
  | notDirectory
  /-- The content is not text in UTF-8. -/
  | notText
  /-- Any other failure, with its text. -/
  | other (text : String)
  deriving DecidableEq, Repr

/-- The text of the error. -/
def FileError.message : FileError → String
  | .notFound => "No such file or directory (os error 2)"
  | .isDirectory => "Is a directory (os error 21)"
  | .notDirectory => "Not a directory (os error 20)"
  | .notText => "stream did not contain valid UTF-8"
  | .other text => text

/-- The steps of a command. -/
inductive Script where
  | exit (code : UInt8)
  | print (text : String) (next : Unit → Script)
  | read (path : String) (next : Except FileError ByteArray → Script)
  | write (path : String) (content : ByteArray) (next : Except FileError Unit → Script)

namespace Script

/-- Prints lines and goes on. -/
def printLines (lines : List String) (next : Script) : Script :=
  match lines with
  | [] => next
  | l :: rest => .print (l ++ "\n") fun _ => printLines rest next

/-- The content of a file as text. -/
def decode (content : ByteArray) : Except FileError String :=
  match String.fromUTF8? content with
  | some text => .ok text
  | none => .error .notText

/-- Reads a file as text and goes on. -/
def readText (path : String) (next : Except FileError String → Script) : Script :=
  .read path fun content => next (content.bind decode)

end Script

/-! ### Directories -/

/-- The files of a directory, by their names. -/
abbrev Directory := List (String × ByteArray)

/-- What a path refers to in a directory without subdirectories. -/
inductive Place where
  /-- A directory: the working directory or one above it. -/
  | directory
  /-- A file of the working directory, which may be absent. -/
  | file (name : String)
  /-- A name that ends in a slash, which only a directory may have. -/
  | folder (name : String)
  /-- A place inside an entry of the working directory, which is no directory. -/
  | inside (name : String)
  /-- A place elsewhere. -/
  | elsewhere
  deriving DecidableEq, Repr

/-- The part of a path stays in the same directory. -/
def Place.isStay (part : List Char) : Bool := part.isEmpty || part == ['.']

/-- The part of a path leads to the directory above. -/
def Place.isUp (part : List Char) : Bool := part == ['.', '.']

/-- The place of a path. -/
def Place.ofPath (path : String) : Place :=
  let parts := path.toList.splitOn '/'
  if path.isEmpty then .elsewhere
  else if parts.all fun part => isStay part || isUp part then .directory
  else if path.startsWith "/" then .elsewhere
  else
    match parts.dropWhile isStay with
    | [] => .directory
    | name :: rest =>
      if isUp name then .elsewhere
      else if rest.isEmpty then .file (String.ofList name)
      else if rest.all List.isEmpty then .folder (String.ofList name)
      else .inside (String.ofList name)

namespace Directory

/-- The failure to find a place inside an entry. -/
def insideError (d : Directory) (name : String) : FileError :=
  if (d.lookup name).isSome then .notDirectory else .notFound

/-- The content of a file. -/
def read (d : Directory) (path : String) : Except FileError ByteArray :=
  match Place.ofPath path with
  | .file name =>
    match d.lookup name with
    | some content => .ok content
    | none => .error .notFound
  | .directory => .error .isDirectory
  | .folder name | .inside name => .error (d.insideError name)
  | .elsewhere => .error .notFound

/-- The directory with a file written, in place of one that it may have had. -/
def write (d : Directory) (path : String) (content : ByteArray) : Except FileError Directory :=
  match Place.ofPath path with
  | .file name => .ok ((name, content) :: d.filter (·.1 != name))
  | .directory | .folder _ => .error .isDirectory
  | .inside name => .error (d.insideError name)
  | .elsewhere => .error .notFound

/-- What is written is read back. -/
theorem read_write_same {d e : Directory} {path : String} {content : ByteArray}
    (h : d.write path content = .ok e) : e.read path = .ok content := by
  unfold write at h
  unfold read
  split at h <;> simp_all
  subst h
  simp

theorem lookup_filter_of_ne {d : Directory} {name other : String} (hne : other ≠ name) :
    (d.filter (·.1 != name)).lookup other = d.lookup other := by
  induction d with
  | nil => rfl
  | cons a d ih =>
    obtain ⟨k, v⟩ := a
    by_cases hk : k = name
    · subst hk
      simp [List.lookup_cons, beq_false_of_ne hne, ih]
    · simp [List.lookup_cons, hk, ih]

/-- Other files are left as they are. -/
theorem read_write_of_ne {d e : Directory} {path other name : String} {content : ByteArray}
    (h : d.write path content = .ok e) (ho : Place.ofPath other = .file name)
    (hne : Place.ofPath path ≠ .file name) : e.read other = d.read other := by
  unfold write at h
  split at h <;> try cases h
  rename_i written hp
  have hn : name ≠ written := fun e => hne (by rw [hp, e])
  simp only [read, ho, List.lookup_cons, beq_false_of_ne hn, lookup_filter_of_ne hn]

end Directory

/-- What a command left behind. -/
structure Outcome where
  code : UInt8
  output : String
  directory : Directory

/-- Carries out a script on the files of a directory, after some output. -/
def Script.runIn (d : Directory) (output : String) : Script → Outcome
  | .exit code => ⟨code, output, d⟩
  | .print text next => (next ()).runIn d (output ++ text)
  | .read path next => (next (d.read path)).runIn d output
  | .write path content next =>
    match d.write path content with
    | .ok e => (next (.ok ())).runIn e output
    | .error error => (next (.error error)).runIn d output

end ByteMachine.Console
