import ByteMachine.Console.Script
import ByteMachine.Yaml.Document

/-!
# Watch files

The file that asks for tables. A file that cannot be opened and one that cannot be understood are told
apart; a directory can be opened, but holds no text.
-/

namespace ByteMachine

/-- Why a watch file is of no use. -/
inductive WatchFileError where
  | notOpened (name : String)
  | notParsed (name : String)
  deriving DecidableEq, Repr

/-- The text of the error. -/
def WatchFileError.message : WatchFileError → String
  | .notOpened name => "Failed to open file: " ++ name
  | .notParsed name => "Failed to parse file: " ++ name

namespace Inspector

/-- The name of a text that is in no file. -/
def textName : String := "<str>"

/-- The tables that a text asks for. -/
def ofText (text : String) (all : Bool) : Except WatchFileError Inspector :=
  match WatchList.ofYaml? text with
  | some watches => .ok ⟨none, all, watches⟩
  | none => .error (.notParsed textName)

/-- The tables that the content of a file asks for. -/
def ofFile (name : String) (content : Except Console.FileError ByteArray) (all : Bool) :
    Except WatchFileError Inspector :=
  match content with
  | .error .isDirectory => .error (.notParsed name)
  | .error _ => .error (.notOpened name)
  | .ok bytes =>
    match (String.fromUTF8? bytes).bind WatchList.ofYaml? with
    | some watches => .ok ⟨some name, all, watches⟩
    | none => .error (.notParsed name)

/-- The tables where there is no watch file. -/
def withoutFile (all : Bool) : Inspector := ⟨none, all, []⟩

end Inspector

end ByteMachine
