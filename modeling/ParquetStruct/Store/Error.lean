/-
# ParquetStruct.Store.Error — why the operating system refuses to read or write a file.
-/

namespace ParquetStruct.Store

/-- A refusal of the operating system, by number and text. -/
structure SystemError where
  code : Nat
  text : String
  deriving DecidableEq, Repr, Inhabited

namespace SystemError

/-- There is no file, or no directory to hold it. -/
def notFound : SystemError := ⟨2, "No such file or directory"⟩

/-- A file stands where a directory is due. -/
def notADirectory : SystemError := ⟨20, "Not a directory"⟩

/-- A directory stands where a file is due. -/
def isADirectory : SystemError := ⟨21, "Is a directory"⟩

/-- A path, or one of the names in it, is longer than the system takes. -/
def nameTooLong : SystemError := ⟨36, "File name too long"⟩

/-- The refusals that are known by their number. -/
def all : List SystemError := [notFound, notADirectory, isADirectory, nameTooLong]

/-- The refusal with the given number. -/
def ofCode? (code : Nat) : Option SystemError :=
  all.find? fun e => e.code == code

/-- The wording of a refusal. -/
def message (e : SystemError) : String :=
  e.text ++ " (os error " ++ toString e.code ++ ")"

end SystemError

end ParquetStruct.Store
