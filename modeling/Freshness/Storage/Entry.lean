/-!
# What stands at a path

A path leads to nothing, to a directory or to a file of bytes.  Only a file whose bytes are UTF-8
can be read as text; every other case has a failure of its own.
-/

namespace Freshness.Storage

inductive Failure
  | notFound
  | busy
  | alreadyExists
  | notADirectory
  | isADirectory
  | invalidArgument
  | notEmpty
  | notUtf8
  /-- The system gives a reason of its own. -/
  | refused (reason : String)
  deriving DecidableEq, Repr

/-- The wording of a failure, with the number that the system has for it. -/
def Failure.message : Failure → String
  | notFound => "No such file or directory (os error 2)"
  | busy => "Device or resource busy (os error 16)"
  | alreadyExists => "File exists (os error 17)"
  | notADirectory => "Not a directory (os error 20)"
  | isADirectory => "Is a directory (os error 21)"
  | invalidArgument => "Invalid argument (os error 22)"
  | notEmpty => "Directory not empty (os error 39)"
  | notUtf8 => "stream did not contain valid UTF-8"
  | refused reason => reason

/-- What stands at a path. -/
inductive Entry
  | absent
  /-- A file stands where the path needs a directory. -/
  | blocked
  | directory
  | file (content : ByteArray)
  /-- There is something that the system does not let us read. -/
  | unreadable (reason : String)

namespace Entry

def isPresent : Entry → Bool
  | absent | blocked => false
  | _ => true

def text : Entry → Except Failure String
  | absent => .error .notFound
  | blocked => .error .notADirectory
  | directory => .error .isADirectory
  | file content =>
    match String.fromUTF8? content with
    | some text => .ok text
    | none => .error .notUtf8
  | unreadable reason => .error (.refused reason)

/-- A text that was written to a file is the text of the file. -/
theorem text_toUTF8 (content : String) : text (.file content.toUTF8) = .ok content := by
  have hvalid : content.toUTF8.IsValidUTF8 := content.isValidUTF8
  have hread : String.fromUTF8? content.toUTF8 = some content := by
    rw [String.fromUTF8?, dif_pos hvalid]
    rfl
  rw [text, hread]

end Entry

end Freshness.Storage
