import Freshness.Settings.Basic
import Freshness.Storage.Entry

/-!
# Where settings come from

Settings are read from the file that is asked for; if none is, from the local file in the working
directory if there is one; if not, from the user's file if there is one; and otherwise they are
the defaults.  The first of these that applies decides: when it cannot be read the lookup fails,
and nothing of lower precedence takes its place.
-/

namespace Freshness

open Storage (Entry)

/-- What a lookup of settings can see: what stands at each path from the working directory, and the
directory of the user's settings, if it is known. -/
structure Surroundings where
  entry : String → Entry
  settingsDirectory : Option String

namespace Settings

def localFile : String := "clientversion.toml"

def userFile : String := ".clientversion.toml"

def userPath (directory : String) : String :=
  if directory.toList.getLast? = some '/' then directory ++ userFile
  else directory ++ "/" ++ userFile

inductive LoadFailure
  | storage (failure : Storage.Failure)
  | settings (fault : Fault)
  deriving DecidableEq, Repr

def LoadFailure.message : LoadFailure → String
  | storage failure => "I/O error: " ++ failure.message
  | settings fault => "Configuration error: " ++ fault.message

def ofEntry (entry : Entry) : Except LoadFailure Settings := do
  let text ← entry.text.mapError .storage
  (ofText text).mapError .settings

theorem ofEntry_toUTF8 (content : String) :
    ofEntry (.file content.toUTF8) = (ofText content).mapError .settings := by
  rw [ofEntry, Storage.Entry.text_toUTF8]
  rfl

/-- The settings in a file, if there is one; otherwise what `fallback` gives. -/
def ofEntryOr (entry : Entry) (fallback : Except LoadFailure Settings) :
    Except LoadFailure Settings :=
  if entry.isPresent then ofEntry entry else fallback

/-- The user's settings, or the defaults. -/
def loadUser (around : Surroundings) : Except LoadFailure Settings :=
  match around.settingsDirectory with
  | some directory => ofEntryOr (around.entry (userPath directory)) (.ok {})
  | none => .ok {}

/-- The settings in the file that is asked for, or those found by precedence. -/
def load (around : Surroundings) (path : Option String) : Except LoadFailure Settings :=
  match path with
  | some path => ofEntry (around.entry path)
  | none => ofEntryOr (around.entry localFile) (loadUser around)

end Settings

end Freshness
