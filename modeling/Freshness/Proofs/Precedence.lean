import Freshness.Proofs.Trees
import Freshness.Settings.Lookup

/-!
# Precedence of settings

One entry decides what is loaded, or the defaults do.  The file that is asked for decides alone, and
otherwise the first present one of the local file and the user's.  A file that decides and cannot be
read is a failure of the load, so nothing behind it shows (`load_none_of_local`), and what a lookup
passes over may change without a trace (`load_none_congr`).
-/

namespace Freshness

open Storage (Entry Tree)

namespace Storage.Entry

/-- A text stands just where its bytes are those of a file. -/
theorem text_eq_ok_iff {entry : Entry} {content : String} :
    entry.text = .ok content ↔ entry = .file content.toUTF8 := by
  constructor
  · intro htext
    unfold text at htext
    split at htext
    · contradiction
    · contradiction
    · contradiction
    · next bytes =>
        split at htext
        · next read hread =>
            obtain rfl := Except.ok.inj htext
            rw [String.fromUTF8?] at hread
            split at hread
            · rw [← Option.some.inj hread]
              rfl
            · contradiction
        · contradiction
    · contradiction
  · rintro rfl
    exact text_toUTF8 content

end Storage.Entry

namespace Settings

/-! ## What an entry decides -/

/-- The result is that of reading the entry and nothing else: the settings in the text that stands
there, a fault of that text, or the failure to read one. -/
structure DecidedBy (entry : Entry) (result : Except LoadFailure Settings) : Prop where
  read : ∀ content : String, entry = .file content.toUTF8 →
    result = (ofText content).mapError .settings
  malformed : ∀ (content : String) (fault : Toml.Fault), entry = .file content.toUTF8 →
    Toml.read content = .error fault → result = .error (.settings (.document fault))
  unreadable : (∀ content : String, entry ≠ .file content.toUTF8) →
    ∃ failure, entry.text = .error failure ∧ result = .error (.storage failure)

theorem ofEntry_of_text_eq {a b : Entry} (htext : a.text = b.text) : ofEntry a = ofEntry b := by
  rw [ofEntry, ofEntry, htext]

/-- An entry decides through the text that stands there, or the failure to read one. -/
theorem decidedBy_ofEntry (entry : Entry) : DecidedBy entry (ofEntry entry) where
  read content hentry := by
    rw [hentry, ofEntry_toUTF8]
  malformed content fault hentry hfault := by
    rw [hentry, ofEntry_toUTF8, ofText, hfault]
    rfl
  unreadable hentry := by
    cases htext : entry.text with
    | ok content => exact absurd (Entry.text_eq_ok_iff.mp htext) (hentry content)
    | error failure =>
        refine ⟨failure, rfl, ?_⟩
        rw [ofEntry, htext]
        rfl

/-! ## Which entry decides -/

section

variable {around around' : Surroundings} {directory directory' : String}

/-- The local file hides the user's file, even when it cannot be read. -/
theorem load_none_of_local (hlocal : (around.entry localFile).isPresent = true) :
    load around none = ofEntry (around.entry localFile) := by
  rw [load, ofEntryOr, if_pos hlocal]

theorem load_none_of_no_local (hlocal : (around.entry localFile).isPresent = false) :
    load around none = loadUser around := by
  rw [load, ofEntryOr, if_neg (Bool.not_eq_true _ ▸ hlocal)]

/-- Where the user's file is absent the settings are the defaults. -/
theorem loadUser_eq (hdirectory : around.settingsDirectory = some directory) :
    loadUser around = ofEntryOr (around.entry (userPath directory)) (.ok {}) := by
  rw [loadUser, hdirectory]

/-- An entry that is not present is passed over, whatever kind of absence it is. -/
theorem ofEntryOr_congr {a b : Entry} (hpresent : a.isPresent = b.isPresent)
    (htext : a.isPresent = true → a.text = b.text)
    {fallback fallback' : Except LoadFailure Settings}
    (hfallback : a.isPresent = false → fallback = fallback') :
    ofEntryOr a fallback = ofEntryOr b fallback' := by
  rw [ofEntryOr, ofEntryOr, ← hpresent]
  split
  · next hentry => exact ofEntry_of_text_eq (htext hentry)
  · next hentry => exact hfallback (Bool.not_eq_true _ ▸ hentry)

/-- Only which files there are and the one that decides make a difference. -/
theorem load_none_congr (hdirectory : around.settingsDirectory = some directory)
    (hdirectory' : around'.settingsDirectory = some directory')
    (hlocal : (around.entry localFile).isPresent = (around'.entry localFile).isPresent)
    (huser : (around.entry (userPath directory)).isPresent =
      (around'.entry (userPath directory')).isPresent)
    (hlocalText : (around.entry localFile).isPresent = true →
      (around.entry localFile).text = (around'.entry localFile).text)
    (huserText : (around.entry localFile).isPresent = false →
      (around.entry (userPath directory)).isPresent = true →
        (around.entry (userPath directory)).text = (around'.entry (userPath directory')).text) :
    load around none = load around' none := by
  rw [load, load]
  refine ofEntryOr_congr hlocal hlocalText fun hnone => ?_
  rw [loadUser_eq hdirectory, loadUser_eq hdirectory']
  exact ofEntryOr_congr huser (huserText hnone) fun _ => rfl

end

/-! ## The paths of the two files -/

/-- The local file stands in the directory that the lookup starts from. -/
theorem locate_localFile (tree : Tree) (here : Nat) :
    tree.locate here localFile = .ok ⟨here, localFile⟩ := rfl

theorem exists_toList_userPath (directory : String) :
    ∃ front, (userPath directory).toList = front ++ '/' :: userFile.toList := by
  rw [userPath]
  split
  · next hslash =>
      obtain ⟨front, hfront⟩ := List.getLast?_eq_some_iff.mp hslash
      exact ⟨front, by simp [String.toList_append, hfront]⟩
  · exact ⟨directory.toList, by simp [String.toList_append]⟩

/-- The two files have different names wherever the user's directory is. -/
theorem getLastD_names_userPath (directory : String) :
    (Tree.names (userPath directory)).getLastD "" = userFile := by
  obtain ⟨front, hfront⟩ := exists_toList_userPath directory
  have hname : userFile.toList.splitOn '/' = [userFile.toList] := rfl
  rw [Tree.names, hfront, List.splitOn_append_cons_self, hname, List.map_append, List.map_singleton,
    List.getLastD_concat, String.ofList_toList]

theorem localFile_ne_userFile : localFile ≠ userFile := by decide

/-! ## After a change to the files -/

/-- What a lookup sees of a tree from the directory `here`. -/
def seenFrom (here : Nat) (directory : String) (tree : Tree) : Surroundings where
  entry := tree.entry here
  settingsDirectory := some directory

section

variable {tree tree' : Tree} {here : Nat} {directory : String} {content : ByteArray}

theorem ofEntryOr_of_eq_or_absent {a b : Entry}
    (hentry : a = b ∨ a.isPresent = false ∧ b.isPresent = false)
    (fallback : Except LoadFailure Settings) : ofEntryOr a fallback = ofEntryOr b fallback := by
  rcases hentry with rfl | ⟨ha, hb⟩
  · rfl
  · exact ofEntryOr_congr (ha.trans hb.symm) (fun hpresent => absurd hpresent (by simp [ha]))
      fun _ => rfl

variable (hclosed : tree.IsClosed) (hhere : here < tree.directories.length)

/-- A local file can be written unless a directory is in its way or the working directory itself has
been removed. -/
theorem exists_write_localFile (hremoved : (tree.directory here).isRemoved = false)
    (hplace : tree.entry here localFile ≠ .directory) (content : ByteArray) :
    ∃ tree', tree.write here localFile content = .ok tree' := by
  refine ⟨_, Tree.write_eq_ok_iff.mpr ⟨_, locate_localFile tree here, rfl, ?_, hremoved, rfl⟩⟩
  intro number hitem
  rw [Tree.entry_of_located (locate_localFile tree here), hitem] at hplace
  exact hplace rfl

include hclosed hhere

/-- What is loaded from a path is what was written there last. -/
theorem load_of_write {path : String} (hwrite : tree.write here path content = .ok tree') :
    load (seenFrom here directory tree') (some path) = ofEntry (.file content) :=
  congrArg ofEntry (hclosed.entry_of_write hhere hwrite)

/-- A local file that is written decides, whatever stood there before. -/
theorem load_none_of_write_localFile (hwrite : tree.write here localFile content = .ok tree') :
    load (seenFrom here directory tree') none = ofEntry (.file content) := by
  have hentry : (seenFrom here directory tree').entry localFile = .file content :=
    hclosed.entry_of_write hhere hwrite
  rw [load_none_of_local (by rw [hentry]; rfl), hentry]

/-- To write the user's file has an effect only where there is no local file. -/
theorem load_none_of_write_userPath
    (hwrite : tree.write here (userPath directory) content = .ok tree') :
    load (seenFrom here directory tree') none =
      ofEntryOr (tree.entry here localFile) (ofEntry (.file content)) := by
  have hentry : (seenFrom here directory tree').entry (userPath directory) = .file content :=
    hclosed.entry_of_write hhere hwrite
  have huser : loadUser (seenFrom here directory tree') = ofEntry (.file content) := by
    rw [loadUser_eq rfl, hentry, ofEntryOr]
    rfl
  have hlocal : (Tree.names localFile).getLastD "" ≠
      (Tree.names (userPath directory)).getLastD "" := by
    rw [getLastD_names_userPath]
    exact localFile_ne_userFile
  rw [load, huser]
  exact ofEntryOr_of_eq_or_absent (hclosed.entry_of_write_of_ne hhere hwrite hlocal) _

/-- Once the local file is removed the user's decides, as it stood all the time. -/
theorem load_none_of_remove_localFile {old : ByteArray}
    (hfile : tree.entry here localFile = .file old)
    (hremove : tree.remove here localFile = .ok tree') :
    load (seenFrom here directory tree') none = loadUser (seenFrom here directory tree) := by
  have hslash : Tree.endsInSlash localFile = false := rfl
  have hgone : ((seenFrom here directory tree').entry localFile).isPresent = false :=
    hclosed.entry_of_remove hhere hslash hremove
  have huser : (Tree.names (userPath directory)).getLastD "" ≠
      (Tree.names localFile).getLastD "" := by
    rw [getLastD_names_userPath]
    exact localFile_ne_userFile.symm
  rw [load_none_of_no_local hgone, loadUser_eq rfl, loadUser_eq rfl]
  exact ofEntryOr_of_eq_or_absent
    (hclosed.entry_of_remove_of_ne hhere hslash hremove hfile huser) _

end

/-- What loads give once a file of the tree has been written or removed. -/
structure FollowChanges (tree : Tree) (here : Nat) (directory : String) : Prop where
  asked : ∀ path content tree', tree.write here path content = .ok tree' →
    DecidedBy (.file content) (load (seenFrom here directory tree') (some path))
  written_local : ∀ content tree', tree.write here localFile content = .ok tree' →
    DecidedBy (.file content) (load (seenFrom here directory tree') none)
  written_user : ∀ content tree', tree.write here (userPath directory) content = .ok tree' →
    (tree.entry here localFile).isPresent = false →
      DecidedBy (.file content) (load (seenFrom here directory tree') none)
  masked_user : ∀ content tree', tree.write here (userPath directory) content = .ok tree' →
    (tree.entry here localFile).isPresent = true →
      load (seenFrom here directory tree') none = load (seenFrom here directory tree) none
  removed_local : ∀ old tree', tree.entry here localFile = .file old →
    tree.remove here localFile = .ok tree' →
      ((tree.entry here (userPath directory)).isPresent = true →
        DecidedBy (tree.entry here (userPath directory))
          (load (seenFrom here directory tree') none)) ∧
      ((tree.entry here (userPath directory)).isPresent = false →
        load (seenFrom here directory tree') none = .ok {})
  writable : (tree.directory here).isRemoved = false → tree.entry here localFile ≠ .directory →
    ∀ content, ∃ tree', tree.write here localFile content = .ok tree'

theorem decidedBy_ofEntryOr {entry : Entry} (hpresent : entry.isPresent = true)
    (fallback : Except LoadFailure Settings) : DecidedBy entry (ofEntryOr entry fallback) := by
  rw [ofEntryOr, if_pos hpresent]
  exact decidedBy_ofEntry entry

theorem ofEntryOr_of_absent {entry : Entry} (habsent : entry.isPresent = false)
    (fallback : Except LoadFailure Settings) : ofEntryOr entry fallback = fallback := by
  rw [ofEntryOr, if_neg (Bool.not_eq_true _ ▸ habsent)]

/-- In a closed tree each load follows the file that it looks at. -/
theorem followChanges {tree : Tree} {here : Nat} (hclosed : tree.IsClosed)
    (hhere : here < tree.directories.length) (directory : String) :
    FollowChanges tree here directory where
  asked path content tree' hwrite := by
    rw [load_of_write hclosed hhere hwrite]
    exact decidedBy_ofEntry _
  written_local content tree' hwrite := by
    rw [load_none_of_write_localFile hclosed hhere hwrite]
    exact decidedBy_ofEntry _
  written_user content tree' hwrite habsent := by
    rw [load_none_of_write_userPath hclosed hhere hwrite, ofEntryOr_of_absent habsent]
    exact decidedBy_ofEntry _
  masked_user content tree' hwrite hpresent := by
    have hlocal : ((seenFrom here directory tree).entry localFile).isPresent = true := hpresent
    rw [load_none_of_write_userPath hclosed hhere hwrite, ofEntryOr, if_pos hpresent]
    exact (load_none_of_local hlocal).symm
  removed_local old tree' hfile hremove := by
    rw [load_none_of_remove_localFile hclosed hhere hfile hremove, loadUser_eq rfl]
    exact ⟨fun hpresent => decidedBy_ofEntryOr hpresent _,
      fun habsent => ofEntryOr_of_absent habsent _⟩
  writable := exists_write_localFile

/-- A load is decided by the file that is asked for, whatever else there is, and otherwise by the
first present one of the local file and the user's; only where neither is present are the defaults
loaded.  A file that decides and cannot be read is a failure, and never passed over.  So two states
with the same files present and the same text in the one that decides give the same result.  And
after any run of changes to the files what is written is what is loaded, a local file keeps the
user's from being seen, and shows it again once it is removed. -/
theorem load_by_precedence :
    (∀ (around : Surroundings) (path : String),
      DecidedBy (around.entry path) (load around (some path))) ∧
    (∀ (around : Surroundings) (directory : String), around.settingsDirectory = some directory →
      ((around.entry localFile).isPresent = true →
        DecidedBy (around.entry localFile) (load around none)) ∧
      ((around.entry localFile).isPresent = false →
        (around.entry (userPath directory)).isPresent = true →
          DecidedBy (around.entry (userPath directory)) (load around none)) ∧
      ((around.entry localFile).isPresent = false →
        (around.entry (userPath directory)).isPresent = false → load around none = .ok {})) ∧
    (∀ (around around' : Surroundings) (directory directory' : String),
      around.settingsDirectory = some directory → around'.settingsDirectory = some directory' →
      (around.entry localFile).isPresent = (around'.entry localFile).isPresent →
      (around.entry (userPath directory)).isPresent =
        (around'.entry (userPath directory')).isPresent →
      ((around.entry localFile).isPresent = true →
        (around.entry localFile).text = (around'.entry localFile).text) →
      ((around.entry localFile).isPresent = false →
        (around.entry (userPath directory)).isPresent = true →
          (around.entry (userPath directory)).text =
            (around'.entry (userPath directory')).text) →
      load around none = load around' none) ∧
    ∀ (start : Tree) (here : Nat) (changes : List Tree.Change) (directory : String),
      start.IsClosed → here < start.directories.length →
        FollowChanges (start.after here changes) here directory := by
  refine ⟨fun around path => decidedBy_ofEntry _, ?_, ?_, ?_⟩
  · intro around directory hdirectory
    refine ⟨?_, ?_, ?_⟩
    · intro hlocal
      exact decidedBy_ofEntryOr hlocal _
    · intro hlocal huser
      rw [load_none_of_no_local hlocal, loadUser_eq hdirectory]
      exact decidedBy_ofEntryOr huser _
    · intro hlocal huser
      rw [load_none_of_no_local hlocal, loadUser_eq hdirectory]
      exact ofEntryOr_of_absent huser _
  · intro around around' directory directory' hdirectory hdirectory'
    exact load_none_congr hdirectory hdirectory'
  · intro start here changes directory hclosed hhere
    obtain ⟨hclosed', hhere'⟩ := hclosed.after hhere changes
    exact followChanges hclosed' hhere' directory

/-- What is seen from the root after some changes, with the user's directory at `config`. -/
def seenAfter (changes : List Tree.Change) : Surroundings :=
  seenFrom 0 "config" (Tree.after {} 0 changes)

def userFirst (text : String) : List Tree.Change :=
  [.makeDirectory "config", .write "config/.clientversion.toml" text.toUTF8]

def localText : String := "[client]\ncurrent_version = \"1.2.3\"\n"

def localVersion : Tree.Change := .write localFile localText.toUTF8

/-- A user who counts prereleases is heard until a local file sets a version and nothing else.  From
then on the user's file can be spoilt without a difference, and no file stands in for one that is
asked for and missing. -/
theorem load_by_precedence_of_two_files :
    let user := userFirst "[behavior]\ninclude_prereleases = true\n"
    let spoilt := userFirst "[behavior"
    load (seenAfter user) (some "absent.toml") = .error (.storage .notFound) ∧
      load (seenAfter user) none = .ok { includePrereleases := true } ∧
      load (seenAfter (user ++ [localVersion])) none = .ok { currentVersion := some "1.2.3" } ∧
      load (seenAfter (user ++ [localVersion])) none =
        load (seenAfter (spoilt ++ [localVersion])) none := by
  intro user spoilt
  obtain ⟨hasked, hfound, hsame, hafter⟩ := load_by_precedence
  refine ⟨?_, ?_, ?_, ?_⟩
  · obtain ⟨failure, htext, hload⟩ :=
      (hasked (seenAfter user) "absent.toml").unreadable fun _ => Entry.noConfusion
    rw [hload, ← Except.error.inj htext]
  · have huser := (hfound (seenAfter user) "config" rfl).2.1 rfl rfl
    rw [huser.read "[behavior]\ninclude_prereleases = true\n" rfl]
    cbv
  · have hlocal := (hafter {} 0 user "config" Tree.isClosed_root Nat.one_pos).written_local
      localText.toUTF8 (Tree.after {} 0 (user ++ [localVersion])) rfl
    rw [seenAfter, hlocal.read localText rfl]
    cbv
  · exact hsame (seenAfter _) (seenAfter _) "config" "config" rfl rfl rfl rfl (fun _ => rfl)
      fun hnone => Bool.noConfusion hnone

end Settings

end Freshness
