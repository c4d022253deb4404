import Freshness.Proofs.Reading
import Freshness.Storage.Tree

/-!
# Changes to a file tree

A file that is written is found under its path afterwards, and one that is removed is not.  Neither
change moves a directory, so all other paths lead where they led before, or still lead nowhere
(`KeepsWays`).  What carries this over a run of changes is that no number in the tree stands for a
directory that is not there (`IsClosed`).
-/

namespace Freshness.Storage

/-! ## The items of a directory -/

namespace Directory

theorem lookup_filter_ne (items : List (String × Item)) (name other : String) :
    (items.filter (·.1 ≠ name)).lookup other =
      if other = name then none else items.lookup other := by
  induction items with
  | nil => simp
  | cons item items ih =>
      rw [List.filter_cons, List.lookup_cons]
      by_cases hname : item.1 = name
      · grind
      · rw [if_pos (by simpa using hname), List.lookup_cons, ih]
        grind

theorem lookup_put (directory : Directory) (name other : String) (item : Item) :
    (directory.put name item).items.lookup other =
      if other = name then some item else directory.items.lookup other := by
  rw [put, List.lookup_cons, lookup_filter_ne]
  by_cases hother : other = name
  · simp [hother]
  · have hne : (other == name) = false := by simpa using hother
    simp [hne, hother]

theorem lookup_erase (directory : Directory) (name other : String) :
    (directory.erase name).items.lookup other =
      if other = name then none else directory.items.lookup other :=
  lookup_filter_ne directory.items name other

end Directory

namespace Tree

variable {tree tree' : Tree} {site : Site} {here number : Nat} {name path : String}

/-! ## Directories by their numbers -/

@[simp]
theorem length_modify (tree : Tree) (number : Nat) (change : Directory → Directory) :
    (tree.modify number change).directories.length = tree.directories.length :=
  List.length_modify change tree.directories number

theorem directory_modify (hnumber : number < tree.directories.length)
    (change : Directory → Directory) (other : Nat) :
    (tree.modify number change).directory other =
      if other = number then change (tree.directory other) else tree.directory other := by
  rw [directory, directory, modify, List.getD_eq_getElem?_getD, List.getD_eq_getElem?_getD,
    List.getElem?_modify]
  by_cases hother : other = number
  · subst hother
    simp [List.getElem?_eq_getElem hnumber]
  · simp [hother, Ne.symm hother]

/-- A name that a directory lists, and not a way of its own through the tree. -/
def IsOrdinary (name : String) : Prop :=
  name ≠ "" ∧ name ≠ "." ∧ name ≠ ".."

theorem item?_of_isOrdinary (hname : IsOrdinary name) (tree : Tree) (here : Nat) :
    tree.item? here name = (tree.directory here).items.lookup name := by
  rw [item?, if_neg (not_or.mpr ⟨hname.1, hname.2.1⟩), if_neg hname.2.2]

theorem isOrdinary_of_no_directory
    (hitem : ∀ number, tree.item? here name ≠ some (.directory number)) : IsOrdinary name := by
  refine ⟨?_, ?_, ?_⟩
  · rintro rfl
    exact hitem here rfl
  · rintro rfl
    exact hitem here rfl
  · rintro rfl
    exact hitem _ rfl

/-- What a name stands for depends on the way up and on what the directory lists. -/
theorem item?_congr (hparent : (tree'.directory here).parent = (tree.directory here).parent)
    (hitems : (tree'.directory here).items.lookup name = (tree.directory here).items.lookup name) :
    tree'.item? here name = tree.item? here name := by
  rw [item?, item?, hparent, hitems]

/-! ## Trees that differ at one site -/

/-- The second tree is the first one with another item, or none, under one name. -/
def DiffersAt (tree tree' : Tree) (site : Site) (item : Option Item) : Prop :=
  ∀ here name, tree'.item? here name =
    if here = site.directory ∧ name = site.name then item else tree.item? here name

theorem differsAt_modify (hsite : site.directory < tree.directories.length)
    (hname : IsOrdinary site.name) {change : Directory → Directory} {item : Option Item}
    (hparent : ∀ directory, (change directory).parent = directory.parent)
    (hlookup : ∀ directory other, (change directory).items.lookup other =
      if other = site.name then item else directory.items.lookup other) :
    tree.DiffersAt (tree.modify site.directory change) site item := by
  intro here name
  have hdirectory := directory_modify hsite change here
  split
  · next hsame =>
      obtain ⟨rfl, rfl⟩ := hsame
      rw [item?_of_isOrdinary hname, hdirectory, if_pos rfl, hlookup, if_pos rfl]
  · next hother =>
      apply item?_congr
      · rw [hdirectory]
        split
        · exact hparent _
        · rfl
      · rw [hdirectory]
        split
        · next hhere =>
            rw [hlookup, if_neg fun hname => hother ⟨hhere, hname⟩]
        · rfl

theorem differsAt_put (hsite : site.directory < tree.directories.length)
    (hname : IsOrdinary site.name) (item : Item) :
    tree.DiffersAt (tree.modify site.directory (·.put site.name item)) site (some item) :=
  differsAt_modify hsite hname (fun _ => rfl)
    fun directory other => directory.lookup_put site.name other item

theorem differsAt_erase (hsite : site.directory < tree.directories.length)
    (hname : IsOrdinary site.name) :
    tree.DiffersAt (tree.modify site.directory (·.erase site.name)) site none :=
  differsAt_modify hsite hname (fun _ => rfl)
    fun directory other => directory.lookup_erase site.name other

theorem DiffersAt.item?_self {item : Option Item} (hdiffers : tree.DiffersAt tree' site item) :
    tree'.item? site.directory site.name = item := by
  rw [hdiffers, if_pos ⟨rfl, rfl⟩]

theorem DiffersAt.item?_of_ne {item : Option Item} (hdiffers : tree.DiffersAt tree' site item)
    (hname : name ≠ site.name) (here : Nat) : tree'.item? here name = tree.item? here name := by
  rw [hdiffers, if_neg fun hsame => hname hsame.2]

/-! ## Ways through a tree -/

/-- Each name that leads to a directory leads to the same one in the second tree. -/
def KeepsWays (tree tree' : Tree) : Prop :=
  ∀ here name number, tree.item? here name = some (.directory number) →
    tree'.item? here name = some (.directory number)

theorem DiffersAt.keepsWays {item : Option Item} (hdiffers : tree.DiffersAt tree' site item)
    (hold : ∀ number, tree.item? site.directory site.name ≠ some (.directory number)) :
    tree.KeepsWays tree' := by
  intro here name number hitem
  rw [hdiffers, if_neg]
  · exact hitem
  · rintro ⟨rfl, rfl⟩
    exact hold number hitem

theorem DiffersAt.keepsWays_back {item : Option Item} (hdiffers : tree.DiffersAt tree' site item)
    (hnew : ∀ number, item ≠ some (.directory number)) : tree'.KeepsWays tree := by
  intro here name number hitem
  rw [hdiffers] at hitem
  split at hitem
  · exact absurd hitem (hnew number)
  · exact hitem

theorem follow_cons_eq_ok_iff {names : List String} :
    tree.follow here (name :: names) = .ok number ↔
      ∃ next, tree.item? here name = some (.directory next) ∧
        tree.follow next names = .ok number := by
  rw [follow]
  split <;> simp_all

theorem KeepsWays.follow (hways : tree.KeepsWays tree') {names : List String}
    (hfollow : tree.follow here names = .ok number) : tree'.follow here names = .ok number := by
  induction names generalizing here with
  | nil => exact hfollow
  | cons name names ih =>
      obtain ⟨next, hitem, hrest⟩ := follow_cons_eq_ok_iff.mp hfollow
      exact follow_cons_eq_ok_iff.mpr ⟨next, hways here name next hitem, ih hrest⟩

theorem site_eq_ok_iff {names : List String} :
    tree.site here names = .ok site ↔
      tree.follow here names.dropLast = .ok site.directory ∧ names.getLastD "" = site.name := by
  rw [Tree.site]
  simp only [bind_eq_ok_iff]
  constructor
  · rintro ⟨directory, hfollow, hsite⟩
    rw [← Except.ok.inj hsite]
    exact ⟨hfollow, rfl⟩
  · rintro ⟨hfollow, hname⟩
    exact ⟨site.directory, hfollow, congrArg Except.ok (by rw [hname])⟩

theorem locate_eq_ok_iff :
    tree.locate here path = .ok site ↔
      path ≠ "" ∧ tree.follow (origin here path) (names path).dropLast = .ok site.directory ∧
        (names path).getLastD "" = site.name := by
  rw [locate]
  split
  · next hempty => simp [hempty]
  · next hpath => rw [site_eq_ok_iff]; simp [hpath]

theorem KeepsWays.locate (hways : tree.KeepsWays tree')
    (hlocate : tree.locate here path = .ok site) : tree'.locate here path = .ok site := by
  rw [locate_eq_ok_iff] at hlocate ⊢
  exact ⟨hlocate.1, hways.follow hlocate.2.1, hlocate.2.2⟩

/-! ## What stands at a path -/

theorem isPresent_entry_of_not_located
    (hlocate : ∀ site, tree.locate here path ≠ .ok site) :
    (tree.entry here path).isPresent = false := by
  rw [entry]
  split
  · rfl
  · rfl
  · next site hsite => exact absurd hsite (hlocate site)

/-- What a name is to those who read from a path. -/
def standing : Option Item → Entry
  | none => .absent
  | some (.directory _) => .directory
  | some (.file content) => .file content

theorem entry_of_located (hlocate : tree.locate here path = .ok site) :
    tree.entry here path = standing (tree.item? site.directory site.name) := by
  rw [entry, hlocate]
  rfl

/-- Where directories stay and the last name is not touched, the same stands at a path, or nothing
before and nothing after. -/
theorem KeepsWays.entry_eq_or_absent (hways : tree.KeepsWays tree') (hback : tree'.KeepsWays tree)
    (hlast : ∀ here, tree'.item? here ((names path).getLastD "") =
      tree.item? here ((names path).getLastD "")) :
    tree'.entry here path = tree.entry here path ∨
      (tree'.entry here path).isPresent = false ∧ (tree.entry here path).isPresent = false := by
  by_cases hlocate : ∃ site, tree.locate here path = .ok site
  · left
    obtain ⟨site, hsite⟩ := hlocate
    obtain ⟨-, -, hname⟩ := locate_eq_ok_iff.mp hsite
    rw [hname] at hlast
    rw [entry_of_located hsite, entry_of_located (hways.locate hsite), hlast]
  · right
    rw [not_exists] at hlocate
    exact ⟨isPresent_entry_of_not_located fun site hsite => hlocate site (hback.locate hsite),
      isPresent_entry_of_not_located hlocate⟩

/-! ## Slashes at the end of a path -/

theorem getLast?_splitOn_ne_nil {c : Char} {text : List Char} (hne : text ≠ [])
    (hlast : text.getLast? ≠ some c) : (text.splitOn c).getLast? ≠ some [] := by
  induction text with
  | nil => contradiction
  | cons d text ih =>
      rw [List.splitOn_cons_eq_if_modifyHead]
      cases text with
      | nil =>
          have hd : ¬d = c := by simpa using hlast
          simp [hd]
      | cons e text =>
          rw [List.getLast?_cons_cons] at hlast
          have hlater := ih (List.cons_ne_nil e text) hlast
          obtain ⟨part, parts, hparts⟩ :=
            List.exists_cons_of_ne_nil (List.splitOn_ne_nil c (e :: text))
          rw [hparts] at hlater ⊢
          split
          · rwa [List.getLast?_cons_cons]
          · cases parts with
            | nil => simp
            | cons next parts => rwa [List.modifyHead_cons, List.getLast?_cons_cons]

theorem getLast?_names_ne_empty (hpath : path ≠ "") (hslash : endsInSlash path = false) :
    (names path).getLast? ≠ some "" := by
  have htext : path.toList ≠ [] := by simpa using hpath
  have hlast := getLast?_splitOn_ne_nil htext (of_decide_eq_false hslash)
  rw [names, List.getLast?_map]
  intro hempty
  obtain ⟨part, hpart, hnil⟩ := Option.map_eq_some_iff.mp hempty
  have hnil' : part = [] := by simpa using hnil
  exact hlast (hnil' ▸ hpart)

/-- A path that does not end in a slash leads to the site that is changed under it. -/
theorem target_eq_locate (hslash : endsInSlash path = false) :
    tree.target here path = tree.locate here path := by
  rw [target, locate]
  split
  · rfl
  · next hpath =>
      have hkept : (names path).reverse.dropWhile (· = "") = (names path).reverse := by
        rw [List.dropWhile_eq_self_iff]
        intro hlength hfirst
        apply getLast?_names_ne_empty hpath hslash
        rw [← List.head?_reverse, List.head?_eq_getElem?, List.getElem?_eq_getElem hlength,
          of_decide_eq_true hfirst]
      rw [hkept, List.reverse_reverse]

/-! ## Numbers of directories -/

/-- Every number in the tree is below the bound. -/
structure Below (tree : Tree) (bound : Nat) : Prop where
  parent : ∀ number, (tree.directory number).parent < bound
  child : ∀ number name child,
    (name, .directory child) ∈ (tree.directory number).items → child < bound

/-- Every number in the tree is that of one of its directories. -/
def IsClosed (tree : Tree) : Prop :=
  tree.Below tree.directories.length

/-- The root alone is closed. -/
theorem isClosed_root : IsClosed {} where
  parent number := by
    cases number <;> exact Nat.one_pos
  child number name child hchild := by
    cases number <;> contradiction

section

variable {bound : Nat}

theorem Below.mono (hbelow : tree.Below bound) {bound' : Nat} (hle : bound ≤ bound') :
    tree.Below bound' where
  parent number := (hbelow.parent number).trans_le hle
  child number name child hchild := (hbelow.child number name child hchild).trans_le hle

theorem Below.modify (hbelow : tree.Below bound) (hnumber : number < tree.directories.length)
    {change : Directory → Directory}
    (hparent : ∀ directory, (change directory).parent = directory.parent)
    (hchild : ∀ directory name child, (name, .directory child) ∈ (change directory).items →
      (name, .directory child) ∈ directory.items ∨ child < bound) :
    (tree.modify number change).Below bound where
  parent other := by
    rw [directory_modify hnumber]
    split
    · rw [hparent]
      exact hbelow.parent other
    · exact hbelow.parent other
  child other name child hmem := by
    rw [directory_modify hnumber] at hmem
    split at hmem
    · exact (hchild _ name child hmem).elim (hbelow.child other name child) id
    · exact hbelow.child other name child hmem

/-- A new directory has a number that no directory had, so what is found under every other number
stays. -/
theorem directory_append (tree : Tree) (new : Directory) (other : Nat) :
    directory ⟨tree.directories ++ [new]⟩ other = tree.directory other ∨
      directory ⟨tree.directories ++ [new]⟩ other = new := by
  rw [directory, directory, List.getD_eq_getElem?_getD, List.getD_eq_getElem?_getD]
  rcases Nat.lt_trichotomy other tree.directories.length with hlt | rfl | hgt
  · left
    rw [List.getElem?_append_left hlt]
  · right
    simp
  · left
    rw [List.getElem?_eq_none (by simpa using hgt), List.getElem?_eq_none hgt.le]

/-- A new directory lists nothing and stands in one that is there. -/
theorem Below.append (hbelow : tree.Below bound) (hnumber : number < bound) (isRemoved : Bool) :
    Below ⟨tree.directories ++ [⟨number, [], isRemoved⟩]⟩ bound where
  parent other := by
    rcases directory_append tree ⟨number, [], isRemoved⟩ other with hsame | hnew
    · rw [hsame]
      exact hbelow.parent other
    · rw [hnew]
      exact hnumber
  child other name child hmem := by
    rcases directory_append tree ⟨number, [], isRemoved⟩ other with hsame | hnew
    · rw [hsame] at hmem
      exact hbelow.child other name child hmem
    · rw [hnew] at hmem
      contradiction

theorem Below.item?_lt (hbelow : tree.Below bound) (hhere : here < bound)
    (hitem : tree.item? here name = some (.directory number)) : number < bound := by
  rw [item?] at hitem
  split at hitem
  · cases hitem
    exact hhere
  · split at hitem
    · cases hitem
      exact hbelow.parent here
    · obtain ⟨before, after, hitems, -⟩ := List.lookup_eq_some_iff.mp hitem
      exact hbelow.child here name number (by simp [hitems])

theorem Below.follow_lt (hbelow : tree.Below bound) {names : List String} (hhere : here < bound)
    (hfollow : tree.follow here names = .ok number) : number < bound := by
  induction names generalizing here with
  | nil => exact Except.ok.inj hfollow ▸ hhere
  | cons name names ih =>
      obtain ⟨next, hitem, hfollow⟩ := follow_cons_eq_ok_iff.mp hfollow
      exact ih (hbelow.item?_lt hhere hitem) hfollow

theorem origin_lt (hhere : here < bound) (path : String) : origin here path < bound := by
  rw [origin]
  split
  · exact Nat.zero_lt_of_lt hhere
  · exact hhere

theorem Below.locate_lt (hbelow : tree.Below bound) (hhere : here < bound)
    (hlocate : tree.locate here path = .ok site) : site.directory < bound :=
  hbelow.follow_lt (origin_lt hhere path) (locate_eq_ok_iff.mp hlocate).2.1

theorem Below.target_lt (hbelow : tree.Below bound) (hhere : here < bound)
    (htarget : tree.target here path = .ok site) : site.directory < bound := by
  rw [target] at htarget
  split at htarget
  · contradiction
  · exact hbelow.follow_lt (origin_lt hhere path) (site_eq_ok_iff.mp htarget).1

end

/-! ## Single changes -/

theorem add_eq_ok_iff {item : Item} :
    tree.add site item = .ok tree' ↔
      (tree.directory site.directory).isRemoved = false ∧
        tree.modify site.directory (·.put site.name item) = tree' := by
  rw [add]
  split <;> simp_all

/-- A file is written where no directory stands. -/
theorem write_eq_ok_iff {content : ByteArray} :
    tree.write here path content = .ok tree' ↔
      ∃ site, tree.locate here path = .ok site ∧ endsInSlash path = false ∧
        (∀ number, tree.item? site.directory site.name ≠ some (.directory number)) ∧
        (tree.directory site.directory).isRemoved = false ∧
        tree.modify site.directory (·.put site.name (.file content)) = tree' := by
  rw [write]
  cases hslash : endsInSlash path with
  | true =>
      refine iff_of_false ?_ (by simp)
      intro hwrite
      obtain ⟨site, -, hthrow⟩ := bind_eq_ok_iff.mp hwrite
      contradiction
  | false =>
      rw [target_eq_locate hslash, bind_eq_ok_iff]
      refine exists_congr fun site => and_congr_right fun _ => ?_
      dsimp only
      rw [if_neg Bool.false_ne_true]
      split
      · next hitem =>
          refine iff_of_false (by simp) ?_
          rintro ⟨-, hfile, -⟩
          exact hfile _ hitem
      · next hfile =>
          rw [add_eq_ok_iff]
          simp only [true_and]
          exact (and_iff_right hfile).symm

/-- A directory is made where nothing stands. -/
theorem exists_of_makeDirectory (hmake : tree.makeDirectory here path = .ok tree') :
    ∃ site, tree.target here path = .ok site ∧
      tree' = ⟨(tree.modify site.directory
        (·.put site.name (.directory tree.directories.length))).directories ++
          [⟨site.directory, [], false⟩]⟩ := by
  rw [makeDirectory] at hmake
  obtain ⟨site, htarget, hmake⟩ := bind_eq_ok_iff.mp hmake
  refine ⟨site, htarget, ?_⟩
  split at hmake
  · contradiction
  · obtain ⟨listed, hadd, hlisted⟩ := bind_eq_ok_iff.mp hmake
    obtain ⟨-, rfl⟩ := add_eq_ok_iff.mp hadd
    exact (Except.ok.inj hlisted).symm

theorem of_removeDirectory (hremove : tree.removeDirectory site number = .ok tree') :
    IsOrdinary site.name ∧
      tree' = (tree.modify site.directory (·.erase site.name)).modify number
        ({ · with isRemoved := true }) := by
  rw [removeDirectory] at hremove
  split at hremove
  · contradiction
  · next hempty =>
      split at hremove
      · contradiction
      · next hdot =>
          split at hremove
          · contradiction
          · next hother =>
              exact ⟨⟨hempty, hdot, fun hdots => hother (Or.inl hdots)⟩,
                (Except.ok.inj hremove).symm⟩

/-- A file or a directory loses its name, which was its own. -/
theorem exists_of_remove (hremove : tree.remove here path = .ok tree') :
    ∃ site, tree.target here path = .ok site ∧ IsOrdinary site.name ∧
      ((∃ content, tree.item? site.directory site.name = some (.file content)) ∧
          tree' = tree.modify site.directory (·.erase site.name) ∨
        ∃ number, tree.item? site.directory site.name = some (.directory number) ∧
          tree' = (tree.modify site.directory (·.erase site.name)).modify number
            ({ · with isRemoved := true })) := by
  rw [remove] at hremove
  obtain ⟨site, htarget, hremove⟩ := bind_eq_ok_iff.mp hremove
  refine ⟨site, htarget, ?_⟩
  split at hremove
  · contradiction
  · next number hitem =>
      obtain ⟨hname, htree⟩ := of_removeDirectory hremove
      exact ⟨hname, Or.inr ⟨number, hitem, htree⟩⟩
  · next content hitem =>
      have hfile : ∀ number, tree.item? site.directory site.name ≠ some (.directory number) := by
        simp [hitem]
      split at hremove
      · contradiction
      · exact ⟨isOrdinary_of_no_directory hfile,
          Or.inl ⟨⟨content, hitem⟩, (Except.ok.inj hremove).symm⟩⟩

/-! ## Runs of changes -/

inductive Change
  | write (path : String) (content : ByteArray)
  | makeDirectory (path : String)
  | remove (path : String)

/-- The tree after a change, seen from the directory `here`. -/
def change (tree : Tree) (here : Nat) : Change → Except Failure Tree
  | .write path content => tree.write here path content
  | .makeDirectory path => tree.makeDirectory here path
  | .remove path => tree.remove here path

/-- The tree after some changes, one after the other; one that fails changes nothing. -/
def after (tree : Tree) (here : Nat) (changes : List Change) : Tree :=
  changes.foldl (fun tree change => ((tree.change here change).toOption).getD tree) tree

theorem mem_items_of_mem_put {directory : Directory} {item : Item} {child : Nat} {other : String}
    (hmem : (name, .directory child) ∈ (directory.put other item).items) :
    (name, .directory child) ∈ directory.items ∨ item = .directory child := by
  rcases List.mem_cons.mp hmem with hnew | hkept
  · exact Or.inr (Prod.mk.inj hnew).2.symm
  · exact Or.inl (List.mem_filter.mp hkept).1

theorem mem_items_of_mem_erase {directory : Directory} {item : Item} {other : String}
    (hmem : (name, item) ∈ (directory.erase other).items) : (name, item) ∈ directory.items :=
  (List.mem_filter.mp hmem).1

section

variable (hclosed : tree.IsClosed) (hhere : here < tree.directories.length)

include hclosed hhere

theorem IsClosed.write {content : ByteArray} (hwrite : tree.write here path content = .ok tree') :
    tree'.IsClosed ∧ tree.directories.length ≤ tree'.directories.length := by
  obtain ⟨site, hlocate, -, -, -, rfl⟩ := write_eq_ok_iff.mp hwrite
  have hsite := Below.locate_lt hclosed hhere hlocate
  rw [IsClosed, length_modify]
  refine ⟨Below.modify hclosed hsite (fun _ => rfl) ?_, Nat.le_refl _⟩
  intro directory name child hmem
  exact (mem_items_of_mem_put hmem).imp_right fun hfile => Item.noConfusion hfile

/-- The new directory has the next number. -/
theorem IsClosed.makeDirectory (hmake : tree.makeDirectory here path = .ok tree') :
    tree'.IsClosed ∧ tree.directories.length ≤ tree'.directories.length := by
  obtain ⟨site, htarget, rfl⟩ := exists_of_makeDirectory hmake
  have hsite := Below.target_lt hclosed hhere htarget
  have hlisted : Below (tree.modify site.directory
      (·.put site.name (.directory tree.directories.length))) (tree.directories.length + 1) := by
    refine Below.modify (Below.mono hclosed (Nat.le_succ _)) hsite (fun _ => rfl) ?_
    intro directory name child hmem
    refine (mem_items_of_mem_put hmem).imp_right fun hnew => ?_
    exact Item.directory.inj hnew ▸ Nat.lt_succ_self _
  have happend := hlisted.append (Nat.lt_succ_of_lt hsite) false
  rw [IsClosed, List.length_append, length_modify]
  exact ⟨happend, Nat.le_succ _⟩

/-- A directory that is removed keeps its number. -/
theorem IsClosed.remove (hremove : tree.remove here path = .ok tree') :
    tree'.IsClosed ∧ tree.directories.length ≤ tree'.directories.length := by
  obtain ⟨site, htarget, -, hcases⟩ := exists_of_remove hremove
  have hsite := Below.target_lt hclosed hhere htarget
  have herased : (tree.modify site.directory (·.erase site.name)).Below tree.directories.length :=
    Below.modify hclosed hsite (fun _ => rfl) fun _ _ _ hmem => Or.inl (mem_items_of_mem_erase hmem)
  have hlength := length_modify tree site.directory (·.erase site.name)
  obtain ⟨-, rfl⟩ | ⟨number, hitem, rfl⟩ := hcases
  · rw [IsClosed, hlength]
    exact ⟨herased, Nat.le_refl _⟩
  · have hnumber := Below.item?_lt hclosed hsite hitem
    rw [IsClosed, length_modify, hlength]
    exact ⟨Below.modify herased (hlength ▸ hnumber) (fun _ => rfl) fun _ _ _ hmem => Or.inl hmem,
      Nat.le_refl _⟩

/-- No change takes a directory from the tree or puts a number into it that stands for none. -/
theorem IsClosed.change {change : Change} (hchange : tree.change here change = .ok tree') :
    tree'.IsClosed ∧ tree.directories.length ≤ tree'.directories.length := by
  cases change with
  | write path content => exact hclosed.write hhere hchange
  | makeDirectory path => exact hclosed.makeDirectory hhere hchange
  | remove path => exact hclosed.remove hhere hchange

end

theorem IsClosed.after (hclosed : tree.IsClosed) (hhere : here < tree.directories.length)
    (changes : List Change) :
    (tree.after here changes).IsClosed ∧
      here < (tree.after here changes).directories.length := by
  induction changes generalizing tree with
  | nil => exact ⟨hclosed, hhere⟩
  | cons change changes ih =>
      cases hchange : tree.change here change with
      | error failure =>
          have hsame : tree.after here (change :: changes) = tree.after here changes := by
            rw [Tree.after, List.foldl_cons, hchange]
            rfl
          rw [hsame]
          exact ih hclosed hhere
      | ok tree' =>
          have hnext : tree.after here (change :: changes) = tree'.after here changes := by
            rw [Tree.after, List.foldl_cons, hchange]
            rfl
          obtain ⟨hclosed', hlength⟩ := hclosed.change hhere hchange
          rw [hnext]
          exact ih hclosed' (hhere.trans_le hlength)

/-! ## Reading after a change -/

section

variable (hclosed : tree.IsClosed) (hhere : here < tree.directories.length)

include hclosed hhere

theorem IsClosed.differsAt_of_write {content : ByteArray}
    (hwrite : tree.write here path content = .ok tree') :
    ∃ site, tree.locate here path = .ok site ∧
      tree.DiffersAt tree' site (some (.file content)) ∧
      tree.KeepsWays tree' ∧ tree'.KeepsWays tree := by
  obtain ⟨site, hlocate, -, hfile, -, rfl⟩ := write_eq_ok_iff.mp hwrite
  have hsite := Below.locate_lt hclosed hhere hlocate
  have hdiffers := differsAt_put hsite (isOrdinary_of_no_directory hfile) (.file content)
  exact ⟨site, hlocate, hdiffers, hdiffers.keepsWays hfile, hdiffers.keepsWays_back (by simp)⟩

/-- What is written to a file is what stands there. -/
theorem IsClosed.entry_of_write {content : ByteArray}
    (hwrite : tree.write here path content = .ok tree') :
    tree'.entry here path = .file content := by
  obtain ⟨site, hlocate, hdiffers, hways, -⟩ := hclosed.differsAt_of_write hhere hwrite
  rw [entry_of_located (hways.locate hlocate), hdiffers.item?_self]
  rfl

/-- To write a file changes nothing under other names. -/
theorem IsClosed.entry_of_write_of_ne {content : ByteArray}
    (hwrite : tree.write here path content = .ok tree') {other : String}
    (hother : (names other).getLastD "" ≠ (names path).getLastD "") :
    tree'.entry here other = tree.entry here other ∨
      (tree'.entry here other).isPresent = false ∧
        (tree.entry here other).isPresent = false := by
  obtain ⟨site, hlocate, hdiffers, hways, hback⟩ := hclosed.differsAt_of_write hhere hwrite
  obtain ⟨-, -, hname⟩ := locate_eq_ok_iff.mp hlocate
  exact hways.entry_eq_or_absent hback (hdiffers.item?_of_ne (hname ▸ hother))

/-- To remove something takes its name away and no more: a directory that is removed lists the same
and leads up as before. -/
theorem IsClosed.differsAt_of_remove (hslash : endsInSlash path = false)
    (hremove : tree.remove here path = .ok tree') :
    ∃ site, tree.locate here path = .ok site ∧ tree.DiffersAt tree' site none := by
  obtain ⟨site, htarget, hname, hcases⟩ := exists_of_remove hremove
  rw [target_eq_locate hslash] at htarget
  have hsite := Below.locate_lt hclosed hhere htarget
  have hdiffers := differsAt_erase hsite hname
  refine ⟨site, htarget, ?_⟩
  obtain ⟨-, rfl⟩ | ⟨number, hitem, rfl⟩ := hcases
  · exact hdiffers
  · have hnumber := Below.item?_lt hclosed hsite hitem
    have hlength := length_modify tree site.directory (·.erase site.name)
    intro start other
    rw [← hdiffers]
    have hmarked := directory_modify (hlength ▸ hnumber) ({ · with isRemoved := true }) start
    apply item?_congr
    · rw [hmarked]
      split <;> rfl
    · rw [hmarked]
      split <;> rfl

/-- What is removed is gone. -/
theorem IsClosed.entry_of_remove (hslash : endsInSlash path = false)
    (hremove : tree.remove here path = .ok tree') :
    (tree'.entry here path).isPresent = false := by
  obtain ⟨site, hlocate, hdiffers⟩ := hclosed.differsAt_of_remove hhere hslash hremove
  have hback : tree'.KeepsWays tree := hdiffers.keepsWays_back (by simp)
  by_cases hlocate' : ∃ site', tree'.locate here path = .ok site'
  · obtain ⟨site', hsite'⟩ := hlocate'
    have hsame : site' = site := Except.ok.inj ((hback.locate hsite').symm.trans hlocate)
    rw [entry_of_located hsite', hsame, hdiffers.item?_self]
    rfl
  · exact isPresent_entry_of_not_located (not_exists.mp hlocate')

/-- To remove a file changes nothing under other names. -/
theorem IsClosed.entry_of_remove_of_ne (hslash : endsInSlash path = false)
    (hremove : tree.remove here path = .ok tree') {content : ByteArray}
    (hfile : tree.entry here path = .file content) {other : String}
    (hother : (names other).getLastD "" ≠ (names path).getLastD "") :
    tree'.entry here other = tree.entry here other ∨
      (tree'.entry here other).isPresent = false ∧
        (tree.entry here other).isPresent = false := by
  obtain ⟨site, hlocate, hdiffers⟩ := hclosed.differsAt_of_remove hhere hslash hremove
  obtain ⟨-, -, hname⟩ := locate_eq_ok_iff.mp hlocate
  have hitem : ∀ number, tree.item? site.directory site.name ≠ some (.directory number) := by
    intro number hdirectory
    rw [entry_of_located hlocate, hdirectory] at hfile
    simp [standing] at hfile
  exact (hdiffers.keepsWays hitem).entry_eq_or_absent (hdiffers.keepsWays_back (by simp))
    (hdiffers.item?_of_ne (hname ▸ hother))

end

end Tree

end Freshness.Storage
