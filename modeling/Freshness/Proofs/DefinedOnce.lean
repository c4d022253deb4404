import Freshness.Proofs.Reading
import Freshness.Toml.Document

/-!
# Keys are defined once

No table of a document has two values for a key, at any depth.  Each statement keeps it so: one that
defines a key puts it into a table that lacks it or replaces its value by a larger one, and what it
puts there is a value that was read, in which inline tables are built in the same way.
-/

namespace Freshness.Toml

mutual

/-- No table in the value has two values for a key. -/
inductive Value.DefinesOnce : Value → Prop
  | string (text : String) : Value.DefinesOnce (.string text)
  | integer (value : Int) : Value.DefinesOnce (.integer value)
  | float (value : Float) : Value.DefinesOnce (.float value)
  | boolean (value : Bool) : Value.DefinesOnce (.boolean value)
  | dateTime (value : DateTime) : Value.DefinesOnce (.dateTime value)
  | array {items : List Value} :
      (∀ item ∈ items, Value.DefinesOnce item) → Value.DefinesOnce (.array items)
  | table {origin : Origin} {entries : Table} :
      Table.DefinesOnce entries → Value.DefinesOnce (.table origin entries)
  | tables {last : Table} {earlier : List Table} :
      Table.DefinesOnce last → (∀ table ∈ earlier, Table.DefinesOnce table) →
        Value.DefinesOnce (.tables last earlier)

/-- Neither the table nor one in its values has two values for a key. -/
inductive Table.DefinesOnce : Table → Prop
  | mk {table : Table} :
      (table.map Prod.fst).Nodup → (∀ entry ∈ table, Value.DefinesOnce entry.2) →
        Table.DefinesOnce table

end

/-! ## Tables -/

namespace Table

variable {table table' : Table} {key : String} {value : Value}

theorem DefinesOnce.nodup (honce : table.DefinesOnce) : (table.map Prod.fst).Nodup := by
  cases honce with
  | mk hnodup hvalues => exact hnodup

theorem DefinesOnce.values (honce : table.DefinesOnce) {entry : String × Value}
    (hentry : entry ∈ table) : entry.2.DefinesOnce := by
  cases honce with
  | mk hnodup hvalues => exact hvalues entry hentry

theorem definesOnce_nil : DefinesOnce [] :=
  .mk List.nodup_nil (by simp)

theorem DefinesOnce.get? (honce : table.DefinesOnce) (hget : table.get? key = some value) :
    value.DefinesOnce := by
  obtain ⟨before, after, rfl, -⟩ := List.lookup_eq_some_iff.mp hget
  exact honce.values (List.mem_append_right before List.mem_cons_self)

theorem mem_put {entry : String × Value} (hentry : entry ∈ table.put key value) :
    entry = (key, value) ∨ entry ∈ table := by
  induction table with
  | nil => exact Or.inl (List.mem_singleton.mp hentry)
  | cons first rest ih =>
      rw [put] at hentry
      split at hentry
      · exact (List.mem_cons.mp hentry).imp_right (List.mem_cons_of_mem first)
      · rcases List.mem_cons.mp hentry with rfl | hrest
        · exact Or.inr List.mem_cons_self
        · exact (ih hrest).imp_right (List.mem_cons_of_mem first)

/-- A key that is put is replaced where it stands, so it is not there twice. -/
theorem nodup_put (hnodup : (table.map Prod.fst).Nodup) (key : String) (value : Value) :
    ((table.put key value).map Prod.fst).Nodup := by
  induction table with
  | nil => exact List.nodup_singleton key
  | cons first rest ih =>
      rw [List.map_cons, List.nodup_cons] at hnodup
      rw [put]
      split
      · next hkey =>
          rw [List.map_cons, List.nodup_cons]
          exact hkey ▸ hnodup
      · next hkey =>
          rw [List.map_cons, List.nodup_cons]
          refine ⟨?_, ih hnodup.2⟩
          intro hmem
          obtain ⟨entry, hentry, hname⟩ := List.mem_map.mp hmem
          rcases mem_put hentry with rfl | hold
          · exact hkey hname.symm
          · exact hnodup.1 (List.mem_map.mpr ⟨entry, hold, hname⟩)

/-- To put a value that defines nothing twice keeps a table that way. -/
theorem DefinesOnce.put (honce : table.DefinesOnce) (hvalue : value.DefinesOnce) (key : String) :
    (table.put key value).DefinesOnce := by
  refine .mk (nodup_put honce.nodup key value) fun entry hentry => ?_
  rcases mem_put hentry with rfl | hold
  · exact hvalue
  · exact honce.values hold

theorem definesOnce_of_table {origin : Origin} {entries : Table}
    (honce : (Value.table origin entries).DefinesOnce) : entries.DefinesOnce := by
  cases honce with
  | table hentries => exact hentries

theorem definesOnce_of_tables {last : Table} {earlier : List Table}
    (honce : (Value.tables last earlier).DefinesOnce) :
    last.DefinesOnce ∧ ∀ table ∈ earlier, table.DefinesOnce := by
  cases honce with
  | tables hlast hearlier => exact ⟨hlast, hearlier⟩

/-! ## Definitions -/

/-- A change of tables that leaves no key defined twice where none was. -/
def KeepsOnce (change : Table → Option Table) : Prop :=
  ∀ table table', table.DefinesOnce → change table = some table' → table'.DefinesOnce

/-- Where a changed table takes the place of the one it was, only the new one needs a look. -/
theorem DefinesOnce.put_changed (honce : table.DefinesOnce) {changed : Option Table}
    (wrap : Table → Value) (hwrap : ∀ entries, changed = some entries → (wrap entries).DefinesOnce)
    (hput : (do return table.put key (wrap (← changed))) = some table') : table'.DefinesOnce := by
  obtain ⟨entries, hchanged, hput⟩ := Option.bind_eq_some_iff.mp hput
  rw [← Option.some.inj hput]
  exact honce.put (hwrap entries hchanged) key

/-- An assignment refuses a key that is there, so it defines none twice. -/
theorem keepsOnce_assignFrom (hvalue : value.DefinesOnce) (mayPut : Bool) (parents : List String) :
    KeepsOnce (assignFrom mayPut key value parents) := by
  induction parents generalizing mayPut with
  | nil =>
      intro table table' honce hassign
      rw [assignFrom] at hassign
      split at hassign
      · rw [← Option.some.inj hassign]
        exact honce.put hvalue key
      · contradiction
  | cons name parents ih =>
      intro table table' honce hassign
      rw [assignFrom] at hassign
      split at hassign
      · refine honce.put_changed (.table .dotted) (fun entries' hentries => ?_) hassign
        exact .table (ih true [] entries' definesOnce_nil hentries)
      · next entries hget =>
          have hold := definesOnce_of_table (honce.get? hget)
          refine honce.put_changed (.table .dotted) (fun entries' hentries => ?_) hassign
          exact .table (ih true entries entries' hold hentries)
      · next entries hget =>
          have hold := definesOnce_of_table (honce.get? hget)
          refine honce.put_changed (.table .implied) (fun entries' hentries => ?_) hassign
          exact .table (ih false entries entries' hold hentries)
      · next last earlier hget =>
          obtain ⟨hold, hearlier⟩ := definesOnce_of_tables (honce.get? hget)
          refine honce.put_changed (.tables · earlier) (fun last' hlast => ?_) hassign
          exact .tables (ih false last last' hold hlast) hearlier
      · contradiction

theorem keepsOnce_assign (hvalue : value.DefinesOnce) (path : KeyPath) :
    KeepsOnce (assign path value) :=
  keepsOnce_assignFrom hvalue true path.parents

theorem KeepsOnce.descend {change : Table → Option Table} (hchange : KeepsOnce change)
    (names : List String) : KeepsOnce (descend change names) := by
  induction names with
  | nil => exact hchange
  | cons name names ih =>
      intro table table' honce hdescend
      rw [Table.descend] at hdescend
      split at hdescend
      · refine honce.put_changed (.table .implied) (fun entries' hentries => ?_) hdescend
        exact .table (ih [] entries' definesOnce_nil hentries)
      · contradiction
      · next origin entries _ hget =>
          have hold := definesOnce_of_table (honce.get? hget)
          refine honce.put_changed (.table origin) (fun entries' hentries => ?_) hdescend
          exact .table (ih entries entries' hold hentries)
      · next last earlier hget =>
          obtain ⟨hold, hearlier⟩ := definesOnce_of_tables (honce.get? hget)
          refine honce.put_changed (.tables · earlier) (fun last' hlast => ?_) hdescend
          exact .tables (ih last last' hold hlast) hearlier
      · contradiction

/-- A header opens a table that is new, or one that was only implied. -/
theorem keepsOnce_openTable (path : KeyPath) : KeepsOnce (openTable path) := by
  refine KeepsOnce.descend ?_ path.parents
  intro table table' honce hopen
  dsimp only at hopen
  split at hopen
  · rw [← Option.some.inj hopen]
    exact honce.put (.table definesOnce_nil) path.last
  · next entries hget =>
      rw [← Option.some.inj hopen]
      exact honce.put (.table (definesOnce_of_table (honce.get? hget))) path.last
  · contradiction

/-- A header of an array starts a table of its own. -/
theorem keepsOnce_appendTable (path : KeyPath) : KeepsOnce (appendTable path) := by
  refine KeepsOnce.descend ?_ path.parents
  intro table table' honce happend
  dsimp only at happend
  split at happend
  · rw [← Option.some.inj happend]
    exact honce.put (.tables definesOnce_nil (by simp)) path.last
  · next last earlier hget =>
      rw [← Option.some.inj happend]
      obtain ⟨hlast, hearlier⟩ := definesOnce_of_tables (honce.get? hget)
      exact honce.put (.tables definesOnce_nil (List.forall_mem_cons.mpr ⟨hlast, hearlier⟩))
        path.last
  · contradiction

end Table

/-! ## Values -/

/-- A reader whose results all have the property. -/
def Reader.Yields {α : Type} (reader : Reader α) (property : α → Prop) : Prop :=
  ∀ text result rest, reader text = some (result, rest) → property result

section

variable {item : Reader Value} (hitem : item.Yields Value.DefinesOnce)

include hitem

theorem yields_readItems :
    Reader.Yields (readItems item) fun items => ∀ value ∈ items, value.DefinesOnce := by
  intro text
  induction text using readItems.induct with
  | case1 text after hgap =>
      intro items rest hread
      rw [readItems, hgap] at hread
      obtain ⟨rfl, -⟩ := Prod.mk.inj (Option.some.inj hread)
      simp
  | case2 text hgap ih =>
      intro items rest hread
      rw [readItems] at hread
      split at hread
      · next after hclose => exact absurd hclose (hgap after)
      · obtain ⟨⟨value, afterValue⟩, hvalue, hread⟩ := Option.bind_eq_some_iff.mp hread
        have honce := hitem _ _ _ hvalue
        dsimp only at hread
        split at hread
        · next after _ =>
            split at hread
            · next hlength =>
                obtain ⟨⟨values, afterValues⟩, hvalues, hread⟩ :=
                  Option.bind_eq_some_iff.mp hread
                obtain ⟨rfl, -⟩ := Prod.mk.inj (Option.some.inj hread)
                exact List.forall_mem_cons.mpr ⟨honce, ih after hlength values _ hvalues⟩
            · contradiction
        · obtain ⟨rfl, -⟩ := Prod.mk.inj (Option.some.inj hread)
          exact List.forall_mem_singleton.mpr honce
        · contradiction

theorem yields_readEntry {table : Table} (htable : table.DefinesOnce) :
    (readEntry item table).Yields Table.DefinesOnce := by
  intro text table' rest hread
  simp only [readEntry, Option.bind_eq_bind, Option.bind_eq_some_iff, Prod.exists] at hread
  obtain ⟨path, afterPath, -, afterSign, -, value, afterValue, hvalue, added, hassign, hread⟩ :=
    hread
  obtain ⟨rfl, -⟩ := Prod.mk.inj (Option.some.inj hread)
  exact Table.keepsOnce_assign (hitem _ _ _ hvalue) path table added htable hassign

/-- The entries of an inline table are assigned one after another, each with a key that is free. -/
theorem yields_readEntries {table : Table} (htable : table.DefinesOnce) :
    Reader.Yields (readEntries item table) Table.DefinesOnce := by
  intro text
  induction table, text using readEntries.induct with
  | case1 table text ih =>
      intro table' rest hread
      rw [readEntries] at hread
      obtain ⟨⟨added, afterEntry⟩, hentry, hread⟩ := Option.bind_eq_some_iff.mp hread
      have honce := yields_readEntry hitem htable _ _ _ hentry
      dsimp only at hread
      split at hread
      · next _ after =>
          split at hread
          · next hlength => exact ih added after hlength honce table' rest hread
          · contradiction
      · obtain ⟨rfl, -⟩ := Prod.mk.inj (Option.some.inj hread)
        exact honce
      · contradiction

theorem yields_readInlineTable : (readInlineTable item).Yields Table.DefinesOnce := by
  intro text table rest hread
  rw [readInlineTable] at hread
  split at hread
  · obtain ⟨rfl, -⟩ := Prod.mk.inj (Option.some.inj hread)
    exact Table.definesOnce_nil
  · exact yields_readEntries hitem Table.definesOnce_nil text table rest hread

end

theorem definesOnce_of_ofWord? {word : List Char} {value : Value}
    (hword : Value.ofWord? word = some value) : value.DefinesOnce := by
  rw [Value.ofWord?] at hword
  split at hword
  · rw [← Option.some.inj hword]
    exact .boolean true
  · split at hword
    · rw [← Option.some.inj hword]
      exact .boolean false
    · simp only [Option.orElse_eq_orElse, Option.orElse_eq_or, Option.or_eq_some_iff,
        Option.map_eq_some_iff] at hword
      obtain ⟨date, -, rfl⟩ | ⟨-, ⟨float, -, rfl⟩ | ⟨-, integer, -, rfl⟩⟩ := hword
      · exact .dateTime date
      · exact .float float
      · exact .integer integer

theorem exists_of_map_read {α : Type} {read : Option (α × List Char)} {make : α → Value}
    {value : Value} {rest : List Char} (hread : read.map (Prod.map make id) = some (value, rest)) :
    ∃ made, read = some (made, rest) ∧ make made = value := by
  obtain ⟨⟨made, after⟩, hmade, hvalue⟩ := Option.map_eq_some_iff.mp hread
  obtain ⟨rfl, rfl⟩ := Prod.mk.inj hvalue
  exact ⟨made, hmade, rfl⟩

/-- No value that is read defines a key twice, however deep it may be nested.  Only arrays and
inline tables go one level down. -/
theorem yields_readValueWithin (depth : Nat) :
    Reader.Yields (readValueWithin depth) Value.DefinesOnce := by
  induction depth using Nat.strong_induction_on with
  | _ depth ih =>
      intro text value rest hread
      unfold readValueWithin at hread
      split at hread
      · split at hread
        · contradiction
        · next inner =>
            obtain ⟨items, hitems, rfl⟩ := exists_of_map_read hread
            exact .array (yields_readItems (ih inner (Nat.lt_succ_self inner)) _ _ _ hitems)
      · split at hread
        · contradiction
        · next inner =>
            obtain ⟨table, htable, rfl⟩ := exists_of_map_read hread
            exact .table (yields_readInlineTable (ih inner (Nat.lt_succ_self inner)) _ _ _ htable)
      · obtain ⟨text, -, rfl⟩ := exists_of_map_read hread
        exact .string text
      · obtain ⟨text, -, rfl⟩ := exists_of_map_read hread
        exact .string text
      · obtain ⟨word, hword, hvalue⟩ := Option.map_eq_some_iff.mp hread
        obtain ⟨rfl, -⟩ := Prod.mk.inj hvalue
        exact definesOnce_of_ofWord? hword

/-! ## Documents -/

/-- A statement that defines nothing twice in the value it assigns, if it assigns one. -/
def Statement.DefinesOnce : Statement → Prop
  | .assignment _ value => value.DefinesOnce
  | .header _ => True
  | .elementHeader _ => True

theorem definesOnce_of_readAssignment {text rest : List Char} {statement : Statement}
    (hread : readAssignment text = some (statement, rest)) : statement.DefinesOnce := by
  simp only [readAssignment, Option.bind_eq_bind, Option.bind_eq_some_iff, Prod.exists] at hread
  obtain ⟨path, afterPath, -, afterSign, -, value, afterValue, hvalue, hread⟩ := hread
  obtain ⟨rfl, -⟩ := Prod.mk.inj (Option.some.inj hread)
  exact yields_readValueWithin Value.maxDepth _ _ _ hvalue

theorem definesOnce_of_readStatement {text rest : List Char} {said : Option Statement}
    (hread : readStatement text = some (said, rest)) :
    ∀ statement ∈ said.toList, statement.DefinesOnce := by
  rw [readStatement] at hread
  split at hread
  · obtain ⟨⟨path, after⟩, -, hread⟩ := Option.bind_eq_some_iff.mp hread
    obtain ⟨closed, -, hread⟩ := Option.bind_eq_some_iff.mp hread
    obtain ⟨rfl, -⟩ := Prod.mk.inj (Option.some.inj hread)
    exact List.forall_mem_singleton.mpr trivial
  · obtain ⟨⟨path, after⟩, -, hread⟩ := Option.bind_eq_some_iff.mp hread
    obtain ⟨closed, -, hread⟩ := Option.bind_eq_some_iff.mp hread
    obtain ⟨rfl, -⟩ := Prod.mk.inj (Option.some.inj hread)
    exact List.forall_mem_singleton.mpr trivial
  iterate 4
    · obtain ⟨rfl, -⟩ := Prod.mk.inj (Option.some.inj hread)
      exact List.forall_mem_nil _
  · obtain ⟨⟨statement, after⟩, hassignment, hsaid⟩ := Option.map_eq_some_iff.mp hread
    obtain ⟨rfl, -⟩ := Prod.mk.inj hsaid
    exact List.forall_mem_singleton.mpr (definesOnce_of_readAssignment hassignment)

theorem definesOnce_of_readLine {text rest : List Char} {said : Option Statement}
    (hread : readLine text = some (said, rest)) :
    ∀ statement ∈ said.toList, statement.DefinesOnce := by
  rw [readLine] at hread
  obtain ⟨⟨said', after⟩, hstatement, hread⟩ := Option.bind_eq_some_iff.mp hread
  obtain ⟨ended, -, hread⟩ := Option.bind_eq_some_iff.mp hread
  obtain ⟨rfl, -⟩ := Prod.mk.inj (Option.some.inj hread)
  exact definesOnce_of_readStatement hstatement

/-- No statement of a document defines a key twice in the value it assigns. -/
theorem definesOnce_of_readStatements {number : Nat} {text : List Char}
    {statements : List Statement} (hread : readStatements number text = .ok statements) :
    ∀ statement ∈ statements, statement.DefinesOnce := by
  induction number, text using readStatements.induct generalizing statements with
  | case1 number text hempty =>
      rw [readStatements, if_pos hempty] at hread
      rw [← Except.ok.inj hread]
      simp
  | case2 number text hempty said rest hline hlength ih =>
      rw [readStatements, if_neg hempty, hline] at hread
      dsimp only at hread
      rw [dif_pos hlength] at hread
      cases hrest : readStatements (number + (text.count '\n' - rest.count '\n')) rest with
      | error fault =>
          rw [hrest] at hread
          contradiction
      | ok later =>
          rw [hrest] at hread
          rw [← Except.ok.inj hread, List.forall_mem_append]
          exact ⟨definesOnce_of_readLine hline, ih hrest⟩
  | case3 number text hempty said rest hline hlength =>
      rw [readStatements, if_neg hempty, hline] at hread
      dsimp only at hread
      rw [dif_neg hlength] at hread
      contradiction
  | case4 number text hempty hline =>
      rw [readStatements, if_neg hempty, hline] at hread
      contradiction

/-- One more statement leaves no key defined twice. -/
theorem definesOnce_of_add {draft draft' : Draft} {statement : Statement}
    (hdraft : draft.entries.DefinesOnce) (hstatement : statement.DefinesOnce)
    (hadd : draft.add statement = .ok draft') : draft'.entries.DefinesOnce := by
  cases statement with
  | assignment path value =>
      rw [Draft.add] at hadd
      split at hadd
      · next entries hdescend =>
          rw [← Except.ok.inj hadd]
          exact (Table.keepsOnce_assign hstatement path).descend draft.current _ _ hdraft hdescend
      · contradiction
  | header path =>
      rw [Draft.add] at hadd
      split at hadd
      · next entries hopen =>
          rw [← Except.ok.inj hadd]
          exact Table.keepsOnce_openTable path _ _ hdraft hopen
      · contradiction
  | elementHeader path =>
      rw [Draft.add] at hadd
      split at hadd
      · next entries happend =>
          rw [← Except.ok.inj hadd]
          exact Table.keepsOnce_appendTable path _ _ hdraft happend
      · contradiction

/-- A run of statements keeps a draft in which no key is defined twice. -/
theorem definesOnce_of_foldlM {draft draft' : Draft} {statements : List Statement}
    (hdraft : draft.entries.DefinesOnce)
    (hstatements : ∀ statement ∈ statements, statement.DefinesOnce)
    (hfold : statements.foldlM Draft.add draft = .ok draft') : draft'.entries.DefinesOnce := by
  induction statements generalizing draft with
  | nil =>
      rw [← Except.ok.inj hfold]
      exact hdraft
  | cons statement statements ih =>
      obtain ⟨hstatement, hrest⟩ := List.forall_mem_cons.mp hstatements
      rw [List.foldlM_cons] at hfold
      obtain ⟨next, hadd, hfold⟩ := bind_eq_ok_iff.mp hfold
      exact ih (definesOnce_of_add hdraft hstatement hadd) hrest hfold

/-- A text that is read as a document spells one without a key that is defined twice. -/
theorem definesOnce_of_read {text : String} {document : Table}
    (hread : read text = .ok document) : document.DefinesOnce := by
  rw [read] at hread
  obtain ⟨statements, hstatements, hread⟩ := bind_eq_ok_iff.mp hread
  obtain ⟨draft, hfold, hread⟩ := bind_eq_ok_iff.mp hread
  rw [← Except.ok.inj hread]
  exact definesOnce_of_foldlM Table.definesOnce_nil (definesOnce_of_readStatements hstatements)
    hfold

end Freshness.Toml
