import Freshness.Proofs.DefinedOnce
import Freshness.Settings.Basic
import Mathlib.Logic.Relation

/-!
# Settings depend on two keys

In a document that can be read, `client.current_version` and `behavior.include_prereleases` decide
the settings or the fault, and nothing else does.  Documents that differ in other entries are led
from one to the other by edits: a step adds, removes or reorders entries (`Table.Edit`) of the
document or of one of the two sections (`SideEdit`), and keeps what is found under the two keys.
That entries may change places rests on an invariant of the run, that no key is defined twice; a
document starts with it when it is read.
-/

namespace Freshness

open Toml (Table Value Origin)

namespace Toml.Table

/-! ## Edits of a table -/

/-- A free entry is added where its key is not defined yet, or is removed, or the entries change
places. -/
inductive Edit (free : String → Value → Prop) : Table → Table → Prop
  | add (before after : Table) {name : String} {value : Value} :
      free name value → name ∉ (before ++ after).map Prod.fst →
        Edit free (before ++ after) (before ++ (name, value) :: after)
  | remove (before after : Table) {name : String} {value : Value} :
      free name value → Edit free (before ++ (name, value) :: after) (before ++ after)
  | reorder {table table' : Table} : table.Perm table' → Edit free table table'

section

variable {free : String → Value → Prop} {table table' before after : Table} {key name : String}
  {value : Value}

theorem get?_insert_of_ne (hkey : key ≠ name) :
    get? (before ++ (name, value) :: after) key = get? (before ++ after) key := by
  have hbeq : (key == name) = false := beq_false_of_ne hkey
  rw [get?, get?, List.lookup_append, List.lookup_append, List.lookup_cons, hbeq]

theorem get?_eq_none_iff : table.get? key = none ↔ key ∉ table.map Prod.fst := by
  rw [get?, List.lookup_eq_none_iff]
  simp only [List.mem_map, not_exists, not_and, bne_iff_ne]
  exact forall₂_congr fun entry _ => ne_comm

theorem get?_insert_self (hname : name ∉ before.map Prod.fst) :
    get? (before ++ (name, value) :: after) name = some value := by
  have hbefore : before.lookup name = none := get?_eq_none_iff.mpr hname
  rw [get?, List.lookup_append, hbefore, List.lookup_cons_self]
  rfl

/-- In a table that defines its keys once the order of the entries says nothing. -/
theorem get?_perm (hperm : table.Perm table') (hnodup : (table.map Prod.fst).Nodup) :
    table'.get? key = table.get? key := by
  induction hperm with
  | nil => rfl
  | cons entry _ ih =>
      rw [List.map_cons, List.nodup_cons] at hnodup
      rw [get?, get?, List.lookup_cons, List.lookup_cons]
      split
      · rfl
      · exact ih hnodup.2
  | swap first second rest =>
      have hne : first.1 ≠ second.1 := by
        rintro heq
        simp [heq] at hnodup
      rw [get?, get?, List.lookup_cons, List.lookup_cons, List.lookup_cons, List.lookup_cons]
      grind
  | trans hfirst _ ihfirst ihsecond =>
      exact (ihsecond ((hfirst.map Prod.fst).nodup_iff.mp hnodup)).trans (ihfirst hnodup)

theorem nodup_insert_iff :
    ((before ++ (name, value) :: after).map Prod.fst).Nodup ↔
      name ∉ (before ++ after).map Prod.fst ∧ ((before ++ after).map Prod.fst).Nodup := by
  rw [(List.perm_middle.map Prod.fst).nodup_iff, List.map_cons, List.nodup_cons]

theorem Edit.nodup (hedit : Edit free table table') (hnodup : (table.map Prod.fst).Nodup) :
    (table'.map Prod.fst).Nodup := by
  cases hedit with
  | add _ _ _ hname => exact nodup_insert_iff.mpr ⟨hname, hnodup⟩
  | remove _ _ _ => exact (nodup_insert_iff.mp hnodup).2
  | reorder hperm => exact (hperm.map Prod.fst).nodup_iff.mp hnodup

/-- Under a key an edit changes nothing, or it adds or removes a free entry. -/
theorem Edit.get?_cases (hedit : Edit free table table') (hnodup : (table.map Prod.fst).Nodup)
    (key : String) :
    table'.get? key = table.get? key ∨
      ∃ value, free key value ∧
        (table.get? key = none ∧ table'.get? key = some value ∨
          table.get? key = some value ∧ table'.get? key = none) := by
  cases hedit with
  | @add before after name value hfree hname =>
      by_cases hkey : key = name
      · subst hkey
        refine Or.inr ⟨value, hfree, Or.inl ⟨get?_eq_none_iff.mpr hname, get?_insert_self ?_⟩⟩
        exact fun hmem => hname (by simp [hmem])
      · exact Or.inl (get?_insert_of_ne hkey)
  | @remove before after name value hfree =>
      have hname := (nodup_insert_iff.mp hnodup).1
      by_cases hkey : key = name
      · subst hkey
        refine Or.inr ⟨value, hfree, Or.inr ⟨get?_insert_self ?_, get?_eq_none_iff.mpr hname⟩⟩
        exact fun hmem => hname (by simp [hmem])
      · exact Or.inl (get?_insert_of_ne hkey).symm
  | reorder hperm => exact Or.inl (get?_perm hperm hnodup)

theorem Edit.get?_eq (hedit : Edit free table table') (hnodup : (table.map Prod.fst).Nodup)
    (hkey : ∀ value, ¬free key value) : table'.get? key = table.get? key := by
  rcases hedit.get?_cases hnodup key with hsame | ⟨value, hfree, -⟩
  · exact hsame
  · exact absurd hfree (hkey value)

end

end Toml.Table

namespace Settings

/-- The sections that are read, each with its one key. -/
def keys : List (String × String) :=
  [("client", "current_version"), ("behavior", "include_prereleases")]

/-! ## What the keys say -/

/-- A value that is neither an array nor a date. -/
def IsPlain : Value → Prop
  | .array _ => False
  | .tables _ _ => False
  | .dateTime _ => False
  | _ => True

/-- The section has the key with the value. -/
def Says (document : Table) (heading key : String) (value : Value) : Prop :=
  ∃ origin entries, document.get? heading = some (.table origin entries) ∧
    Table.get? entries key = some value

/-- The section is absent, or a table in which the key is absent or has a value of the kind. -/
def Accepts (document : Table) (heading key : String) (kind : Value → Prop) : Prop :=
  ∀ found, document.get? heading = some found →
    ∃ origin entries, found = .table origin entries ∧
      ∀ value, Table.get? entries key = some value → kind value

def IsString (value : Value) : Prop :=
  ∃ text, value = .string text

def IsBoolean (value : Value) : Prop :=
  ∃ flag, value = .boolean flag

section

variable {document document' : Table} {heading key : String}

theorem setting?_of_absent (hget : document.get? heading = none) :
    setting? document heading key = .ok none := by
  rw [setting?, hget]

theorem setting?_of_table {origin : Origin} {entries : Table}
    (hget : document.get? heading = some (.table origin entries)) :
    setting? document heading key = .ok (Table.get? entries key) := by
  rw [setting?, hget]

theorem setting?_congr (hget : document'.get? heading = document.get? heading) :
    setting? document' heading key = setting? document heading key := by
  rw [setting?, setting?, hget]

/-- Where no array and no date stands for a section, what is found under the key is what the section
says, or a value that is no table stands for the section. -/
theorem setting?_of_isPlain (hplain : ∀ found, document.get? heading = some found → IsPlain found) :
    (setting? document heading key = .error (.wrongKind heading) ∧
        ∀ kind, ¬Accepts document heading key kind) ∨
      ∃ said, setting? document heading key = .ok said ∧
        (∀ value, said = some value ↔ Says document heading key value) ∧
        ∀ kind, Accepts document heading key kind ↔ ∀ value, said = some value → kind value := by
  cases hget : document.get? heading with
  | none =>
      refine Or.inr ⟨none, setting?_of_absent hget, ?_, ?_⟩
      · simp [Says, hget]
      · simp [Accepts, hget]
  | some found =>
      by_cases htable : ∃ origin entries, found = .table origin entries
      · obtain ⟨origin, entries, rfl⟩ := htable
        refine Or.inr ⟨Table.get? entries key, setting?_of_table hget, ?_, ?_⟩
        · simp [Says, hget]
        · simp [Accepts, hget]
      · left
        constructor
        · have hfound := hplain found hget
          rw [setting?, hget]
          cases found <;> first | rfl | exact hfound.elim | exact absurd ⟨_, _, rfl⟩ htable
        · intro kind haccepts
          obtain ⟨origin, entries, hentries, -⟩ := haccepts found hget
          exact htable ⟨origin, entries, hentries⟩

end

/-! ## What is decoded -/

/-- What the two keys of a document say is decoded, and every value of the wrong kind is a fault. -/
structure DecodedFrom (document : Table) (result : Except Fault Settings) : Prop where
  ok_iff : (∃ settings, result = .ok settings) ↔
    Accepts document "client" "current_version" IsString ∧
      Accepts document "behavior" "include_prereleases" IsBoolean
  wrongKind : ¬(Accepts document "client" "current_version" IsString ∧
      Accepts document "behavior" "include_prereleases" IsBoolean) →
    ∃ key, result = .error (.wrongKind key)
  currentVersion : ∀ settings, result = .ok settings → ∀ text,
    settings.currentVersion = some text ↔
      Says document "client" "current_version" (.string text)
  includePrereleases : ∀ settings, result = .ok settings →
    (settings.includePrereleases = true ↔
      Says document "behavior" "include_prereleases" (.boolean true))

section

variable {document : Table}

/-- What follows on a setting gets what the section says, unless that is of the wrong kind. -/
theorem bind_setting?_cases {heading key : String} {A : Type}
    {next : Option Value → Except Fault A} {kind : Value → Prop}
    (hplain : ∀ found, document.get? heading = some found → IsPlain found)
    (hwrong : ∀ value, ¬kind value → next (some value) = .error (.wrongKind key)) :
    (¬Accepts document heading key kind ∧
        ∃ name, setting? document heading key >>= next = .error (.wrongKind name)) ∨
      Accepts document heading key kind ∧ ∃ said, (∀ value, said = some value → kind value) ∧
        setting? document heading key >>= next = next said ∧
        ∀ value, said = some value ↔ Says document heading key value := by
  obtain ⟨herror, hrejects⟩ | ⟨said, hsaid, hsays, haccepts⟩ := setting?_of_isPlain hplain
  · exact Or.inl ⟨hrejects kind, heading, herror ▸ rfl⟩
  · rw [hsaid, haccepts]
    by_cases hkind : ∀ value, said = some value → kind value
    · exact Or.inr ⟨hkind, said, hkind, rfl, hsays⟩
    · refine Or.inl ⟨hkind, key, ?_⟩
      simp only [not_forall] at hkind
      obtain ⟨value, rfl, hvalue⟩ := hkind
      exact hwrong value hvalue

theorem currentVersionOf_cases
    (hplain : ∀ found, document.get? "client" = some found → IsPlain found) :
    (¬Accepts document "client" "current_version" IsString ∧
        ∃ key, currentVersionOf document = .error (.wrongKind key)) ∨
      Accepts document "client" "current_version" IsString ∧
        ∃ version, currentVersionOf document = .ok version ∧ ∀ text, version = some text ↔
          Says document "client" "current_version" (.string text) := by
  refine (bind_setting?_cases hplain ?_).imp_right (And.imp_right ?_)
  · intro value hvalue
    cases value <;> first | rfl | exact absurd ⟨_, rfl⟩ hvalue
  · rintro ⟨said, hkind, hdecoded, hsays⟩
    rw [currentVersionOf, hdecoded]
    cases said with
    | none => exact ⟨none, rfl, fun text => by simp [← hsays]⟩
    | some value =>
        obtain ⟨text, rfl⟩ := hkind value rfl
        exact ⟨some text, rfl, fun text => by simp [← hsays]⟩

theorem includePrereleasesOf_cases
    (hplain : ∀ found, document.get? "behavior" = some found → IsPlain found) :
    (¬Accepts document "behavior" "include_prereleases" IsBoolean ∧
        ∃ key, includePrereleasesOf document = .error (.wrongKind key)) ∨
      Accepts document "behavior" "include_prereleases" IsBoolean ∧
        ∃ included, includePrereleasesOf document = .ok included ∧ (included = true ↔
          Says document "behavior" "include_prereleases" (.boolean true)) := by
  refine (bind_setting?_cases hplain ?_).imp_right (And.imp_right ?_)
  · intro value hvalue
    cases value <;> first | rfl | exact absurd ⟨_, rfl⟩ hvalue
  · rintro ⟨said, hkind, hdecoded, hsays⟩
    rw [includePrereleasesOf, hdecoded]
    cases said with
    | none => exact ⟨false, rfl, by simp [← hsays]⟩
    | some value =>
        obtain ⟨flag, rfl⟩ := hkind value rfl
        exact ⟨flag, rfl, by simp [← hsays]⟩

theorem decodedFrom_wrongKind (key : String)
    (hrejects : ¬(Accepts document "client" "current_version" IsString ∧
      Accepts document "behavior" "include_prereleases" IsBoolean)) :
    DecodedFrom document (.error (.wrongKind key)) where
  ok_iff := iff_of_false (by simp) hrejects
  wrongKind _ := ⟨key, rfl⟩
  currentVersion _ hok := by contradiction
  includePrereleases _ hok := by contradiction

theorem decodedFrom_ok {version : Option String} {included : Bool}
    (hstring : Accepts document "client" "current_version" IsString)
    (hboolean : Accepts document "behavior" "include_prereleases" IsBoolean)
    (hversion : ∀ text, version = some text ↔
      Says document "client" "current_version" (.string text))
    (hincluded : included = true ↔
      Says document "behavior" "include_prereleases" (.boolean true)) :
    DecodedFrom document (.ok ⟨version, included⟩) where
  ok_iff := iff_of_true ⟨_, rfl⟩ ⟨hstring, hboolean⟩
  wrongKind hrejects := absurd ⟨hstring, hboolean⟩ hrejects
  currentVersion settings hok := by
    rw [← Except.ok.inj hok]
    exact hversion
  includePrereleases settings hok := by
    rw [← Except.ok.inj hok]
    exact hincluded

theorem decodedFrom_ofDocument
    (hclient : ∀ found, document.get? "client" = some found → IsPlain found)
    (hbehavior : ∀ found, document.get? "behavior" = some found → IsPlain found) :
    DecodedFrom document (ofDocument document) := by
  rw [ofDocument]
  obtain ⟨hrejects, key, herror⟩ | ⟨hstring, version, hversion, hsaysVersion⟩ :=
    currentVersionOf_cases hclient
  · rw [herror]
    exact decodedFrom_wrongKind key fun haccepts => hrejects haccepts.1
  · rw [hversion]
    obtain ⟨hrejects, key, herror⟩ | ⟨hboolean, included, hincluded, hsaysIncluded⟩ :=
      includePrereleasesOf_cases hbehavior
    · rw [herror]
      exact decodedFrom_wrongKind key fun haccepts => hrejects haccepts.2
    · rw [hincluded]
      exact decodedFrom_ok hstring hboolean hsaysVersion hsaysIncluded

end

/-! ## Edits beside the keys -/

/-- An entry of a document that is none of the sections, or one of them without an entry. -/
def SaysNothing (name : String) (value : Value) : Prop :=
  name ∉ keys.map Prod.fst ∨ ∃ origin, value = .table origin []

/-- An edit of a document outside the sections, or inside one of them beside its key; a section may
then be written in another way. -/
inductive SideEdit : Table → Table → Prop
  | outside {document document' : Table} :
      Table.Edit SaysNothing document document' → SideEdit document document'
  | inside {document entries entries' : Table} {heading key : String} {origin origin' : Origin} :
      (heading, key) ∈ keys → document.get? heading = some (.table origin entries) →
        Table.Edit (fun name _ => name ≠ key) entries entries' →
          SideEdit document (document.put heading (.table origin' entries'))

/-- Neither the document nor one of the sections has two values for a key. -/
structure SectionsOnce (document : Table) : Prop where
  names : (document.map Prod.fst).Nodup
  sections : ∀ {heading : String} {origin : Origin} {entries : Table},
    heading ∈ keys.map Prod.fst → document.get? heading = some (.table origin entries) →
      (entries.map Prod.fst).Nodup

theorem sectionsOnce_of_definesOnce {document : Table} (honce : document.DefinesOnce) :
    SectionsOnce document where
  names := honce.nodup
  sections _ hget := (Table.definesOnce_of_table (honce.get? hget)).nodup

theorem eq_of_mem_keys {heading key key' : String} (hkey : (heading, key) ∈ keys)
    (hkey' : (heading, key') ∈ keys) : key = key' := by
  simp only [keys, List.mem_cons, Prod.mk.injEq, List.not_mem_nil, or_false] at hkey hkey'
  grind

section

variable {document document' : Table} {heading key : String}

theorem SideEdit.sectionsOnce (hedit : SideEdit document document')
    (honce : SectionsOnce document) : SectionsOnce document' := by
  cases hedit with
  | outside hedit =>
      refine ⟨hedit.nodup honce.names, fun {heading origin entries} hheading hget => ?_⟩
      rcases hedit.get?_cases honce.names heading with hsame | ⟨value, hfree, hadded | hremoved⟩
      · exact honce.sections hheading (hsame ▸ hget)
      · obtain ⟨origin', rfl⟩ := hfree.resolve_left (not_not_intro hheading)
        obtain ⟨-, rfl⟩ := Value.table.inj (Option.some.inj (hadded.2.symm.trans hget))
        exact List.nodup_nil
      · exact absurd (hremoved.2.symm.trans hget) (by simp)
  | inside hkey hold hedit =>
      refine ⟨Table.nodup_put honce.names _ _, fun hheading hget => ?_⟩
      rw [Table.get?_put] at hget
      split at hget
      · obtain ⟨-, rfl⟩ := Value.table.inj (Option.some.inj hget)
        exact hedit.nodup (honce.sections (List.mem_map_of_mem hkey) hold)
      · exact honce.sections hheading hget

/-- A side edit does not change what a section sets.  A free entry under one of the headings is a
section without an entry, which sets as little as none. -/
theorem SideEdit.setting?_eq (hedit : SideEdit document document')
    (honce : SectionsOnce document) (hkey : (heading, key) ∈ keys) :
    setting? document' heading key = setting? document heading key := by
  cases hedit with
  | outside hedit =>
      rcases hedit.get?_cases honce.names heading with hsame | ⟨value, hfree, hchanged⟩
      · exact setting?_congr hsame
      · have hheading : heading ∈ keys.map Prod.fst := List.mem_map_of_mem hkey
        obtain ⟨origin, rfl⟩ := hfree.resolve_left (not_not_intro hheading)
        rcases hchanged with ⟨habsent, hadded⟩ | ⟨hremoved, habsent⟩
        · rw [setting?_of_absent habsent, setting?_of_table hadded]
          rfl
        · rw [setting?_of_absent habsent, setting?_of_table hremoved]
          rfl
  | @inside entries entries' heading' key' origin origin' hkey' hold hedit =>
      by_cases hheading : heading = heading'
      · subst hheading
        obtain rfl := eq_of_mem_keys hkey hkey'
        have hnew : (document.put heading (.table origin' entries')).get? heading =
            some (.table origin' entries') := by
          rw [Table.get?_put, if_pos rfl]
        have hsame := hedit.get?_eq (honce.sections (List.mem_map_of_mem hkey) hold)
          fun _ (hne : key ≠ key) => hne rfl
        rw [setting?_of_table hnew, setting?_of_table hold, hsame]
      · apply setting?_congr
        rw [Table.get?_put, if_neg hheading]

theorem ofDocument_congr
    (hsettings : ∀ heading key, (heading, key) ∈ keys →
      setting? document' heading key = setting? document heading key) :
    ofDocument document' = ofDocument document := by
  have hclient := hsettings "client" "current_version" List.mem_cons_self
  have hbehavior := hsettings "behavior" "include_prereleases"
    (List.mem_cons_of_mem _ List.mem_cons_self)
  rw [ofDocument, ofDocument, currentVersionOf, currentVersionOf, includePrereleasesOf,
    includePrereleasesOf, hclient, hbehavior]

theorem ofText_of_read {text : String} (hread : Toml.read text = .ok document) :
    ofText text = ofDocument document := by
  rw [ofText, hread]
  rfl

/-- A run of edits keeps the settings, and that the next edit finds its keys defined once. -/
theorem ofDocument_of_edits (hedits : Relation.ReflTransGen SideEdit document document')
    (honce : SectionsOnce document) :
    SectionsOnce document' ∧ ofDocument document' = ofDocument document := by
  induction hedits with
  | refl => exact ⟨honce, rfl⟩
  | tail _ hedit ih =>
      obtain ⟨honce', hsame⟩ := ih
      exact ⟨hedit.sectionsOnce honce',
        (ofDocument_congr fun _ _ => hedit.setting?_eq honce').trans hsame⟩

end

/-- A text that is no document gives no settings.  Where no array and no date stands for a section
of a document, the two keys decide: there are settings just if each section is absent or a table and
its key absent or of the right kind, and the settings are what the keys say.  And edits beside the
keys never change the result. -/
theorem ofText_by_two_keys :
    (∀ (text : String) (fault : Toml.Fault), Toml.read text = .error fault →
      ofText text = .error (.document fault)) ∧
    (∀ (text : String) (document : Table), Toml.read text = .ok document →
      (∀ found, document.get? "client" = some found → IsPlain found) →
      (∀ found, document.get? "behavior" = some found → IsPlain found) →
        DecodedFrom document (ofText text)) ∧
    ∀ (text text' : String) (document document' : Table), Toml.read text = .ok document →
      Toml.read text' = .ok document' → Relation.ReflTransGen SideEdit document document' →
        ofText text' = ofText text := by
  refine ⟨?_, ?_, ?_⟩
  · intro text fault hread
    rw [ofText, hread]
    rfl
  · intro text document hread hclient hbehavior
    rw [ofText_of_read hread]
    exact decodedFrom_ofDocument hclient hbehavior
  · intro text text' document document' hread hread' hedits
    rw [ofText_of_read hread, ofText_of_read hread']
    exact (ofDocument_of_edits hedits
      (sectionsOnce_of_definesOnce (Toml.definesOnce_of_read hread))).2

def plainText : String := "[client]\ncurrent_version = '1.2.3'\n"

def namedText : String := "client.name = 1\nclient.current_version = '1.2.3'\ntitle = 'x'\n"

def plainDocument : Table :=
  [("client", .table .header [("current_version", .string "1.2.3")])]

def namedDocument : Table :=
  [("client", .table .dotted [("name", .integer 1), ("current_version", .string "1.2.3")]),
    ("title", .string "x")]

/-- The client's version is read from a section, and no differently once a title and a name are
added and the section is written in dotted keys. -/
theorem ofText_by_two_keys_of_named_client :
    ofText "[client" = .error (.document (.unreadable 1)) ∧
      (∃ key, ofText "client = 3\n" = .error (.wrongKind key)) ∧
      (∃ settings, ofText plainText = .ok settings ∧ settings.currentVersion = some "1.2.3") ∧
      ofText namedText = ofText plainText := by
  obtain ⟨hmalformed, hdecoded, hedited⟩ := ofText_by_two_keys
  have hplain : Toml.read plainText = .ok plainDocument := by cbv
  have hnamed : Toml.read namedText = .ok namedDocument := by cbv
  refine ⟨hmalformed "[client" (.unreadable 1) (by cbv), ?_, ?_, ?_⟩
  · have hread : Toml.read "client = 3\n" = .ok [("client", .integer 3)] := by cbv
    refine (hdecoded _ _ hread ?_ ?_).wrongKind ?_
    · exact fun found hfound => Option.some.inj hfound ▸ trivial
    · exact fun found hfound => by contradiction
    · rintro ⟨hclient, -⟩
      obtain ⟨origin, entries, htable, -⟩ := hclient (.integer 3) rfl
      contradiction
  · have hfrom : DecodedFrom plainDocument (ofText plainText) := by
      refine hdecoded _ _ hplain ?_ ?_
      · exact fun found hfound => Option.some.inj hfound ▸ trivial
      · exact fun found hfound => by contradiction
    obtain ⟨settings, hok⟩ := hfrom.ok_iff.mpr (by
      constructor
      · intro found hfound
        refine ⟨.header, _, (Option.some.inj hfound).symm, ?_⟩
        exact fun value hvalue => ⟨"1.2.3", (Option.some.inj hvalue).symm⟩
      · exact fun found hfound => by contradiction)
    exact ⟨settings, hok,
      (hfrom.currentVersion settings hok "1.2.3").mpr ⟨.header, _, rfl, rfl⟩⟩
  · have htitle : SideEdit plainDocument (plainDocument ++ [("title", .string "x")]) :=
      .outside (.add plainDocument [] (Or.inl (by decide)) (by decide))
    have hname : SideEdit (plainDocument ++ [("title", .string "x")])
        (Table.put "client"
          (.table .dotted [("name", .integer 1), ("current_version", .string "1.2.3")])
          (plainDocument ++ [("title", .string "x")])) :=
      .inside List.mem_cons_self rfl (.add [] _ (by decide) (by decide))
    exact hedited _ _ _ _ hplain hnamed ((Relation.ReflTransGen.single htitle).tail hname)

end Settings

end Freshness
