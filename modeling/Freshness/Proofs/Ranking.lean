import Freshness.Proofs.Ordering
import Freshness.Verdict
import Freshness.Version.Ranking
import Mathlib.Data.List.SplitBy

/-!
# Ranked versions

A ranking is sorted, and it keeps the order of equal versions.  It is the only list that is both
(`ranking_eq_iff`), so everything about it follows from how the order sorts and which versions are
equal: the newest version is the last of the greatest ones, the oldest is the first of the least
ones, and the groups are the classes of equal versions (`mem_groups_iff`).
-/

namespace Freshness.Version

namespace Placed

theorem notNewer_iff {a b : Placed} : a.notNewer b = true ↔ a.1 ≤ b.1 :=
  le_iff_isLE.symm

theorem notNewer_trans (a b c : Placed) (hab : a.notNewer b = true) (hbc : b.notNewer c = true) :
    a.notNewer c = true :=
  notNewer_iff.mpr (le_trans (notNewer_iff.mp hab) (notNewer_iff.mp hbc))

theorem notNewer_total (a b : Placed) : (a.notNewer b || b.notNewer a) = true := by
  rw [Bool.or_eq_true, notNewer_iff, notNewer_iff]
  exact le_total a.1 b.1

end Placed

/-- The versions that are equal to one, with their places. -/
def equalTo (version : Version) (versions : List Placed) : List Placed :=
  versions.filter fun placed => placed.1 == version

variable {version : Version} {versions ranked : List Placed} {placed : Placed}

theorem mem_equalTo_iff :
    placed ∈ equalTo version versions ↔ placed ∈ versions ∧ (placed.1 == version) = true :=
  List.mem_filter

theorem equalTo_append (version : Version) (before after : List Placed) :
    equalTo version (before ++ after) = equalTo version before ++ equalTo version after :=
  List.filter_append before after

theorem equalTo_cons_of_beq (hequal : (placed.1 == version) = true) (versions : List Placed) :
    equalTo version (placed :: versions) = placed :: equalTo version versions :=
  List.filter_cons_of_pos hequal

/-! ## Sorted, and stable -/

theorem ranking_perm (versions : List Placed) : (ranking versions).Perm versions :=
  List.mergeSort_perm versions Placed.notNewer

theorem mem_ranking_iff : placed ∈ ranking versions ↔ placed ∈ versions :=
  (ranking_perm versions).mem_iff

/-- A ranking goes from older versions to newer ones. -/
theorem ranking_pairwise (versions : List Placed) :
    (ranking versions).Pairwise fun a b => a.1 ≤ b.1 := by
  have hsorted := List.pairwise_mergeSort Placed.notNewer_trans Placed.notNewer_total versions
  exact hsorted.imp Placed.notNewer_iff.mp

/-- Equal versions keep the order of their places. -/
theorem equalTo_ranking (version : Version) (versions : List Placed) :
    equalTo version (ranking versions) = equalTo version versions := by
  have hequal : (equalTo version versions).Pairwise fun a b => a.notNewer b = true := by
    refine List.pairwise_of_forall_mem_list ?_
    intro a ha b hb
    rw [Placed.notNewer_iff, le_congr (mem_equalTo_iff.mp ha).2 (mem_equalTo_iff.mp hb).2]
    exact le_refl version
  have hkept : (equalTo version versions).Sublist (ranking versions) :=
    List.sublist_mergeSort Placed.notNewer_trans Placed.notNewer_total hequal List.filter_sublist
  have hselected : (equalTo version versions).Sublist (equalTo version (ranking versions)) := by
    have htwice : equalTo version (equalTo version versions) = equalTo version versions :=
      List.filter_eq_self.mpr fun _ hplaced => (mem_equalTo_iff.mp hplaced).2
    rw [← htwice]
    exact hkept.filter _
  exact (hselected.eq_of_length ((ranking_perm versions).filter _).length_eq.symm).symm

theorem equalTo_tail_eq {left right : List Placed}
    (hequal : equalTo version (placed :: left) = equalTo version (placed :: right)) :
    equalTo version left = equalTo version right := by
  rw [equalTo, equalTo, List.filter_cons, List.filter_cons] at hequal
  split at hequal
  · exact (List.cons.inj hequal).2
  · exact hequal

theorem mem_iff_of_equalTo_eq {left right : List Placed}
    (hequal : ∀ version, equalTo version left = equalTo version right) :
    placed ∈ left ↔ placed ∈ right := by
  have hsame := congrArg (placed ∈ ·) (hequal placed.1)
  simpa only [mem_equalTo_iff, beq_refl, and_true, eq_iff_iff] using hsame

theorem head_le_of_mem {head : Placed} {tail : List Placed}
    (hsorted : (head :: tail).Pairwise fun a b => a.1 ≤ b.1) (hmem : placed ∈ head :: tail) :
    head.1 ≤ placed.1 := by
  cases hmem with
  | head => exact le_refl placed.1
  | tail _ hmem => exact List.rel_of_pairwise_cons hsorted hmem

theorem le_last_of_mem {last : Placed} {init : List Placed}
    (hsorted : (init ++ [last]).Pairwise fun a b => a.1 ≤ b.1) (hmem : placed ∈ init ++ [last]) :
    placed.1 ≤ last.1 := by
  cases List.mem_append.mp hmem with
  | inl hmem => exact (List.pairwise_append.mp hsorted).2.2 placed hmem last List.mem_cons_self
  | inr hmem => rw [List.mem_singleton.mp hmem]; exact le_refl last.1

/-- Sorted lists are the same if they have the same sublists of equal versions. -/
theorem eq_of_equalTo_eq {left right : List Placed} (hleft : left.Pairwise fun a b => a.1 ≤ b.1)
    (hright : right.Pairwise fun a b => a.1 ≤ b.1)
    (hequal : ∀ version, equalTo version left = equalTo version right) : left = right := by
  induction left generalizing right with
  | nil =>
      refine (List.eq_nil_iff_forall_not_mem.mpr ?_).symm
      intro placed hplaced
      exact List.not_mem_nil ((mem_iff_of_equalTo_eq hequal).mpr hplaced)
  | cons a left ih =>
      have ha := (mem_iff_of_equalTo_eq hequal).mp List.mem_cons_self
      cases right with
      | nil => exact absurd ha List.not_mem_nil
      | cons b right =>
          have hb := (mem_iff_of_equalTo_eq hequal).mpr List.mem_cons_self
          have hheads := hequal a.1
          rw [equalTo_cons_of_beq (beq_refl a.1), equalTo_cons_of_beq (beq_iff_le_and_le.mpr
            ⟨head_le_of_mem hright ha, head_le_of_mem hleft hb⟩)] at hheads
          obtain ⟨rfl, -⟩ := List.cons.inj hheads
          rw [ih hleft.of_cons hright.of_cons fun version => equalTo_tail_eq (hequal version)]

/-- The ranking of a list is the sorted list with the same sublists of equal versions. -/
theorem ranking_eq_iff :
    ranking versions = ranked ↔
      (ranked.Pairwise fun a b => a.1 ≤ b.1) ∧
        ∀ version, equalTo version ranked = equalTo version versions := by
  constructor
  · rintro rfl
    exact ⟨ranking_pairwise versions, fun version => equalTo_ranking version versions⟩
  · rintro ⟨hsorted, hequal⟩
    refine eq_of_equalTo_eq (ranking_pairwise versions) hsorted ?_
    intro version
    rw [equalTo_ranking, hequal]

/-! ## The newest version and the oldest one -/

/-- Where a version stands among others makes no difference to the equal ones if none of the others
is equal to it. -/
theorem equalTo_concat_eq_cons {others : List Placed}
    (hdiffer : ∀ other ∈ others, ¬(other.1 == placed.1) = true) (version : Version) :
    equalTo version (others ++ [placed]) = equalTo version (placed :: others) := by
  by_cases hequal : (placed.1 == version) = true
  · have hnone : equalTo version others = [] := by
      refine List.filter_eq_nil_iff.mpr ?_
      intro other hother
      rw [← BEq.congr_right hequal]
      exact hdiffer other hother
    rw [equalTo_append, equalTo_cons_of_beq hequal, equalTo_cons_of_beq hequal, hnone]
    rfl
  · have hskip : equalTo version [placed] = [] := List.filter_cons_of_neg hequal
    have hskipped : equalTo version (placed :: others) = equalTo version others :=
      List.filter_cons_of_neg hequal
    rw [equalTo_append, hskip, hskipped, List.append_nil]

/-- The last of the greatest versions is ranked last. -/
theorem ranking_of_greatest {before after : List Placed}
    (hbefore : ∀ other ∈ before, other.1 ≤ placed.1)
    (hafter : ∀ other ∈ after, other.1 < placed.1) :
    ranking (before ++ placed :: after) = ranking (before ++ after) ++ [placed] := by
  rw [ranking_eq_iff]
  constructor
  · refine List.pairwise_append.mpr
      ⟨ranking_pairwise _, List.pairwise_singleton _ placed, ?_⟩
    intro other hother last hlast
    rw [List.mem_singleton.mp hlast]
    exact (List.mem_append.mp (mem_ranking_iff.mp hother)).elim (hbefore other)
      fun hother => le_of_lt (hafter other hother)
  · intro version
    have hdiffer : ∀ other ∈ after, ¬(other.1 == placed.1) = true :=
      fun other hother => not_beq_of_lt (hafter other hother)
    calc
      equalTo version (ranking (before ++ after) ++ [placed]) =
          equalTo version before ++ equalTo version (after ++ [placed]) := by
        rw [equalTo_append, equalTo_ranking, equalTo_append, equalTo_append, List.append_assoc]
      _ = equalTo version (before ++ placed :: after) := by
        rw [equalTo_concat_eq_cons hdiffer, equalTo_append]

/-- The first of the least versions is ranked first. -/
theorem ranking_of_least {before after : List Placed}
    (hbefore : ∀ other ∈ before, placed.1 < other.1)
    (hafter : ∀ other ∈ after, placed.1 ≤ other.1) :
    ranking (before ++ placed :: after) = placed :: ranking (before ++ after) := by
  rw [ranking_eq_iff]
  constructor
  · refine List.pairwise_cons.mpr ⟨?_, ranking_pairwise _⟩
    intro other hother
    exact (List.mem_append.mp (mem_ranking_iff.mp hother)).elim
      (fun hother => le_of_lt (hbefore other hother)) (hafter other)
  · intro version
    have hdiffer : ∀ other ∈ before, ¬(other.1 == placed.1) = true := by
      intro other hother
      rw [BEq.comm]
      exact not_beq_of_lt (hbefore other hother)
    calc
      equalTo version (placed :: ranking (before ++ after)) =
          equalTo version (placed :: before) ++ equalTo version after := by
        rw [← List.singleton_append, equalTo_append, equalTo_ranking, equalTo_append,
          ← List.append_assoc, ← equalTo_append, List.singleton_append]
      _ = equalTo version (before ++ placed :: after) := by
        rw [← equalTo_concat_eq_cons hdiffer, ← equalTo_append, List.append_assoc,
          List.singleton_append]

theorem ranking_eq_nil_iff : ranking versions = [] ↔ versions = [] := by
  constructor
  · intro hnil
    have hperm := ranking_perm versions
    rw [hnil] at hperm
    exact List.nil_perm.mp hperm
  · rintro rfl
    exact List.perm_nil.mp (ranking_perm [])

/-- There is a newest version of every list but the empty one. -/
theorem newest?_eq_none_iff : newest? versions = none ↔ versions = [] := by
  rw [newest?, List.getLast?_eq_none_iff, ranking_eq_nil_iff]

theorem oldest?_eq_none_iff : oldest? versions = none ↔ versions = [] := by
  rw [oldest?, List.head?_eq_none_iff, ranking_eq_nil_iff]

theorem le_of_newest? (hnewest : newest? versions = some placed) :
    ∀ other ∈ versions, other.1 ≤ placed.1 := by
  obtain ⟨older, hranking⟩ := List.getLast?_eq_some_iff.mp hnewest
  have hsorted := ranking_pairwise versions
  intro other hother
  rw [← mem_ranking_iff, hranking] at hother
  rw [hranking] at hsorted
  exact le_last_of_mem hsorted hother

theorem le_of_oldest? (holdest : oldest? versions = some placed) :
    ∀ other ∈ versions, placed.1 ≤ other.1 := by
  obtain ⟨newer, hranking⟩ := List.head?_eq_some_iff.mp holdest
  have hsorted := ranking_pairwise versions
  intro other hother
  rw [← mem_ranking_iff, hranking] at hother
  rw [hranking] at hsorted
  exact head_le_of_mem hsorted hother

/-- The newest version is the last of the greatest ones. -/
theorem newest?_eq_some_iff :
    newest? versions = some placed ↔
      ∃ before after, versions = before ++ placed :: after ∧
        (∀ other ∈ before, other.1 ≤ placed.1) ∧ ∀ other ∈ after, other.1 < placed.1 := by
  constructor
  · intro hnewest
    have hle := le_of_newest? hnewest
    obtain ⟨older, hranking⟩ := List.getLast?_eq_some_iff.mp hnewest
    have hequal : equalTo placed.1 versions = equalTo placed.1 older ++ [placed] := by
      rw [← equalTo_ranking, hranking, equalTo_append, equalTo_cons_of_beq (beq_refl placed.1)]
      rfl
    obtain ⟨start, rest, rfl, -, hrest⟩ := List.filter_eq_append_iff.mp hequal
    obtain ⟨between, after, rfl, -, -, hafter⟩ := List.filter_eq_cons_iff.mp hrest
    rw [← List.append_assoc] at hle ⊢
    refine ⟨start ++ between, after, rfl,
      fun other hother => hle other (List.mem_append_left _ hother), ?_⟩
    intro other hother
    exact lt_iff_le_and_not_beq.mpr
      ⟨hle other (List.mem_append_right _ (List.mem_cons_of_mem placed hother)),
        List.filter_eq_nil_iff.mp hafter other hother⟩
  · rintro ⟨before, after, rfl, hbefore, hafter⟩
    rw [newest?, ranking_of_greatest hbefore hafter, List.getLast?_concat]

/-- The oldest version is the first of the least ones. -/
theorem oldest?_eq_some_iff :
    oldest? versions = some placed ↔
      ∃ before after, versions = before ++ placed :: after ∧
        (∀ other ∈ before, placed.1 < other.1) ∧ ∀ other ∈ after, placed.1 ≤ other.1 := by
  constructor
  · intro holdest
    have hle := le_of_oldest? holdest
    obtain ⟨newer, hranking⟩ := List.head?_eq_some_iff.mp holdest
    have hequal : equalTo placed.1 versions = placed :: equalTo placed.1 newer := by
      rw [← equalTo_ranking, hranking, equalTo_cons_of_beq (beq_refl placed.1)]
    obtain ⟨before, after, rfl, hbefore, -, -⟩ := List.filter_eq_cons_iff.mp hequal
    refine ⟨before, after, rfl, ?_,
      fun other hother => hle other (List.mem_append_right _ (List.mem_cons_of_mem placed hother))⟩
    intro other hother
    have hdiffer := hbefore other hother
    rw [BEq.comm] at hdiffer
    exact lt_iff_le_and_not_beq.mpr ⟨hle other (List.mem_append_left _ hother), hdiffer⟩
  · rintro ⟨before, after, rfl, hbefore, hafter⟩
    rw [oldest?, ranking_of_least hbefore hafter, List.head?_cons]

/-- A client that runs the newest version is up to date, whichever of the versions is on offer. -/
theorem ofVersions_newest? (hnewest : newest? versions = some placed) :
    ∀ offered ∈ versions, ∀ includePrereleases,
      Verdict.ofVersions placed.1 offered.1 includePrereleases = .upToDate placed.1.text := by
  intro offered hoffered includePrereleases
  rw [Verdict.ofVersions, if_pos (le_of_newest? hnewest offered hoffered)]

/-- The oldest version is an update for nobody who runs one of the versions. -/
theorem ofVersions_oldest? (holdest : oldest? versions = some placed) :
    ∀ current ∈ versions, ∀ includePrereleases,
      Verdict.ofVersions current.1 placed.1 includePrereleases = .upToDate current.1.text := by
  intro current hcurrent includePrereleases
  rw [Verdict.ofVersions, if_pos (le_of_oldest? holdest current hcurrent)]

/-! ## Groups -/

theorem flatten_groups (versions : List Placed) : (groups versions).flatten = ranking versions :=
  List.flatten_splitBy _ _

/-- All versions of a group are equal. -/
theorem beq_of_mem_group {group : List Placed} (hgroup : group ∈ groups versions) :
    ∀ a ∈ group, ∀ b ∈ group, (a.1 == b.1) = true := by
  have htrans : Trans (fun a b : Placed => (a.1 == b.1) = true)
      (fun a b : Placed => (a.1 == b.1) = true) fun a b : Placed => (a.1 == b.1) = true :=
    ⟨BEq.trans⟩
  have hsymm : Std.Symm fun a b : Placed => (a.1 == b.1) = true := ⟨fun _ _ => beq_symm⟩
  have hchain := List.isChain_of_mem_splitBy hgroup
  exact hchain.pairwise.forall_of_forall fun a _ => beq_refl a.1

/-- All of the older versions come before all of the newer ones, of which there are some. -/
def Precedes (older newer : List Placed) : Prop :=
  newer ≠ [] ∧ ∀ a ∈ older, ∀ b ∈ newer, a.1 < b.1

instance : Trans Precedes Precedes Precedes where
  trans := by
    rintro older middle newer ⟨hmiddle, hfirst⟩ ⟨hnewer, hsecond⟩
    obtain ⟨between, hbetween⟩ := List.exists_mem_of_ne_nil middle hmiddle
    exact ⟨hnewer, fun a ha b hb =>
      lt_trans (hfirst a ha between hbetween) (hsecond between hbetween b hb)⟩

/-- It takes one version of each group to see which of two sorted groups precedes the other. -/
theorem precedes_of_getLast_head {older newer : List Placed}
    (holder : ∀ a ∈ older, ∀ b ∈ older, (a.1 == b.1) = true)
    (hnewer : ∀ a ∈ newer, ∀ b ∈ newer, (a.1 == b.1) = true)
    (hle : ∀ a ∈ older, ∀ b ∈ newer, a.1 ≤ b.1)
    (hdiffer : ∃ hlast hhead, ((older.getLast hlast).1 == (newer.head hhead).1) = false) :
    Precedes older newer := by
  obtain ⟨hlast, hhead, hdiffer⟩ := hdiffer
  refine ⟨hhead, ?_⟩
  intro a ha b hb
  refine lt_iff_le_and_not_beq.mpr ⟨hle a ha b hb, ?_⟩
  rw [BEq.congr_left (holder a ha _ (List.getLast_mem hlast)),
    BEq.congr_right (hnewer b hb _ (List.head_mem hhead)), hdiffer]
  exact Bool.false_ne_true

/-- The groups go from older versions to newer ones. -/
theorem groups_pairwise (versions : List Placed) : (groups versions).Pairwise Precedes := by
  have hsorted := ranking_pairwise versions
  rw [← flatten_groups, List.pairwise_flatten] at hsorted
  have hdiffer := List.isChain_getLast_head_splitBy (fun a b => a.1 == b.1) (ranking versions)
  refine (List.isChain_iff_getElem.mpr ?_).pairwise
  intro i hi
  have hle := List.pairwise_iff_getElem.mp hsorted.2 i (i + 1) (by omega) hi (by omega)
  exact precedes_of_getLast_head (beq_of_mem_group (List.getElem_mem _))
    (beq_of_mem_group (List.getElem_mem _)) hle (List.isChain_iff_getElem.mp hdiffer i hi)

theorem equalTo_flatten_eq_nil {others : List (List Placed)}
    (hdiffer : ∀ group ∈ others, ∀ other ∈ group, ¬(other.1 == version) = true) :
    equalTo version others.flatten = [] := by
  refine List.filter_eq_nil_iff.mpr ?_
  intro other hother
  obtain ⟨group, hgroup, hmember⟩ := List.mem_flatten.mp hother
  exact hdiffer group hgroup other hmember

/-- A group has all versions that are equal to one of its own, in the order of their places. -/
theorem group_eq_equalTo {group : List Placed} (hgroup : group ∈ groups versions)
    (hplaced : placed ∈ group) : group = equalTo placed.1 versions := by
  obtain ⟨older, newer, hgroups⟩ := List.append_of_mem hgroup
  have hordered := groups_pairwise versions
  rw [hgroups, List.pairwise_append, List.pairwise_cons] at hordered
  obtain ⟨-, ⟨hnewer, -⟩, holder⟩ := hordered
  have hall : equalTo placed.1 group = group :=
    List.filter_eq_self.mpr fun other hother => beq_of_mem_group hgroup other hother placed hplaced
  have hnoneOlder : equalTo placed.1 older.flatten = [] := by
    refine equalTo_flatten_eq_nil ?_
    intro own hown other hother
    exact not_beq_of_lt ((holder own hown group List.mem_cons_self).2 other hother placed hplaced)
  have hnoneNewer : equalTo placed.1 newer.flatten = [] := by
    refine equalTo_flatten_eq_nil ?_
    intro own hown other hother
    rw [BEq.comm]
    exact not_beq_of_lt ((hnewer own hown).2 placed hplaced other hother)
  calc
    group = equalTo placed.1 (older.flatten ++ (group ++ newer.flatten)) := by
      rw [equalTo_append, equalTo_append, hnoneOlder, hall, hnoneNewer, List.append_nil,
        List.nil_append]
    _ = equalTo placed.1 (ranking versions) := by
      rw [← flatten_groups, hgroups, List.flatten_append, List.flatten_cons]
    _ = equalTo placed.1 versions := equalTo_ranking placed.1 versions

/-- The groups are the classes of equal versions, which keep the order of their places. -/
theorem mem_groups_iff {group : List Placed} :
    group ∈ groups versions ↔ ∃ placed ∈ versions, group = equalTo placed.1 versions := by
  have hmem : ∀ placed, placed ∈ versions ↔ ∃ group ∈ groups versions, placed ∈ group := by
    intro placed
    rw [← mem_ranking_iff, ← flatten_groups, List.mem_flatten]
  constructor
  · intro hgroup
    obtain ⟨placed, hplaced⟩ :=
      List.exists_mem_of_ne_nil group (List.ne_nil_of_mem_splitBy hgroup)
    exact ⟨placed, (hmem placed).mpr ⟨group, hgroup, hplaced⟩, group_eq_equalTo hgroup hplaced⟩
  · rintro ⟨placed, hplaced, rfl⟩
    obtain ⟨group, hgroup, hmember⟩ := (hmem placed).mp hplaced
    rw [← group_eq_equalTo hgroup hmember]
    exact hgroup

end Freshness.Version
