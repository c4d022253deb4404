import Freshness.Proofs.Ordering
import Freshness.Proofs.Reading
import Freshness.Proofs.Tokens

/-!
# Renaming characters outside ASCII

A version is read by its ASCII characters: dots, digits, the letters `a` to `z` and the words made
of them.  All other characters are only copied, into the tag of a channel that nobody recognizes or
into the component that a failure quotes.  Each step of reading therefore commutes with a renaming
of those characters (`ofToken_map`, `number_map`, `ofComponents_map`), and texts whose components
differ by one are read as equal versions.
-/

namespace Freshness

namespace Text

/-- The renaming leaves ASCII characters as they are and turns no other character into one. -/
def KeepsAscii (rename : Char → Char) : Prop :=
  ∀ c d : Char, d.toNat < 0x80 → (rename c = d ↔ c = d)

variable {rename : Char → Char}

theorem KeepsAscii.map_eq_iff (hrename : KeepsAscii rename) {text word : List Char}
    (hword : ∀ c ∈ word, c.toNat < 0x80) : text.map rename = word ↔ text = word := by
  induction text generalizing word with
  | nil => exact Iff.rfl
  | cons c text ih =>
      cases word with
      | nil => simp
      | cons d word =>
          rw [List.forall_mem_cons] at hword
          rw [List.map_cons, List.cons.injEq, List.cons.injEq, hrename c d hword.1, ih hword.2]

theorem KeepsAscii.map_eq_self (hrename : KeepsAscii rename) {text : List Char}
    (htext : ∀ c ∈ text, c.toNat < 0x80) : text.map rename = text :=
  (hrename.map_eq_iff htext).mpr rfl

theorem KeepsAscii.ofList_map_eq_iff (hrename : KeepsAscii rename) {text : List Char}
    {word : String} (hword : ∀ c ∈ word.toList, c.toNat < 0x80) :
    String.ofList (text.map rename) = word ↔ String.ofList text = word := by
  have hchars : ∀ chars : List Char, String.ofList chars = word ↔ chars = word.toList := by
    intro chars
    rw [← String.toList_inj, String.toList_ofList]
  rw [hchars, hchars]
  exact hrename.map_eq_iff hword

/-- A class of ASCII characters is kept. -/
theorem KeepsAscii.class_eq (hrename : KeepsAscii rename) {holds : Char → Bool}
    (hascii : ∀ c, holds c = true → c.toNat < 0x80) (c : Char) :
    holds (rename c) = holds c := by
  rw [Bool.eq_iff_iff]
  constructor
  · intro hholds
    have hsame : c = rename c := (hrename c _ (hascii _ hholds)).mp rfl
    rwa [← hsame] at hholds
  · intro hholds
    rwa [(hrename c c (hascii c hholds)).mpr rfl]

theorem KeepsAscii.isLower (hrename : KeepsAscii rename) (c : Char) :
    (rename c).isLower = c.isLower :=
  hrename.class_eq (fun _ => ascii_of_isLower) c

theorem KeepsAscii.isDigit (hrename : KeepsAscii rename) :
    (fun c => (rename c).isDigit) = Char.isDigit := by
  funext c
  exact hrename.class_eq (fun _ => ascii_of_isDigit) c

/-! ## Segments -/

def Segment.map (rename : Char → Char) : Segment → Segment
  | plain text => plain (text.map rename)
  | numbered letters digits => numbered (letters.map rename) (digits.map rename)

theorem Segment.map_of_isNumberedRun (hrename : KeepsAscii rename) {letters digits : List Char}
    (hrun : IsNumberedRun letters digits) :
    letters.map rename = letters ∧ digits.map rename = digits := by
  have hascii := hrun.ascii
  constructor
  · exact hrename.map_eq_self fun c hc => hascii c (List.mem_append_left digits hc)
  · exact hrename.map_eq_self fun c hc => hascii c (List.mem_append_right letters hc)

theorem Segment.consPlain_map (text : List Char) (rest : List Segment) :
    consPlain (text.map rename) (rest.map (Segment.map rename)) =
      (consPlain text rest).map (Segment.map rename) := by
  rw [consPlain, consPlain, List.isEmpty_map]
  split <;> rfl

theorem Segment.cons_map (hrename : KeepsAscii rename) (c : Char) (rest : List Segment) :
    cons (rename c) (rest.map (Segment.map rename)) = (cons c rest).map (Segment.map rename) := by
  cases rest with
  | nil => rfl
  | cons segment rest =>
      cases segment with
      | numbered letters digits =>
          simp only [List.map_cons, Segment.map, cons, hrename.isLower]
          split <;> rfl
      | plain text =>
          have hhead : (text.map rename).head?.any Char.isDigit =
              text.head?.any Char.isDigit := by
            rw [List.head?_map, Option.any_map, hrename.isDigit]
          simp only [List.map_cons, Segment.map, cons, hrename.isLower, hhead, List.takeWhile_map,
            List.dropWhile_map, Function.comp_def, hrename.isDigit, consPlain_map]
          split <;> rfl

theorem segments_map (hrename : KeepsAscii rename) (token : List Char) :
    segments (token.map rename) = (segments token).map (Segment.map rename) := by
  induction token with
  | nil => rfl
  | cons c token ih =>
      rw [List.map_cons, segments_cons, segments_cons, ih, Segment.cons_map hrename]

end Text

open Text

/-! ## Stages -/

/-- The channel with its tag renamed, if it is one that nobody recognizes. -/
def Channel.map (rename : Char → Char) : Channel → Channel
  | unrecognized tag => unrecognized (String.ofList (tag.toList.map rename))
  | channel => channel

def Stage.map (rename : Char → Char) (stage : Stage) : Stage :=
  { stage with channel := stage.channel.map rename }

def Malformed.Reason.map (rename : Char → Char) : Malformed.Reason → Malformed.Reason
  | notANumeral component text => notANumeral component (String.ofList (text.toList.map rename))
  | reason => reason

variable {rename : Char → Char}

theorem Channel.ofTag_map (hrename : KeepsAscii rename) (text : List Char) :
    ofTag (String.ofList (text.map rename)) = (ofTag (String.ofList text)).map rename := by
  have hsame : ∀ word ∈ ["dev", "alpha", "beta", "rc", ""],
      String.ofList (text.map rename) = word ↔ String.ofList text = word := by
    intro word hword
    apply hrename.ofList_map_eq_iff
    simp only [List.mem_cons, List.not_mem_nil, or_false] at hword
    rcases hword with rfl | rfl | rfl | rfl | rfl <;> simp
  simp only [List.forall_mem_cons] at hsame
  obtain ⟨hdev, halpha, hbeta, hrc, hempty, -⟩ := hsame
  simp only [ofTag, hdev, halpha, hbeta, hrc, hempty, apply_ite (Channel.map rename)]
  simp [Channel.map]

/-- Renaming does not change which channels are known. -/
theorem Channel.eq_or_unrecognized_of_map_eq {a b : Channel}
    (hmap : a.map rename = b.map rename) :
    a = b ∨ ∃ s t, a = unrecognized s ∧ b = unrecognized t := by
  cases a <;> cases b <;> simp_all [Channel.map]

/-- A result with the text that was copied into it renamed. -/
def renamed {A : Type} (map : A → A) (rename : Char → Char) (result : Except Malformed.Reason A) :
    Except Malformed.Reason A :=
  (result.map map).mapError (Malformed.Reason.map rename)

theorem Stage.unnumbered_map (hrename : KeepsAscii rename) (tag : List Char) :
    unnumbered (tag.map rename) = (unnumbered tag).map rename := by
  rw [unnumbered, Channel.ofTag_map hrename]
  rfl

/-- Letters and digits are ASCII, so nothing of a numbered run is renamed. -/
theorem Stage.map_of_isNumberedRun (hrename : KeepsAscii rename) {letters digits : List Char}
    (hrun : IsNumberedRun letters digits) (iteration : Int64) :
    Stage.map rename ⟨.ofTag (String.ofList letters), iteration⟩ =
      ⟨.ofTag (String.ofList letters), iteration⟩ := by
  rw [Stage.map, ← Channel.ofTag_map hrename, (Segment.map_of_isNumberedRun hrename hrun).1]

theorem Stage.ofToken_map (hrename : KeepsAscii rename) (token : List Char) :
    ofToken (token.map rename) = renamed (Stage.map rename) rename (ofToken token) := by
  have hwellFormed := fun segment => @wellFormed_of_mem_segments token segment
  rw [ofToken, ofToken, segments_map hrename]
  cases hsegments : segments token with
  | nil => rfl
  | cons segment others =>
      have hsegment := hwellFormed segment (by rw [hsegments]; exact List.mem_cons_self)
      cases segment with
      | plain text => exact congrArg Except.ok (unnumbered_map hrename text)
      | numbered letters digits =>
          obtain ⟨hletters, hdigits⟩ := Segment.map_of_isNumberedRun hrename hsegment
          have hstage := Stage.map_of_isNumberedRun hrename hsegment
          simp only [List.map_cons, Segment.map, hletters, hdigits]
          cases others with
          | cons next others => exact congrArg Except.ok (hstage noIteration).symm
          | nil =>
              simp only [List.map_nil]
              split
              · exact congrArg Except.ok (hstage _).symm
              · rfl

/-! ## Versions -/

namespace Version

def map (rename : Char → Char) (version : Version) : Version :=
  { version with stage := version.stage.map rename }

/-- Versions that are one after a renaming are equal up to their tags. -/
theorem beq_of_map_eq {a b : Version} (hmap : a.map rename = b.map rename) : (a == b) = true := by
  simp only [map, Stage.map, mk.injEq, Stage.mk.injEq] at hmap
  obtain ⟨hmajor, hminor, hpatch, hchannel, hiteration⟩ := hmap
  exact beq_iff.mpr ⟨hmajor, hminor, hpatch, hiteration,
    Channel.eq_or_unrecognized_of_map_eq hchannel⟩

theorem number_map (hrename : KeepsAscii rename) (component : Component) (text : List Char) :
    number component (text.map rename) = renamed id rename (number component text) := by
  have hnumeral : Numeral.isNumeral (text.map rename) = Numeral.isNumeral text := by
    rw [Numeral.isNumeral, Numeral.isNumeral, List.isEmpty_map, List.all_map, Function.comp_def,
      hrename.isDigit]
  rw [number, number, hnumeral]
  split
  · simp [renamed, Except.map, Except.mapError, Malformed.Reason.map]
  · next hdigits =>
      rw [Bool.not_eq_true', Bool.not_eq_false] at hdigits
      have hsame : text.map rename = text :=
        hrename.map_eq_self fun c hc =>
          ascii_of_isDigit ((Numeral.isNumeral_iff.mp hdigits).2 c hc)
      rw [hsame]
      split <;> rfl

theorem stageOf_map (hrename : KeepsAscii rename) (rest : List (List Char)) :
    stageOf (rest.map (List.map rename)) =
      renamed (Stage.map rename) rename (stageOf rest) := by
  cases rest with
  | nil => rfl
  | cons token rest => exact Stage.ofToken_map hrename token

theorem ofComponents_map (hrename : KeepsAscii rename) (components : List (List Char)) :
    ofComponents (components.map (List.map rename)) =
      renamed (Version.map rename) rename (ofComponents components) := by
  match components with
  | [] => rfl
  | [_] => rfl
  | [_, _] => rfl
  | majorText :: minorText :: patchText :: rest =>
      simp only [List.map_cons, ofComponents, number_map hrename, stageOf_map hrename]
      cases number .major majorText with
      | error reason => rfl
      | ok major =>
          cases number .minor minorText with
          | error reason => rfl
          | ok minor =>
              cases number .patch patchText with
              | error reason => rfl
              | ok patch => cases stageOf rest <;> rfl

/-- Texts that are read alike after a renaming are read as equal versions. -/
theorem exists_read_of_renamed_eq {a b : String}
    (hsame : renamed (Version.map rename) rename (ofComponents (components a.toList)) =
      renamed (Version.map rename) rename (ofComponents (components b.toList)))
    {v : Version} (hv : read a = .ok v) : ∃ w, read b = .ok w ∧ (v == w) = true := by
  rw [read_eq_ok_iff] at hv
  rw [hv] at hsame
  cases hw : ofComponents (components b.toList) with
  | error reason =>
      rw [hw] at hsame
      exact absurd hsame (by simp [renamed, Except.map, Except.mapError])
  | ok w =>
      rw [hw] at hsame
      exact ⟨w, read_eq_ok_iff.mpr hw, beq_of_map_eq (Except.ok.inj hsame)⟩

/-! ## Components -/

theorem dropMark_map (hrename : KeepsAscii rename) (text : List Char) :
    dropMark (text.map rename) = (dropMark text).map rename := by
  cases text with
  | nil => rfl
  | cons c text =>
      simp only [List.map_cons, dropMark, hrename c 'v' (by decide)]
      split <;> rfl

theorem splitOn_map (hrename : KeepsAscii rename) (text : List Char) :
    (text.map rename).splitOn '.' = (text.splitOn '.').map (List.map rename) := by
  induction text with
  | nil => rfl
  | cons c text ih =>
      have hdot : rename c = '.' ↔ c = '.' := hrename c '.' (by decide)
      simp only [List.map_cons, List.splitOn_cons_eq_if_modifyHead, beq_iff_eq, hdot, ih]
      split
      · rfl
      · cases text.splitOn '.' <;> rfl

end Version

end Freshness
