import Journey.Graphemes
import Journey.Runs

namespace Journey

open Graphemes

-- The components of a colour in hundredths.
inductive UIColor where
  | white
  | darkGray
  | rgb (red green blue : Nat)
  deriving DecidableEq, Repr

structure NSRange where
  location : Nat
  length : Nat
  deriving DecidableEq, Repr

structure Composer where
  darkMode : Bool
  text : List Char
  limitText : Int
  title : String
  tintColor : UIColor
  deriving DecidableEq, Repr

def limitLength : Int := 85

def counterTitle (length : Int) : String := toString length ++ "/" ++ toString limitLength

def tint (darkMode : Bool) (limitText : Int) : UIColor :=
  if limitLength - 25 ≤ limitText ∧ limitText < limitLength - 10 then .rgb 100 80 0
  else if limitLength - 10 ≤ limitText ∧ limitText < limitLength then .rgb 100 55 0
  else if limitText = limitLength then .rgb 100 23 19
  else if darkMode then .white
  else .darkGray

def Composer.opened (darkMode : Bool) : Composer :=
  ⟨darkMode,[],0,counterTitle 0,if darkMode then .white else .darkGray⟩

-- textView(_:shouldChangeTextIn:replacementText:): two counts of Characters and
-- the length of a range in UTF-16 units.
def textView (swift : Segmentation) (c : Composer) (range : NSRange) (text : List Char) : Composer × Bool :=
  let newLength : Int := swift.count c.text + swift.count text - range.length
  let c := if newLength ≤ limitLength then {c with limitText := newLength,title := counterTitle newLength} else c
  ({c with tintColor := tint c.darkMode c.limitText},decide (newLength ≤ limitLength))

structure Edit where
  range : NSRange
  text : List Char
  deriving DecidableEq, Repr

def Composer.selection (swift : Segmentation) (c : Composer) (range : NSRange) : Option Selection :=
  select (swift.characters c.text) range.location range.length

-- UIKit proposes an edit on whole Characters and applies it when it is accepted.
def Composer.propose (swift : Segmentation) (c : Composer) (edit : Edit) : Option Composer :=
  (c.selection swift edit.range).map fun selection =>
    let answer := textView swift c edit.range edit.text
    if answer.2 then {answer.1 with text := selection.replaced edit.text} else answer.1

theorem textView_accepts {swift : Segmentation} {c : Composer} {range : NSRange} {text : List Char} {n : Int}
    (length : (swift.count c.text + swift.count text - range.length : Int) = n) :
    (textView swift c range text).2 = true ↔ n ≤ limitLength := by
  simp [textView,length]

theorem propose_accepted {swift : Segmentation} {c : Composer} {edit : Edit} {selection : Selection} {n : Int}
    (selects : c.selection swift edit.range = some selection)
    (length : (swift.count c.text + swift.count edit.text - edit.range.length : Int) = n) (fits : n ≤ limitLength) :
    c.propose swift edit =
      some {c with text := selection.replaced edit.text,limitText := n,title := counterTitle n,
                   tintColor := tint c.darkMode n} := by
  simp [Composer.propose,selects,textView,length,fits]

theorem propose_refused {swift : Segmentation} {c : Composer} {edit : Edit} {selection : Selection} {n : Int}
    (selects : c.selection swift edit.range = some selection)
    (length : (swift.count c.text + swift.count edit.text - edit.range.length : Int) = n) (long : ¬ n ≤ limitLength) :
    c.propose swift edit = some {c with tintColor := tint c.darkMode c.limitText} := by
  simp [Composer.propose,selects,textView,length,long]

-- What a range has in UTF-16 units beyond its Characters, and how many Characters
-- fuse with a neighbour when the replacement stands between what is left.
def surplus (selection : Selection) : Int := utf16 selection.selected.flatten - selection.selected.length

def fused (swift : Segmentation) (selection : Selection) (text : List Char) : Int :=
  selection.before.length + swift.count text + selection.after.length - swift.count (selection.replaced text)

theorem newLength_exact {swift : Segmentation} {c : Composer} {range : NSRange} {selection : Selection}
    (selects : c.selection swift range = some selection) (text : List Char) :
    (swift.count c.text + swift.count text - range.length : Int) =
      swift.count (selection.replaced text) + fused swift selection text - surplus selection := by
  obtain ⟨parts,_,width⟩ := (select_exact (swift.nonempty c.text)).mp selects
  have total : swift.count c.text =
      selection.before.length + (selection.selected.length + selection.after.length) := by
    rw [Segmentation.count,parts,List.length_append,List.length_append]
  unfold fused surplus
  omega

def Composer.Counted (swift : Segmentation) (c : Composer) : Prop :=
  c.limitText = swift.count c.text ∧ c.title = counterTitle (swift.count c.text) ∧ swift.count c.text ≤ limitLength

def Composer.Decided (swift : Segmentation) (c : Composer) (edit : Edit) : Prop :=
  ∀ selection ∈ c.selection swift edit.range,
    ((textView swift c edit.range edit.text).2 = true ↔ swift.count (selection.replaced edit.text) ≤ limitLength) ∧
      (edit.text = [] → (textView swift c edit.range edit.text).2 = true)

-- Both errors of the count cancel, or the edit is too long either way: what is
-- left and what is typed exceed the limit by more than the surplus.
def Composer.Measured (swift : Segmentation) (c : Composer) (edit : Edit) : Prop :=
  ∀ selection ∈ c.selection swift edit.range,
    surplus selection = fused swift selection edit.text ∨
      limitLength < swift.count (selection.replaced edit.text) ∧
        limitLength + surplus selection <
          selection.before.length + swift.count edit.text + selection.after.length

theorem decided_exact {swift : Segmentation} {c : Composer} {edit : Edit} {selection : Selection} {n : Int}
    (counted : c.Counted swift) (selects : c.selection swift edit.range = some selection)
    (length : (swift.count c.text + swift.count edit.text - edit.range.length : Int) = n) :
    c.Decided swift edit ↔ (n ≤ limitLength ↔ swift.count (selection.replaced edit.text) ≤ limitLength) := by
  have deletes : edit.text = [] → n ≤ limitLength := by
    intro empty
    obtain ⟨_,_,short⟩ := counted
    rw [empty,swift.count_nil] at length
    omega
  simp only [Composer.Decided,selects,Option.mem_def,Option.some.injEq,forall_eq',textView_accepts length]
  exact and_iff_left deletes

instance (swift : Segmentation) (c : Composer) (edit : Edit) : Decidable (c.Measured swift edit) :=
  inferInstanceAs (Decidable (∀ selection ∈ c.selection swift edit.range, _ ∨ _ ∧ _))

theorem propose_exact {swift : Segmentation} {c next : Composer} {edit : Edit} (counted : c.Counted swift)
    (taken : c.propose swift edit = some next) :
    next.Counted swift ∧ c.Decided swift edit ↔ c.Measured swift edit := by
  obtain ⟨selection,selects,_⟩ := Option.map_eq_some_iff.mp taken
  have length := newLength_exact selects edit.text
  rw [decided_exact counted selects length]
  simp only [Composer.Measured,selects,Option.mem_def,Option.some.injEq,forall_eq']
  have parts : selection.before.length + swift.count edit.text + selection.after.length =
      swift.count (selection.replaced edit.text) + fused swift selection edit.text := by
    unfold fused
    omega
  by_cases fits : swift.count (selection.replaced edit.text) + fused swift selection edit.text - surplus selection
      ≤ limitLength
  · cases taken.symm.trans (propose_accepted selects length fits)
    constructor
    · intro both
      obtain ⟨⟨same,_,_⟩,_⟩ := both
      exact .inl (by simp only at same; omega)
    · intro measured
      have same : swift.count (selection.replaced edit.text) + fused swift selection edit.text - surplus selection =
          swift.count (selection.replaced edit.text) := by omega
      rw [same] at fits ⊢
      exact ⟨⟨rfl,rfl,fits⟩,Iff.rfl⟩
  · cases taken.symm.trans (propose_refused selects length fits)
    have kept : Composer.Counted swift {c with tintColor := tint c.darkMode c.limitText} := counted
    simp only [kept,true_and]
    omega

theorem characterLimit_exact {swift : Segmentation} {darkMode : Bool} {edits : List Edit} {final : Composer}
    (ran : Runs.run (Composer.propose swift) (.opened darkMode) edits = some final) :
    Runs.Always (Composer.propose swift) (.opened darkMode) edits (fun _ c => c.Counted swift) ∧
        Runs.Throughout (Composer.propose swift) (.opened darkMode) edits (fun _ c edit _ => c.Decided swift edit) ↔
      Runs.Guarded (Composer.propose swift) (.opened darkMode) edits fun _ c edit => c.Measured swift edit := by
  have start : (Composer.opened darkMode).Counted swift := by
    simp [Composer.Counted,Composer.opened,swift.count_nil,limitLength]
  exact Runs.always_throughout_iff_guarded start
    (fun _ _ _ _ _ _ _ counted taken => propose_exact counted taken) ran

-- The property for combining marks, the joiner and the block of the pictographs.
def breakProperty (scalar : Char) : GraphemeBreak :=
  if 0x300 ≤ scalar.toNat ∧ scalar.toNat ≤ 0x36F then .extend
  else if scalar.toNat = 0x200D then .zwj
  else if 0x1F300 ≤ scalar.toNat ∧ scalar.toNat ≤ 0x1F64F then .pictographic
  else .other

example : (Segmentation.unicode breakProperty).count ['e','\u0301','👩','\u200D','👦'] = 2 := by decide

theorem characterLimit_accent :
    let swift := Segmentation.unicode breakProperty
    let edits : List Edit := [⟨⟨0,0⟩,['C','a','f','e','\u0301']⟩,⟨⟨5,0⟩,['😀']⟩,⟨⟨0,1⟩,[]⟩]
    Runs.Always (Composer.propose swift) (.opened true) edits (fun _ c => c.Counted swift) ∧
      Runs.Throughout (Composer.propose swift) (.opened true) edits (fun _ c edit _ => c.Decided swift edit) := by
  intro swift edits
  obtain ⟨final,ran⟩ := Option.isSome_iff_exists.mp
    (show (Runs.run (Composer.propose swift) (.opened true) edits).isSome = true by decide)
  have measured : Runs.Guarded (Composer.propose swift) (.opened true) edits fun _ c edit => c.Measured swift edit :=
    Runs.guarded_of_checks (by decide)
  exact (characterLimit_exact ran).mpr measured

-- A deleted pictograph is one Character of two units.
theorem characterLimit_pictograph : ¬ Runs.Always (Composer.propose (.unicode breakProperty)) (.opened false)
    [⟨⟨0,0⟩,['😀']⟩,⟨⟨0,2⟩,[]⟩] fun _ c => c.Counted (.unicode breakProperty) := by
  intro always
  obtain ⟨final,ran,wrong⟩ : ∃ final, Runs.run (Composer.propose (.unicode breakProperty)) (.opened false)
      [⟨⟨0,0⟩,['😀']⟩,⟨⟨0,2⟩,[]⟩] = some final ∧ final.limitText ≠
        (Segmentation.unicode breakProperty).count final.text := Runs.run_reaches (by decide)
  exact wrong (always _ [] final (by simp) ran).1

end Journey
