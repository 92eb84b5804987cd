import Mathlib.Data.List.Basic

namespace Graphemes

-- A scalar takes one UTF-16 unit, or two outside the basic plane.
def unitsOf (scalar : Char) : Nat := if scalar.toNat < 0x10000 then 1 else 2

def utf16 : List Char → Nat
  | [] => 0
  | scalar :: rest => unitsOf scalar + utf16 rest

@[simp] theorem utf16_nil : utf16 [] = 0 := rfl

@[simp] theorem utf16_append (first second : List Char) : utf16 (first ++ second) = utf16 first + utf16 second := by
  induction first with
  | nil => simp
  | cons scalar rest ih =>
      simp only [List.cons_append,utf16,ih]
      omega

theorem unitsOf_pos (scalar : Char) : 0 < unitsOf scalar := by
  unfold unitsOf
  split <;> omega

theorem utf16_pos {text : List Char} (nonempty : text ≠ []) : 0 < utf16 text := by
  obtain ⟨scalar,rest,rfl⟩ := List.exists_cons_of_ne_nil nonempty
  have first := unitsOf_pos scalar
  rw [utf16]
  omega

-- A segmentation cuts every text into Characters, each of one or more scalars.
structure Segmentation where
  characters : List Char → List (List Char)
  covers : ∀ text, (characters text).flatten = text
  nonempty : ∀ text, [] ∉ characters text

def Segmentation.count (segmentation : Segmentation) (text : List Char) : Nat := (segmentation.characters text).length

theorem Segmentation.count_nil (segmentation : Segmentation) : segmentation.count [] = 0 := by
  have whole := segmentation.covers []
  have nonempty := segmentation.nonempty []
  unfold Segmentation.count
  cases parts : segmentation.characters [] with
  | nil => rfl
  | cons cluster rest =>
      rw [parts,List.flatten_cons,List.append_eq_nil_iff] at whole
      exact absurd (by simp [parts,whole.1]) nonempty

-- A boundary is decided from the cluster read so far and the next scalar.
def scan (joins : List Char → Char → Bool) : List Char → List Char → List (List Char)
  | cluster,[] => [cluster]
  | cluster,scalar :: rest =>
    if joins cluster scalar then scan joins (cluster ++ [scalar]) rest else cluster :: scan joins [scalar] rest

def clusters (joins : List Char → Char → Bool) : List Char → List (List Char)
  | [] => []
  | scalar :: rest => scan joins [scalar] rest

theorem scan_flatten (joins : List Char → Char → Bool) (cluster rest : List Char) :
    (scan joins cluster rest).flatten = cluster ++ rest := by
  induction rest generalizing cluster with
  | nil => simp [scan]
  | cons scalar rest ih =>
      unfold scan
      split
      · rw [ih,List.append_assoc]
        rfl
      · rw [List.flatten_cons,ih]
        rfl

theorem scan_nonempty (joins : List Char → Char → Bool) {cluster : List Char} (rest : List Char)
    (read : cluster ≠ []) : [] ∉ scan joins cluster rest := by
  induction rest generalizing cluster with
  | nil => simpa [scan] using read.symm
  | cons scalar rest ih =>
      unfold scan
      split
      · exact ih (by simp)
      · intro member
        rcases List.mem_cons.mp member with empty | later
        · exact read empty.symm
        · exact ih (by simp) later

def Segmentation.ofRule (joins : List Char → Char → Bool) : Segmentation where
  characters := clusters joins
  covers := by
    intro text
    cases text with
    | nil => rfl
    | cons scalar rest => exact scan_flatten joins [scalar] rest
  nonempty := by
    intro text
    cases text with
    | nil => exact List.not_mem_nil
    | cons scalar rest => exact scan_nonempty joins rest (by simp)

inductive GraphemeBreak where
  | cr | lf | control | extend | zwj | spacingMark | prepend | regionalIndicator | pictographic
  | l | v | t | lv | lvt | other
  deriving DecidableEq, Repr

-- Whether there is no boundary between the last scalar of a cluster and the
-- next: GB3 to GB9b, GB11 and GB12; `earlier` is the cluster before its last
-- scalar, read backwards.
def GraphemeBreak.joins (earlier : List GraphemeBreak) : GraphemeBreak → GraphemeBreak → Bool
  | .cr,.lf => true
  | .cr,_ | .lf,_ | .control,_ => false
  | _,.cr | _,.lf | _,.control => false
  | .l,.l | .l,.v | .l,.lv | .l,.lvt => true
  | .lv,.v | .lv,.t | .v,.v | .v,.t => true
  | .lvt,.t | .t,.t => true
  | _,.extend | _,.zwj | _,.spacingMark => true
  | .prepend,_ => true
  | .zwj,.pictographic => (earlier.dropWhile (· = .extend)).head? = some .pictographic
  | .regionalIndicator,.regionalIndicator => (earlier.takeWhile (· = .regionalIndicator)).length % 2 = 0
  | _,_ => false

def Segmentation.unicode (property : Char → GraphemeBreak) : Segmentation :=
  .ofRule fun cluster scalar =>
    match (cluster.map property).reverse with
    | [] => true
    | last :: earlier => GraphemeBreak.joins earlier last (property scalar)

def splitUnits : List (List Char) → Nat → Option (List (List Char) × List (List Char))
  | rest,0 => some ([],rest)
  | [],_ + 1 => none
  | cluster :: rest,offset + 1 =>
    if utf16 cluster ≤ offset + 1 then
      (splitUnits rest (offset + 1 - utf16 cluster)).map fun sides => (cluster :: sides.1,sides.2)
    else none

theorem splitUnits_step {cluster head : List Char} {rest before after : List (List Char)} {offset : Nat} :
    splitUnits (cluster :: rest) (offset + 1) = some (head :: before,after) ↔
      utf16 cluster ≤ offset + 1 ∧ cluster = head ∧
        splitUnits rest (offset + 1 - utf16 cluster) = some (before,after) := by
  simp only [splitUnits]
  split <;> rename_i fits
  · simp only [fits,true_and,Option.map_eq_some_iff,Prod.exists,Prod.mk.injEq,List.cons.injEq]
    constructor
    · intro found
      obtain ⟨_,_,found,⟨rfl,rfl⟩,rfl⟩ := found
      exact ⟨rfl,found⟩
    · intro both
      exact ⟨_,_,both.2,⟨both.1,rfl⟩,rfl⟩
  · simp [fits]

theorem splitUnits_exact {characters before after : List (List Char)} {offset : Nat} (nonempty : [] ∉ characters) :
    splitUnits characters offset = some (before,after) ↔
      characters = before ++ after ∧ utf16 before.flatten = offset := by
  induction characters generalizing before offset with
  | nil =>
      have nothing : ([] : List (List Char)) = before ++ after ↔ before = [] ∧ after = [] := by
        rw [eq_comm,List.append_eq_nil_iff]
      cases offset with
      | zero => simp +contextual [splitUnits,nothing,eq_comm]
      | succ offset => simp +contextual [splitUnits,nothing]
  | cons cluster rest ih =>
      have width : 0 < utf16 cluster := utf16_pos fun empty => nonempty (by simp [empty])
      have others : [] ∉ rest := fun member => nonempty (List.mem_cons_of_mem _ member)
      cases before with
      | nil =>
          cases offset with
          | zero => simp [splitUnits]
          | succ offset =>
              simp only [splitUnits]
              split <;> simp
      | cons head before =>
          cases offset with
          | zero =>
              refine iff_of_false (by simp [splitUnits]) ?_
              intro both
              obtain ⟨same,short⟩ := both
              obtain ⟨rfl,_⟩ := List.cons.inj same
              simp only [List.flatten_cons,utf16_append] at short
              omega
          | succ offset =>
              rw [splitUnits_step,ih others]
              simp only [List.cons_append,List.cons.injEq,List.flatten_cons,utf16_append]
              constructor
              · intro all
                obtain ⟨fits,rfl,rfl,left⟩ := all
                exact ⟨⟨rfl,rfl⟩,by omega⟩
              · intro all
                obtain ⟨⟨rfl,rfl⟩,whole⟩ := all
                exact ⟨by omega,rfl,rfl,by omega⟩

structure Selection where
  before : List (List Char)
  selected : List (List Char)
  after : List (List Char)
  deriving DecidableEq, Repr

def select (characters : List (List Char)) (location length : Nat) : Option Selection := do
  let (before,rest) ← splitUnits characters location
  let (selected,after) ← splitUnits rest length
  return ⟨before,selected,after⟩

def Selection.replaced (selection : Selection) (replacement : List Char) : List Char :=
  selection.before.flatten ++ replacement ++ selection.after.flatten

theorem select_exact {characters : List (List Char)} {location length : Nat} {selection : Selection}
    (nonempty : [] ∉ characters) : select characters location length = some selection ↔
      characters = selection.before ++ (selection.selected ++ selection.after) ∧
        utf16 selection.before.flatten = location ∧ utf16 selection.selected.flatten = length := by
  obtain ⟨before,selected,after⟩ := selection
  simp only [select,Option.bind_eq_bind,Option.bind_eq_some_iff,Prod.exists,Option.pure_def,Option.some.injEq,
    Selection.mk.injEq]
  constructor
  · intro found
    obtain ⟨_,rest,first,_,_,second,rfl,rfl,rfl⟩ := found
    obtain ⟨rfl,start⟩ := (splitUnits_exact nonempty).mp first
    have others : [] ∉ rest := fun member => nonempty (List.mem_append_right _ member)
    obtain ⟨rfl,width⟩ := (splitUnits_exact others).mp second
    exact ⟨rfl,start,width⟩
  · intro all
    obtain ⟨rfl,start,width⟩ := all
    have others : [] ∉ selected ++ after := fun member => nonempty (List.mem_append_right _ member)
    exact ⟨before,selected ++ after,(splitUnits_exact nonempty).mpr ⟨rfl,start⟩,selected,after,
      (splitUnits_exact others).mpr ⟨rfl,width⟩,rfl,rfl,rfl⟩

end Graphemes
