import Mathlib.Data.List.Basic

namespace Feed

variable {α : Type u}

-- A feed delivers the successive values of a variable in order, one at a time.
-- Whatever is still on its way ends with the value that the variable has now.
def Ends (pending : List α) (current : α) : Prop := ∀ last, pending.getLast? = some last → last = current

theorem ends_push (pending : List α) (current : α) : Ends (pending ++ [current]) current := by
  intro last found
  simpa using found.symm

theorem ends_pop {head current : α} {rest : List α} (ends : Ends (head :: rest) current) : Ends rest current := by
  intro last found
  cases rest with
  | nil => cases found
  | cons next rest => exact ends last (by simpa [List.getLast?_cons_cons] using found)

theorem ends_single {head current : α} (ends : Ends [head] current) : head = current := ends head rfl

-- Every value is a `P` from the position `n` on: what was on its way at some
-- moment is delivered after `n` deliveries, and only later values remain.
def After (n : Nat) (pending : List α) (P : α → Prop) : Prop := ∀ x ∈ pending.drop n, P x

theorem after_push {n : Nat} {pending : List α} {P : α → Prop} {new : α} (after : After n pending P) (fresh : P new) :
    After n (pending ++ [new]) P := by
  intro x member
  rw [List.drop_append] at member
  rcases List.mem_append.mp member with old | added
  · exact after x old
  · have same := List.mem_of_mem_drop added
    rw [List.mem_singleton.mp same]
    exact fresh

theorem after_pop {n : Nat} {head : α} {rest : List α} {P : α → Prop} (after : After n (head :: rest) P) :
    After (n-1) rest P := by
  intro x member
  cases n with
  | zero => exact after x (List.mem_cons_of_mem _ (by simpa using member))
  | succ n => exact after x (by simpa using member)

theorem after_length (pending : List α) (P : α → Prop) : After pending.length pending P := by
  intro x member
  simp at member

theorem after_done {n : Nat} {pending : List α} {P : α → Prop} (after : After n pending P) (done : n = 0) :
    ∀ x ∈ pending, P x := by
  subst done
  simpa [After] using after

def latest (p : α → Bool) (values : List α) : Option α := (values.filter p).getLast?

theorem latest_suffix {p : α → Bool} {values rest : List α} {head : α} (suffix : head :: rest <:+ values)
    (effective : p head = true) (last : ∀ x ∈ rest, p x = false) : latest p values = some head := by
  obtain ⟨front,rfl⟩ := suffix
  have nothing : rest.filter p = [] := List.filter_eq_nil_iff.mpr fun x member => by simp [last x member]
  simp [latest,effective,nothing]

theorem latest_none {p : α → Bool} {values : List α} (silent : ∀ x ∈ values, p x = false) : latest p values = none := by
  have nothing : values.filter p = [] := List.filter_eq_nil_iff.mpr fun x member => by simp [silent x member]
  simp [latest,nothing]

theorem latest_effective {p : α → Bool} {values : List α} {x : α} (found : latest p values = some x) : p x = true :=
  (List.mem_filter.mp (List.mem_of_getLast? found)).2

end Feed
