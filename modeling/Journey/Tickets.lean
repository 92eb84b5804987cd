import Mathlib.Data.List.Nodup

namespace Tickets

variable {α : Type u} {tickets : List Nat} {items : List α} {t u n index : Nat} {x y : α}

-- Every item of a waiting list has a number of its own, kept in a list beside it.
def Holds (tickets : List Nat) (items : List α) (t : Nat) (x : α) : Prop :=
  ∃ index : Nat, tickets[index]? = some t ∧ items[index]? = some x

structure Valid (tickets : List Nat) (items : List α) (drawn : Nat) : Prop where
  length : tickets.length = items.length
  nodup : tickets.Nodup
  below : ∀ t ∈ tickets, t < drawn

theorem Valid.nil : Valid [] ([] : List α) 0 := ⟨rfl,List.nodup_nil,fun _ member => absurd member List.not_mem_nil⟩

theorem Valid.mono (valid : Valid tickets items n) (more : n ≤ u) : Valid tickets items u :=
  ⟨valid.length,valid.nodup,fun t member => Nat.lt_of_lt_of_le (valid.below t member) more⟩

theorem Valid.issue (valid : Valid tickets items n) (fresh : t ∉ tickets) (drawn : t < n) :
    Valid (tickets ++ [t]) (items ++ [x]) n := by
  refine ⟨by simp [valid.length],?_,?_⟩
  · exact List.nodup_append.mpr ⟨valid.nodup,List.nodup_singleton t,fun u old v new same =>
      fresh (List.mem_singleton.mp new ▸ same ▸ old)⟩
  · intro u member
    rcases List.mem_append.mp member with old | new
    · exact valid.below u old
    · exact List.mem_singleton.mp new ▸ drawn

theorem Valid.call (valid : Valid tickets items n) (index : Nat) :
    Valid (tickets.eraseIdx index) (items.eraseIdx index) n where
  length := by simp only [List.length_eraseIdx,valid.length]
  nodup := valid.nodup.sublist (List.eraseIdx_sublist _ _)
  below t member := valid.below t (List.mem_of_mem_eraseIdx member)

theorem Valid.at (valid : Valid tickets items n) (here : items[index]? = some x) :
    ∃ t, tickets[index]? = some t ∧ Holds tickets items t x := by
  have inside : index < tickets.length := valid.length ▸ (List.getElem?_eq_some_iff.mp here).1
  exact ⟨_,List.getElem?_eq_getElem inside,index,List.getElem?_eq_getElem inside,here⟩

theorem Holds.mem (holds : Holds tickets items t x) : t ∈ tickets := by
  obtain ⟨index,here,_⟩ := holds
  exact List.mem_of_getElem? here

theorem holds_issue (valid : Valid tickets items n) :
    Holds (tickets ++ [t]) (items ++ [x]) u y ↔ Holds tickets items u y ∨ (u = t ∧ y = x) := by
  constructor
  · intro holds
    obtain ⟨i,here,found⟩ := holds
    by_cases old : i < tickets.length
    · rw [List.getElem?_append_left old] at here
      rw [List.getElem?_append_left (valid.length ▸ old)] at found
      exact .inl ⟨i,here,found⟩
    · have last : i = tickets.length := by
        have inside := (List.getElem?_eq_some_iff.mp here).1
        rw [List.length_append,List.length_singleton] at inside
        omega
      subst last
      rw [List.getElem?_concat_length] at here
      rw [valid.length,List.getElem?_concat_length] at found
      exact .inr ⟨(Option.some.inj here).symm,(Option.some.inj found).symm⟩
  · intro either
    rcases either with ⟨i,here,found⟩ | ⟨rfl,rfl⟩
    · have inside := (List.getElem?_eq_some_iff.mp here).1
      exact ⟨i,(List.getElem?_append_left inside).trans here,
        (List.getElem?_append_left (valid.length ▸ inside)).trans found⟩
    · exact ⟨tickets.length,List.getElem?_concat_length,by rw [valid.length]; exact List.getElem?_concat_length⟩

theorem holds_call (holds : Holds (tickets.eraseIdx index) (items.eraseIdx index) t x) : Holds tickets items t x := by
  obtain ⟨i,here,found⟩ := holds
  rw [List.getElem?_eraseIdx] at here found
  split at here
  · rename_i before
    exact ⟨i,here,by simpa [before] using found⟩
  · rename_i past
    exact ⟨i+1,here,by simpa [past] using found⟩

theorem Valid.mem_call (valid : Valid tickets items n) (here : tickets[index]? = some t) :
    u ∈ tickets.eraseIdx index ↔ u ∈ tickets ∧ u ≠ t := by
  rw [List.mem_eraseIdx_iff_getElem?]
  constructor
  · intro other
    obtain ⟨i,away,found⟩ := other
    refine ⟨List.mem_of_getElem? found,fun same => away ?_⟩
    have inside := (List.getElem?_eq_some_iff.mp found).1
    exact (List.getElem?_inj inside valid.nodup).mp (by rw [found,here,same])
  · intro both
    obtain ⟨i,found⟩ := List.mem_iff_getElem?.mp both.1
    refine ⟨i,fun same => both.2 ?_,found⟩
    rw [same] at found
    exact Option.some.inj (found.symm.trans here)

end Tickets
