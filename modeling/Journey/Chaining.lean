import Mathlib.Data.List.Induction

namespace Chaining

variable {σ : Type u} {β : Type v} {compress : σ → β → σ}

-- A hash by chaining folds its compression function over the blocks of a message;
-- these are the calls that it makes.
def calls (compress : σ → β → σ) : σ → List β → List (σ × β)
  | _,[] => []
  | s,b :: rest => (s,b) :: calls compress (compress s b) rest

def Collides (compress : σ → β → σ) (first second : List (σ × β)) : Prop :=
  ∃ x ∈ first, ∃ y ∈ second, x ≠ y ∧ compress x.1 x.2 = compress y.1 y.2

theorem calls_snoc (s : σ) (blocks : List β) (b : β) :
    calls compress s (blocks ++ [b]) = calls compress s blocks ++ [(blocks.foldl compress s,b)] := by
  induction blocks generalizing s with
  | nil => rfl
  | cons x rest ih => simp [calls,ih]

theorem Collides.mono {first second longer further : List (σ × β)} (collides : Collides compress first second)
    (more : first ⊆ longer) (too : second ⊆ further) : Collides compress longer further := by
  obtain ⟨x,here,y,there,differ,same⟩ := collides
  exact ⟨x,more here,y,too there,differ,same⟩

theorem last_collides {s t : σ} {first second : List β} {b c : β}
    (same : (first ++ [b]).foldl compress s = (second ++ [c]).foldl compress t)
    (differ : (first.foldl compress s,b) ≠ (second.foldl compress t,c)) :
    Collides compress (calls compress s (first ++ [b])) (calls compress t (second ++ [c])) := by
  refine ⟨_,?_,_,?_,differ,by simpa [List.foldl_append] using same⟩
  · simp [calls_snoc]
  · simp [calls_snoc]

-- Backwards from the last blocks: the first calls that differ collide.
theorem chain_collides {s t : σ} {first second : List β} (size : first.length = second.length)
    (same : first.foldl compress s = second.foldl compress t) :
    (s = t ∧ first = second) ∨ Collides compress (calls compress s first) (calls compress t second) := by
  induction first using List.reverseRecOn generalizing second with
  | nil =>
      obtain rfl := List.length_eq_zero_iff.mp size.symm
      exact .inl ⟨same,rfl⟩
  | append_singleton first b ih =>
      rcases List.eq_nil_or_concat second with rfl | ⟨others,c,rfl⟩
      · simp at size
      · rw [List.concat_eq_append] at size same ⊢
        by_cases calls : (first.foldl compress s,b) = (others.foldl compress t,c)
        · obtain ⟨before,rfl⟩ := Prod.mk.injEq _ _ _ _ ▸ calls
          rcases ih (by simpa using size) before with ⟨rfl,rfl⟩ | collides
          · exact .inl ⟨rfl,rfl⟩
          · exact .inr (collides.mono (by simp [calls_snoc]) (by simp [calls_snoc]))
        · exact .inr (last_collides same calls)

theorem padded_collides {s : σ} {first second : List β} {b c : β} (tells : b = c → first.length = second.length)
    (same : (first ++ [b]).foldl compress s = (second ++ [c]).foldl compress s) :
    first ++ [b] = second ++ [c] ∨
      Collides compress (calls compress s (first ++ [b])) (calls compress s (second ++ [c])) := by
  by_cases ends : b = c
  · exact (chain_collides (by simp [tells ends]) same).imp_left And.right
  · exact .inr (last_collides same fun both => ends (Prod.mk.inj both).2)

end Chaining
