import Mathlib.Algebra.Order.Monoid.Unbundled.Pow
import Mathlib.Algebra.Ring.Nat
import Mathlib.Data.List.Lex
import Mathlib.Order.Fin.Basic

namespace Radix

-- Numerals with the most significant digit first.
def value {b : Nat} : List (Fin b) → Nat
  | [] => 0
  | d :: rest => d * b ^ rest.length + value rest

def numeral (b : Nat) [NeZero b] : Nat → Nat → List (Fin b)
  | 0,_ => []
  | k + 1,n => numeral b k (n / b) ++ [Fin.ofNat b n]

section

variable {b : Nat}

theorem value_append (xs ys : List (Fin b)) : value (xs ++ ys) = value xs * b ^ ys.length + value ys := by
  induction xs with
  | nil => simp [value]
  | cons d xs ih =>
      rw [List.cons_append,value,value,ih,List.length_append,pow_add,Nat.add_mul,Nat.mul_assoc,Nat.add_assoc]

theorem value_lt (xs : List (Fin b)) : value xs < b ^ xs.length := by
  induction xs with
  | nil => exact Nat.one_pos
  | cons d xs ih =>
      calc value (d :: xs) < d * b ^ xs.length + b ^ xs.length := Nat.add_lt_add_left ih _
        _ = (d + 1) * b ^ xs.length := (Nat.succ_mul _ _).symm
        _ ≤ b * b ^ xs.length := Nat.mul_le_mul_right _ d.isLt
        _ = b ^ (d :: xs).length := (pow_succ' b xs.length).symm

theorem value_set {xs : List (Fin b)} {i : Nat} (inside : i < xs.length) (d : Fin b) :
    value (xs.set i d) + xs[i] * b ^ (xs.length - 1 - i) = value xs + d * b ^ (xs.length - 1 - i) := by
  induction xs generalizing i with
  | nil => exact absurd inside (Nat.not_lt_zero i)
  | cons x xs ih =>
      cases i with
      | zero => simp [value]; omega
      | succ i =>
          have within : i < xs.length := Nat.lt_of_succ_lt_succ inside
          have rest := ih within
          have place : (x :: xs).length - 1 - (i + 1) = xs.length - 1 - i := by simp; omega
          simp only [List.set_cons_succ,value,List.length_set,List.getElem_cons_succ,place]
          omega

theorem glyphs_lt {α : Type} [LinearOrder α] {glyph : Fin b → α} (ordered : StrictMono glyph) {xs ys : List (Fin b)}
    (same : xs.length = ys.length) : xs.map glyph < ys.map glyph ↔ value xs < value ys := by
  induction xs generalizing ys with
  | nil =>
      cases List.length_eq_zero_iff.mp same.symm
      simp [value]
  | cons x xs ih =>
      obtain ⟨y,ys,rfl⟩ := List.exists_cons_of_length_eq_add_one same.symm
      have size : xs.length = ys.length := by simpa using same
      rw [List.map_cons,List.map_cons,List.cons_lt_cons_iff,ih size,ordered.lt_iff_lt,ordered.injective.eq_iff,value,
        value,size]
      have left : value xs < b ^ ys.length := size ▸ value_lt xs
      have right := value_lt ys
      rcases lt_trichotomy x y with below | rfl | above
      · have gap := Nat.mul_le_mul_right (b ^ ys.length) (Nat.succ_le_of_lt (Fin.lt_def.mp below))
        rw [Nat.succ_mul] at gap
        refine iff_of_true (.inl below) ?_
        omega
      · simp
      · have gap := Nat.mul_le_mul_right (b ^ ys.length) (Nat.succ_le_of_lt (Fin.lt_def.mp above))
        rw [Nat.succ_mul] at gap
        refine iff_of_false ?_ ?_
        · rintro (below | ⟨rfl,-⟩)
          · exact lt_asymm below above
          · exact lt_irrefl _ above
        · omega

theorem value_inj {xs ys : List (Fin b)} (same : xs.length = ys.length) : value xs = value ys ↔ xs = ys := by
  refine ⟨fun equal => ?_,congrArg value⟩
  have below := glyphs_lt strictMono_id same
  have above := glyphs_lt strictMono_id same.symm
  rw [List.map_id,List.map_id,equal] at below above
  exact le_antisymm (not_lt.mp (above.not.mpr (lt_irrefl _))) (not_lt.mp (below.not.mpr (lt_irrefl _)))

theorem value_zeros [NeZero b] (n : Nat) : value (List.replicate n (0 : Fin b)) = 0 := by
  induction n with
  | zero => rfl
  | succ n ih => simp [List.replicate_succ,value,ih]

theorem value_eq_zero [NeZero b] (xs : List (Fin b)) : value xs = 0 ↔ xs = List.replicate xs.length 0 := by
  rw [← value_inj (by simp),value_zeros]

theorem numeral_length [NeZero b] (k n : Nat) : (numeral b k n).length = k := by
  induction k generalizing n with
  | zero => rfl
  | succ k ih => simp [numeral,ih]

theorem value_numeral [NeZero b] (k n : Nat) : value (numeral b k n) = n % b ^ k := by
  induction k generalizing n with
  | zero => simp [numeral,value,Nat.mod_one]
  | succ k ih =>
      rw [numeral,value_append,ih]
      rw [Nat.pow_succ',Nat.mod_mul]
      simp [value,Nat.mul_comm,Nat.add_comm]

end

end Radix
