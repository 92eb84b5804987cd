import Mathlib.Data.List.Pairwise
import Mathlib.Order.Lattice

namespace KeyedStore

variable {κ : Type u} {ν : Type v} [LinearOrder κ]

abbrev InKeyOrder (rows : List (κ × ν)) : Prop := rows.Pairwise fun a b => a.1 < b.1

def place (key : κ) (value : ν) : List (κ × ν) → List (κ × ν)
  | [] => [(key,value)]
  | row :: rest =>
    if key < row.1 then (key,value) :: row :: rest
    else if row.1 < key then row :: place key value rest
    else (key,value) :: rest

theorem place_keys {key : κ} {value : ν} {rows : List (κ × ν)} (row : κ × ν) (member : row ∈ place key value rows) :
    row = (key,value) ∨ row ∈ rows := by
  induction rows with
  | nil => exact .inl (by simpa [place] using member)
  | cons head rest ih =>
      unfold place at member
      split at member
      · exact List.mem_cons.mp member
      · split at member
        · rcases List.mem_cons.mp member with rfl | later
          · exact .inr List.mem_cons_self
          · exact (ih later).imp_right (List.mem_cons_of_mem _)
        · exact (List.mem_cons.mp member).imp_right (List.mem_cons_of_mem _)

theorem place_ordered (key : κ) (value : ν) {rows : List (κ × ν)} (ordered : InKeyOrder rows) :
    InKeyOrder (place key value rows) := by
  induction rows with
  | nil => exact List.pairwise_singleton _ _
  | cons head rest ih =>
      obtain ⟨first,others⟩ := List.pairwise_cons.mp ordered
      unfold place
      split
      · rename_i below
        refine List.pairwise_cons.mpr ⟨?_,ordered⟩
        intro row member
        rcases List.mem_cons.mp member with rfl | later
        · exact below
        · exact lt_trans below (first row later)
      · rename_i notBelow
        split
        · rename_i above
          refine List.pairwise_cons.mpr ⟨?_,ih others⟩
          intro row member
          rcases place_keys row member with rfl | old
          · exact above
          · exact first row old
        · rename_i notAbove
          have same : head.1 = key := le_antisymm (not_lt.mp notBelow) (not_lt.mp notAbove)
          exact List.pairwise_cons.mpr ⟨fun row later => same ▸ first row later,others⟩

theorem place_last {key : κ} {value : ν} {rows : List (κ × ν)} (greatest : ∀ row ∈ rows, row.1 < key) :
    place key value rows = rows ++ [(key,value)] := by
  induction rows with
  | nil => rfl
  | cons head rest ih =>
      have above := greatest head List.mem_cons_self
      simp only [place,if_neg (lt_asymm above),if_pos above,List.cons_append]
      rw [ih fun row member => greatest row (List.mem_cons_of_mem _ member)]

theorem filter_key {key : κ} {rows : List (κ × ν)} {index : Nat} {value : ν} (nodup : (rows.map Prod.fst).Nodup)
    (found : rows[index]? = some (key,value)) :
    rows.filter (fun row => decide (row.1 ≠ key)) = rows.eraseIdx index := by
  induction rows generalizing index with
  | nil => simp at found
  | cons head rest ih =>
      obtain ⟨fresh,others⟩ := List.nodup_cons.mp nodup
      cases index with
      | zero =>
          obtain rfl := Option.some.inj found
          have kept : rest.filter (fun row => decide (row.1 ≠ key)) = rest := by
            refine List.filter_eq_self.mpr fun row member => ?_
            have other : row.1 ≠ key := fun same => fresh (List.mem_map.mpr ⟨row,member,same⟩)
            simpa using other
          rw [List.filter_cons_of_neg (by simp),kept,List.eraseIdx_cons_zero]
      | succ index =>
          have later : rest[index]? = some (key,value) := by simpa using found
          have other : head.1 ≠ key := fun same =>
            fresh (List.mem_map.mpr ⟨_,List.mem_of_getElem? later,same.symm⟩)
          rw [List.filter_cons_of_pos (by simpa using other),ih others later,List.eraseIdx_cons_succ]

end KeyedStore

-- A store lists its rows in key order and has one row for a key; both are part
-- of the value, so no user of a store has to keep them.
structure KeyedStore (κ : Type u) (ν : Type v) [LinearOrder κ] where
  rows : List (κ × ν)
  ordered : KeyedStore.InKeyOrder rows

namespace KeyedStore

variable {κ : Type u} {ν : Type v} [LinearOrder κ]

def empty : KeyedStore κ ν := ⟨[],List.Pairwise.nil⟩

def put (store : KeyedStore κ ν) (key : κ) (value : ν) : KeyedStore κ ν :=
  ⟨place key value store.rows,place_ordered key value store.ordered⟩

def erase (store : KeyedStore κ ν) (key : κ) : KeyedStore κ ν :=
  ⟨store.rows.filter (fun row => decide (row.1 ≠ key)),store.ordered.filter _⟩

def keys (store : KeyedStore κ ν) : List κ := store.rows.map Prod.fst

@[simp] theorem put_rows (store : KeyedStore κ ν) (key : κ) (value : ν) :
    (store.put key value).rows = place key value store.rows := rfl

@[simp] theorem erase_rows (store : KeyedStore κ ν) (key : κ) :
    (store.erase key).rows = store.rows.filter (fun row => decide (row.1 ≠ key)) := rfl

theorem keys_nodup (store : KeyedStore κ ν) : store.keys.Nodup := by
  refine List.Pairwise.map _ ?_ store.ordered
  intro a b below
  exact ne_of_lt below

theorem erase_index (store : KeyedStore κ ν) {key : κ} {index : Nat} {value : ν}
    (found : store.rows[index]? = some (key,value)) : (store.erase key).rows = store.rows.eraseIdx index :=
  filter_key store.keys_nodup found

end KeyedStore
