import Mathlib.Tactic.Ring
import Journey.Radix

namespace FirebaseDatabase

def unichars (text : String) : List Nat :=
  text.toList.flatMap fun c =>
    if c.toNat < 65536 then [c.toNat]
    else [55296 + (c.toNat - 65536) / 1024,56320 + (c.toNat - 65536) % 1024]

def INTEGER_32_MIN : Int := -2147483648

def INTEGER_32_MAX : Int := 2147483647

def parseDigits (value : Int) : List Nat → Option Int
  | [] => some value
  | c :: rest => if c < 48 ∨ 57 < c then none else parseDigits (value * 10 + ((c - 48 : Nat) : Int)) rest

def tryParseStringToInt (str : List Nat) : Option Int :=
  if 11 < str.length ∨ str.length = 0 then none
  else if str.head? = some 45 ∧ str.length = 1 then none
  else
    let negative := str.head? = some 45
    match parseDigits 0 (if negative then str.tail else str) with
    | none => none
    | some parsed =>
      let value := if negative then -parsed else parsed
      if value < INTEGER_32_MIN ∨ INTEGER_32_MAX < value then none else some value

-- minName and maxName are compared as objects, not by their text.
inductive Key where
  | minName
  | maxName
  | name (text : List Nat)
  deriving DecidableEq

def Key.text : Key → List Nat
  | minName => unichars "[MIN_NAME]"
  | maxName => unichars "[MAX_NAME]"
  | name text => text

def compareKey (a b : Key) : Ordering :=
  if a = b then .eq
  else if a = .minName ∨ b = .maxName then .lt
  else if b = .minName ∨ a = .maxName then .gt
  else
    match tryParseStringToInt a.text,tryParseStringToInt b.text with
    | some aAsInt,some bAsInt =>
      if bAsInt < aAsInt then .gt
      else if aAsInt < bAsInt then .lt
      else if b.text.length < a.text.length then .gt
      else if a.text.length < b.text.length then .lt
      else .eq
    | some _,none => .lt
    | none,some _ => .gt
    | none,none => compare a.text b.text

-- The order behind compareKey: the integers by value and length, then the other
-- keys by their characters.
def Key.rank : Key → Nat × Int × Nat × List Nat
  | minName => (0,0,0,[])
  | maxName => (3,0,0,[])
  | name text =>
    match tryParseStringToInt text with
    | some value => (1,value,text.length,[])
    | none => (2,0,0,text)

def byRank : Key → Key → Ordering :=
  compareLex (compareOn fun key => key.rank.1)
    (compareLex (compareOn fun key => key.rank.2.1)
      (compareLex (compareOn fun key => key.rank.2.2.1) (compareOn fun key => key.rank.2.2.2)))

section

instance : Std.TransCmp byRank := inferInstanceAs (Std.TransCmp (compareLex _ _))

theorem compare_chain {α : Type} [LinearOrder α] (x y : α) (rest : Ordering) :
    (if y < x then .gt else if x < y then .lt else rest) = (compare x y).then rest := by
  rcases lt_trichotomy x y with below | rfl | above
  · simp [below,below.not_gt,compare_lt_iff_lt.mpr below]
  · simp
  · simp [above,compare_gt_iff_gt.mpr above]

theorem byRank_lt {a b : Key} (below : a.rank.1 < b.rank.1) : byRank a b = .lt := by
  simp only [byRank,compareLex,compareOn,Nat.compare_eq_lt.mpr below]
  rfl

theorem byRank_gt {a b : Key} (above : b.rank.1 < a.rank.1) : byRank a b = .gt :=
  Std.OrientedCmp.gt_iff_lt.mpr (byRank_lt above)

theorem rank_name (text : List Nat) : 0 < (Key.name text).rank.1 ∧ (Key.name text).rank.1 < 3 := by
  cases parsed : tryParseStringToInt text <;> simp [Key.rank,parsed]

theorem compareKey_rank (a b : Key) : compareKey a b = byRank a b := by
  by_cases same : a = b
  · have reflexive : byRank b b = .eq := Std.ReflCmp.compare_self
    rw [same,compareKey,if_pos rfl,reflexive]
  · rw [compareKey,if_neg same]
    cases a with
    | minName =>
        refine (byRank_lt ?_).symm
        cases b with
        | minName => exact absurd rfl same
        | maxName => decide
        | name text => exact (rank_name text).1
    | maxName =>
        rw [if_neg (by cases b <;> simp_all),if_pos (.inr rfl)]
        refine (byRank_gt ?_).symm
        cases b with
        | minName => decide
        | maxName => exact absurd rfl same
        | name text => exact (rank_name text).2
    | name text =>
        cases b with
        | minName =>
            rw [if_neg (by simp),if_pos (.inl rfl)]
            refine (byRank_gt ?_).symm
            exact (rank_name text).1
        | maxName =>
            rw [if_pos (.inr rfl)]
            refine (byRank_lt ?_).symm
            exact (rank_name text).2
        | name other =>
            rw [if_neg (by simp),if_neg (by simp),Key.text,Key.text]
            cases parsed : tryParseStringToInt text with
            | none =>
                cases read : tryParseStringToInt other with
                | none => simp [byRank,compareLex,compareOn,Key.rank,parsed,read]
                | some value => exact (byRank_gt (by simp [Key.rank,parsed,read])).symm
            | some value =>
                cases read : tryParseStringToInt other with
                | none => exact (byRank_lt (by simp [Key.rank,parsed,read])).symm
                | some number =>
                    simp only [byRank,compareLex,compareOn,Key.rank,parsed,read,Std.ReflCmp.compare_self,compare_chain,
                      Ordering.eq_then,Ordering.then_eq]

def numeralText (negative : Bool) (digits : List (Fin 10)) : List Nat :=
  (if negative then [45] else []) ++ digits.map fun digit => 48 + digit.val

theorem parseDigits_exact (value parsed : Int) (text : List Nat) :
    parseDigits value text = some parsed ↔
      ∃ digits : List (Fin 10),text = digits.map (fun digit => 48 + digit.val) ∧
        parsed = value * 10 ^ digits.length + Radix.value digits := by
  induction text generalizing value with
  | nil =>
      constructor
      · intro read
        cases read
        exact ⟨[],rfl,by simp [Radix.value]⟩
      · rintro ⟨digits,empty,rfl⟩
        cases List.map_eq_nil_iff.mp empty.symm
        simp [parseDigits,Radix.value]
  | cons c rest ih =>
      by_cases outside : c < 48 ∨ 57 < c
      · rw [parseDigits,if_pos outside]
        refine iff_of_false (by simp) ?_
        rintro ⟨digits,whole,-⟩
        cases digits with
        | nil => exact absurd whole (by simp)
        | cons digit digits =>
            have first : c = 48 + digit.val := (List.cons.inj whole).1
            have small := digit.isLt
            omega
      · rw [parseDigits,if_neg outside,ih]
        constructor
        · rintro ⟨digits,rfl,rfl⟩
          refine ⟨⟨c - 48,by omega⟩ :: digits,?_,?_⟩
          · rw [List.map_cons]
            exact congrArg (· :: _) (show c = 48 + (c - 48) by omega)
          · simp only [Radix.value,List.length_cons]
            push_cast
            ring
        · rintro ⟨digits,whole,rfl⟩
          cases digits with
          | nil => exact absurd whole (by simp)
          | cons digit digits =>
              obtain ⟨rfl,rfl⟩ := List.cons.inj whole
              refine ⟨digits,rfl,?_⟩
              simp only [Radix.value,List.length_cons,Nat.add_sub_cancel_left]
              push_cast
              ring

theorem ranged_exact (value read : Int) :
    (if value < INTEGER_32_MIN ∨ INTEGER_32_MAX < value then none else some value) = some read ↔
      (INTEGER_32_MIN ≤ read ∧ read ≤ INTEGER_32_MAX) ∧ value = read := by
  rw [Option.ite_none_left_eq_some,Option.some.injEq]
  constructor
  · rintro ⟨within,rfl⟩
    exact ⟨by omega,rfl⟩
  · rintro ⟨within,rfl⟩
    exact ⟨by omega,rfl⟩

theorem tryParse_minus (rest : List Nat) (value : Int) :
    tryParseStringToInt (45 :: rest) = some value ↔
      rest.length ≤ 10 ∧ rest ≠ [] ∧ (INTEGER_32_MIN ≤ value ∧ value ≤ INTEGER_32_MAX) ∧
        parseDigits 0 rest = some (-value) := by
  by_cases long : 10 < rest.length
  · rw [tryParseStringToInt,if_pos (.inl (by rw [List.length_cons]; omega))]
    exact iff_of_false (by simp) fun both => absurd both.1 (by omega)
  · rw [tryParseStringToInt,if_neg (by rw [List.length_cons]; omega)]
    cases rest with
    | nil => simp
    | cons c rest =>
        rw [if_neg (by simp)]
        simp only [List.head?_cons,if_true,List.tail_cons]
        cases parsed : parseDigits 0 (c :: rest) with
        | none => simp
        | some number =>
            rw [ranged_exact]
            simp only [Option.some.injEq]
            constructor
            · rintro ⟨within,negated⟩
              exact ⟨by omega,by simp,within,by omega⟩
            · rintro ⟨-,-,within,negated⟩
              exact ⟨within,by omega⟩

theorem tryParse_plain {text : List Nat} (plain : text.head? ≠ some 45) (value : Int) :
    tryParseStringToInt text = some value ↔
      text.length ≤ 11 ∧ text ≠ [] ∧ (INTEGER_32_MIN ≤ value ∧ value ≤ INTEGER_32_MAX) ∧
        parseDigits 0 text = some value := by
  by_cases long : 11 < text.length
  · rw [tryParseStringToInt,if_pos (.inl long)]
    exact iff_of_false (by simp) fun both => absurd both.1 (by omega)
  · cases text with
    | nil => simp [tryParseStringToInt]
    | cons c rest =>
        rw [tryParseStringToInt,if_neg (by rw [List.length_cons] at long ⊢; omega),if_neg fun both => plain both.1]
        simp only [plain,if_false]
        cases parsed : parseDigits 0 (c :: rest) with
        | none => simp
        | some number =>
            rw [ranged_exact]
            simp only [Option.some.injEq]
            constructor
            · rintro ⟨within,same⟩
              exact ⟨by omega,by simp,within,same⟩
            · rintro ⟨-,-,within,same⟩
              exact ⟨within,same⟩

theorem numeralText_head (digits : List (Fin 10)) : (numeralText false digits).head? ≠ some 45 := by
  cases digits with
  | nil => simp [numeralText]
  | cons digit digits =>
      have first : 48 + digit.val ≠ 45 := by omega
      simpa [numeralText] using first

theorem tryParse_exact (text : List Nat) (value : Int) :
    tryParseStringToInt text = some value ↔
      text.length ≤ 11 ∧ (INTEGER_32_MIN ≤ value ∧ value ≤ INTEGER_32_MAX) ∧
        ∃ negative digits,digits ≠ [] ∧ text = numeralText negative digits ∧
          value = (if negative then -1 else 1) * (Radix.value digits : Int) := by
  constructor
  · intro read
    by_cases minus : text.head? = some 45
    · obtain ⟨rest,rfl⟩ := List.head?_eq_some_iff.mp minus
      obtain ⟨short,nonempty,within,parsed⟩ := (tryParse_minus rest value).mp read
      obtain ⟨digits,rfl,number⟩ := (parseDigits_exact _ _ _).mp parsed
      refine ⟨by rw [List.length_cons]; omega,within,true,digits,fun empty => nonempty (by simp [empty]),rfl,?_⟩
      simp only [if_true]
      omega
    · obtain ⟨short,nonempty,within,parsed⟩ := (tryParse_plain minus value).mp read
      obtain ⟨digits,rfl,number⟩ := (parseDigits_exact _ _ _).mp parsed
      exact ⟨short,within,false,digits,fun empty => nonempty (by simp [empty]),rfl,by simpa using number⟩
  · rintro ⟨short,within,negative,digits,nonempty,rfl,number⟩
    have parsed := (parseDigits_exact 0 (Radix.value digits) _).mpr ⟨digits,rfl,by simp⟩
    have chars : digits.map (fun digit => 48 + digit.val) ≠ [] := by simpa using nonempty
    cases negative with
    | true =>
        have signed : numeralText true digits = 45 :: digits.map fun digit => 48 + digit.val := rfl
        rw [signed] at short ⊢
        refine (tryParse_minus _ value).mpr ⟨Nat.le_of_succ_le_succ short,chars,within,?_⟩
        rw [parsed,number]
        simp
    | false =>
        have unsigned : numeralText false digits = digits.map fun digit => 48 + digit.val := rfl
        have plain := numeralText_head digits
        rw [unsigned] at short plain ⊢
        refine (tryParse_plain plain value).mpr ⟨short,chars,within,?_⟩
        rw [parsed,number]
        simp

theorem byRank_eq (a b : Key) : byRank a b = .eq ↔ a.rank = b.rank := by
  simp only [byRank,compareLex_eq_eq,compareOn,Std.compare_eq_iff_eq,Prod.ext_iff]

def NegativeZero (a b : Key) : Prop :=
  ∃ n,0 < n ∧ n ≤ 10 ∧ a = .name (45 :: List.replicate n 48) ∧ b = .name (List.replicate (n + 1) 48)

theorem NegativeZero.rank {a b : Key} (zeros : NegativeZero a b) : a.rank = b.rank := by
  obtain ⟨n,positive,short,rfl,rfl⟩ := zeros
  have minus : tryParseStringToInt (45 :: List.replicate n 48) = some 0 :=
    (tryParse_exact _ 0).mpr ⟨by rw [List.length_cons,List.length_replicate]; omega,by decide,true,List.replicate n 0,
      by simp; omega,by simp [numeralText],by simp [Radix.value_zeros]⟩
  have plain : tryParseStringToInt (List.replicate (n + 1) 48) = some 0 :=
    (tryParse_exact _ 0).mpr ⟨by rw [List.length_replicate]; omega,by decide,false,List.replicate (n + 1) 0,by simp,
      by simp [numeralText],by simp [Radix.value_zeros]⟩
  simp [Key.rank,minus,plain]

theorem rank_zeros {a b : List Nat} {digits others : List (Fin 10)} (nonempty : digits ≠ [])
    (left : a = numeralText true digits) (right : b = numeralText false others) (short : a.length ≤ 11)
    (size : a.length = b.length) (zero : Radix.value digits = 0) (same : Radix.value others = 0) :
    NegativeZero (.name a) (.name b) := by
  have wide : others.length = digits.length + 1 := by
    rw [left,right] at size
    simpa [numeralText] using size.symm
  rw [Radix.value_eq_zero] at zero same
  have long : a.length = digits.length + 1 := by
    rw [left]
    simp [numeralText]
  refine ⟨digits.length,List.length_pos_iff.mpr nonempty,by omega,?_,?_⟩
  · rw [left,numeralText,zero]
    simp
  · rw [right,numeralText,same,wide]
    simp

theorem numeralText_inj (negative : Bool) {digits others : List (Fin 10)}
    (size : (numeralText negative digits).length = (numeralText negative others).length)
    (same : Radix.value digits = Radix.value others) : numeralText negative digits = numeralText negative others := by
  have long : digits.length = others.length := by simpa [numeralText] using size
  rw [(Radix.value_inj long).mp same]

theorem number_inj {a b : List Nat} {value : Int} (left : tryParseStringToInt a = some value)
    (right : tryParseStringToInt b = some value) (size : a.length = b.length) :
    a = b ∨ NegativeZero (.name a) (.name b) ∨ NegativeZero (.name b) (.name a) := by
  obtain ⟨short,-,negative,digits,nonempty,shape,number⟩ := (tryParse_exact a value).mp left
  obtain ⟨little,-,sign,others,more,form,same⟩ := (tryParse_exact b value).mp right
  cases negative with
  | true =>
      cases sign with
      | true =>
          simp only [if_true] at number same
          subst shape form
          exact .inl (numeralText_inj true size (by omega))
      | false =>
          simp only [if_true,Bool.false_eq_true,if_false] at number same
          exact .inr (.inl (rank_zeros nonempty shape form short size (by omega) (by omega)))
  | false =>
      cases sign with
      | true =>
          simp only [if_true,Bool.false_eq_true,if_false] at number same
          exact .inr (.inr (rank_zeros more form shape little size.symm (by omega) (by omega)))
      | false =>
          simp only [Bool.false_eq_true,if_false] at number same
          subst shape form
          exact .inl (numeralText_inj false size (by omega))

theorem rank_inj (a b : Key) (same : a.rank = b.rank) : a = b ∨ NegativeZero a b ∨ NegativeZero b a := by
  have group : a.rank.1 = b.rank.1 := congrArg Prod.fst same
  cases a with
  | minName =>
      cases b with
      | minName => exact .inl rfl
      | maxName => cases group
      | name other => exact absurd group (ne_of_lt (rank_name other).1)
  | maxName =>
      cases b with
      | minName => cases group
      | maxName => exact .inl rfl
      | name other => exact absurd group (ne_of_gt (rank_name other).2)
  | name text =>
      cases b with
      | minName => exact absurd group (ne_of_gt (rank_name text).1)
      | maxName => exact absurd group (ne_of_lt (rank_name text).2)
      | name other =>
          cases left : tryParseStringToInt text with
          | none =>
              cases right : tryParseStringToInt other with
              | none =>
                  simp only [Key.rank,left,right,Prod.mk.injEq,true_and] at same
                  exact .inl (congrArg Key.name same)
              | some number => simp [Key.rank,left,right] at same
          | some value =>
              cases right : tryParseStringToInt other with
              | none => simp [Key.rank,left,right] at same
              | some number =>
                  simp only [Key.rank,left,right,Prod.mk.injEq,true_and,and_true] at same
                  obtain ⟨rfl,size⟩ := same
                  rcases number_inj left right size with rfl | zeros
                  · exact .inl rfl
                  · exact .inr zeros

theorem compareKey_exact :
    Std.TransCmp compareKey ∧ ∀ a b,compareKey a b = .eq ↔ a = b ∨ NegativeZero a b ∨ NegativeZero b a := by
  have ranked : compareKey = byRank := funext fun a => funext fun b => compareKey_rank a b
  rw [ranked]
  refine ⟨inferInstance,fun a b => (byRank_eq a b).trans ⟨rank_inj a b,?_⟩⟩
  rintro (rfl | zeros | zeros)
  · rfl
  · exact zeros.rank
  · exact zeros.rank.symm

theorem compare_text (xs ys : List Nat) : compare xs ys = .lt ↔ xs < ys := by
  induction xs generalizing ys with
  | nil => cases ys <;> simp
  | cons x xs ih =>
      cases ys with
      | nil => simp
      | cons y ys => simp [List.compare_cons_cons,List.cons_lt_cons_iff,Ordering.then_eq_lt,Nat.compare_eq_lt,ih]

end

end FirebaseDatabase
