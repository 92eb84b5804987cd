import Mathlib.Data.List.Chain
import Mathlib.Data.List.TakeDrop
import Mathlib.Logic.Function.Basic
import Journey.Backend
import Journey.FUtilities

namespace FirebaseDatabase

def PUSH_CHARS : List Char := "-0123456789ABCDEFGHIJKLMNOPQRSTUVWXYZ_abcdefghijklmnopqrstuvwxyz".toList

theorem PUSH_CHARS_length : PUSH_CHARS.length = 64 := by decide

def characterAtIndex (index : Fin 64) : Char := PUSH_CHARS.get (index.cast PUSH_CHARS_length.symm)

theorem unichar_strictMono : StrictMono fun index => (characterAtIndex index).toNat := by
  rw [Fin.strictMono_iff_lt_succ]
  decide +kernel

-- The two statics of get, one pair in each process.
structure FNextPushId where
  lastPushTime : Nat
  lastRandChars : Vector (Fin 64) 12
  deriving DecidableEq

def FNextPushId.initial : FNextPushId := ⟨0,Vector.replicate 12 0⟩

-- The loop fills its characters from the last to the first.
def timeStampChars : Nat → Nat → List Char → List Char
  | 0,_,chars => chars
  | i + 1,now,chars => timeStampChars i (now / 64) (characterAtIndex (Fin.ofNat 64 now) :: chars)

-- The loop of a duplicate time, i + 1 being the count of characters not yet
-- seen. After it, lastRandChars[-1] would be incremented.
def increment (lastRandChars : Vector (Fin 64) 12) : (i : Nat) → i ≤ 12 → Option (Vector (Fin 64) 12)
  | 0,_ => none
  | i + 1,_ =>
    if lastRandChars[i] = 63 then increment (lastRandChars.set i 0) i (by omega)
    else some (lastRandChars.set i (lastRandChars[i] + 1))

-- now counts the milliseconds of currentTime; random is what arc4random would
-- give for the twelve characters.
def FNextPushId.get (statics : FNextPushId) (now : Nat) (random : Vector (Fin 64) 12) :
    Option (FNextPushId × String) :=
  let lastRandChars := if now = statics.lastPushTime then increment statics.lastRandChars 12 le_rfl else some random
  lastRandChars.map fun chars =>
    (⟨now,chars⟩,String.ofList (timeStampChars 8 now [] ++ chars.toList.map characterAtIndex))

section

theorem characterAtIndex_strictMono : StrictMono characterAtIndex :=
  fun _ _ below => unichar_strictMono below

theorem timeStampChars_exact (i now : Nat) (chars : List Char) :
    timeStampChars i now chars = (Radix.numeral 64 i now).map characterAtIndex ++ chars := by
  induction i generalizing now chars with
  | zero => rfl
  | succ i ih => simp [timeStampChars,Radix.numeral,ih]

theorem increment_exact (lastRandChars : Vector (Fin 64) 12) (i : Nat) (within : i ≤ 12) :
    (increment lastRandChars i within = none ∧ 64 ^ 12 ≤ Radix.value lastRandChars.toList + 64 ^ (12 - i)) ∨
    ∃ chars,increment lastRandChars i within = some chars ∧
      Radix.value chars.toList = Radix.value lastRandChars.toList + 64 ^ (12 - i) := by
  induction i generalizing lastRandChars with
  | zero => exact .inl ⟨rfl,Nat.le_add_left _ _⟩
  | succ i ih =>
      have inside : i < lastRandChars.toList.length := by simp; omega
      have place : 64 ^ (12 - i) = 64 * 64 ^ (12 - (i + 1)) := by
        rw [← pow_succ']
        congr 1
        omega
      have weight (d : Fin 64) := Radix.value_set inside d
      simp only [Vector.length_toList,Vector.getElem_toList,Nat.sub_sub,Nat.add_comm 1 i] at weight
      by_cases full : lastRandChars[i] = 63
      · have zeroed := weight 0
        rw [full,← Vector.toList_set within] at zeroed
        change _ + 63 * _ = _ + 0 * _ at zeroed
        rw [increment,if_pos full]
        rcases ih (lastRandChars.set i 0) (by omega) with ⟨failed,most⟩ | ⟨chars,left,sum⟩
        · exact .inl ⟨failed,by omega⟩
        · exact .inr ⟨chars,left,by omega⟩
      · have grown := weight (lastRandChars[i] + 1)
        have next : ((lastRandChars[i] + 1 : Fin 64) : Nat) = lastRandChars[i] + 1 := by omega
        rw [next,Nat.add_mul,Nat.one_mul] at grown
        rw [increment,if_neg full]
        refine .inr ⟨_,rfl,?_⟩
        rw [Vector.toList_set]
        omega

def pushId (now : Nat) (lastRandChars : Vector (Fin 64) 12) : String :=
  String.ofList ((Radix.numeral 64 8 now ++ lastRandChars.toList).map characterAtIndex)

theorem get_cases (statics : FNextPushId) (now : Nat) (random : Vector (Fin 64) 12) :
    (statics.get now random = none ∧ now = statics.lastPushTime ∧
      Radix.value statics.lastRandChars.toList + 1 = 64 ^ 12) ∨
    ∃ chars,statics.get now random = some (⟨now,chars⟩,pushId now chars) ∧
      (now ≠ statics.lastPushTime → chars = random) ∧
      (now = statics.lastPushTime → Radix.value chars.toList = Radix.value statics.lastRandChars.toList + 1) := by
  have text (chars : Vector (Fin 64) 12) :
      String.ofList (timeStampChars 8 now [] ++ chars.toList.map characterAtIndex) = pushId now chars := by
    rw [pushId,timeStampChars_exact,List.append_nil,List.map_append]
  by_cases duplicateTime : now = statics.lastPushTime
  · simp only [FNextPushId.get,if_pos duplicateTime]
    rcases increment_exact statics.lastRandChars 12 le_rfl with ⟨failed,most⟩ | ⟨chars,left,sum⟩
    · have bound := Radix.value_lt statics.lastRandChars.toList
      rw [Vector.length_toList] at bound
      exact .inl ⟨by rw [failed]; rfl,duplicateTime,by omega⟩
    · exact .inr ⟨chars,by rw [left,Option.map_some,text],fun fresh => absurd duplicateTime fresh,fun _ => sum⟩
  · refine .inr ⟨random,?_,fun _ => rfl,fun same => absurd same duplicateTime⟩
    simp [FNextPushId.get,if_neg duplicateTime,text]

theorem get_none (statics : FNextPushId) (now : Nat) (random : Vector (Fin 64) 12) :
    statics.get now random = none ↔
      now = statics.lastPushTime ∧ Radix.value statics.lastRandChars.toList + 1 = 64 ^ 12 := by
  rcases get_cases statics now random with ⟨failed,full⟩ | ⟨chars,got,-,again⟩
  · exact iff_of_true failed full
  · have bound := Radix.value_lt chars.toList
    rw [Vector.length_toList] at bound
    refine iff_of_false (by simp [got]) fun ⟨same,full⟩ => ?_
    have grown := again same
    omega

theorem value_pushId {now : Nat} (small : now < 64 ^ 8) (chars : Vector (Fin 64) 12) :
    Radix.value (Radix.numeral 64 8 now ++ chars.toList) = now * 64 ^ 12 + Radix.value chars.toList := by
  rw [Radix.value_append,Radix.value_numeral,Vector.length_toList,Nat.mod_eq_of_lt small]

theorem pushId_below {now later : Nat} (small : now < 64 ^ 8) (little : later < 64 ^ 8)
    (chars others : Vector (Fin 64) 12) :
    Radix.value (Radix.numeral 64 8 now ++ chars.toList) < Radix.value (Radix.numeral 64 8 later ++ others.toList) ↔
      now < later ∨ now = later ∧ Radix.value chars.toList < Radix.value others.toList := by
  have bound := Radix.value_lt chars.toList
  have limit := Radix.value_lt others.toList
  rw [Vector.length_toList] at bound limit
  rw [value_pushId small,value_pushId little]
  omega

theorem pushId_lt (now later : Nat) (chars others : Vector (Fin 64) 12) :
    pushId now chars < pushId later others ↔
      Radix.value (Radix.numeral 64 8 now ++ chars.toList) <
        Radix.value (Radix.numeral 64 8 later ++ others.toList) := by
  rw [pushId,pushId,String.lt_iff_toList_lt,String.toList_ofList,String.toList_ofList]
  exact Radix.glyphs_lt characterAtIndex_strictMono (by simp [Radix.numeral_length])

theorem unichars_pushId (now : Nat) (chars : Vector (Fin 64) 12) :
    unichars (pushId now chars) =
      (Radix.numeral 64 8 now ++ chars.toList).map fun index => (characterAtIndex index).toNat := by
  have plain : ∀ index : Fin 64,(characterAtIndex index).toNat < 65536 := by decide +kernel
  rw [unichars,pushId,String.toList_ofList,List.flatMap_map]
  simp only [plain,if_true]
  exact List.map_eq_flatMap.symm

theorem pushId_text (now : Nat) (chars : Vector (Fin 64) 12) :
    tryParseStringToInt (Key.name (unichars (pushId now chars))).text = none :=
  if_pos (.inl (by simp [Key.text,unichars_pushId,Radix.numeral_length]))

theorem compareKey_pushId (now later : Nat) (chars others : Vector (Fin 64) 12) :
    compareKey (.name (unichars (pushId now chars))) (.name (unichars (pushId later others))) = .lt ↔
      pushId now chars < pushId later others := by
  have literal : unichars (pushId now chars) < unichars (pushId later others) ↔
      pushId now chars < pushId later others := by
    rw [unichars_pushId,unichars_pushId,pushId_lt]
    exact Radix.glyphs_lt unichar_strictMono (by simp [Radix.numeral_length])
  rw [compareKey]
  by_cases same : unichars (pushId now chars) = unichars (pushId later others)
  · rw [same] at literal
    simpa [same] using literal.not.mp (lt_irrefl _)
  · rw [if_neg (by simpa using same),if_neg (by simp),if_neg (by simp),pushId_text,pushId_text]
    exact (compare_text _ _).trans literal

end

structure Draw (P : Type) where
  process : P
  now : Nat
  random : Vector (Fin 64) 12

def Draw.Onward {P : Type} (draw next : Draw P) : Prop := draw.now ≤ next.now

def Draw.Apart {P : Type} (draw next : Draw P) : Prop := draw.now = next.now → draw.process = next.process

instance {P : Type} : Trans (Draw.Onward (P := P)) Draw.Onward Draw.Onward := ⟨Nat.le_trans⟩

def childByAutoId {P : Type} [DecidableEq P] (processes : P → FNextPushId) (draw : Draw P) :
    Option ((P → FNextPushId) × String) :=
  ((processes draw.process).get draw.now draw.random).map fun (statics,id) =>
    (Function.update processes draw.process statics,id)

def ids {P : Type} [DecidableEq P] (processes : P → FNextPushId) : List (Draw P) → Option (List String)
  | [] => some []
  | draw :: rest => do
    let (processes,id) ← childByAutoId processes draw
    let tail ← ids processes rest
    return id :: tail

section

variable {P : Type} [DecidableEq P]

theorem ids_cons {processes : P → FNextPushId} {draw : Draw P} {rest : List (Draw P)} {names : List String}
    (made : ids processes (draw :: rest) = some names) :
    ∃ chars tail,names = pushId draw.now chars :: tail ∧
      (draw.now = (processes draw.process).lastPushTime →
        Radix.value chars.toList = Radix.value (processes draw.process).lastRandChars.toList + 1) ∧
      ids (Function.update processes draw.process ⟨draw.now,chars⟩) rest = some tail := by
  rcases get_cases (processes draw.process) draw.now draw.random with ⟨failed,-⟩ | ⟨chars,got,-,again⟩
  · simp [ids,childByAutoId,failed] at made
  · simp only [ids,childByAutoId,got,Option.map_some,Option.bind_eq_bind,Option.bind_some,
      Option.bind_eq_some_iff] at made
    obtain ⟨tail,ran,whole⟩ := made
    exact ⟨chars,tail,(Option.some.inj whole).symm,again,ran⟩

theorem ids_chain {draws : List (Draw P)} (small : ∀ draw ∈ draws,draw.now < 64 ^ 8)
    (apart : draws.IsChain Draw.Apart) {processes : P → FNextPushId} {names : List String}
    (made : ids processes draws = some names) :
    names.IsChain (· < ·) ↔ draws.IsChain Draw.Onward := by
  induction draws generalizing processes names with
  | nil =>
      cases made
      simp
  | cons draw rest ih =>
      obtain ⟨chars,tail,rfl,-,ran⟩ := ids_cons made
      cases rest with
      | nil =>
          cases ran
          simp
      | cons next rest =>
          have remaining := ih (fun e member => small e (.tail _ member)) apart.tail ran
          obtain ⟨others,tail,rfl,again,-⟩ := ids_cons ran
          rw [List.isChain_cons_cons,List.isChain_cons_cons,remaining]
          refine and_congr_left fun _ => ?_
          rw [pushId_lt,pushId_below (small draw (by simp)) (small next (by simp)),Draw.Onward]
          have link := (List.isChain_cons_cons.mp apart).1
          constructor
          · omega
          · intro onward
            rcases Nat.lt_or_eq_of_le onward with later | same
            · exact .inl later
            · rw [← link same,Function.update_self] at again
              have grown := again same.symm
              exact .inr ⟨same,by simp only at grown; omega⟩

theorem ids_text {draws : List (Draw P)} {processes : P → FNextPushId} {names : List String}
    (made : ids processes draws = some names) : ∀ name ∈ names,∃ now chars,name = pushId now chars := by
  induction draws generalizing processes names with
  | nil =>
      cases made
      simp
  | cons draw rest ih =>
      obtain ⟨chars,tail,rfl,-,ran⟩ := ids_cons made
      intro name member
      rcases List.mem_cons.mp member with rfl | member
      · exact ⟨draw.now,chars,rfl⟩
      · exact ih ran name member

theorem below_letters (name : String) (n : Nat) : name < name ++ Journey.AutoId.letters.key n := by
  rw [String.lt_iff_toList_lt,String.toList_append]
  have more : name.toList ++ [] < name.toList ++ (Journey.AutoId.letters.key n).toList :=
    List.append_left_lt (by simp [Journey.AutoId.letters,List.replicate_succ])
  simpa using more

theorem le_last {names : List String} (ascending : names.Pairwise (· < ·)) {m : Nat} (inside : m < names.length) :
    names[m] ≤ names.getLastD "" := by
  have last : names.getLastD "" = names[names.length - 1] := by
    rw [List.getLastD_eq_getLast?,List.getLast?_eq_getElem?,List.getElem?_eq_getElem,Option.getD_some]
  rw [last]
  rcases Nat.lt_or_eq_of_le (Nat.le_sub_one_of_lt inside) with before | same
  · exact le_of_lt (List.pairwise_iff_getElem.mp ascending m _ inside _ before)
  · simp [same]

def continued (names : List String) (ascending : names.Pairwise (· < ·)) : Journey.AutoId where
  key n :=
    if within : n < names.length then names[n]
    else names.getLastD "" ++ Journey.AutoId.letters.key (n - names.length)
  increasing m n below := by
    by_cases within : n < names.length
    · rw [dif_pos (below.trans within),dif_pos within]
      exact List.pairwise_iff_getElem.mp ascending m n _ _ below
    · rw [dif_neg within]
      by_cases inside : m < names.length
      · rw [dif_pos inside]
        exact lt_of_le_of_lt (le_last ascending inside) (below_letters _ _)
      · rw [dif_neg inside,String.lt_iff_toList_lt,String.toList_append,String.toList_append]
        exact List.append_left_lt (String.lt_iff_toList_lt.mp (Journey.AutoId.letters.increasing _ _ (by omega)))

theorem ids_exact {draws : List (Draw P)} (small : ∀ draw ∈ draws,draw.now < 64 ^ 8)
    (apart : draws.IsChain Draw.Apart) {processes : P → FNextPushId} {names : List String}
    (made : ids processes draws = some names) :
    ((names.Pairwise fun a b => compareKey (.name (unichars a)) (.name (unichars b)) = .lt) ↔
      draws.Pairwise Draw.Onward) ∧
    (draws.Pairwise Draw.Onward →
      ∃ auto : Journey.AutoId,names = (List.range names.length).map auto.key) := by
  have ordered : names.Pairwise (· < ·) ↔ draws.Pairwise Draw.Onward := by
    have increasing : Trans (· < · : String → String → Prop) (· < ·) (· < ·) := ⟨lt_trans⟩
    rw [← List.isChain_iff_pairwise,← List.isChain_iff_pairwise]
    exact ids_chain small apart made
  constructor
  · rw [← ordered]
    refine List.Pairwise.iff_of_mem fun {a b} member other => ?_
    obtain ⟨now,chars,rfl⟩ := ids_text made a member
    obtain ⟨later,others,rfl⟩ := ids_text made b other
    exact compareKey_pushId now later chars others
  · intro onward
    refine ⟨continued names (ordered.mpr onward),List.ext_getElem (by simp) fun n within _ => ?_⟩
    simp [continued,within]

end

theorem ids_exact_twoPhones :
    let draws : List (Draw Bool) :=
      [⟨true,1500000000000,#v[12,5,5,5,5,5,5,5,5,5,62,63]⟩,⟨true,1500000000000,.replicate 12 0⟩,
        ⟨false,1500000000001,.replicate 12 0⟩]
    let names := ["-KoyxtV-B444444444yz","-KoyxtV-B444444444z-","-KoyxtV0------------"]
    ids (fun _ => .initial) draws = some names ∧
      ((names.Pairwise fun a b => compareKey (.name (unichars a)) (.name (unichars b)) = .lt) ↔
        draws.Pairwise Draw.Onward) ∧
      (draws.Pairwise Draw.Onward →
        ∃ auto : Journey.AutoId,names = (List.range names.length).map auto.key) := by
  intro draws names
  have made : ids (fun _ => FNextPushId.initial) draws = some names := by decide +kernel
  exact ⟨made,ids_exact (by simp [draws]) (by simp [draws,Draw.Apart]) made⟩

end FirebaseDatabase
