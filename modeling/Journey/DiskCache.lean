import Mathlib.Algebra.GroupWithZero.Nat
import Mathlib.Data.List.Nodup
import Mathlib.Data.List.Sort
import Journey.Kingfisher

namespace Kingfisher

-- What the file system tells about a file of the cache; any of it can be missing.
-- Dates are in seconds.
structure ResourceValues where
  isDirectory : Option Bool
  contentAccessDate : Option Int
  totalFileAllocatedSize : Option Nat
  deriving DecidableEq, Repr

-- The contents of the directory; resourceValues(forKeys:) throws where there are none.
abbrev Contents (K : Type) := List (K × Option ResourceValues)

structure Travel (K : Type) where
  urlsToDelete : List K
  diskCacheSize : Nat
  cachedFiles : List (K × ResourceValues)
  deriving DecidableEq, Repr

def expiredDate (maxCachePeriodInSecond now : Int) : Option Int :=
  if maxCachePeriodInSecond < 0 then none else some (now - maxCachePeriodInSecond)

def laterDate (receiver other : Int) : Int := if receiver < other then other else receiver

def ResourceValues.expired (values : ResourceValues) (expiredDate : Option Int) : Bool :=
  match expiredDate,values.contentAccessDate with
  | some expired,some lastAccess => laterDate lastAccess expired == expired
  | _,_ => false

variable {K : Type}

-- The body of the loop in travelCachedFiles. A size that overflows UInt traps.
def visit (onlyForCacheSize : Bool) (expiredDate : Option Int) (t : Travel K) :
    K × Option ResourceValues → Option (Travel K)
  | (_,none) => some t
  | (url,some values) =>
      if values.isDirectory = some true then some t
      else if !onlyForCacheSize && values.expired expiredDate then
        some {t with urlsToDelete := t.urlsToDelete ++ [url]}
      else match values.totalFileAllocatedSize with
        | none => some t
        | some fileSize =>
            if t.diskCacheSize + fileSize < 2 ^ 64 then
              some {t with diskCacheSize := t.diskCacheSize + fileSize,
                           cachedFiles := if onlyForCacheSize then t.cachedFiles else t.cachedFiles ++ [(url,values)]}
            else none

def travelCachedFiles (onlyForCacheSize : Bool) (expiredDate : Option Int) (contents : Contents K) :
    Option (Travel K) := contents.foldlM (visit onlyForCacheSize expiredDate) ⟨[],0,[]⟩

def calculateDiskCacheSize (contents : Contents K) : Option Nat :=
  (travelCachedFiles true none contents).map (·.diskCacheSize)

-- The loop over the sorted files. A size below zero traps.
def evict (targetSize : Nat) : Nat → List (K × ResourceValues) → Option (List K)
  | _,[] => some []
  | diskCacheSize,(url,values) :: rest =>
      let fileSize := values.totalFileAllocatedSize.getD 0
      if fileSize ≤ diskCacheSize then
        if diskCacheSize - fileSize < targetSize then some [url]
        else (evict targetSize (diskCacheSize - fileSize) rest).map (url :: ·)
      else none

-- URLsToDelete at the end. The order of a dictionary is not specified, nor what
-- sorted(by:) makes of equal dates, so the sorting is a parameter.
def cleanExpiredDiskCache (keysSortedByValue : List (K × ResourceValues) → List (K × ResourceValues))
    (maxCachePeriodInSecond : Int) (maxDiskCacheSize : Nat) (now : Int) (contents : Contents K) :
    Option (List K) := do
  let travel ← travelCachedFiles false (expiredDate maxCachePeriodInSecond now) contents
  if maxDiskCacheSize > 0 ∧ travel.diskCacheSize > maxDiskCacheSize then
    let evicted ← evict (maxDiskCacheSize / 2) travel.diskCacheSize (keysSortedByValue travel.cachedFiles)
    return travel.urlsToDelete ++ evicted
  else return travel.urlsToDelete

def expiredFiles (date : Option Int) (contents : Contents K) : List K :=
  contents.filterMap fun file =>
    (file.2.filter fun values => values.isDirectory ≠ some true ∧ values.expired date).map fun _ => file.1

def counted (date : Option Int) (contents : Contents K) : List (K × ResourceValues) :=
  contents.filterMap fun file =>
    (file.2.filter fun values => values.isDirectory ≠ some true ∧ ¬ values.expired date ∧
      values.totalFileAllocatedSize.isSome).map fun values => (file.1,values)

def total (files : List (K × ResourceValues)) : Nat :=
  (files.map fun file => file.2.totalFileAllocatedSize.getD 0).sum

section

variable {date : Option Int} {contents : Contents K} {files rest : List (K × ResourceValues)}
    {file : K × ResourceValues} {target size : Nat}

@[simp] theorem total_nil : total ([] : List (K × ResourceValues)) = 0 := rfl

@[simp] theorem total_cons : total (file :: rest) = file.2.totalFileAllocatedSize.getD 0 + total rest := rfl

@[simp] theorem total_append : total (files ++ rest) = total files + total rest := by simp [total]

theorem total_perm (same : files.Perm rest) : total files = total rest := (same.map _).sum_nat

theorem counted_cons (file : K × Option ResourceValues) (contents : Contents K) :
    counted date (file :: contents) = counted date [file] ++ counted date contents :=
  List.filterMap_append (l := [file])

theorem expiredFiles_cons (file : K × Option ResourceValues) (contents : Contents K) :
    expiredFiles date (file :: contents) = expiredFiles date [file] ++ expiredFiles date contents :=
  List.filterMap_append (l := [file])

theorem visit_exact {only : Bool} (whole : only = true → date = none) {t : Travel K}
    (small : t.diskCacheSize < 2 ^ 64) (file : K × Option ResourceValues) :
    visit only date t file = if t.diskCacheSize + total (counted date [file]) < 2 ^ 64 then
      some ⟨t.urlsToDelete ++ expiredFiles date [file],t.diskCacheSize + total (counted date [file]),
        t.cachedFiles ++ if only then [] else counted date [file]⟩ else none := by
  obtain ⟨url,_ | values⟩ := file
  · simpa [visit,counted,expiredFiles] using small
  by_cases directory : values.isDirectory = some true
  · simpa [visit,counted,expiredFiles,directory] using small
  cases expired : values.expired date with
  | true =>
      cases only with
      | true => cases whole rfl; cases expired
      | false => simpa [visit,counted,expiredFiles,directory,expired] using small
  | false =>
      cases size : values.totalFileAllocatedSize with
      | none => simpa [visit,counted,expiredFiles,directory,expired,size] using small
      | some fileSize => cases only <;> simp [visit,counted,expiredFiles,directory,expired,size]

theorem travel_loop {only : Bool} (whole : only = true → date = none) {t : Travel K}
    (small : t.diskCacheSize < 2 ^ 64) :
    contents.foldlM (visit only date) t = if t.diskCacheSize + total (counted date contents) < 2 ^ 64 then
      some ⟨t.urlsToDelete ++ expiredFiles date contents,t.diskCacheSize + total (counted date contents),
        t.cachedFiles ++ if only then [] else counted date contents⟩ else none := by
  induction contents generalizing t with
  | nil => simpa [counted,expiredFiles] using small
  | cons file others ih =>
      rw [List.foldlM_cons,visit_exact whole small,counted_cons file others,expiredFiles_cons file others,
        total_append,← Nat.add_assoc]
      by_cases fits : t.diskCacheSize + total (counted date [file]) < 2 ^ 64
      · rw [if_pos fits]
        refine (ih fits).trans ?_
        cases only <;> simp
      · rw [if_neg fits,if_neg (by omega)]
        rfl

theorem travel_exact (date : Option Int) (contents : Contents K) : travelCachedFiles false date contents =
    if total (counted date contents) < 2 ^ 64 then
      some ⟨expiredFiles date contents,total (counted date contents),counted date contents⟩ else none := by
  have whole : false = true → date = none := nofun
  rw [travelCachedFiles,travel_loop whole (Nat.two_pow_pos 64)]
  simp

theorem calculate_size (contents : Contents K) : calculateDiskCacheSize contents =
    if total (counted none contents) < 2 ^ 64 then some (total (counted none contents)) else none := by
  rw [calculateDiskCacheSize,travelCachedFiles,travel_loop (fun _ => rfl) (Nat.two_pow_pos 64)]
  split <;> simp_all

theorem evict_cut (exceeds : target ≤ total files) : ∃ evicted kept, files = evicted ++ kept ∧
    evict target (total files) files = some (evicted.map Prod.fst) ∧ (total kept < target ∨ kept = []) ∧
    ∀ before file after, evicted = before ++ file :: after → target ≤ total (file :: after ++ kept) := by
  induction files with
  | nil => exact ⟨[],[],rfl,rfl,.inr rfl,by simp⟩
  | cons file rest ih =>
      have least : file.2.totalFileAllocatedSize.getD 0 ≤ total (file :: rest) := by simp
      have left : total (file :: rest) - file.2.totalFileAllocatedSize.getD 0 = total rest := by simp
      rw [evict,if_pos least,left]
      by_cases below : total rest < target
      · refine ⟨[file],rest,rfl,if_pos below,.inl below,?_⟩
        intro before other after split
        obtain ⟨rfl,same⟩ | ⟨_,_,none⟩ := List.append_eq_cons_iff.mp split.symm
        · cases same
          simpa using exceeds
        · simp at none
      · obtain ⟨evicted,kept,rfl,rest_evicted,last,reach⟩ := ih (Nat.le_of_not_lt below)
        refine ⟨file :: evicted,kept,rfl,?_,last,?_⟩
        · rw [if_neg below,rest_evicted]
          rfl
        · intro before other after split
          obtain ⟨rfl,same⟩ | ⟨_,rfl,later⟩ := List.append_eq_cons_iff.mp split.symm
          · cases same
            exact exceeds
          · exact reach _ other after later

theorem mem_expired {url : K} : url ∈ expiredFiles date contents ↔ ∃ values,
    (url,some values) ∈ contents ∧ values.isDirectory ≠ some true ∧ values.expired date = true := by
  constructor
  · intro expired
    obtain ⟨⟨_,found⟩,member,mapped⟩ := List.mem_filterMap.mp expired
    obtain ⟨values,kept,rfl⟩ := Option.map_eq_some_iff.mp mapped
    obtain ⟨rfl,both⟩ := Option.filter_eq_some_iff.mp kept
    exact ⟨values,member,by simpa using both⟩
  · intro listed
    obtain ⟨values,member,both⟩ := listed
    exact List.mem_filterMap.mpr ⟨_,member,by simp [Option.filter,both]⟩

theorem mem_counted : file ∈ counted date contents ↔ (file.1,some file.2) ∈ contents ∧
    file.2.isDirectory ≠ some true ∧ file.2.expired date = false ∧ file.2.totalFileAllocatedSize.isSome := by
  constructor
  · intro member
    obtain ⟨⟨_,found⟩,listed,mapped⟩ := List.mem_filterMap.mp member
    obtain ⟨values,kept,rfl⟩ := Option.map_eq_some_iff.mp mapped
    obtain ⟨rfl,all⟩ := Option.filter_eq_some_iff.mp kept
    exact ⟨listed,by simpa using all⟩
  · intro listed
    obtain ⟨member,all⟩ := listed
    exact List.mem_filterMap.mpr ⟨_,member,by simp [Option.filter,all]⟩

theorem counted_names (names : (contents.map Prod.fst).Nodup) : ((counted date contents).map Prod.fst).Nodup := by
  rw [List.Nodup,List.pairwise_map] at names ⊢
  refine List.pairwise_filterMap.mpr (names.imp ?_)
  intro file other differ f found g also same
  obtain ⟨_,_,rfl⟩ := Option.map_eq_some_iff.mp found
  obtain ⟨_,_,rfl⟩ := Option.map_eq_some_iff.mp also
  exact differ same

def Overfull (maxDiskCacheSize : Nat) (date : Option Int) (contents : Contents K) : Prop :=
  maxDiskCacheSize > 0 ∧ total (counted date contents) > maxDiskCacheSize

instance (maxDiskCacheSize : Nat) : Decidable (Overfull maxDiskCacheSize date contents) :=
  inferInstanceAs (Decidable (_ ∧ _))

-- A sorting keeps the files and goes from the oldest access on, where all are dated.
structure Sorts (sort : List (K × ResourceValues) → List (K × ResourceValues)) : Prop where
  perm : ∀ files, (sort files).Perm files
  ordered : ∀ files, (∀ file ∈ files, file.2.contentAccessDate.isSome) → (sort files).Pairwise fun old new =>
    ∀ d ∈ old.2.contentAccessDate, ∀ e ∈ new.2.contentAccessDate, d ≤ e

def byAccess (files : List (K × ResourceValues)) : List (K × ResourceValues) :=
  files.insertionSort fun old new => old.2.contentAccessDate.getD 0 ≤ new.2.contentAccessDate.getD 0

theorem byAccess_sorts : Sorts (K := K) byAccess := by
  refine ⟨fun files => List.perm_insertionSort _ files,fun files dated => ?_⟩
  have total : Std.Total fun old new : K × ResourceValues =>
    old.2.contentAccessDate.getD 0 ≤ new.2.contentAccessDate.getD 0 := ⟨fun _ _ => le_total _ _⟩
  have trans : IsTrans (K × ResourceValues) fun old new =>
    old.2.contentAccessDate.getD 0 ≤ new.2.contentAccessDate.getD 0 := ⟨fun _ _ _ => le_trans⟩
  refine (List.pairwise_insertionSort _ files).imp fun ordered d first e later => ?_
  simpa [Option.mem_def.mp first,Option.mem_def.mp later] using ordered

structure Cut (limit : Nat) (date : Option Int) (contents : Contents K)
    (sorted evicted kept : List (K × ResourceValues)) : Prop where
  parts : sorted = evicted ++ kept
  within : ¬ Overfull limit date contents → evicted = []
  below : Overfull limit date contents → total kept < limit / 2 ∨ kept = []
  reached : Overfull limit date contents →
    ∀ before file after, evicted = before ++ file :: after → limit / 2 ≤ total (file :: after ++ kept)

variable {sort : List (K × ResourceValues) → List (K × ResourceValues)} {period now : Int} {limit : Nat}

theorem clean_cut (sorts : Sorts sort) (period now : Int) (limit : Nat) (contents : Contents K) :
    if 2 ^ 64 ≤ total (counted (expiredDate period now) contents) then
      cleanExpiredDiskCache sort period limit now contents = none
    else ∃ evicted kept, cleanExpiredDiskCache sort period limit now contents =
        some (expiredFiles (expiredDate period now) contents ++ evicted.map Prod.fst) ∧
      Cut limit (expiredDate period now) contents (sort (counted (expiredDate period now) contents))
        evicted kept := by
  rw [cleanExpiredDiskCache,travel_exact]
  split
  · rw [if_neg (by omega)]
    rfl
  rw [if_pos (by omega)]
  simp only [Option.bind_eq_bind,Option.bind_some]
  by_cases exceeds : Overfull limit (expiredDate period now) contents
  · have same := total_perm (sorts.perm (counted (expiredDate period now) contents))
    have enough : limit / 2 ≤ total (sort (counted (expiredDate period now) contents)) := by
      have := exceeds.2
      omega
    obtain ⟨evicted,kept,parts,done,below,reached⟩ := evict_cut enough
    refine ⟨evicted,kept,?_,parts,absurd exceeds,fun _ => below,fun _ => reached⟩
    rw [if_pos ⟨exceeds.1,exceeds.2⟩,← same,done]
    rfl
  · refine ⟨[],_,?_,rfl,fun _ => rfl,fun yes => absurd yes exceeds,fun yes => absurd yes exceeds⟩
    rw [if_neg fun both => exceeds ⟨both.1,both.2⟩]
    simp

theorem Cut.evicts {sorted evicted kept : List (K × ResourceValues)}
    (cut : Cut limit date contents sorted evicted kept) (distinct : sorted.Nodup) :
    file ∈ evicted ↔ Overfull limit date contents ∧
      ∃ before after, sorted = before ++ file :: after ∧ limit / 2 ≤ total (file :: after) := by
  constructor
  · intro member
    have exceeds : Overfull limit date contents := by
      by_contra fits
      rw [cut.within fits] at member
      cases member
    obtain ⟨before,after,split⟩ := List.append_of_mem member
    refine ⟨exceeds,before,after ++ kept,?_,cut.reached exceeds before file after split⟩
    rw [cut.parts,split,List.append_assoc]
    rfl
  · intro both
    obtain ⟨exceeds,before,after,split,reached⟩ := both
    have member : file ∈ evicted ++ kept := by rw [← cut.parts,split]; simp
    rcases List.mem_append.mp member with first | later
    · exact first
    -- A file that is kept is below half the limit together with those after it.
    · obtain ⟨front,rest,rfl⟩ := List.append_of_mem later
      have once : file ∉ before ∧ file ∉ after := by
        rw [split] at distinct
        simpa using (List.nodup_cons.mp (List.nodup_middle.mp distinct)).1
      have same : before ++ file :: after = (evicted ++ front) ++ file :: rest := by
        rw [← split,cut.parts,List.append_assoc]
      obtain ⟨_,_,rfl⟩ := (List.append_cons_inj_of_notMem once.1 once.2).mp same
      have small := cut.below exceeds
      simp only [total_append,total_cons,reduceCtorEq,List.append_eq_nil_iff,and_false,or_false] at small reached
      omega

def shelf : Contents Nat := [(4,some ⟨some false,some 700000,some 30⟩),(1,some ⟨some false,some 100,some 40⟩),
  (6,none),(3,some ⟨some false,some 600000,some 50⟩),(5,some ⟨some true,some 100,none⟩),
  (2,some ⟨some false,some 500000,some 60⟩)]

theorem one_file (names : (contents.map Prod.fst).Nodup) {url : K} {values other : ResourceValues}
    (listed : (url,some values) ∈ contents) (also : (url,some other) ∈ contents) : other = values := by
  simpa using List.inj_on_of_nodup_map names also listed rfl

theorem Cut.named {evicted kept : List (K × ResourceValues)} (sorts : Sorts sort)
    (names : (contents.map Prod.fst).Nodup)
    (cut : Cut limit date contents (sort (counted date contents)) evicted kept)
    (member : file ∈ counted date contents) :
    file.1 ∈ expiredFiles date contents ++ evicted.map Prod.fst ↔ file ∈ evicted := by
  constructor
  · intro named
    rcases List.mem_append.mp named with expired | taken
    · obtain ⟨_,also,_,old⟩ := mem_expired.mp expired
      obtain ⟨listed,_,fresh,_⟩ := mem_counted.mp member
      cases one_file names listed also
      cases old.symm.trans fresh
    · obtain ⟨other,inside,same⟩ := List.mem_map.mp taken
      have counts : other ∈ counted date contents :=
        (sorts.perm _).mem_iff.mp (cut.parts ▸ List.mem_append_left kept inside)
      exact List.inj_on_of_nodup_map (counted_names names) counts member same ▸ inside
  · intro inside
    exact List.mem_append_right _ (List.mem_map_of_mem inside)

theorem clean_exact (sorts : Sorts sort) (names : (contents.map Prod.fst).Nodup) (period now : Int) (limit : Nat) :
    (cleanExpiredDiskCache sort period limit now contents = none ↔
      2 ^ 64 ≤ total (counted (expiredDate period now) contents)) ∧
    ∀ urls, cleanExpiredDiskCache sort period limit now contents = some urls →
      (∀ url, url ∈ urls ↔ ∃ values, (url,some values) ∈ contents ∧ values.isDirectory ≠ some true ∧
        (values.expired (expiredDate period now) = true ∨ Overfull limit (expiredDate period now) contents ∧
          ∃ before after, sort (counted (expiredDate period now) contents) = before ++ (url,values) :: after ∧
            limit / 2 ≤ total ((url,values) :: after))) ∧
      ((∀ file ∈ counted (expiredDate period now) contents, file.2.contentAccessDate.isSome) →
        ∀ old ∈ counted (expiredDate period now) contents, old.1 ∈ urls →
        ∀ new ∈ counted (expiredDate period now) contents, new.1 ∉ urls →
        ∀ d ∈ old.2.contentAccessDate, ∀ e ∈ new.2.contentAccessDate, d ≤ e) := by
  have cut := clean_cut sorts period now limit contents
  split at cut
  next big => exact ⟨iff_of_true cut big,fun urls cleaned => by cases cut.symm.trans cleaned⟩
  next small =>
    obtain ⟨evicted,kept,done,cut⟩ := cut
    refine ⟨iff_of_false (by simp [done]) small,fun urls cleaned => ?_⟩
    cases done.symm.trans cleaned
    have distinct : (sort (counted (expiredDate period now) contents)).Nodup :=
      (sorts.perm _).nodup_iff.mpr (counted_names names).of_map
    constructor
    · intro url
      constructor
      · intro taken
        rcases List.mem_append.mp taken with expired | taken
        · obtain ⟨values,listed,file,old⟩ := mem_expired.mp expired
          exact ⟨values,listed,file,.inl old⟩
        · obtain ⟨f,member,rfl⟩ := List.mem_map.mp taken
          have counts := (sorts.perm _).mem_iff.mp (cut.parts ▸ List.mem_append_left kept member)
          obtain ⟨listed,file,_⟩ := mem_counted.mp counts
          exact ⟨f.2,listed,file,.inr ((cut.evicts distinct).mp member)⟩
      · intro taken
        obtain ⟨values,listed,file,expired | reached⟩ := taken
        · exact List.mem_append_left _ (mem_expired.mpr ⟨values,listed,file,expired⟩)
        · exact List.mem_append_right _ (List.mem_map_of_mem ((cut.evicts distinct).mpr reached))
    · intro dated old first taken new later left
      have ordered := sorts.ordered _ dated
      rw [cut.parts] at ordered
      have inside : new ∈ evicted ++ kept := cut.parts ▸ (sorts.perm _).mem_iff.mpr later
      rw [cut.named sorts names first] at taken
      rw [cut.named sorts names later] at left
      exact (List.pairwise_append.mp ordered).2.2 old taken new ((List.mem_append.mp inside).resolve_left left)

theorem clean_exact_shelf : cleanExpiredDiskCache byAccess 604800 100 1000000 shelf = some [1,2,3] ∧
    ∀ old ∈ counted (some 395200) shelf, old.1 ∈ [1,2,3] → ∀ new ∈ counted (some 395200) shelf, new.1 ∉ [1,2,3] →
      ∀ d ∈ old.2.contentAccessDate, ∀ e ∈ new.2.contentAccessDate, d ≤ e := by
  have cleaned : cleanExpiredDiskCache byAccess 604800 100 1000000 shelf = some [1,2,3] := by decide
  exact ⟨cleaned,((clean_exact byAccess_sorts (by decide) 604800 1000000 100).2 _ cleaned).2 (by decide)⟩

section

variable [DecidableEq K] {removeItem : K → Bool} {urls : List K}

def left (removeItem : K → Bool) (urls : List K) (contents : Contents K) : Contents K :=
  contents.filter fun file => !(urls.contains file.1 && removeItem file.1)

theorem mem_left (removed : ∀ url ∈ urls, removeItem url = true) {listed : K × Option ResourceValues} :
    listed ∈ left removeItem urls contents ↔ listed ∈ contents ∧ listed.1 ∉ urls := by
  rw [left,List.mem_filter]
  refine and_congr_right fun _ => ?_
  cases removes : removeItem listed.1 with
  | true => simp
  | false => simpa using fun taken => absurd (removed _ taken) (by simp [removes])

theorem left_names (names : (contents.map Prod.fst).Nodup) : ((left removeItem urls contents).map Prod.fst).Nodup :=
  names.sublist (List.filter_sublist.map Prod.fst)

theorem left_kept (sorts : Sorts sort) (names : (contents.map Prod.fst).Nodup)
    {evicted kept : List (K × ResourceValues)}
    (cut : Cut limit date contents (sort (counted date contents)) evicted kept)
    (removed : ∀ url ∈ expiredFiles date contents ++ evicted.map Prod.fst, removeItem url = true) :
    (counted date (left removeItem (expiredFiles date contents ++ evicted.map Prod.fst) contents)).Perm kept := by
  have distinct : (evicted ++ kept).Nodup := by
    rw [← cut.parts]
    exact (sorts.perm _).nodup_iff.mpr (counted_names names).of_map
  refine (List.perm_ext_iff_of_nodup (counted_names (left_names names)).of_map
    (List.nodup_append.mp distinct).2.1).mpr fun f => ?_
  have either : f ∈ counted date contents ↔ f ∈ evicted ∨ f ∈ kept := by
    rw [← List.mem_append,← cut.parts]
    exact (sorts.perm _).mem_iff.symm
  rw [mem_counted,mem_left removed]
  constructor
  · intro all
    obtain ⟨⟨listed,stays⟩,rest⟩ := all
    have counts := mem_counted.mpr ⟨listed,rest⟩
    rw [cut.named sorts names counts] at stays
    exact (either.mp counts).resolve_left stays
  · intro keeps
    have counts := either.mpr (.inr keeps)
    obtain ⟨listed,rest⟩ := mem_counted.mp counts
    refine ⟨⟨listed,?_⟩,rest⟩
    rw [cut.named sorts names counts]
    exact fun taken => (List.nodup_append.mp distinct).2.2 f taken f keeps rfl

theorem left_fresh (removed : ∀ url ∈ urls, removeItem url = true)
    (expired : ∀ url ∈ expiredFiles date contents, url ∈ urls) :
    expiredFiles date (left removeItem urls contents) = [] := by
  refine List.eq_nil_iff_forall_not_mem.mpr fun url member => ?_
  obtain ⟨values,listed,old⟩ := mem_expired.mp member
  obtain ⟨listed,stays⟩ := (mem_left removed).mp listed
  exact stays (expired url (mem_expired.mpr ⟨values,listed,old⟩))

omit [DecidableEq K] in
theorem counted_fresh (fresh : expiredFiles date contents = []) : counted none contents = counted date contents := by
  refine List.filterMap_congr fun file listed => ?_
  obtain ⟨url,_ | values⟩ := file
  · rfl
  have young : values.isDirectory ≠ some true → values.expired date = false := by
    intro isFile
    by_contra old
    have member := mem_expired.mpr ⟨values,listed,isFile,by simpa using old⟩
    rw [fresh] at member
    cases member
  have never : values.expired none = false := rfl
  by_cases directory : values.isDirectory = some true
  · simp [Option.filter,directory]
  · simp [Option.filter,directory,young directory,never]

variable {V U I : Type} [DecidableEq V] [DecidableEq U]

def State.clean (removeItem : K → Bool) (urls : List K) (s : State V U K I) : State V U K I :=
  {s with disk := fun file => if file ∈ urls ∧ removeItem file = true then none else s.disk file}

theorem clean_runs (name : U → K) (s : State V U K I) (removeItem : K → Bool) (urls : List K) :
    run name s ((urls.filter removeItem).map .expire) = some (s.clean removeItem urls) := by
  induction urls generalizing s with
  | nil => simp [run,Runs.run,State.clean]
  | cons url urls ih =>
      rw [List.filter_cons]
      split
      next removes =>
        refine (ih _).trans (congrArg some ?_)
        simp only [State.clean,State.mk.injEq,true_and,and_true]
        funext file
        by_cases same : file = url
        · simp [same,removes]
        · simp [same]
      next stays =>
        refine (ih s).trans (congrArg some ?_)
        simp only [State.clean,State.mk.injEq,true_and,and_true]
        funext file
        by_cases same : file = url
        · simp [same,stays]
        · simp [same]

theorem clean_settles {other : List (K × ResourceValues) → List (K × ResourceValues)} (sorts : Sorts sort)
    (again : Sorts other) (names : (contents.map Prod.fst).Nodup)
    (cleaned : cleanExpiredDiskCache sort period limit now contents = some urls)
    (removed : ∀ url ∈ urls, removeItem url = true) :
    (∃ size, calculateDiskCacheSize (left removeItem urls contents) = some size ∧ (limit > 0 → size ≤ limit) ∧
      (Overfull limit (expiredDate period now) contents → size < limit / 2 ∨ size = 0)) ∧
    cleanExpiredDiskCache other period limit now (left removeItem urls contents) = some [] ∧
    ∀ (name : U → K) (s : State V U K I), run name s (urls.map .expire) = some (s.clean removeItem urls) := by
  have cut := clean_cut sorts period now limit contents
  split at cut
  next => cases cut.symm.trans cleaned
  next small =>
    obtain ⟨evicted,kept,done,cut⟩ := cut
    cases done.symm.trans cleaned
    have fresh := left_fresh removed fun url expired => List.mem_append_left _ expired
    have size := total_perm (left_kept sorts names cut removed)
    have whole : total (evicted ++ kept) = total (counted (expiredDate period now) contents) := by
      rw [← cut.parts]
      exact total_perm (sorts.perm _)
    rw [total_append] at whole
    have below : Overfull limit (expiredDate period now) contents → total kept < limit / 2 ∨ total kept = 0 := by
      intro exceeds
      rcases cut.below exceeds with less | none
      · exact .inl less
      · exact .inr (none ▸ rfl)
    have within : limit > 0 → total kept ≤ limit := by
      intro positive
      by_cases exceeds : Overfull limit (expiredDate period now) contents
      · have := below exceeds
        omega
      · have := Nat.le_of_not_lt fun more => exceeds ⟨positive,more⟩
        omega
    refine ⟨⟨total kept,?_,within,below⟩,?_,fun name s => ?_⟩
    · rw [calculate_size,counted_fresh fresh,size,if_pos (by omega)]
    · have next := clean_cut again period now limit (left removeItem
        (expiredFiles (expiredDate period now) contents ++ evicted.map Prod.fst) contents)
      rw [size,if_neg (by omega)] at next
      obtain ⟨none,_,clean,nothing⟩ := next
      rw [clean,fresh,nothing.within fun exceeds => ?_]
      · rfl
      · have := within exceeds.1
        have := exceeds.2
        omega
    · rw [← clean_runs,List.filter_eq_self.mpr removed]

theorem clean_settles_shelf : calculateDiskCacheSize shelf = some 180 ∧
    (∃ size, calculateDiskCacheSize (left (fun _ => true) [1,2,3] shelf) = some size ∧ size ≤ 100) ∧
    cleanExpiredDiskCache byAccess 604800 100 1000000 (left (fun _ => true) [1,2,3] shelf) = some [] := by
  have cleaned : cleanExpiredDiskCache byAccess 604800 100 1000000 shelf = some [1,2,3] := by decide
  let removeItem : Nat → Bool := fun _ => true
  have removed : ∀ url ∈ [1,2,3], removeItem url = true := fun _ _ => rfl
  obtain ⟨⟨size,read,within,_⟩,clean,_⟩ := clean_settles (V := Nat) (U := Nat) (I := Nat) byAccess_sorts
    byAccess_sorts (by decide) cleaned removed
  exact ⟨by decide,⟨size,read,within (by decide)⟩,clean⟩

end

end

end Kingfisher
