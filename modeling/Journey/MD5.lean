import Mathlib.Algebra.Group.Nat.Defs
import Mathlib.Data.List.FinRange
import Journey.Chaining

namespace Kingfisher

-- The file of an image on the disk is named by the MD5 digest of its key. Int.bytes
-- gives the bytes of a number with the most significant first.
def arrayOfBytes (value totalBytes : Nat) : List UInt8 :=
  (List.range totalBytes).map fun i => UInt8.ofNat (value / 256 ^ (totalBytes - 1 - i))

def prepareLoop (len : Nat) : Nat → Nat → Nat → Nat
  | 0,counter,_ => counter
  | fuel + 1,counter,msgLength =>
    if msgLength % len ≠ len - 8 then prepareLoop len fuel (counter + 1) (msgLength + 1) else counter

def prepare (message : List UInt8) (len : Nat) : List UInt8 :=
  let tmpMessage := message ++ [0x80]
  tmpMessage ++ List.replicate (prepareLoop len len 0 tmpMessage.length) 0

def bytesSequence (chunkSize : Nat) (data : List UInt8) : Nat → Nat → List (List UInt8)
  | 0,_ => []
  | fuel + 1,offset =>
    let result := (data.drop offset).take (min chunkSize (data.length - offset))
    if result.length > 0 then result :: bytesSequence chunkSize data fuel (offset + result.length) else []

def word (d0 d1 d2 d3 : UInt8) : UInt32 :=
  d0.toUInt32 <<< 24 ||| d1.toUInt32 <<< 16 ||| d2.toUInt32 <<< 8 ||| d3.toUInt32

-- An index past the slice traps.
def toUInt32Array : List UInt8 → Option (List UInt32)
  | [] => some []
  | d3 :: d2 :: d1 :: d0 :: rest => (toUInt32Array rest).map (word d0 d1 d2 d3 :: ·)
  | _ => none

def rotateLeft (value bits : UInt32) : UInt32 := ((value <<< bits) &&& 0xFFFFFFFF) ||| (value >>> (32 - bits))

structure Hashes where
  a : UInt32
  b : UInt32
  c : UInt32
  d : UInt32
  deriving DecidableEq, Repr

abbrev Words := Vector UInt32 16

def shifts : Vector UInt32 64 :=
  #v[7,12,17,22,7,12,17,22,7,12,17,22,7,12,17,22,
     5,9,14,20,5,9,14,20,5,9,14,20,5,9,14,20,
     4,11,16,23,4,11,16,23,4,11,16,23,4,11,16,23,
     6,10,15,21,6,10,15,21,6,10,15,21,6,10,15,21]

def sines : Vector UInt32 64 :=
  #v[0xd76aa478,0xe8c7b756,0x242070db,0xc1bdceee,0xf57c0faf,0x4787c62a,0xa8304613,0xfd469501,
     0x698098d8,0x8b44f7af,0xffff5bb1,0x895cd7be,0x6b901122,0xfd987193,0xa679438e,0x49b40821,
     0xf61e2562,0xc040b340,0x265e5a51,0xe9b6c7aa,0xd62f105d,0x02441453,0xd8a1e681,0xe7d3fbc8,
     0x21e1cde6,0xc33707d6,0xf4d50d87,0x455a14ed,0xa9e3e905,0xfcefa3f8,0x676f02d9,0x8d2a4c8a,
     0xfffa3942,0x8771f681,0x6d9d6122,0xfde5380c,0xa4beea44,0x4bdecfa9,0xf6bb4b60,0xbebfbc70,
     0x289b7ec6,0xeaa127fa,0xd4ef3085,0x4881d05,0xd9d4d039,0xe6db99e5,0x1fa27cf8,0xc4ac5665,
     0xf4292244,0x432aff97,0xab9423a7,0xfc93a039,0x655b59c3,0x8f0ccc92,0xffeff47d,0x85845dd1,
     0x6fa87e4f,0xfe2ce6e0,0xa3014314,0x4e0811a1,0xf7537e82,0xbd3af235,0x2ad7d2bb,0xeb86d391]

def hashes : Hashes := ⟨0x67452301,0xefcdab89,0x98badcfe,0x10325476⟩

def mixing (h : Hashes) (j : Nat) : UInt32 × Fin 16 :=
  if j ≤ 15 then ((h.b &&& h.c) ||| (~~~h.b &&& h.d),Fin.ofNat 16 j)
  else if j ≤ 31 then ((h.d &&& h.b) ||| (~~~h.d &&& h.c),Fin.ofNat 16 (5 * j + 1))
  else if j ≤ 47 then (h.b ^^^ h.c ^^^ h.d,Fin.ofNat 16 (3 * j + 5))
  else (h.c ^^^ (h.b ||| ~~~h.d),Fin.ofNat 16 (7 * j))

def round (M : Words) (h : Hashes) (j : Fin 64) : Hashes :=
  let (F,g) := mixing h j
  ⟨h.d,h.b + rotateLeft (h.a + F + sines[j] + M[g]) shifts[j],h.b,h.c⟩

def compress (hh : Hashes) (M : Words) : Hashes :=
  let h := (List.finRange 64).foldl (round M) hh
  ⟨hh.a + h.a,hh.b + h.b,hh.c + h.c,hh.d + h.d⟩

def Words.of (chunk : List UInt8) : Option Words := (toUInt32Array chunk).bind fun words =>
  if size : words.length = 16 then some ⟨words.toArray,by simpa using size⟩ else none

def littleEndian (item : UInt32) : List UInt8 :=
  [(item &&& 0xff).toUInt8,((item >>> 8) &&& 0xff).toUInt8,((item >>> 16) &&& 0xff).toUInt8,
    ((item >>> 24) &&& 0xff).toUInt8]

def Hashes.bytes (hh : Hashes) : List UInt8 := [hh.a,hh.b,hh.c,hh.d].flatMap littleEndian

def blocks (message : List UInt8) : Option (List Words) :=
  if message.length * 8 < 2 ^ 63 then
    let tmpMessage := prepare message 64 ++ (arrayOfBytes (message.length * 8) 8).reverse
    (bytesSequence 64 tmpMessage (tmpMessage.length + 1) 0).mapM Words.of
  else none

def calculate (message : List UInt8) : Option (List UInt8) :=
  (blocks message).map fun Ms => (Ms.foldl compress hashes).bytes

def hex (c : UInt8) : List Char := [Nat.digitChar (c.toNat / 16),Nat.digitChar (c.toNat % 16)]

def utf8 (base : String) : List UInt8 := base.toUTF8.data.toList

def md5 (base : String) : Option String :=
  (calculate (utf8 base)).map fun MD5Data => String.ofList (MD5Data.flatMap hex)

-- No path extension is set.
def cacheFileName (key : String) : Option String := md5 key

-- The padding that the digest is defined with: a one, as few zeros as possible up to
-- the length, and the length in 64 bits, the least significant byte first.
def lengthBytes (message : List UInt8) : List UInt8 := (arrayOfBytes (message.length * 8) 8).reverse

def padded (message : List UInt8) : List UInt8 :=
  message ++ 0x80 :: List.replicate ((119 - message.length % 64) % 64) 0 ++ lengthBytes message

def Words.bytes (M : Words) : List UInt8 := M.toList.flatMap littleEndian

example : md5 "" = some "d41d8cd98f00b204e9800998ecf8427e" := by decide +kernel

section

variable {message other : List UInt8}

theorem prepareLoop_counts {fuel counter msgLength : Nat} (enough : (120 - msgLength % 64) % 64 ≤ fuel) :
    prepareLoop 64 fuel counter msgLength = counter + (120 - msgLength % 64) % 64 := by
  induction fuel generalizing counter msgLength with
  | zero => simp [prepareLoop,Nat.le_zero.mp enough]
  | succ fuel ih =>
      rw [prepareLoop]
      split
      · rename_i more
        rw [ih (by omega)]
        omega
      · rename_i done
        omega

theorem prepare_padded (message : List UInt8) : prepare message 64 ++ lengthBytes message = padded message := by
  have zeros : prepareLoop 64 64 0 (message.length + 1) = (119 - message.length % 64) % 64 := by
    rw [prepareLoop_counts (by omega)]
    omega
  simp [prepare,padded,zeros]

theorem lengthBytes_length (message : List UInt8) : (lengthBytes message).length = 8 := by
  simp [lengthBytes,arrayOfBytes]

theorem padded_length (message : List UInt8) :
    (padded message).length = 64 * ((message.length + 72) / 64) := by
  simp only [padded,List.length_append,List.length_cons,List.length_replicate,lengthBytes_length]
  omega

theorem or_add {high low : Nat} (i : Nat) (small : low < 2 ^ i) : high * 2 ^ i ||| low = high * 2 ^ i + low := by
  rw [← Nat.shiftLeft_eq,Nat.shiftLeft_add_eq_or_of_lt small]

theorem word_toNat (d0 d1 d2 d3 : UInt8) : (word d0 d1 d2 d3).toNat =
    d0.toNat * 2 ^ 24 + (d1.toNat * 2 ^ 16 + (d2.toNat * 2 ^ 8 + d3.toNat)) := by
  have b0 := d0.toNat_lt
  have b1 := d1.toNat_lt
  have b2 := d2.toNat_lt
  have b3 := d3.toNat_lt
  have s8 : UInt32.toNat 8 % 32 = 8 := rfl
  have s16 : UInt32.toNat 16 % 32 = 16 := rfl
  have s24 : UInt32.toNat 24 % 32 = 24 := rfl
  simp only [word,UInt32.toNat_or,UInt32.toNat_shiftLeft,UInt8.toNat_toUInt32,Nat.or_assoc,Nat.shiftLeft_eq,s8,s16,
    s24]
  rw [Nat.mod_eq_of_lt (by omega),Nat.mod_eq_of_lt (by omega),Nat.mod_eq_of_lt (by omega)]
  rw [or_add 8 (by omega),or_add 16 (by omega),or_add 24 (by omega)]

theorem littleEndian_toNat (item : UInt32) : (littleEndian item).map UInt8.toNat =
    [item.toNat % 256,item.toNat / 256 % 256,item.toNat / 65536 % 256,item.toNat / 16777216 % 256] := by
  have mask (n : Nat) : n &&& 255 = n % 256 := Nat.and_two_pow_sub_one_eq_mod n 8
  simp [littleEndian,mask,Nat.shiftRight_eq_div_pow]

theorem littleEndian_word (d0 d1 d2 d3 : UInt8) : littleEndian (word d0 d1 d2 d3) = [d3,d2,d1,d0] := by
  refine List.map_injective_iff.mpr (fun _ _ => UInt8.toNat_inj.mp) ?_
  have b0 := d0.toNat_lt
  have b1 := d1.toNat_lt
  have b2 := d2.toNat_lt
  have b3 := d3.toNat_lt
  rw [littleEndian_toNat,word_toNat]
  simp only [List.map_cons,List.map_nil,List.cons.injEq,and_true]
  omega

theorem toNat_digits (x : UInt32) : x.toNat = x.toNat % 256 + 256 * (x.toNat / 256 % 256) +
    65536 * (x.toNat / 65536 % 256) + 16777216 * (x.toNat / 16777216 % 256) := by
  have small := x.toNat_lt
  omega

theorem littleEndian_inj {x y : UInt32} (same : littleEndian x = littleEndian y) : x = y := by
  have bytes := congrArg (List.map UInt8.toNat) same
  simp only [littleEndian_toNat,List.cons.injEq,and_true] at bytes
  obtain ⟨b0,b1,b2,b3⟩ := bytes
  refine UInt32.toNat_inj.mp ?_
  rw [toNat_digits x,toNat_digits y,b0,b1,b2,b3]

theorem flatMap_littleEndian_inj {xs ys : List UInt32} (same : xs.flatMap littleEndian = ys.flatMap littleEndian) :
    xs = ys := by
  induction xs generalizing ys with
  | nil =>
      cases ys with
      | nil => rfl
      | cons y ys => simp [littleEndian] at same
  | cons x xs ih =>
      cases ys with
      | nil => simp [littleEndian] at same
      | cons y ys =>
          simp only [List.flatMap_cons] at same
          obtain ⟨first,others⟩ := List.append_inj same rfl
          rw [littleEndian_inj first,ih others]

theorem bytesSequence_chunks {data : List UInt8} {fuel offset n : Nat} (size : data.length = offset + 64 * n)
    (enough : n < fuel) :
    (bytesSequence 64 data fuel offset).flatten = data.drop offset ∧
      ∀ chunk ∈ bytesSequence 64 data fuel offset, chunk.length = 64 := by
  induction fuel generalizing offset n with
  | zero => omega
  | succ fuel ih =>
      cases n with
      | zero =>
          have nothing : data.drop offset = [] := List.drop_eq_nil_iff.mpr (by omega)
          simp [bytesSequence,nothing]
      | succ n =>
          have whole : min 64 (data.length - offset) = 64 := by omega
          have full : ((data.drop offset).take 64).length = 64 := by
            rw [List.length_take,List.length_drop,whole]
          have left : data.length = offset + 64 + 64 * n := by omega
          obtain ⟨rest,sizes⟩ := ih left (by omega)
          rw [bytesSequence]
          simp only [whole,full]
          constructor
          · simp only [show 64 > 0 by omega,if_true,List.flatten_cons,rest,← List.drop_drop]
            exact List.take_append_drop 64 _
          · intro chunk member
            rcases List.mem_cons.mp member with rfl | later
            · exact full
            · exact sizes chunk later

theorem toUInt32Array_bytes {chunk : List UInt8} {n : Nat} (size : chunk.length = 4 * n) :
    ∃ words, toUInt32Array chunk = some words ∧ words.length = n ∧ words.flatMap littleEndian = chunk := by
  induction n generalizing chunk with
  | zero =>
      obtain rfl := List.length_eq_zero_iff.mp size
      exact ⟨[],rfl,rfl,rfl⟩
  | succ n ih =>
      match chunk,size with
      | d3 :: d2 :: d1 :: d0 :: rest,size =>
          have left : rest.length = 4 * n := by simpa [Nat.mul_succ] using size
          obtain ⟨words,read,count,same⟩ := ih left
          refine ⟨word d0 d1 d2 d3 :: words,by simp [toUInt32Array,read],by simp [count],?_⟩
          rw [List.flatMap_cons,littleEndian_word,same]
          rfl

theorem words_of {chunk : List UInt8} (size : chunk.length = 64) : ∃ M, Words.of chunk = some M ∧ M.bytes = chunk := by
  obtain ⟨words,read,count,same⟩ := toUInt32Array_bytes (n := 16) size
  exact ⟨⟨words.toArray,by simpa using count⟩,by simp [Words.of,read,count],by simpa [Words.bytes] using same⟩

theorem chunks_words {chunks : List (List UInt8)} (sizes : ∀ chunk ∈ chunks, chunk.length = 64) :
    ∃ Ms, chunks.mapM Words.of = some Ms ∧ Ms.flatMap Words.bytes = chunks.flatten := by
  induction chunks with
  | nil => exact ⟨[],rfl,rfl⟩
  | cons chunk rest ih =>
      obtain ⟨M,read,same⟩ := words_of (sizes chunk List.mem_cons_self)
      obtain ⟨Ms,others,later⟩ := ih fun x member => sizes x (List.mem_cons_of_mem _ member)
      exact ⟨M :: Ms,by simp [List.mapM_cons,read,others],by rw [List.flatMap_cons,same,later,List.flatten_cons]⟩

theorem blocks_padded (short : message.length < 2 ^ 60) :
    ∃ Ms, blocks message = some Ms ∧ Ms.flatMap Words.bytes = padded message := by
  have size : (padded message).length = 0 + 64 * ((message.length + 72) / 64) := by rw [padded_length]; omega
  have enough : (message.length + 72) / 64 < (padded message).length + 1 := by omega
  obtain ⟨cut,sizes⟩ := bytesSequence_chunks size enough
  obtain ⟨Ms,read,same⟩ := chunks_words sizes
  refine ⟨Ms,?_,same.trans cut⟩
  rw [blocks,if_pos (by omega)]
  change (bytesSequence 64 (prepare message 64 ++ lengthBytes message)
    ((prepare message 64 ++ lengthBytes message).length + 1) 0).mapM Words.of = some Ms
  rw [prepare_padded,read]

theorem blocks_long (long : 2 ^ 60 ≤ message.length) : blocks message = none := if_neg (by omega)

theorem words_bytes_length (M : Words) : M.bytes.length = 64 := by
  simp [Words.bytes,List.length_flatMap,littleEndian]

theorem words_length (Ms : List Words) : (Ms.flatMap Words.bytes).length = 64 * Ms.length := by
  simp [List.length_flatMap,words_bytes_length,Nat.mul_comm]

theorem words_inj {Ms Ns : List Words} (same : Ms.flatMap Words.bytes = Ns.flatMap Words.bytes) : Ms = Ns := by
  induction Ms generalizing Ns with
  | nil =>
      cases Ns with
      | nil => rfl
      | cons N Ns =>
          have size := congrArg List.length same
          simp only [List.flatMap_nil,List.flatMap_cons,List.length_nil,List.length_append,words_bytes_length] at size
          omega
  | cons M Ms ih =>
      cases Ns with
      | nil =>
          have size := congrArg List.length same
          simp only [List.flatMap_nil,List.flatMap_cons,List.length_nil,List.length_append,words_bytes_length] at size
          omega
      | cons N Ns =>
          simp only [List.flatMap_cons] at same
          obtain ⟨first,others⟩ := List.append_inj same (by simp only [words_bytes_length])
          rw [Vector.toList_inj.mp (flatMap_littleEndian_inj first),ih others]

theorem bytes_inj {h k : Hashes} (same : h.bytes = k.bytes) : h = k := by
  have items := flatMap_littleEndian_inj same
  simp only [List.cons.injEq,and_true] at items
  obtain ⟨a,b,c,d⟩ := items
  cases h
  cases k
  simp_all

theorem calculate_exact (message digest : List UInt8) : calculate message = some digest ↔
    message.length < 2 ^ 60 ∧ ∃ Ms : List Words, Ms.flatMap Words.bytes = padded message ∧
      digest = (Ms.foldl compress hashes).bytes := by
  rcases Nat.lt_or_ge message.length (2 ^ 60) with short | long
  · obtain ⟨Ms,read,same⟩ := blocks_padded short
    simp only [calculate,read,Option.map_some,Option.some.injEq]
    constructor
    · exact fun isDigest => ⟨short,Ms,same,isDigest.symm⟩
    · intro both
      obtain ⟨_,Ns,others,rfl⟩ := both
      rw [words_inj (same.trans others.symm)]
  · simp only [calculate,blocks_long long,Option.map_none,reduceCtorEq,false_iff]
    exact fun both => absurd both.1 (by omega)

theorem mod_digits {n m k : Nat} (same : ∀ i < k, n / 256 ^ i % 256 = m / 256 ^ i % 256) :
    n % 256 ^ k = m % 256 ^ k := by
  induction k with
  | zero => rw [pow_zero,Nat.mod_one,Nat.mod_one]
  | succ k ih =>
      have lower := ih fun i less => same i (Nat.lt_succ_of_lt less)
      rw [Nat.mod_pow_succ,Nat.mod_pow_succ,lower,same k (Nat.lt_succ_self k)]

theorem arrayOfBytes_inj {n m k : Nat} (same : arrayOfBytes n k = arrayOfBytes m k) : n % 256 ^ k = m % 256 ^ k := by
  refine mod_digits fun i less => ?_
  have place : k - 1 - i < k := by omega
  have byte := congrArg UInt8.toNat (List.map_inj_left.mp same (k - 1 - i) (List.mem_range.mpr place))
  have back : k - 1 - (k - 1 - i) = i := by omega
  simpa only [UInt8.toNat_ofNat',back] using byte

theorem lengthBytes_inj (short : message.length < 2 ^ 60) (least : other.length < 2 ^ 60)
    (same : lengthBytes message = lengthBytes other) : message.length = other.length := by
  have bits := arrayOfBytes_inj (List.reverse_injective same)
  omega

theorem padded_ends (message : List UInt8) :
    (padded message).drop ((padded message).length - 8) = lengthBytes message := by
  have split : padded message = (message ++ 0x80 :: List.replicate ((119 - message.length % 64) % 64) 0) ++
      lengthBytes message := rfl
  rw [split,List.length_append,lengthBytes_length,Nat.add_sub_cancel,List.drop_left]

theorem padded_inj (short : message.length < 2 ^ 60) (least : other.length < 2 ^ 60)
    (same : padded message = padded other) : message = other := by
  have size := lengthBytes_inj short least (by rw [← padded_ends,← padded_ends,same])
  simp only [padded,List.append_assoc] at same
  exact (List.append_inj same size).1

theorem blocks_last {Ms : List Words} (same : Ms.flatMap Words.bytes = padded message) :
    ∃ front M, Ms = front ++ [M] ∧ M.bytes.drop 56 = lengthBytes message ∧
      64 * front.length + 64 = (padded message).length := by
  rcases List.eq_nil_or_concat Ms with rfl | ⟨front,M,rfl⟩
  · have size := congrArg List.length same
    rw [padded_length] at size
    simp at size
    omega
  · rw [List.concat_eq_append] at same ⊢
    have split : (front ++ [M]).flatMap Words.bytes = front.flatMap Words.bytes ++ M.bytes := by simp
    refine ⟨front,M,rfl,?_,?_⟩
    · have size : (front.flatMap Words.bytes ++ M.bytes).length - 8 = (front.flatMap Words.bytes).length + 56 := by
        rw [List.length_append,words_bytes_length]
        omega
      rw [← padded_ends,← same,split,size,List.drop_length_add_append]
    · rw [← same,words_length,List.length_append,List.length_singleton]
      omega

def compressions (message : List UInt8) : List (Hashes × Words) :=
  Chaining.calls compress hashes ((blocks message).getD [])

theorem compressions_blocks {Ms : List Words} (short : message.length < 2 ^ 60)
    (same : Ms.flatMap Words.bytes = padded message) : compressions message = Chaining.calls compress hashes Ms := by
  obtain ⟨Ns,read,again⟩ := blocks_padded short
  rw [compressions,read,words_inj (again.trans same.symm),Option.getD_some]

theorem padded_collides {Ms Ns : List Words} (short : message.length < 2 ^ 60) (least : other.length < 2 ^ 60)
    (first : Ms.flatMap Words.bytes = padded message) (second : Ns.flatMap Words.bytes = padded other)
    (same : Ms.foldl compress hashes = Ns.foldl compress hashes) :
    message = other ∨ Chaining.Collides compress (compressions message) (compressions other) := by
  rw [compressions_blocks short first,compressions_blocks least second]
  obtain ⟨front,M,rfl,ends,size⟩ := blocks_last first
  obtain ⟨others,N,rfl,last,count⟩ := blocks_last second
  have tells : M = N → front.length = others.length := by
    rintro rfl
    have length := lengthBytes_inj short least (ends.symm.trans last)
    rw [padded_length] at size count
    omega
  refine (Chaining.padded_collides tells same).imp_left fun blocks => padded_inj short least ?_
  rw [← first,← second,blocks]

theorem calculate_collides {digest : List UInt8} (first : calculate message = some digest)
    (second : calculate other = some digest) :
    message = other ∨ Chaining.Collides compress (compressions message) (compressions other) := by
  obtain ⟨short,Ms,isPadded,rfl⟩ := (calculate_exact message digest).mp first
  obtain ⟨least,Ns,alsoPadded,same⟩ := (calculate_exact other _).mp second
  exact padded_collides short least isPadded alsoPadded (bytes_inj same)

-- Two messages of two blocks that differ in six bits and have one digest.
def twin (flip : UInt8) : List UInt8 :=
  [0xd1,0x31,0xdd,0x02,0xc5,0xe6,0xee,0xc4,0x69,0x3d,0x9a,0x06,0x98,0xaf,0xf9,0x5c,
   0x2f,0xca,0xb5,0x87 ^^^ flip,0x12,0x46,0x7e,0xab,0x40,0x04,0x58,0x3e,0xb8,0xfb,0x7f,0x89,
   0x55,0xad,0x34,0x06,0x09,0xf4,0xb3,0x02,0x83,0xe4,0x88,0x83,0x25,0x71 ^^^ flip,0x41,0x5a,
   0x08,0x51,0x25,0xe8,0xf7,0xcd,0xc9,0x9f,0xd9,0x1d,0xbd,0xf2 ^^^ flip,0x80,0x37,0x3c,0x5b,
   0xd8,0x82,0x3e,0x31,0x56,0x34,0x8f,0x5b,0xae,0x6d,0xac,0xd4,0x36,0xc9,0x19,0xc6,
   0xdd,0x53,0xe2,0xb4 ^^^ flip,0x87,0xda,0x03,0xfd,0x02,0x39,0x63,0x06,0xd2,0x48,0xcd,0xa0,
   0xe9,0x9f,0x33,0x42,0x0f,0x57,0x7e,0xe8,0xce,0x54,0xb6,0x70,0x80,0xa8 ^^^ flip,0x0d,0x1e,
   0xc6,0x98,0x21,0xbc,0xb6,0xa8,0x83,0x93,0x96,0xf9,0x65,0x2b ^^^ flip,0x6f,0xf7,0x2a,0x70]

theorem calculate_collides_twin : Chaining.Collides compress (compressions (twin 0)) (compressions (twin 0x80)) := by
  have same : calculate (twin 0) = calculate (twin 0x80) := by decide +kernel
  obtain ⟨digest,made⟩ : ∃ digest, calculate (twin 0) = some digest :=
    Option.isSome_iff_exists.mp (by decide +kernel)
  exact (calculate_collides made (same ▸ made)).resolve_left (by decide)

theorem digitChar_inj : ∀ i j : Fin 16, Nat.digitChar i = Nat.digitChar j → i = j := by decide

theorem hex_inj {b c : UInt8} (same : hex b = hex c) : b = c := by
  have small := b.toNat_lt
  have least := c.toNat_lt
  simp only [hex,List.cons.injEq,and_true] at same
  have high := digitChar_inj ⟨b.toNat / 16,by omega⟩ ⟨c.toNat / 16,by omega⟩ same.1
  have low := digitChar_inj ⟨b.toNat % 16,by omega⟩ ⟨c.toNat % 16,by omega⟩ same.2
  simp only [Fin.mk.injEq] at high low
  exact UInt8.toNat_inj.mp (by omega)

theorem flatMap_hex_inj {bs cs : List UInt8} (same : bs.flatMap hex = cs.flatMap hex) : bs = cs := by
  induction bs generalizing cs with
  | nil =>
      cases cs with
      | nil => rfl
      | cons c cs => simp [hex] at same
  | cons b bs ih =>
      cases cs with
      | nil => simp [hex] at same
      | cons c cs =>
          simp only [List.flatMap_cons] at same
          obtain ⟨first,others⟩ := List.append_inj same rfl
          rw [hex_inj first,ih others]

theorem utf8_inj {k l : String} (same : utf8 k = utf8 l) : k = l :=
  String.toByteArray_inj.mp (ByteArray.ext (Array.toList_inj.mp same))

theorem cacheFileName_collides {k l name : String} (first : cacheFileName k = some name)
    (second : cacheFileName l = some name) :
    k = l ∨ Chaining.Collides compress (compressions (utf8 k)) (compressions (utf8 l)) := by
  obtain ⟨digest,made,rfl⟩ := Option.map_eq_some_iff.mp first
  obtain ⟨other,too,same⟩ := Option.map_eq_some_iff.mp second
  obtain rfl := flatMap_hex_inj (String.ofList_injective same)
  obtain ⟨short,Ms,isPadded,rfl⟩ := (calculate_exact (utf8 k) other).mp made
  obtain ⟨least,Ns,alsoPadded,chained⟩ := (calculate_exact (utf8 l) _).mp too
  exact (padded_collides short least isPadded alsoPadded (bytes_inj chained)).imp_left utf8_inj

end

end Kingfisher
