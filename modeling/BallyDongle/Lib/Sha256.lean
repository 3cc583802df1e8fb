import Mathlib.Data.Nat.NthRoot.Defs
import Mathlib.Data.Nat.Prime.Basic

/-!
# SHA-256, HMAC and PBKDF2

The standards, on messages of whole octets. `Fips180.sha256` is the hash: the constants
are the leading bits of roots of primes, the schedule is its recurrence, and the hash runs
over the blocks of the padded message. `hmac` is RFC 2104 over any hash function, and
`pbkdf2` RFC 8018 over any pseudorandom function.
-/

/-- The octets of a word, most significant first. -/
def bigEndian {n : Nat} (octets : Nat) (word : BitVec n) : List UInt8 :=
  (List.range octets).map fun i => ⟨word.extractLsb' (8 * (octets - 1 - i)) 8⟩

theorem length_bigEndian {n : Nat} (octets : Nat) (word : BitVec n) :
    (bigEndian octets word).length = octets := by
  rw [bigEndian, List.length_map, List.length_range]

namespace Fips180

/-! ## Functions and constants -/

def rotr (n : Nat) (x : UInt32) : UInt32 := ⟨x.toBitVec.rotateRight n⟩

def ch (x y z : UInt32) : UInt32 := (x &&& y) ^^^ (~~~x &&& z)
def maj (x y z : UInt32) : UInt32 := (x &&& y) ^^^ (x &&& z) ^^^ (y &&& z)
def bigSigma0 (x : UInt32) : UInt32 := rotr 2 x ^^^ rotr 13 x ^^^ rotr 22 x
def bigSigma1 (x : UInt32) : UInt32 := rotr 6 x ^^^ rotr 11 x ^^^ rotr 25 x
def sigma0 (x : UInt32) : UInt32 := rotr 7 x ^^^ rotr 18 x ^^^ x >>> 3
def sigma1 (x : UInt32) : UInt32 := rotr 17 x ^^^ rotr 19 x ^^^ x >>> 10

/-- The first 64 primes. -/
def primes : List Nat := (List.range 312).filter Nat.Prime

/-- The first 32 bits of the fractional part of the `n`th root of `p`. -/
def rootWord (n p : Nat) : UInt32 := UInt32.ofNat (Nat.nthRoot n (p * 2 ^ (32 * n)))

def k (t : Nat) : UInt32 := rootWord 3 (primes.getD t 0)

/-- Eight words: a hash value, or the working variables. -/
structure Words where
  a : UInt32
  b : UInt32
  c : UInt32
  d : UInt32
  e : UInt32
  f : UInt32
  g : UInt32
  h : UInt32
  deriving DecidableEq, Repr

/-- The initial hash value. -/
def initial : Words where
  a := rootWord 2 2
  b := rootWord 2 3
  c := rootWord 2 5
  d := rootWord 2 7
  e := rootWord 2 11
  f := rootWord 2 13
  g := rootWord 2 17
  h := rootWord 2 19

def Words.add (v w : Words) : Words :=
  ⟨v.a + w.a, v.b + w.b, v.c + w.c, v.d + w.d, v.e + w.e, v.f + w.f, v.g + w.g, v.h + w.h⟩

def Words.octets (v : Words) : List UInt8 :=
  [v.a, v.b, v.c, v.d, v.e, v.f, v.g, v.h].flatMap fun word => bigEndian 4 word.toBitVec

/-! ## Padding -/

/-- Zeros up to eight octets before the end of a block. -/
def zeros (length : Nat) : Nat := (119 - length % 64) % 64

/-- The message, a one bit, zeros, and the length in bits. -/
def pad (message : List UInt8) : List UInt8 :=
  message ++ [0x80] ++ List.replicate (zeros message.length) 0 ++
    bigEndian 8 (BitVec.ofNat 64 (8 * message.length))

/-! ## One block -/

/-- Word `t` of a block. -/
def word (block : List UInt8) (t : Nat) : UInt32 :=
  let octet (i : Nat) : BitVec 8 := (block.getD (4 * t + i) 0).toBitVec
  ⟨octet 0 ++ octet 1 ++ octet 2 ++ octet 3⟩

def schedule (block : List UInt8) (t : Nat) : UInt32 :=
  if t < 16 then word block t
  else
    sigma1 (schedule block (t - 2)) + schedule block (t - 7) + sigma0 (schedule block (t - 15)) +
      schedule block (t - 16)

def round (block : List UInt8) (v : Words) (t : Nat) : Words :=
  let t1 := v.h + bigSigma1 v.e + ch v.e v.f v.g + k t + schedule block t
  let t2 := bigSigma0 v.a + maj v.a v.b v.c
  ⟨t1 + t2, v.a, v.b, v.c, v.d + t1, v.e, v.f, v.g⟩

def compress (hash : Words) (block : List UInt8) : Words :=
  ((List.range 64).foldl (round block) hash).add hash

/-! ## The hash -/

/-- Block `i` of some data. -/
def block (data : List UInt8) (i : Nat) : List UInt8 := (data.drop (64 * i)).take 64

/-- The hash value after `n` blocks. -/
def chain (data : List UInt8) : (n : Nat) → Words
  | 0 => initial
  | n + 1 => compress (chain data n) (block data n)

def sha256 (message : List UInt8) : List UInt8 :=
  (chain (pad message) ((pad message).length / 64)).octets

section chain

variable {data : List UInt8}

theorem block_append {i : Nat} (h : 64 * (i + 1) ≤ data.length) (rest : List UInt8) :
    block (data ++ rest) i = block data i := by
  rw [block, block, List.drop_append_of_le_length (by omega), List.take_append_of_le_length]
  rw [List.length_drop]
  omega

/-- Whole blocks are hashed alike whatever follows them. -/
theorem chain_append {n : Nat} (h : 64 * n ≤ data.length) (rest : List UInt8) :
    chain (data ++ rest) n = chain data n := by
  induction n with
  | zero => rfl
  | succ n ih => rw [chain, chain, ih (by omega), block_append h]

/-- A padded message is whole blocks. -/
theorem length_pad (message : List UInt8) :
    (pad message).length = message.length + 1 + zeros message.length + 8 ∧
      (message.length + 1 + zeros message.length + 8) % 64 = 0 := by
  rw [pad, List.length_append, List.length_append, List.length_append, List.length_singleton,
    List.length_replicate, length_bigEndian, zeros]
  exact ⟨rfl, by omega⟩

end chain

end Fips180

/-! ## HMAC -/

namespace Hmac

/-- The key made as long as a block of the hash function. -/
def blockKey (hash : List UInt8 → List UInt8) (blockSize : Nat) (key : List UInt8) : List UInt8 :=
  let key := if blockSize < key.length then hash key else key
  key ++ List.replicate (blockSize - key.length) 0

def hmac (hash : List UInt8 → List UInt8) (blockSize : Nat) (key text : List UInt8) : List UInt8 :=
  let blockKey := blockKey hash blockSize key
  hash (blockKey.map (· ^^^ 0x5C) ++ hash (blockKey.map (· ^^^ 0x36) ++ text))

end Hmac

/-! ## PBKDF2 -/

namespace Pbkdf2

variable (prf : (key text : List UInt8) → List UInt8)

/-- `U_1`, `U_2` and so on, counted from 0. -/
def u (password first : List UInt8) : Nat → List UInt8
  | 0 => prf password first
  | j + 1 => prf password (u password first j)

/-- The exclusive or of `U_1` to `U_c`. -/
def block (password salt : List UInt8) (c i : Nat) : List UInt8 :=
  let first := salt ++ bigEndian 4 (BitVec.ofNat 32 i)
  (List.range (c - 1)).foldl (fun t j => List.zipWith (· ^^^ ·) t (u prf password first (j + 1)))
    (u prf password first 0)

def pbkdf2 (hLen : Nat) (password salt : List UInt8) (c dkLen : Nat) : List UInt8 :=
  ((List.range ((dkLen + hLen - 1) / hLen)).flatMap fun i => block prf password salt c (i + 1)).take
    dkLen

/-- A key no longer than the output of the function is the head of one block. -/
theorem pbkdf2_of_le {hLen dkLen : Nat} (h : dkLen ≤ hLen) (password salt : List UInt8) (c : Nat) :
    pbkdf2 prf hLen password salt c dkLen = (block prf password salt c 1).take dkLen := by
  rw [pbkdf2]
  cases dkLen with
  | zero => rw [List.take_zero, List.take_zero]
  | succ n =>
    have hone : (n + 1 + hLen - 1) / hLen = 1 := by
      rw [Nat.div_eq_iff (by omega)]
      omega
    rw [hone]
    simp

end Pbkdf2
