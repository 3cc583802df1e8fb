import BallyDongle.DongleKeyStore

/-!
# Key derivation against the standards

The hash follows its input octet by octet: after each one the state is the chain over the
whole blocks so far and the buffer starts with what is left (`Absorbed`), so a digest does
not depend on how a message was cut into updates. HMAC and PBKDF2 follow from that.
-/

namespace BallyDongle.DongleKeyStore

open Btp Fips180

/-! ## Words -/

theorem rotateRight_eq (value : UInt32) {n : Nat} (hpos : 0 < n) (hlt : n < 32) :
    rotateRight value (UInt32.ofNat n) = rotr n value := by
  apply UInt32.eq_of_toBitVec_eq
  have hn : (UInt32.ofNat n).toBitVec.toNat = n := by
    simp
    omega
  have hsub : (4294967296 - n) % 32 = 32 - n := by omega
  simp [rotateRight, rotr, BitVec.rotateRight_def, BitVec.shiftLeft_eq', BitVec.ushiftRight_eq', hn,
    Nat.mod_eq_of_lt hlt, hsub]

theorem join_eq (b0 b1 b2 b3 : UInt8) :
    b0.toUInt32 <<< 24 ||| b1.toUInt32 <<< 16 ||| b2.toUInt32 <<< 8 ||| b3.toUInt32 =
      ⟨b0.toBitVec ++ b1.toBitVec ++ b2.toBitVec ++ b3.toBitVec⟩ := by
  apply UInt32.eq_of_toBitVec_eq
  ext i hi
  simp
  grind

theorem octets_eq (word : UInt32) :
    [(word >>> 24).toUInt8, (word >>> 16).toUInt8, (word >>> 8).toUInt8, word.toUInt8] =
      bigEndian 4 word.toBitVec := by
  simp [bigEndian, List.range_succ]
  refine ⟨?_, ?_, ?_, ?_⟩ <;>
  · apply UInt8.eq_of_toBitVec_eq
    ext i hi
    simp

theorem kShaRoundConstants_eq : kShaRoundConstants = (List.range 64).map k := by decide +kernel

/-! ## One block -/

/-- Slots filled in order, each from the slots before it, hold what each was to hold. -/
theorem foldl_set {α : Type} (f : List α → Nat → α) (g : Nat → α) (zero : α) {start : Nat}
    (hstep : ∀ w i, start ≤ i → (∀ t < i, w.getD t zero = g t) → f w i = g i)
    (n : Nat) {w : List α} (hlength : start + n ≤ w.length)
    (hstart : ∀ t < start, w.getD t zero = g t) :
    let w' := (List.range' start n).foldl (fun w i => w.set i (f w i)) w
    w'.length = w.length ∧ ∀ t < start + n, w'.getD t zero = g t := by
  induction n with
  | zero => exact ⟨rfl, hstart⟩
  | succ n ih =>
    obtain ⟨hsame, hfilled⟩ := ih (by omega)
    rw [List.range'_1_concat, List.foldl_append, List.foldl_cons, List.foldl_nil]
    refine ⟨by rw [List.length_set, hsame], fun t ht => ?_⟩
    rcases Nat.lt_or_eq_of_le (show t ≤ start + n by omega) with hlt | rfl
    · rw [List.getD_eq_getElem?_getD, List.getElem?_set_ne (by omega),
        ← List.getD_eq_getElem?_getD, hfilled t hlt]
    · rw [List.getD_eq_getElem?_getD, List.getElem?_set_self (by omega), Option.getD_some,
        hstep _ _ (by omega) hfilled]

theorem loadWords_spec (block : Bytes) :
    (loadWords block).length = 64 ∧ ∀ t < 16, (loadWords block).getD t 0 = word block t := by
  obtain ⟨hlength, hword⟩ := @foldl_set _ (fun _ i => word block i) (word block) 0 0
    (fun _ _ _ _ => rfl) 16 (List.replicate 64 0) (by simp) (by simp)
  have hload : loadWords block =
      (List.range' 0 16).foldl (fun w i => w.set i (word block i)) (List.replicate 64 0) := by
    rw [loadWords, List.range_eq_range']
    simp only [join_eq, Nat.mul_comm _ 4]
    rfl
  rw [hload]
  exact ⟨hlength.trans (by simp), fun t ht => hword t (by omega)⟩

theorem sigma0_eq (x : UInt32) : rotateRight x 7 ^^^ rotateRight x 18 ^^^ x >>> 3 = sigma0 x := by
  rw [sigma0, ← rotateRight_eq x (n := 7) (by omega) (by omega),
    ← rotateRight_eq x (n := 18) (by omega) (by omega)]
  rfl

theorem sigma1_eq (x : UInt32) : rotateRight x 17 ^^^ rotateRight x 19 ^^^ x >>> 10 = sigma1 x := by
  rw [sigma1, ← rotateRight_eq x (n := 17) (by omega) (by omega),
    ← rotateRight_eq x (n := 19) (by omega) (by omega)]
  rfl

theorem bigSigma0_eq (x : UInt32) :
    rotateRight x 2 ^^^ rotateRight x 13 ^^^ rotateRight x 22 = bigSigma0 x := by
  rw [bigSigma0, ← rotateRight_eq x (n := 2) (by omega) (by omega),
    ← rotateRight_eq x (n := 13) (by omega) (by omega),
    ← rotateRight_eq x (n := 22) (by omega) (by omega)]
  rfl

theorem bigSigma1_eq (x : UInt32) :
    rotateRight x 6 ^^^ rotateRight x 11 ^^^ rotateRight x 25 = bigSigma1 x := by
  rw [bigSigma1, ← rotateRight_eq x (n := 6) (by omega) (by omega),
    ← rotateRight_eq x (n := 11) (by omega) (by omega),
    ← rotateRight_eq x (n := 25) (by omega) (by omega)]
  rfl

theorem extendWords_spec (block : Bytes) {t : Nat} (ht : t < 64) :
    (extendWords (loadWords block)).getD t 0 = schedule block t := by
  obtain ⟨hlength, hload⟩ := loadWords_spec block
  obtain ⟨-, hword⟩ := @foldl_set _
    (fun w i => w.getD (i - 16) 0 + sigma0 (w.getD (i - 15) 0) + w.getD (i - 7) 0 +
      sigma1 (w.getD (i - 2) 0))
    (schedule block) 0 16
    (by
      intro w i hi hw
      rw [hw _ (by omega), hw _ (by omega), hw _ (by omega), hw _ (by omega), schedule.eq_1 block i,
        if_neg (by omega)]
      ac_rfl)
    48 (w := loadWords block) (by omega)
    (by
      intro t ht
      rw [hload t ht, schedule, if_pos ht])
  rw [← hword t (by omega)]
  simp only [extendWords, sigma0_eq, sigma1_eq]

theorem compressRound_eq (block : Bytes) (v : Words) {i : Nat} (hi : i < 64) :
    compressRound (extendWords (loadWords block)) v i = round block v i := by
  have hk : kShaRoundConstants.getD i 0 = k i := by
    rw [kShaRoundConstants_eq, List.getD_eq_getElem?_getD, List.getElem?_map, List.getElem?_range hi]
    rfl
  rw [compressRound, Fips180.round]
  simp only [bigSigma0_eq, bigSigma1_eq, extendWords_spec block hi, hk]
  rfl

theorem words_sha256Compress (sha : Sha256) :
    (sha256Compress sha).words = compress sha.words sha.block := by
  have hrounds : ∀ v,
      (List.range 64).foldl (compressRound (extendWords (loadWords sha.block))) v =
        (List.range 64).foldl (round sha.block) v := by
    intro v
    refine List.foldl_ext _ _ _ fun v i hi => compressRound_eq _ _ (List.mem_range.mp hi)
  rw [compress, ← hrounds]
  simp only [Sha256.words, sha256Compress, Words.add, UInt32.add_comm]
  rfl

/-! ## Updates -/

/-- The octets of `message` have gone in: whole blocks into the state, the rest into the buffer. -/
structure Absorbed (sha : Sha256) (message : Bytes) : Prop where
  length : sha.block.length = 64
  pending : sha.pending = message.length % 64
  buffered : sha.block.take sha.pending = message.drop (64 * (message.length / 64))
  words : sha.words = chain message (message.length / 64)

theorem absorbed_start : Absorbed {} [] where
  length := by decide
  pending := rfl
  buffered := rfl
  words := by decide +kernel

section pushOctet

variable {sha : Sha256} {message : Bytes}

theorem take_set_succ {α : Type} {l : List α} {n : Nat} (h : n < l.length) (x : α) :
    (l.set n x).take (n + 1) = l.take n ++ [x] := by
  rw [List.take_add_one, List.take_set_of_le (Nat.le_refl n), List.getElem?_set_self h]
  rfl

theorem absorbed_pushOctet (h : Absorbed sha message) (octet : UInt8) :
    Absorbed (pushOctet sha octet) (message ++ [octet]) := by
  obtain ⟨hlength, hpending, hbuffered, hwords⟩ := h
  have hlt : sha.pending < sha.block.length := by omega
  have hnew : (message ++ [octet]).length = message.length + 1 := by simp
  have htake : (sha.block.set sha.pending octet).take (sha.pending + 1) =
      (message ++ [octet]).drop (64 * (message.length / 64)) := by
    rw [take_set_succ hlt, hbuffered, List.drop_append_of_le_length (by omega)]
  have hchain : chain (message ++ [octet]) (message.length / 64) = sha.words := by
    rw [chain_append (by omega), hwords]
  have hset : (sha.block.set sha.pending octet).length = 64 := by rw [List.length_set, hlength]
  rw [pushOctet]
  split
  case isTrue hfull =>
    replace hfull : sha.pending + 1 = 64 := hfull
    have hdiv : (message ++ [octet]).length / 64 = message.length / 64 + 1 := by omega
    have hwhole : (sha.block.set sha.pending octet).take 64 = sha.block.set sha.pending octet :=
      List.take_of_length_le (by omega)
    have hblock : block (message ++ [octet]) (message.length / 64) =
        sha.block.set sha.pending octet := by
      rw [block, ← htake, hfull, hwhole, hwhole]
    refine ⟨hset, ?_, ?_, ?_⟩
    · show 0 = _
      omega
    · show [] = _
      rw [List.drop_of_length_le (by omega)]
    · rw [hdiv, chain, hchain, ← hblock]
      exact words_sha256Compress _
  case isFalse hroom =>
    replace hroom : sha.pending + 1 ≠ 64 := hroom
    have hdiv : (message ++ [octet]).length / 64 = message.length / 64 := by omega
    refine ⟨hset, ?_, ?_, ?_⟩
    · show sha.pending + 1 = _
      omega
    · rw [hdiv]
      exact htake
    · rw [hdiv, hchain]
      rfl

theorem absorbed_foldl (h : Absorbed sha message) (data : Bytes) :
    Absorbed (data.foldl pushOctet sha) (message ++ data) := by
  induction data generalizing sha message with
  | nil => rwa [List.append_nil]
  | cons octet data ih =>
    rw [List.append_cons]
    exact ih (absorbed_pushOctet h octet)

theorem absorbed_sha256Update (h : Absorbed sha message) (data : Bytes) :
    Absorbed (sha256Update sha data) (message ++ data) := by
  have hcounted : Absorbed { sha with total := sha.total + UInt64.ofNat data.length } message :=
    ⟨h.length, h.pending, h.buffered, h.words⟩
  exact absorbed_foldl hcounted data

theorem total_pushOctet (sha : Sha256) (octet : UInt8) : (pushOctet sha octet).total = sha.total := by
  rw [pushOctet]
  split
  · rfl
  · rfl

theorem total_sha256Update (sha : Sha256) (data : Bytes) :
    (sha256Update sha data).total = sha.total + UInt64.ofNat data.length := by
  have hfold : ∀ sha : Sha256, (data.foldl pushOctet sha).total = sha.total := by
    induction data with
    | nil => exact fun _ => rfl
    | cons octet data ih => exact fun sha => (ih _).trans (total_pushOctet sha octet)
  exact hfold _

/-- However a message is cut into updates, it is absorbed and counted. -/
theorem absorbed_updates (h : Absorbed sha message)
    (htotal : sha.total = UInt64.ofNat message.length) (chunks : List Bytes) :
    let sha' := chunks.foldl sha256Update sha
    Absorbed sha' (message ++ chunks.flatten) ∧
      sha'.total = UInt64.ofNat (message ++ chunks.flatten).length := by
  induction chunks generalizing sha message with
  | nil =>
    rw [List.flatten_nil, List.append_nil]
    exact ⟨h, htotal⟩
  | cons data chunks ih =>
    rw [List.flatten_cons, ← List.append_assoc]
    refine ih (absorbed_sha256Update h data) ?_
    rw [total_sha256Update, htotal, List.length_append, UInt64.ofNat_add]

/-! ## The end of a message -/

theorem absorbed_padZeros {n fuel : Nat} (h : Absorbed sha message)
    (hn : n = (120 - message.length % 64) % 64) (hfuel : n ≤ fuel) :
    Absorbed (padZeros fuel sha) (message ++ List.replicate n 0) := by
  induction n generalizing fuel sha message with
  | zero =>
    have hstop : sha.pending = kShaBlockSize - 8 := by
      rw [h.pending, kShaBlockSize]
      omega
    cases fuel with
    | zero => simpa [padZeros] using h
    | succ fuel => simpa [padZeros, hstop] using h
  | succ n ih =>
    have hgo : sha.pending ≠ kShaBlockSize - 8 := by
      rw [h.pending, kShaBlockSize]
      omega
    cases fuel with
    | zero => omega
    | succ fuel =>
      rw [padZeros, if_pos hgo, List.replicate_succ, List.append_cons]
      exact ih (absorbed_sha256Update h [0])
        (by rw [List.length_append, List.length_singleton]; omega) (by omega)

theorem foldl_set_range (block : Bytes) (f : Nat → UInt8) (start : Nat) {n : Nat}
    (h : start + n ≤ block.length) :
    (List.range n).foldl (fun block i => block.set (start + i) (f i)) block =
      block.take start ++ (List.range n).map f ++ block.drop (start + n) := by
  induction n with
  | zero => simp
  | succ n ih =>
    have hwritten : (block.take start ++ (List.range n).map f).length = start + n := by
      rw [List.length_append, List.length_take, List.length_map, List.length_range]
      omega
    rw [List.range_succ, List.foldl_append, ih (by omega), List.foldl_cons, List.foldl_nil,
      List.set_append_right _ _ (by omega), hwritten, Nat.sub_self, List.drop_eq_getElem_cons (by omega),
      List.set_cons_zero, List.map_append, List.map_singleton, List.append_cons]
    simp [Nat.add_assoc]

theorem putLength_eq {block : Bytes} (h : block.length = 64) (bits : UInt64) :
    putLength block bits = block.take 56 ++ bigEndian 8 bits.toBitVec := by
  have hoctet : ∀ i < 8,
      (bits >>> UInt64.ofNat (56 - 8 * i)).toUInt8 = ⟨bits.toBitVec.extractLsb' (8 * (8 - 1 - i)) 8⟩ := by
    intro i hi
    apply UInt8.eq_of_toBitVec_eq
    ext j hj
    have hshift : (56 - 8 * i) % 64 = 8 * (7 - i) := by omega
    simp [hshift]
  rw [putLength, foldl_set_range _ _ _ (by rw [h]; decide), List.drop_of_length_le (by rw [h]; decide),
    List.append_nil, List.map_congr_left fun i hi => hoctet i (List.mem_range.mp hi), bigEndian]
  rfl

theorem flatMap_state (sha : Sha256) :
    (sha.state.toList.flatMap fun (word : UInt32) =>
      [(word >>> 24).toUInt8, (word >>> 16).toUInt8, (word >>> 8).toUInt8, word.toUInt8]) =
      sha.words.octets := by
  simp only [octets_eq, toList_state]
  rfl

theorem sha256Finish_of_absorbed (h : Absorbed sha message)
    (htotal : sha.total = UInt64.ofNat message.length) :
    sha256Finish sha = Fips180.sha256 message := by
  obtain ⟨hlong, hwhole⟩ := length_pad message
  have hpadded := @absorbed_padZeros _ _ (zeros message.length) kShaBlockSize
    (absorbed_sha256Update h [0x80])
    (by rw [zeros, List.length_append, List.length_singleton]; omega)
    (by rw [zeros, kShaBlockSize]; omega)
  have hbits : bigEndian 8 (sha.total * 8).toBitVec =
      bigEndian 8 (BitVec.ofNat 64 (8 * message.length)) := by
    congr 1
    rw [htotal]
    apply BitVec.eq_of_toNat_eq
    simp
    omega
  rw [sha256Finish]
  generalize padZeros kShaBlockSize (sha256Update sha [0x80]) = padded at hpadded ⊢
  generalize hm : message ++ [0x80] ++ List.replicate (zeros message.length) 0 = before at hpadded
  obtain ⟨hlength, hpending, hbuffered, hwords⟩ := hpadded
  have hbefore : before.length = message.length + 1 + zeros message.length := by
    rw [← hm, List.length_append, List.length_append, List.length_replicate, List.length_singleton]
  have hpad : pad message = before ++ bigEndian 8 (sha.total * 8).toBitVec := by rw [pad, hm, hbits]
  have hblock : putLength padded.block (sha.total * 8) = block (pad message) (before.length / 64) := by
    rw [putLength_eq hlength, block, hpad, List.drop_append_of_le_length (by omega), ← hbuffered,
      hpending, show before.length % 64 = 56 by omega]
    refine (List.take_of_length_le ?_).symm
    rw [List.length_append, List.length_take, length_bigEndian]
    omega
  rw [flatMap_state, words_sha256Compress, Fips180.sha256,
    show (pad message).length / 64 = before.length / 64 + 1 by omega, chain, ← hblock]
  congr 2
  rw [hpad, chain_append (by omega)]
  exact hwords

/-- However a message is cut into updates, its digest is the one of the standard. -/
theorem sha256Finish_updates (chunks : List Bytes) :
    sha256Finish (chunks.foldl sha256Update {}) = Fips180.sha256 chunks.flatten := by
  obtain ⟨habsorbed, htotal⟩ := absorbed_updates absorbed_start rfl chunks
  exact sha256Finish_of_absorbed habsorbed htotal

end pushOctet

/-! ## HMAC and PBKDF2 -/

theorem sha256Finish_update (message : Bytes) :
    sha256Finish (sha256Update {} message) = Fips180.sha256 message := by
  simpa using sha256Finish_updates [message]

theorem hmacSha256_eq (key message : Bytes) :
    hmacSha256 key message = Hmac.hmac Fips180.sha256 kShaBlockSize key message := by
  have hkey : memcpy (List.replicate kShaBlockSize 0)
      (if kShaBlockSize < key.length then sha256Finish (sha256Update {} key) else key) =
        Hmac.blockKey Fips180.sha256 kShaBlockSize key := by
    rw [memcpy, Hmac.blockKey, sha256Finish_update, List.drop_replicate]
  have htwo (first second : Bytes) :
      sha256Finish (sha256Update (sha256Update {} first) second) =
        Fips180.sha256 (first ++ second) := by
    simpa using sha256Finish_updates [first, second]
  rw [hmacSha256, Hmac.hmac]
  simp only [hkey, htwo]

theorem iterate_eq (password first : Bytes) (turns start : Nat) (accumulated : Bytes) :
    let prf := Hmac.hmac Fips180.sha256 kShaBlockSize
    iterate password turns (Pbkdf2.u prf password first start) accumulated =
      (List.range' start turns).foldl
        (fun t j => List.zipWith (· ^^^ ·) t (Pbkdf2.u prf password first (j + 1))) accumulated := by
  intro prf
  induction turns generalizing start accumulated with
  | zero => rfl
  | succ turns ih =>
    rw [iterate, hmacSha256_eq, List.range'_succ, List.foldl_cons]
    exact ih (start + 1) _

/-- The salt, and the number of the first block. -/
theorem blockInput_eq {salt : Bytes} (h : salt.length ≤ 64) :
    (((((memcpy (List.replicate (64 + 4) 0) salt).set salt.length 0).set (salt.length + 1) 0).set
      (salt.length + 2) 0).set (salt.length + 3) 1).take (salt.length + 4) =
        salt ++ bigEndian 4 (BitVec.ofNat 32 1) := by
  obtain ⟨rest, hrest⟩ : ∃ rest, 64 + 4 - salt.length = rest + 4 := ⟨64 - salt.length, by omega⟩
  rw [memcpy, List.drop_replicate, hrest]
  simp [List.replicate_succ, List.take_append]
  rw [List.take_of_length_le (by omega)]
  rfl

theorem pbkdf2HmacSha256_eq {password salt : Bytes} {iterations : UInt32} {outKeySize : Nat}
    (hsalt : salt.length ≤ 64) (hsize : outKeySize ≤ kShaDigestSize) :
    pbkdf2HmacSha256 password salt iterations outKeySize =
      Pbkdf2.pbkdf2 (Hmac.hmac Fips180.sha256 kShaBlockSize) kShaDigestSize password salt
        iterations.toNat outKeySize := by
  rw [pbkdf2HmacSha256, blockInput_eq hsalt, hmacSha256_eq, Pbkdf2.pbkdf2_of_le _ hsize, Pbkdf2.block,
    List.range_eq_range']
  exact congrArg (List.take outKeySize)
    (iterate_eq password (salt ++ bigEndian 4 (BitVec.ofNat 32 1)) (iterations.toNat - 1) 0 _)

theorem deriveKeyL_eq (password : Bytes) :
    deriveKeyL password =
      Pbkdf2.pbkdf2 (Hmac.hmac Fips180.sha256 kShaBlockSize) kShaDigestSize password kSalt
        kIterations.toNat kKeyLength := by
  rw [deriveKeyL, pbkdf2HmacSha256_eq (by decide) (by decide)]

/-- The hash, the MAC and the key derivation are the ones of the standards. -/
theorem key_derivation :
    (∀ chunks : List Bytes, sha256Finish (chunks.foldl sha256Update {}) = Fips180.sha256 chunks.flatten) ∧
      (∀ key message,
        hmacSha256 key message = Hmac.hmac Fips180.sha256 kShaBlockSize key message) ∧
      (∀ password salt iterations outKeySize, salt.length ≤ 64 → 1 ≤ iterations →
        outKeySize ≤ kShaDigestSize →
          pbkdf2HmacSha256 password salt iterations outKeySize =
            Pbkdf2.pbkdf2 (Hmac.hmac Fips180.sha256 kShaBlockSize) kShaDigestSize password salt
              iterations.toNat outKeySize) ∧
      ∀ password,
        deriveKeyL password =
          Pbkdf2.pbkdf2 (Hmac.hmac Fips180.sha256 kShaBlockSize) kShaDigestSize password kSalt
            kIterations.toNat kKeyLength :=
  ⟨sha256Finish_updates, hmacSha256_eq,
    fun _ _ _ _ hsalt _ hsize => pbkdf2HmacSha256_eq hsalt hsize, deriveKeyL_eq⟩

theorem key_derivation_twice :
    pbkdf2HmacSha256 (literal "password") (literal "salt") 2 32 =
      Pbkdf2.pbkdf2 (Hmac.hmac Fips180.sha256 kShaBlockSize) kShaDigestSize (literal "password")
        (literal "salt") 2 32 :=
  key_derivation.2.2.1 _ _ 2 32 (by decide) (by decide) (by decide)

end BallyDongle.DongleKeyStore
