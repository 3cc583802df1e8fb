import BallyDongle.Lib.Cobs

/-!
# Reading a stream of stuffed blocks

The decoder undoes the encoder. A receiver collects octets up to the next delimiter
and decodes what it collected; two delimiters in a row stand for nothing. It does not
matter how the stream is cut when it arrives, and of a block that has not arrived whole
the receiver has nothing yet.
-/

namespace Cobs

/-- Decode with `left` octets to go before the next code octet, which stands for a zero
octet if there is a `gap`. -/
def decodeWith (left : Nat) (gap : Bool) : List UInt8 → Option (List UInt8)
  | [] => if left = 0 then some [] else none
  | b :: data =>
    if b = 0 then none
    else if left = 0 then
      (decodeWith (b.toNat - 1) (b != 255) data).map ((if gap then [0] else []) ++ ·)
    else (decodeWith (left - 1) gap data).map (b :: ·)

def decode : List UInt8 → Option (List UInt8)
  | [] => none
  | data => decodeWith 0 false data

/-! ## The decoder undoes the encoder -/

theorem decodeWith_append {gap : Bool} {run : List UInt8} (hrun : 0 ∉ run) (data : List UInt8) :
    decodeWith run.length gap (run ++ data) = (decodeWith 0 gap data).map (run ++ ·) := by
  induction run with
  | nil => simp
  | cons b run ih =>
    rw [List.mem_cons, not_or] at hrun
    rw [List.cons_append, decodeWith, if_neg (Ne.symm hrun.1), if_neg (by simp),
      List.length_cons, Nat.add_sub_cancel, ih hrun.2, Option.map_map]
    rfl

theorem toNat_code {n : Nat} (h : n ≤ 254) : (n + 1).toUInt8.toNat = n + 1 := by
  rw [Nat.toUInt8_eq, UInt8.toNat_ofNat']
  omega

/-- A code octet and its piece. -/
theorem decodeWith_piece {gap : Bool} {run : List UInt8} (hlen : run.length ≤ 253) (hrun : 0 ∉ run)
    (data : List UInt8) :
    decodeWith 0 gap ((run.length + 1).toUInt8 :: run ++ data) =
      (decodeWith 0 true data).map (((if gap then [0] else []) ++ run) ++ ·) := by
  have hcode := toNat_code (n := run.length) (by omega)
  have hfull : ((run.length + 1).toUInt8 != 255) = true := by
    rw [bne_iff_ne]
    intro h
    rw [h, show UInt8.toNat 255 = 255 from rfl] at hcode
    omega
  rw [List.cons_append, decodeWith, if_neg (code_ne_zero hlen), if_pos rfl, hcode, hfull,
    Nat.add_sub_cancel, decodeWith_append hrun, Option.map_map]
  congr 1
  funext rest
  simp

/-- A full piece, which no zero octet follows. -/
theorem decodeWith_full {gap : Bool} {run : List UInt8} (hlen : run.length = 254) (hrun : 0 ∉ run)
    (data : List UInt8) :
    decodeWith 0 gap (255 :: run ++ data) =
      (decodeWith 0 false data).map (((if gap then [0] else []) ++ run) ++ ·) := by
  have happend : decodeWith run.length false (run ++ data) = _ := decodeWith_append hrun data
  rw [hlen] at happend
  rw [List.cons_append, decodeWith, if_neg (by decide), if_pos rfl]
  change Option.map _ (decodeWith 254 false (run ++ data)) = _
  rw [happend, Option.map_map]
  congr 1
  funext rest
  simp

theorem decodeWith_encodeFrom {gap : Bool} {run : List UInt8} (hlen : run.length ≤ 253)
    (hrun : 0 ∉ run) (data : List UInt8) :
    decodeWith 0 gap (encodeFrom run data) =
      some ((if gap then [0] else []) ++ run ++ data) := by
  induction data generalizing run gap with
  | nil =>
    have hpiece : decodeWith 0 gap _ = _ := decodeWith_piece hlen hrun []
    rw [List.append_nil] at hpiece
    rw [encodeFrom, hpiece]
    rfl
  | cons b data ih =>
    have hnil : ∀ gap, decodeWith 0 gap (encodeFrom [] data) =
        some ((if gap then [0] else []) ++ [] ++ data) := fun gap => ih (by simp) (by simp)
    rw [encodeFrom]
    split
    · rename_i hb
      rw [decodeWith_piece hlen hrun, hnil true, hb]
      simp
    · rename_i hb
      have hrun' : (0 : UInt8) ∉ run ++ [b] := by simp [hrun, Ne.symm hb]
      split
      · rename_i hfull
        rw [decodeWith_full (by simp [hfull]) hrun', hnil false]
        simp
      · rw [ih (by simp; omega) hrun']
        simp

theorem encodeFrom_ne_nil (run data : List UInt8) : encodeFrom run data ≠ [] := by
  induction data generalizing run with
  | nil => simp [encodeFrom]
  | cons b data ih =>
    rw [encodeFrom]
    split
    · simp
    · split
      · simp
      · exact ih _

theorem decode_of_ne_nil {data : List UInt8} (h : data ≠ []) : decode data = decodeWith 0 false data := by
  cases data with
  | nil => contradiction
  | cons b data => rfl

theorem decode_encode (data : List UInt8) : decode (encode data) = some data := by
  rw [encode, decode_of_ne_nil (encodeFrom_ne_nil [] data),
    decodeWith_encodeFrom (Nat.zero_le _) (by simp)]
  rfl

example : decode [0x03, 0x11, 0x22, 0x02, 0x33] = some [0x11, 0x22, 0x00, 0x33] := by decide

/-! ## A receiver -/

/-- The octets since the last delimiter, and the frames so far. -/
structure Receiver where
  piece : List UInt8 := []
  frames : List (List UInt8) := []
  deriving DecidableEq

namespace Receiver

def take (r : Receiver) (b : UInt8) : Receiver :=
  if b = 0 then { piece := [], frames := r.frames ++ (decode r.piece).toList }
  else { r with piece := r.piece ++ [b] }

def feed (r : Receiver) (octets : List UInt8) : Receiver := octets.foldl take r

variable {r : Receiver} {encoded data : List UInt8}

theorem feed_append (r : Receiver) (a b : List UInt8) : r.feed (a ++ b) = (r.feed a).feed b :=
  List.foldl_append

theorem feed_piece (h : 0 ∉ encoded) : r.feed encoded = { r with piece := r.piece ++ encoded } := by
  induction encoded generalizing r with
  | nil => simp [feed]
  | cons b encoded ih =>
    rw [List.mem_cons, not_or] at h
    have hstep : r.take b = { r with piece := r.piece ++ [b] } := by
      rw [take, if_neg (Ne.symm h.1)]
    change (r.take b).feed encoded = _
    rw [ih h.2, hstep]
    simp

/-- A delimiter behind another. -/
theorem take_zero (hpiece : r.piece = []) : r.take 0 = r := by
  rw [take, if_pos rfl, hpiece]
  simp only [decode, Option.toList_none, List.append_nil]
  rw [← hpiece]

/-- A whole block gives its frame. -/
theorem feed_block (hpiece : r.piece = []) (h : 0 ∉ encoded) (hdecode : decode encoded = some data) :
    r.feed (0 :: encoded ++ [0]) = { piece := [], frames := r.frames ++ [data] } := by
  change (r.take 0).feed (encoded ++ [0]) = _
  rw [take_zero hpiece, feed_append, feed_piece h, hpiece]
  simp [feed, take, hdecode]

/-- Part of a block gives nothing. -/
theorem feed_part (hpiece : r.piece = []) (h : 0 ∉ encoded) {part rest : List UInt8}
    (hsplit : part ++ rest = 0 :: encoded ++ [0]) (hrest : rest ≠ []) :
    (r.feed part).frames = r.frames := by
  cases part with
  | nil => rfl
  | cons b part =>
    rw [List.cons_append, List.cons_append] at hsplit
    obtain ⟨hb, htail⟩ := List.cons.inj hsplit
    subst hb
    have hpart : 0 ∉ part := by
      rcases List.eq_nil_or_concat rest with hnil | ⟨front, last, hconcat⟩
      · exact absurd hnil hrest
      · rw [hconcat, List.concat_eq_append, ← List.append_assoc] at htail
        have hfront : part ++ front = encoded := List.append_inj_left' htail rfl
        exact fun hmem => h (hfront ▸ List.mem_append_left front hmem)
    change ((r.take 0).feed part).frames = _
    rw [take_zero hpiece, feed_piece hpart]

/-- Whole blocks give their frames, in order. -/
theorem feed_blocks {frames : List (List UInt8)} {block : List UInt8 → List UInt8}
    (h : ∀ frame ∈ frames, ∃ encoded, block frame = 0 :: encoded ++ [0] ∧ 0 ∉ encoded ∧
      decode encoded = some frame) (hpiece : r.piece = []) :
    r.feed (frames.flatMap block) = { piece := [], frames := r.frames ++ frames } := by
  induction frames generalizing r with
  | nil =>
    obtain ⟨piece, frames⟩ := r
    subst hpiece
    simp [feed]
  | cons frame frames ih =>
    obtain ⟨encoded, hblock, hzero, hdecode⟩ := h frame (.head _)
    rw [List.flatMap_cons, hblock, feed_append, feed_block hpiece hzero hdecode,
      ih (fun f hf => h f (.tail _ hf)) rfl]
    simp

end Receiver

end Cobs
