import Mathlib.Data.List.Basic

/-!
# Consistent overhead byte stuffing

The reference encoder: the data is cut at its zero octets, and at every 254
octets without one; each piece is sent behind a code octet that says how far
the next one is. The output has no zero octet and is at most one octet in 254,
plus one, longer than its input.
-/

namespace Cobs

/-- Encode `data` behind the piece `run` collected so far. -/
def encodeFrom (run : List UInt8) : (data : List UInt8) → List UInt8
  | [] => (run.length + 1).toUInt8 :: run
  | b :: data =>
    if b = 0 then (run.length + 1).toUInt8 :: run ++ encodeFrom [] data
    else if run.length = 253 then 255 :: (run ++ [b]) ++ encodeFrom [] data
    else encodeFrom (run ++ [b]) data

def encode (data : List UInt8) : List UInt8 := encodeFrom [] data

theorem code_ne_zero {n : Nat} (h : n ≤ 253) : (n + 1).toUInt8 ≠ 0 := by
  intro h0
  have := congrArg UInt8.toNat h0
  rw [Nat.toUInt8_eq, UInt8.toNat_ofNat', show UInt8.toNat 0 = 0 from rfl] at this
  omega

theorem zero_notMem_encodeFrom {run : List UInt8} (hlen : run.length ≤ 253) (hrun : 0 ∉ run)
    (data : List UInt8) : 0 ∉ encodeFrom run data := by
  induction data generalizing run with
  | nil =>
    rw [encodeFrom, List.mem_cons, not_or]
    exact ⟨(code_ne_zero hlen).symm, hrun⟩
  | cons b data ih =>
    have hnil : (0 : UInt8) ∉ encodeFrom [] data := ih (by simp) (by simp)
    rw [encodeFrom]
    split
    · rw [List.cons_append, List.mem_cons, List.mem_append, not_or, not_or]
      exact ⟨(code_ne_zero hlen).symm, hrun, hnil⟩
    · rename_i hb
      have hrun' : (0 : UInt8) ∉ run ++ [b] := by simp [hrun, Ne.symm hb]
      split
      · rw [List.cons_append, List.mem_cons, List.mem_append, not_or, not_or]
        exact ⟨by decide, hrun', hnil⟩
      · exact ih (by simp; omega) hrun'

theorem length_encodeFrom_le {run : List UInt8} (hlen : run.length ≤ 253) (data : List UInt8) :
    (encodeFrom run data).length ≤
      run.length + data.length + (run.length + data.length) / 254 + 1 := by
  induction data generalizing run with
  | nil => simp [encodeFrom]
  | cons b data ih =>
    have hnil := @ih [] (by simp)
    simp only [List.length_nil] at hnil
    rw [encodeFrom]
    split
    · simp only [List.cons_append, List.length_cons, List.length_append]
      omega
    · split
      · simp only [List.cons_append, List.length_cons, List.length_append, List.length_nil]
        omega
      · have := @ih (run ++ [b]) (by simp; omega)
        simp only [List.length_append, List.length_cons, List.length_nil] at this ⊢
        omega

/-- No octet of an encoded block is the delimiter. -/
theorem zero_notMem_encode (data : List UInt8) : 0 ∉ encode data :=
  zero_notMem_encodeFrom (by simp) (by simp) data

theorem length_encode_le (data : List UInt8) :
    (encode data).length ≤ data.length + data.length / 254 + 1 := by
  have := @length_encodeFrom_le [] (by simp) data
  simpa [encode] using this

example : encode [0x11, 0x22, 0x00, 0x33] = [0x03, 0x11, 0x22, 0x02, 0x33] := by decide

end Cobs
