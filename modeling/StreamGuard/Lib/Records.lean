/-
Records of one size: an encoder that fills an array at fixed offsets, and a file
that is a row of such arrays.

An encoder that starts from zeroes and writes its fields from left to right
appends them: after each write the array is what was written so far and zeroes
(`copy_range_zeroes`). A decoder reads each field back from where it stands
(`field_of_drop`), and the fields of a record put together are the record
(`field_append_drop`).

A row of records is cut by `chunks_exact`, which inverts putting them together.
-/
import StreamGuard.Lib.Bytes

set_option autoImplicit false

namespace StreamGuard.Lib

variable {d x piece rest : List UInt8} {i j n : ℕ}

/-! ## Writing at an offset -/

/-- `d[i..j].copy_from_slice(piece)`, for a piece that fills the range. -/
def copy_range (d : List UInt8) (i j : ℕ) (piece : List UInt8) : List UInt8 :=
  d.take i ++ (piece ++ d.drop j)

/-- Writing right behind what has been written appends to it. -/
theorem copy_range_zeroes (hi : x.length = i) (hj : i + piece.length = j) (hn : j ≤ n) :
    copy_range (x ++ List.replicate (n - i) 0) i j piece =
      (x ++ piece) ++ List.replicate (n - j) 0 := by
  have hdrop : (x ++ List.replicate (n - i) 0).drop j = List.replicate (n - j) (0 : UInt8) := by
    have hlast : n - i - (j - i) = n - j := by omega
    rw [List.drop_append, List.drop_eq_nil_of_le (by omega), List.drop_replicate, hi, hlast,
      List.nil_append]
  rw [copy_range, ← hi, List.take_left, hi, hdrop, List.append_assoc]

/-- The same for a single byte. -/
theorem set_zeroes {b : UInt8} (hi : x.length = i) (hn : i < n) :
    (x ++ List.replicate (n - i) 0).set i b = (x ++ [b]) ++ List.replicate (n - (i + 1)) 0 := by
  obtain ⟨k, hk⟩ : ∃ k, n - i = k + 1 := ⟨n - i - 1, by omega⟩
  have hrest : n - (i + 1) = k := by omega
  rw [List.set_append_right i b (by omega), hk, hrest, hi, Nat.sub_self, List.replicate_succ,
    List.set_cons_zero, List.append_assoc]
  rfl

/-! ## Reading back -/

theorem field_of_drop (h : d.drop i = x ++ rest) (hlen : x.length = j - i) : field d i j = x := by
  rw [field, h, ← hlen, List.take_left]

theorem getD_of_drop {b : UInt8} (h : d.drop i = [b] ++ rest) : d.getD i 0 = b := by
  have hget : (d.drop i)[0]? = some b := by
    rw [h]
    rfl
  rw [List.getElem?_drop, Nat.add_zero] at hget
  rw [List.getD_eq_getElem?_getD, hget]
  rfl

/-- A field and what follows it are what stands at its offset. -/
theorem field_append_drop (hij : i ≤ j) : field d i j ++ d.drop j = d.drop i := by
  have htail : d.drop j = (d.drop i).drop (j - i) := by
    rw [List.drop_drop]
    congr 1
    omega
  rw [field, htail, List.take_append_drop]

theorem getD_append_drop (hi : i < d.length) : [d.getD i 0] ++ d.drop (i + 1) = d.drop i := by
  rw [List.getD_eq_getElem?_getD, List.getElem?_eq_getElem hi, List.drop_eq_getElem_cons hi]
  rfl

/-! ## Rows of records -/

/-- The first `count` pieces of `n` bytes. -/
def chunks (n : ℕ) : ℕ → List UInt8 → List (List UInt8)
  | 0, _ => []
  | count + 1, d => d.take n :: chunks n count (d.drop n)

/-- `d.chunks_exact(n)`: the pieces of `n` bytes, without a shorter rest. -/
def chunks_exact (n : ℕ) (d : List UInt8) : List (List UInt8) := chunks n (d.length / n) d

/-- Every piece is a whole one. -/
theorem length_of_mem_chunks {count : ℕ} (h : count * n ≤ d.length)
    (hx : x ∈ chunks n count d) : x.length = n := by
  induction count generalizing d with
  | zero => simp [chunks] at hx
  | succ count ih =>
    rw [Nat.succ_mul] at h
    rw [chunks, List.mem_cons] at hx
    rcases hx with rfl | hx
    · rw [List.length_take]
      omega
    · apply ih _ hx
      rw [List.length_drop]
      omega

/-- The pieces of a string that they fill are the string. -/
theorem flatten_chunks {count : ℕ} (h : d.length = count * n) : (chunks n count d).flatten = d := by
  induction count generalizing d with
  | zero =>
    have hd : d = [] := List.eq_nil_of_length_eq_zero (by omega)
    rw [hd]
    rfl
  | succ count ih =>
    rw [Nat.succ_mul] at h
    have hrest : (d.drop n).length = count * n := by
      rw [List.length_drop]
      omega
    rw [chunks, List.flatten_cons, ih hrest, List.take_append_drop]

/-- Records put together are cut apart again. -/
theorem chunks_flatten {records : List (List UInt8)} (h : ∀ record ∈ records, record.length = n) :
    chunks n records.length records.flatten = records := by
  induction records with
  | nil => rfl
  | cons record records ih =>
    have hlen : record.length = n := h record List.mem_cons_self
    rw [List.length_cons, chunks, List.flatten_cons, ← hlen, List.take_left, List.drop_left, hlen,
      ih fun r hr => h r (List.mem_cons_of_mem _ hr)]

theorem length_flatten_records {records : List (List UInt8)}
    (h : ∀ record ∈ records, record.length = n) :
    records.flatten.length = records.length * n := by
  induction records with
  | nil => simp
  | cons record records ih =>
    rw [List.flatten_cons, List.length_append, h record List.mem_cons_self,
      ih fun r hr => h r (List.mem_cons_of_mem _ hr), List.length_cons, Nat.succ_mul, Nat.add_comm]

/-- **Cutting inverts putting together.** -/
theorem chunks_exact_flatten (hn : 0 < n) {records : List (List UInt8)}
    (h : ∀ record ∈ records, record.length = n) : chunks_exact n records.flatten = records := by
  rw [chunks_exact, length_flatten_records h, Nat.mul_div_cancel _ hn, chunks_flatten h]

/-- **Putting together inverts cutting**, where nothing is left over. -/
theorem flatten_chunks_exact (h : d.length % n = 0) : (chunks_exact n d).flatten = d := by
  apply flatten_chunks
  rw [Nat.div_mul_cancel (Nat.dvd_of_mod_eq_zero h)]

theorem length_of_mem_chunks_exact (hx : x ∈ chunks_exact n d) : x.length = n :=
  length_of_mem_chunks (Nat.div_mul_le_self _ _) hx

end StreamGuard.Lib
