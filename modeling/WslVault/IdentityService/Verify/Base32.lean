import Mathlib.Data.List.Induction
import Mathlib.Data.Nat.Digits.Defs
import Mathlib.Tactic.Ring
import WslVault.IdentityService.Mfa

/-!
# The base32 text of a secret

What the decoder has given out, what its buffer keeps and what the encoder still keeps are at
every point the bits of the data.
-/

namespace WslVault.IdentityService.Mfa

open Core Base

def value (data : Bytes) : Nat := Nat.ofDigits 256 (data.reverse.map UInt8.toNat)

theorem value_concat (data : Bytes) (byte : UInt8) :
    value (data ++ [byte]) = value data * 256 + byte.toNat := by
  simp [value, Nat.ofDigits_cons, Nat.mul_comm, Nat.add_comm]

theorem value_inj {data data' : Bytes} (hlength : data.length = data'.length)
    (h : value data = value data') : data = data' := by
  have hbytes : ∀ data : Bytes, ∀ n ∈ data.reverse.map UInt8.toNat, n < 256 := by
    intro data n hn
    obtain ⟨byte, -, rfl⟩ := List.mem_map.mp hn
    exact byte.toNat_lt
  have hdigits := Nat.ofDigits_inj_of_len_eq (by decide) (by simpa) (hbytes _) (hbytes _) h
  exact List.reverse_injective (List.map_injective_iff.mpr (fun _ _ => UInt8.toNat_inj.mp) hdigits)

section Bits

variable {x y : UInt16} {i j : Nat} (hj : j < 16)

theorem mod_two_pow_add (n i j : Nat) :
    n % 2 ^ (i + j) = n / 2 ^ j % 2 ^ i * 2 ^ j + n % 2 ^ j := by
  rw [Nat.add_comm i, Nat.pow_add, Nat.mod_mul, Nat.mul_comm, Nat.add_comm]

include hj

theorem shift_toNat : (UInt16.ofNat j).toNat % 16 = j := by
  rw [UInt16.toNat_ofNat']
  omega

theorem shiftRight_toNat : (x >>> .ofNat j).toNat = x.toNat / 2 ^ j := by
  rw [UInt16.toNat_shiftRight, shift_toNat hj, Nat.shiftRight_eq_div_pow]

/-- `j` bits are shifted into a buffer of which `i` bits are read. -/
theorem shiftIn_mod (hij : i + j ≤ 16) (hy : y.toNat < 2 ^ j) :
    ((x <<< .ofNat j) ||| y).toNat % 2 ^ (i + j) = x.toNat % 2 ^ i * 2 ^ j + y.toNat := by
  have hle : 2 ^ j ≤ 2 ^ (i + j) := Nat.pow_le_pow_right (by omega) (by omega)
  rw [UInt16.toNat_or, Nat.or_mod_two_pow, UInt16.toNat_shiftLeft, shift_toNat hj,
    Nat.mod_mod_of_dvd _ (Nat.pow_dvd_pow 2 hij), Nat.shiftLeft_eq, Nat.pow_add,
    Nat.mul_mod_mul_right, ← Nat.pow_add, Nat.mod_eq_of_lt (hy.trans_le hle),
    ← Nat.shiftLeft_eq, ← Nat.shiftLeft_add_eq_or_of_lt hy]

end Bits

theorem symbol_index (x : UInt16) : (x &&& 0x1F).toNat = x.toNat % 32 :=
  Nat.and_two_pow_sub_one_eq_mod _ 5

theorem alphabet_getD : ∀ i < 32, let c := base32Alphabet.getD i 'A'
    c ∈ base32Alphabet ∧ c ≠ '=' ∧ base32Alphabet.idxOf? c = some i := by
  decide

theorem symbol_mem (x : UInt16) : base32Symbol x ∈ base32Alphabet := by
  rw [base32Symbol, symbol_index]
  exact (alphabet_getD _ (Nat.mod_lt _ (by omega))).1

variable {n total bits count : Nat} {buffer : UInt16} {out : List Char}

theorem base32Char_symbol (kept : UInt16) (hcount : count < 8) (data : Bytes) (x : UInt16) :
    ∃ kept' count' data',
      base32Char (kept, count, data) (base32Symbol x) = some (kept', count', data') ∧ count' < 8 ∧
      8 * data'.length + count' = 8 * data.length + count + 5 ∧
      value data' * 2 ^ count' + kept'.toNat % 2 ^ count' =
        (value data * 2 ^ count + kept.toNat % 2 ^ count) * 32 + x.toNat % 32 := by
  obtain ⟨-, hne, hidx⟩ := alphabet_getD (x.toNat % 32) (Nat.mod_lt _ (by omega))
  have hnat : (UInt16.ofNat (x.toNat % 32)).toNat = x.toNat % 32 := by
    rw [UInt16.toNat_ofNat']
    omega
  have hkept : (kept <<< 5 ||| .ofNat (x.toNat % 32)).toNat % 2 ^ (count + 5) =
      kept.toNat % 2 ^ count * 2 ^ 5 + (UInt16.ofNat (x.toNat % 32)).toNat :=
    shiftIn_mod (j := 5) (by omega) (by omega) (by omega)
  rw [hnat] at hkept
  rw [base32Char, base32Symbol, symbol_index, if_neg hne, hidx]
  by_cases hfull : 8 ≤ count + 5
  · obtain ⟨k, rfl⟩ : ∃ k, count = k + 3 := ⟨count - 3, by omega⟩
    refine ⟨_, _, _, if_pos hfull, by omega, by simp; omega, ?_⟩
    rw [show k + 3 + 5 = 8 + k by omega, mod_two_pow_add] at hkept
    rw [Nat.add_sub_cancel, value_concat, UInt16.toNat_toUInt8, shiftRight_toNat (by omega),
      Nat.add_mul, Nat.add_assoc, hkept]
    ring
  · refine ⟨_, _, _, if_neg hfull, by omega, by omega, ?_⟩
    rw [hkept]
    ring

/-- The decoder has read `out`: what it has given, what it keeps and the `bits` the encoder
keeps are together the `total` bits of `n`. -/
structure Reads (n total : Nat) (buffer : UInt16) (bits : Nat) (out : List Char) : Prop where
  symbols : ∀ c ∈ out, c ∈ base32Alphabet
  decoded : ∃ kept count data, out.foldlM base32Char (0, 0, []) = some (kept, count, data) ∧
    count < 8 ∧ 8 * data.length + count + bits = total ∧
    n = (value data * 2 ^ count + kept.toNat % 2 ^ count) * 2 ^ bits + buffer.toNat % 2 ^ bits

theorem Reads.shiftIn (h : Reads n total buffer bits out) {y : UInt16} {j : Nat} (hj : j < 16)
    (hbits : bits + j ≤ 16) (hy : y.toNat < 2 ^ j) :
    Reads (n * 2 ^ j + y.toNat) (total + j) ((buffer <<< .ofNat j) ||| y) (bits + j) out := by
  obtain ⟨hsymbols, kept, count, data, hfold, hcount, rfl, rfl⟩ := h
  refine ⟨hsymbols, kept, count, data, hfold, hcount, by omega, ?_⟩
  rw [shiftIn_mod hj hbits hy]
  ring

theorem Reads.push (h : Reads n total buffer (bits + 5) out) (hbits : bits < 16) :
    Reads n total buffer bits (out ++ [base32Symbol (buffer >>> .ofNat bits)]) := by
  obtain ⟨hsymbols, kept, count, data, hfold, hcount, rfl, rfl⟩ := h
  obtain ⟨kept', count', data', hchar, hcount', hlength, hvalue⟩ :=
    base32Char_symbol kept hcount data (buffer >>> .ofNat bits)
  refine ⟨?_, kept', count', data', ?_, hcount', by omega, ?_⟩
  · exact List.forall_mem_append.mpr ⟨hsymbols, List.forall_mem_singleton.mpr (symbol_mem _)⟩
  · simp [List.foldlM_append, hfold, hchar]
  · rw [shiftRight_toNat hbits] at hvalue
    rw [hvalue, Nat.add_comm bits, mod_two_pow_add]
    ring_nf

theorem Reads.emit (h : Reads n total buffer bits out) (hbits : bits < 16) :
    Reads n total buffer (base32Emit buffer bits out).1 (base32Emit buffer bits out).2 ∧
      (base32Emit buffer bits out).1 < 5 := by
  induction bits, out using base32Emit.induct buffer with
  | case1 bits out hle ih =>
    rw [base32Emit, if_pos hle]
    obtain ⟨k, rfl⟩ : ∃ k, bits = k + 5 := ⟨bits - 5, by omega⟩
    exact ih (h.push (by omega)) (by omega)
  | case2 bits out hlt =>
    rw [base32Emit, if_neg hlt]
    exact ⟨h, by omega⟩

theorem reads_foldl (data : Bytes) :
    let st := data.foldl base32Byte (0, 0, [])
    Reads (value data) (8 * data.length) st.1 st.2.1 st.2.2 ∧ st.2.1 < 5 := by
  induction data using List.reverseRecOn with
  | nil => exact ⟨⟨by simp, 0, 0, [], rfl, by omega, rfl, rfl⟩, by decide⟩
  | append_singleton data byte ih =>
    obtain ⟨hreads, hbits⟩ := ih
    have hbyte : byte.toUInt16.toNat < 2 ^ 8 := byte.toNat_lt
    have hnext := (hreads.shiftIn (by omega) (by omega) hbyte).emit (by omega)
    rw [List.foldl_append, value_concat, List.length_append]
    exact hnext

-- the last symbol's missing bits are written as zeros
theorem exists_reads (data : Bytes) : ∃ k < 5, ∃ buffer,
    Reads (value data * 2 ^ k) (8 * data.length + k) buffer 0 (base32Encode data).toList := by
  obtain ⟨hreads, hbits⟩ := reads_foldl data
  rw [base32Encode, String.toList_ofList]
  generalize data.foldl base32Byte (0, 0, []) = st at hreads hbits
  obtain ⟨buffer, bits, out⟩ := st
  dsimp only at hreads hbits ⊢
  split
  · refine ⟨5 - bits, by omega, buffer <<< .ofNat (5 - bits), ?_⟩
    have hpadded := hreads.shiftIn (y := 0) (j := 5 - bits) (by omega) (by omega) (by simp)
    rw [UInt16.or_zero, show bits + (5 - bits) = 0 + 5 by omega] at hpadded
    simpa using hpadded.push (by omega)
  · next hnone =>
    obtain rfl : bits = 0 := by omega
    exact ⟨0, by omega, buffer, by simpa using hreads⟩

theorem foldlM_base32Encode (data : Bytes) :
    ((base32Encode data).toList.foldlM base32Char (0, 0, [])).map (·.2.2) = some data := by
  obtain ⟨k, hk, buffer, -, kept, count, data', hfold, hcount, hlength, hvalue⟩ :=
    exists_reads data
  obtain rfl : count = k := by omega
  have hdiv := congrArg (· / 2 ^ count) hvalue
  simp [Nat.mod_one, Nat.add_comm, Nat.add_mul_div_right] at hdiv
  rw [hfold]
  exact congrArg some (value_inj (show data'.length = data.length by omega) hdiv.symm)

theorem foldlM_padding (n : Nat) (st : UInt16 × Nat × Bytes) :
    (List.replicate n '=').foldlM base32Char st = some st := by
  induction n with
  | zero => rfl
  | succ n ih => exact ih

theorem base32Decode_of_upper (data : Bytes) {f : Char → Char} (n : Nat)
    (hf : base32Alphabet.all fun c => (f c).toUpper == c && !Text.isWhitespace (f c)) :
    base32Decode (String.ofList ((base32Encode data).toList.map f ++ List.replicate n '=')) =
      some data := by
  simp only [List.all_eq_true, Bool.and_eq_true, beq_iff_eq, Bool.not_eq_true'] at hf
  obtain ⟨-, -, -, hsymbols, -⟩ := exists_reads data
  obtain ⟨st, hst, hdata⟩ := Option.map_eq_some_iff.mp (foldlM_base32Encode data)
  have hupper : ((base32Encode data).toList.map f).map Char.toUpper =
      (base32Encode data).toList := by
    rw [List.map_map]
    exact (List.map_congr_left fun c hc => (hf c (hsymbols c hc)).1).trans (List.map_id _)
  have hequals : '='.toUpper = '=' := by decide
  rw [base32Decode, Text.trim_of_no_space, toAsciiUppercase, String.toList_ofList,
    String.toList_ofList, List.map_append, hupper, List.map_replicate, hequals,
    List.foldlM_append, hst, Option.bind_eq_bind, Option.bind_some, foldlM_padding,
    Option.map_some, hdata]
  intro c hc
  rw [String.toList_ofList, List.mem_append, List.mem_map] at hc
  obtain ⟨c, hc, rfl⟩ | hc := hc
  · exact (hf c (hsymbols c hc)).2
  · rw [List.eq_of_mem_replicate hc]
    decide

/-- Decoding gives back what was encoded, also with padding and in lower case. -/
theorem base32_round_trip (data : Bytes) :
    base32Decode (base32Encode data) = some data ∧
    ∀ n, base32Decode (base32Encode data ++ String.ofList (List.replicate n '=')) = some data ∧
      base32Decode (Text.toAsciiLowercase (base32Encode data) ++
        String.ofList (List.replicate n '=')) = some data := by
  have hplain : ∀ n, base32Decode (base32Encode data ++ String.ofList (List.replicate n '=')) =
      some data := by
    intro n
    have h := base32Decode_of_upper data (f := id) n (by decide)
    rwa [List.map_id, String.ofList_append, String.ofList_toList] at h
  refine ⟨by simpa using hplain 0, fun n => ⟨hplain n, ?_⟩⟩
  rw [Text.toAsciiLowercase, ← String.ofList_append]
  exact base32Decode_of_upper data n (by decide)

end WslVault.IdentityService.Mfa
