import Mathlib.Data.List.Basic

/-!
# Base64

The standard alphabet with canonical padding: a text is read back only if its
length is a multiple of four, padding stands at its end alone and the bits it
stands for are zero. Every list of bytes is read back from its text
(`decode_encode`). The URL alphabet without padding is read through the
standard one.
-/

namespace WslVault.Base.Base64

def symbol (n : Nat) : Char :=
  if n < 26 then Char.ofNat (n + 65)
  else if n < 52 then Char.ofNat (n + 71)
  else if n < 62 then Char.ofNat (n - 4)
  else if n = 62 then '+'
  else '/'

def value? (c : Char) : Option Nat :=
  if 'A' ≤ c ∧ c ≤ 'Z' then some (c.toNat - 65)
  else if 'a' ≤ c ∧ c ≤ 'z' then some (c.toNat - 71)
  else if '0' ≤ c ∧ c ≤ '9' then some (c.toNat + 4)
  else if c = '+' then some 62
  else if c = '/' then some 63
  else none

theorem value?_symbol : ∀ n < 64, value? (symbol n) = some n := by decide

theorem symbol_ne_pad : ∀ n < 64, symbol n ≠ '=' := by decide

def encodeChars : List UInt8 → List Char
  | [] => []
  | [a] => [symbol (a.toNat / 4), symbol (a.toNat % 4 * 16), '=', '=']
  | [a, b] =>
    [symbol (a.toNat / 4), symbol (a.toNat % 4 * 16 + b.toNat / 16), symbol (b.toNat % 16 * 4), '=']
  | a :: b :: c :: bytes =>
    symbol (a.toNat / 4) :: symbol (a.toNat % 4 * 16 + b.toNat / 16) ::
      symbol (b.toNat % 16 * 4 + c.toNat / 64) :: symbol (c.toNat % 64) :: encodeChars bytes

def quad (w x y z : Char) : Option (List UInt8) := do
  let w ← value? w
  let x ← value? x
  let y ← value? y
  let z ← value? z
  return [.ofNat (w * 4 + x / 16), .ofNat (x % 16 * 16 + y / 4), .ofNat (y % 4 * 64 + z)]

/-- The last four characters of a text, of which two may be padding. -/
def lastQuad (w x y z : Char) : Option (List UInt8) :=
  if z ≠ '=' then quad w x y z
  else do
    let w ← value? w
    let x ← value? x
    if y = '=' then
      if x % 16 = 0 then some [.ofNat (w * 4 + x / 16)] else none
    else
      let y ← value? y
      if y % 4 = 0 then some [.ofNat (w * 4 + x / 16), .ofNat (x % 16 * 16 + y / 4)] else none

def decodeChars : List Char → Option (List UInt8)
  | [] => some []
  | w :: x :: y :: z :: rest => do
    let bytes ← if rest.isEmpty then lastQuad w x y z else quad w x y z
    return bytes ++ (← decodeChars rest)
  | _ => none

def encode (bytes : List UInt8) : String := String.ofList (encodeChars bytes)

def decode (text : String) : Option (List UInt8) := decodeChars text.toList

/-- The characters of a text in lines, after the `n` whole groups of its line so far: a line
of 19 groups is ended by a line feed. -/
def lineChars : Nat → List UInt8 → List Char
  | n, a :: b :: c :: bytes =>
    encodeChars [a, b, c] ++ if n = 18 then '\n' :: lineChars 0 bytes else lineChars (n + 1) bytes
  | _, bytes => encodeChars bytes

/-- With lines of 76 characters, which `decode` does not take. -/
def encodeLines (bytes : List UInt8) : String := String.ofList (lineChars 0 bytes)

def toUrl (c : Char) : Char := if c = '+' then '-' else if c = '/' then '_' else c

def ofUrl (c : Char) : Char := if c = '-' then '+' else if c = '_' then '/' else c

/-- Without padding, with `-` and `_` for `+` and `/`. -/
def encodeUrl (bytes : List UInt8) : String :=
  String.ofList (((encodeChars bytes).filter (· ≠ '=')).map toUrl)

/-- The padding that a text lacks is put back; one that has any is refused. -/
def decodeUrl (text : String) : Option (List UInt8) :=
  let cs := text.toList
  if cs.any fun c => c == '+' || c == '/' || c == '=' then none
  else decodeChars (cs.map ofUrl ++ List.replicate ((4 - cs.length % 4) % 4) '=')

/-! ## The round trip -/

private theorem ofNat_eq {n : Nat} {a : UInt8} (h : n = a.toNat) : UInt8.ofNat n = a := by
  rw [h, UInt8.ofNat_toNat]

theorem quad_symbols (a b c : UInt8) :
    quad (symbol (a.toNat / 4)) (symbol (a.toNat % 4 * 16 + b.toNat / 16))
      (symbol (b.toNat % 16 * 4 + c.toNat / 64)) (symbol (c.toNat % 64)) = some [a, b, c] := by
  have ha := a.toNat_lt
  have hb := b.toNat_lt
  have hc := c.toNat_lt
  unfold quad
  rw [value?_symbol _ (by omega), value?_symbol _ (by omega), value?_symbol _ (by omega),
    value?_symbol _ (by omega)]
  simp only [Option.bind_eq_bind, Option.bind_some, Option.pure_def, Option.some.injEq,
    List.cons.injEq, and_true]
  exact ⟨ofNat_eq (by omega), ofNat_eq (by omega), ofNat_eq (by omega)⟩

theorem lastQuad_one (a : UInt8) :
    lastQuad (symbol (a.toNat / 4)) (symbol (a.toNat % 4 * 16)) '=' '=' = some [a] := by
  have ha := a.toNat_lt
  have hzero : a.toNat % 4 * 16 % 16 = 0 := by omega
  unfold lastQuad
  rw [value?_symbol _ (by omega), value?_symbol _ (by omega)]
  simp only [ne_eq, not_true_eq_false, if_false, Option.bind_eq_bind, Option.bind_some, if_true,
    hzero, Option.some.injEq, List.cons.injEq, and_true]
  exact ofNat_eq (by omega)

theorem lastQuad_two (a b : UInt8) :
    lastQuad (symbol (a.toNat / 4)) (symbol (a.toNat % 4 * 16 + b.toNat / 16))
      (symbol (b.toNat % 16 * 4)) '=' = some [a, b] := by
  have ha := a.toNat_lt
  have hb := b.toNat_lt
  have hpad : symbol (b.toNat % 16 * 4) ≠ '=' := symbol_ne_pad _ (by omega)
  have hzero : b.toNat % 16 * 4 % 4 = 0 := by omega
  unfold lastQuad
  rw [value?_symbol _ (by omega), value?_symbol _ (by omega), value?_symbol _ (by omega)]
  simp only [ne_eq, not_true_eq_false, if_false, Option.bind_eq_bind, Option.bind_some, hpad,
    hzero, if_true, Option.some.injEq, List.cons.injEq, and_true]
  exact ⟨ofNat_eq (by omega), ofNat_eq (by omega)⟩

theorem decodeChars_encodeChars (bytes : List UInt8) :
    decodeChars (encodeChars bytes) = some bytes := by
  induction bytes using encodeChars.induct with
  | case1 => rfl
  | case2 a => simp [encodeChars, decodeChars, lastQuad_one]
  | case3 a b => simp [encodeChars, decodeChars, lastQuad_two]
  | case4 a b c bytes ih =>
    -- the last group of a text may be padded, but a full one is not
    have hpad : symbol (c.toNat % 64) ≠ '=' := symbol_ne_pad _ (by omega)
    simp [encodeChars, decodeChars, lastQuad, hpad, quad_symbols, ih]

theorem decode_encode (bytes : List UInt8) : decode (encode bytes) = some bytes := by
  rw [decode, encode, String.toList_ofList, decodeChars_encodeChars]

variable {bytes : List UInt8}

theorem newline_not_mem_of_lastQuad {w x y z : Char}
    (h : lastQuad w x y z = some bytes) : '\n' ∉ [w, x, y, z] := by
  have hvalue : value? '\n' = none := by decide
  have hpad : ¬ '\n' = '=' := by decide
  intro hmem
  simp only [List.mem_cons, List.not_mem_nil, or_false] at hmem
  unfold lastQuad quad at h
  rcases hmem with rfl | rfl | rfl | rfl
  · split at h <;> simp [hvalue] at h
  · split at h <;> simp [hvalue] at h
  · split at h <;> simp [hvalue] at h
  · rw [if_pos hpad] at h
    simp [hvalue] at h

theorem lastQuad_of_quad {w x y z : Char} (h : quad w x y z = some bytes) :
    lastQuad w x y z = some bytes := by
  have hpad : z ≠ '=' := by
    rintro rfl
    have hvalue : value? '=' = none := by decide
    simp [quad, hvalue] at h
  rw [lastQuad, if_pos hpad, h]

theorem newline_not_mem_of_decodeChars {cs : List Char}
    (h : decodeChars cs = some bytes) : '\n' ∉ cs := by
  -- the groups of a text and what follows them, whether padded or not
  have hcons : ∀ {w x y z : Char} {rest : List Char} {first : List UInt8},
      lastQuad w x y z = some first → '\n' ∉ rest → '\n' ∉ w :: x :: y :: z :: rest := by
    intro w x y z rest first hfirst hrest hmem
    rcases List.mem_append.mp (show '\n' ∈ [w, x, y, z] ++ rest from hmem) with hmem | hmem
    · exact newline_not_mem_of_lastQuad hfirst hmem
    · exact hrest hmem
  induction cs using decodeChars.induct generalizing bytes with
  | case1 => exact List.not_mem_nil
  | case2 w x y z rest hempty ih =>
    rw [decodeChars, if_pos hempty] at h
    simp only [Option.bind_eq_bind, Option.bind_eq_some_iff] at h
    obtain ⟨first, hfirst, others, hothers, -⟩ := h
    exact hcons hfirst (ih hothers)
  | case3 w x y z rest hempty ih =>
    rw [decodeChars, if_neg hempty] at h
    simp only [Option.bind_eq_bind, Option.bind_eq_some_iff] at h
    obtain ⟨first, hfirst, others, hothers, -⟩ := h
    exact hcons (lastQuad_of_quad hfirst) (ih hothers)
  | case4 cs hnil hmany => simp [decodeChars] at h

theorem newline_mem_or_lineChars_eq (n : Nat) (bytes : List UInt8) :
    '\n' ∈ lineChars n bytes ∨ lineChars n bytes = encodeChars bytes := by
  induction n, bytes using lineChars.induct with
  | case1 n a b c bytes ihfull ih =>
    by_cases hn : n = 18
    · exact .inl (by simp [lineChars, hn])
    · rcases ih with hmem | heq
      · exact .inl (by simp [lineChars, hn, hmem])
      · exact .inr (by simp [lineChars, hn, heq, encodeChars])
  | case2 n bytes hshort => exact .inr (by simp [lineChars])

theorem eq_of_decode_encodeLines {bytes' : List UInt8}
    (h : decode (encodeLines bytes) = some bytes') : bytes' = bytes := by
  rw [decode, encodeLines, String.toList_ofList] at h
  rcases newline_mem_or_lineChars_eq 0 bytes with hmem | heq
  · exact absurd hmem (newline_not_mem_of_decodeChars h)
  · rw [heq, decodeChars_encodeChars] at h
    exact (Option.some.inj h).symm

theorem mem_encodeChars {c : Char} (h : c ∈ encodeChars bytes) :
    c = '=' ∨ ∃ n < 64, c = symbol n := by
  induction bytes using encodeChars.induct with
  | case1 => cases h
  | case2 a =>
    have ha := a.toNat_lt
    simp only [encodeChars, List.mem_cons, List.not_mem_nil, or_false] at h
    rcases h with rfl | rfl | rfl | rfl
    all_goals first | exact .inl rfl | exact .inr ⟨_, by omega, rfl⟩
  | case3 a b =>
    have ha := a.toNat_lt
    have hb := b.toNat_lt
    simp only [encodeChars, List.mem_cons, List.not_mem_nil, or_false] at h
    rcases h with rfl | rfl | rfl | rfl
    all_goals first | exact .inl rfl | exact .inr ⟨_, by omega, rfl⟩
  | case4 a b c' bytes ih =>
    have ha := a.toNat_lt
    have hb := b.toNat_lt
    have hc := c'.toNat_lt
    simp only [encodeChars, List.mem_cons] at h
    rcases h with rfl | rfl | rfl | rfl | h
    all_goals first | exact ih h | exact .inr ⟨_, by omega, rfl⟩

theorem encodeChars_head (h : bytes ≠ []) :
    ∃ n < 64, ∃ cs, encodeChars bytes = symbol n :: cs := by
  match bytes with
  | [a] => exact ⟨_, by have := a.toNat_lt; omega, _, rfl⟩
  | [a, b] => exact ⟨_, by have := a.toNat_lt; omega, _, rfl⟩
  | a :: b :: c :: bytes => exact ⟨_, by have := a.toNat_lt; omega, _, rfl⟩

end WslVault.Base.Base64
