import Mathlib.Data.Nat.Notation

/-! Base64 over an alphabet of 64 characters: the encoding without its padding, and a lenient
decoder that skips what is not in the alphabet. -/

namespace FileManager.Base64

/-- A character for each of 64 values, and the value of a character. -/
structure Alphabet where
  char : Nat → Char
  value : Char → Option Nat
  value_char : ∀ n, n < 64 → value (char n) = some n
  value_pad : value '=' = none

variable (alphabet : Alphabet)

theorem Alphabet.char_ne_pad {n : Nat} (hn : n < 64) : alphabet.char n ≠ '=' := by
  intro h
  have hvalue := alphabet.value_char n hn
  rw [h, alphabet.value_pad] at hvalue
  cases hvalue

def encode : List UInt8 → List Char
  | [] => []
  | [a] => [alphabet.char (a.toNat / 4), alphabet.char (a.toNat % 4 * 16)]
  | [a, b] =>
    [alphabet.char (a.toNat / 4), alphabet.char (a.toNat % 4 * 16 + b.toNat / 16),
      alphabet.char (b.toNat % 16 * 4)]
  | a :: b :: c :: rest =>
    alphabet.char (a.toNat / 4) :: alphabet.char (a.toNat % 4 * 16 + b.toNat / 16) ::
      alphabet.char (b.toNat % 16 * 4 + c.toNat / 64) :: alphabet.char (c.toNat % 64) ::
      encode rest

theorem exists_char_of_mem_encode {data : List UInt8} {c : Char} (h : c ∈ encode alphabet data) :
    ∃ n < 64, c = alphabet.char n := by
  induction data using encode.induct with
  | case1 => cases h
  | case2 a =>
    have ha := a.toNat_lt
    simp only [encode, List.mem_cons, List.not_mem_nil, or_false] at h
    rcases h with rfl | rfl
    all_goals exact ⟨_, by omega, rfl⟩
  | case3 a b =>
    have ha := a.toNat_lt
    have hb := b.toNat_lt
    simp only [encode, List.mem_cons, List.not_mem_nil, or_false] at h
    rcases h with rfl | rfl | rfl
    all_goals exact ⟨_, by omega, rfl⟩
  | case4 a b d rest ih =>
    have ha := a.toNat_lt
    have hb := b.toNat_lt
    have hd := d.toNat_lt
    simp only [encode, List.mem_cons] at h
    rcases h with rfl | rfl | rfl | rfl | h
    · exact ⟨_, by omega, rfl⟩
    · exact ⟨_, by omega, rfl⟩
    · exact ⟨_, by omega, rfl⟩
    · exact ⟨_, by omega, rfl⟩
    · exact ih h

/-- Where a decoder stands: the characters of the present quad it took, the bits they left
over, the pads since then, and the bytes so far, the last first. -/
structure Reader where
  position : Nat
  left : Nat
  pads : Nat
  out : List UInt8

def Reader.start (out : List UInt8) : Reader := { position := 0, left := 0, pads := 0, out }

def Reader.take (r : Reader) (v : Nat) : Reader :=
  match r.position with
  | 0 => { position := 1, left := v, pads := 0, out := r.out }
  | 1 => { position := 2, left := v % 16, pads := 0,
           out := UInt8.ofNat (r.left * 4 + v / 16) :: r.out }
  | 2 => { position := 3, left := v % 4, pads := 0,
           out := UInt8.ofNat (r.left * 16 + v / 4) :: r.out }
  | _ => { position := 0, left := 0, pads := 0, out := UInt8.ofNat (r.left * 64 + v) :: r.out }

/-- A quad that its pads complete ends the data; one that nothing completes is an error. -/
def read : List Char → Reader → Option (List UInt8)
  | [], r => if r.position = 0 then some r.out.reverse else none
  | c :: rest, r =>
    if c = '=' then
      if 2 ≤ r.position then
        if 4 ≤ r.position + (r.pads + 1) then some r.out.reverse
        else read rest { r with pads := r.pads + 1 }
      else read rest r
    else
      match alphabet.value c with
      | none => read rest r
      | some v => read rest (r.take v)

def decode (chars : List Char) : Option (List UInt8) := read alphabet chars (.start [])

def padding (length : Nat) : List Char := List.replicate ((4 - length % 4) % 4) '='

theorem read_char {n : Nat} (hn : n < 64) (rest : List Char) (r : Reader) :
    read alphabet (alphabet.char n :: rest) r = read alphabet rest (r.take n) := by
  rw [read, if_neg (alphabet.char_ne_pad hn), alphabet.value_char n hn]

theorem ofNat_eq_self {a : UInt8} {n : Nat} (h : n = a.toNat) : UInt8.ofNat n = a := by
  rw [h, UInt8.ofNat_toNat]

/-- The induction follows the encoding: three bytes at a time fill a quad and leave nothing. -/
theorem read_encode (data out : List UInt8) :
    read alphabet (encode alphabet data ++ padding (encode alphabet data).length) (.start out) =
      some (out.reverse ++ data) := by
  induction data using encode.induct generalizing out with
  | case1 => simp [encode, padding, read, Reader.start]
  | case2 a =>
    have ha := a.toNat_lt
    simp only [encode, List.cons_append, List.nil_append]
    rw [read_char alphabet (by omega), read_char alphabet (by omega)]
    have hbyte : UInt8.ofNat (a.toNat / 4 * 4 + a.toNat % 4 * 16 / 16) = a :=
      ofNat_eq_self (by omega)
    simp only [Reader.start, Reader.take, hbyte]
    simp [padding, List.replicate, read]
  | case3 a b =>
    have ha := a.toNat_lt
    have hb := b.toNat_lt
    simp only [encode, List.cons_append, List.nil_append]
    rw [read_char alphabet (by omega), read_char alphabet (by omega),
      read_char alphabet (by omega)]
    have hfirst : UInt8.ofNat (a.toNat / 4 * 4 + (a.toNat % 4 * 16 + b.toNat / 16) / 16) = a :=
      ofNat_eq_self (by omega)
    have hsecond : UInt8.ofNat
        ((a.toNat % 4 * 16 + b.toNat / 16) % 16 * 16 + b.toNat % 16 * 4 / 4) = b :=
      ofNat_eq_self (by omega)
    simp only [Reader.start, Reader.take, hfirst, hsecond]
    simp [padding, read]
  | case4 a b c rest ih =>
    have ha := a.toNat_lt
    have hb := b.toNat_lt
    have hc := c.toNat_lt
    have hpadding : padding (encode alphabet (a :: b :: c :: rest)).length =
        padding (encode alphabet rest).length := by
      simp only [encode, List.length_cons, padding]
      congr 1
      omega
    rw [hpadding]
    simp only [encode, List.cons_append]
    rw [read_char alphabet (by omega), read_char alphabet (by omega),
      read_char alphabet (by omega), read_char alphabet (by omega)]
    have hfirst : UInt8.ofNat (a.toNat / 4 * 4 + (a.toNat % 4 * 16 + b.toNat / 16) / 16) = a :=
      ofNat_eq_self (by omega)
    have hsecond : UInt8.ofNat ((a.toNat % 4 * 16 + b.toNat / 16) % 16 * 16 +
        (b.toNat % 16 * 4 + c.toNat / 64) / 4) = b := ofNat_eq_self (by omega)
    have hthird : UInt8.ofNat ((b.toNat % 16 * 4 + c.toNat / 64) % 4 * 64 + c.toNat % 64) = c :=
      ofNat_eq_self (by omega)
    have hnext := ih (c :: b :: a :: out)
    simp only [Reader.start, Reader.take, hfirst, hsecond, hthird] at hnext ⊢
    rw [hnext]
    simp

theorem decode_encode (data : List UInt8) :
    decode alphabet (encode alphabet data ++ padding (encode alphabet data).length) =
      some data :=
  read_encode alphabet data []

end FileManager.Base64
