/-!
# Base64

Bytes as text of the standard base64 alphabet. Three bytes make four characters; one or two bytes at
the end make two or three, and equals signs fill the group up. Reading is strict: it wants the
equals signs, and zeros in the bits that the last character has to spare, so each byte sequence has
one text (`decode?_encode`).
-/

namespace Transponder.Base64

-- Powers are those of `Nat` and `Int` themselves.
attribute [local instance (high)] instPowNat

/-- The character with a value below 64. -/
def symbol (v : Nat) : Char :=
  if v < 26 then Char.ofNat ('A'.toNat + v)
  else if v < 52 then Char.ofNat ('a'.toNat + (v - 26))
  else if v < 62 then Char.ofNat ('0'.toNat + (v - 52))
  else if v = 62 then '+'
  else '/'

/-- The value of a character of the alphabet. -/
def value? (c : Char) : Option Nat :=
  if 'A' ≤ c && c ≤ 'Z' then some (c.toNat - 'A'.toNat)
  else if 'a' ≤ c && c ≤ 'z' then some (c.toNat - 'a'.toNat + 26)
  else if '0' ≤ c && c ≤ '9' then some (c.toNat - '0'.toNat + 52)
  else if c = '+' then some 62
  else if c = '/' then some 63
  else none

theorem value?_symbol {v : Nat} (h : v < 64) : value? (symbol v) = some v := by
  revert v
  decide

theorem symbol_ne_equals {v : Nat} (h : v < 64) : symbol v ≠ '=' := by
  revert v
  decide

/-- The text of some bytes. -/
def encode : List UInt8 → List Char
  | [] => []
  | [a] => [symbol (a.toNat / 4), symbol (a.toNat % 4 * 16), '=', '=']
  | [a, b] =>
    [symbol (a.toNat / 4), symbol (a.toNat % 4 * 16 + b.toNat / 16), symbol (b.toNat % 16 * 4), '=']
  | a :: b :: c :: rest =>
    symbol (a.toNat / 4) :: symbol (a.toNat % 4 * 16 + b.toNat / 16) ::
      symbol (b.toNat % 16 * 4 + c.toNat / 64) :: symbol (c.toNat % 64) :: encode rest

/-- The byte that two groups of six bits give after the first `skip` of them. -/
def byte (x y skip : Nat) : UInt8 :=
  UInt8.ofNat ((x * 64 + y) / 2 ^ (4 - skip) % 256)

/-- The bytes of a text. -/
def decode? : List Char → Option (List UInt8)
  | [] => some []
  | p :: q :: r :: s :: rest => do
    let x ← value? p
    let y ← value? q
    if rest.isEmpty && s = '=' then
      if r = '=' then
        if y % 16 = 0 then some [byte x y 0] else none
      else
        let z ← value? r
        if z % 4 = 0 then some [byte x y 0, byte y z 2] else none
    else
      let z ← value? r
      let w ← value? s
      return byte x y 0 :: byte y z 2 :: byte z w 4 :: (← decode? rest)
  | _ => none

theorem byte_zero (a n : Nat) (ha : a < 256) (hn : n < 16) :
    byte (a / 4) (a % 4 * 16 + n) 0 = UInt8.ofNat a := by
  unfold byte
  congr 1
  omega

theorem byte_two (h b n : Nat) (hb : b < 256) (hn : n < 4) :
    byte (h * 16 + b / 16) (b % 16 * 4 + n) 2 = UInt8.ofNat b := by
  unfold byte
  congr 1
  omega

theorem byte_four (h c : Nat) (hc : c < 256) :
    byte (h * 4 + c / 64) (c % 64) 4 = UInt8.ofNat c := by
  unfold byte
  congr 1
  omega

/-- Reading gives back the bytes that were written. -/
theorem decode?_encode (bytes : List UInt8) : decode? (encode bytes) = some bytes := by
  fun_induction encode bytes with
  | case1 => rfl
  | case2 a =>
    have ha := a.toNat_lt
    have e := byte_zero a.toNat 0 ha (by decide)
    simp only [Nat.add_zero] at e
    have m : a.toNat % 4 * 16 % 16 = 0 := by omega
    simp [decode?, value?_symbol (show a.toNat / 4 < 64 by omega),
      value?_symbol (show a.toNat % 4 * 16 < 64 by omega), e, m]
  | case3 a b =>
    have ha := a.toNat_lt
    have hb := b.toNat_lt
    have e := byte_two (a.toNat % 4) b.toNat 0 hb (by decide)
    simp only [Nat.add_zero] at e
    have m : b.toNat % 16 * 4 % 4 = 0 := by omega
    have hz : b.toNat % 16 * 4 < 64 := by omega
    simp [decode?, value?_symbol (show a.toNat / 4 < 64 by omega),
      value?_symbol (show a.toNat % 4 * 16 + b.toNat / 16 < 64 by omega), value?_symbol hz,
      symbol_ne_equals hz, byte_zero a.toNat (b.toNat / 16) ha (by omega), e, m]
  | case4 a b c rest ih =>
    have ha := a.toNat_lt
    have hb := b.toNat_lt
    have hc := c.toNat_lt
    simp [decode?, value?_symbol (show a.toNat / 4 < 64 by omega),
      value?_symbol (show a.toNat % 4 * 16 + b.toNat / 16 < 64 by omega),
      value?_symbol (show b.toNat % 16 * 4 + c.toNat / 64 < 64 by omega),
      value?_symbol (show c.toNat % 64 < 64 by omega),
      symbol_ne_equals (show c.toNat % 64 < 64 by omega),
      byte_zero a.toNat (b.toNat / 16) ha (by omega),
      byte_two (a.toNat % 4) b.toNat (c.toNat / 64) hb (by omega),
      byte_four (b.toNat % 16) c.toNat hc, ih]

end Transponder.Base64
