import Mathlib

/-!
# OmarchyKids.Lib.Base64

Base64 with the standard alphabet and padding: three octets in four characters of
six bits each, a last group of one or two octets filled up with `=`.

`decode_encode` is the round trip: every octet string comes back.
-/

namespace Base64

/-- The character for six bits. -/
def digit (n : Nat) : Char :=
  if n < 26 then Char.ofNat (65 + n)
  else if n < 52 then Char.ofNat (71 + n)
  else if n < 62 then Char.ofNat (n - 4)
  else if n = 62 then '+'
  else '/'

/-- The six bits a character stands for. -/
def value (c : Char) : Option Nat :=
  let n := c.toNat
  if 65 ≤ n ∧ n ≤ 90 then some (n - 65)
  else if 97 ≤ n ∧ n ≤ 122 then some (n - 71)
  else if 48 ≤ n ∧ n ≤ 57 then some (n + 4)
  else if n = 43 then some 62
  else if n = 47 then some 63
  else none

theorem value_digit : ∀ n < 64, value (digit n) = some n := by decide +kernel

theorem digit_ne_pad : ∀ n < 64, digit n ≠ '=' := by decide +kernel

def encode : List UInt8 → List Char
  | a :: b :: c :: rest =>
      let n := a.toNat * 65536 + b.toNat * 256 + c.toNat
      digit (n / 262144) :: digit (n / 4096 % 64) :: digit (n / 64 % 64) :: digit (n % 64) ::
        encode rest
  | [a, b] =>
      let n := a.toNat * 1024 + b.toNat * 4
      [digit (n / 4096), digit (n / 64 % 64), digit (n % 64), '=']
  | [a] =>
      let n := a.toNat * 16
      [digit (n / 64), digit (n % 64), '=', '=']
  | [] => []

/-- A last group of one octet; the four bits left over are zero. -/
def decodeOne (c d : Char) : Option (List UInt8) := do
  let n := (← value c) * 64 + (← value d)
  if n % 16 = 0 then some [UInt8.ofNat (n / 16)] else none

/-- A last group of two octets; the two bits left over are zero. -/
def decodeTwo (c d e : Char) : Option (List UInt8) := do
  let n := (← value c) * 4096 + (← value d) * 64 + (← value e)
  if n % 4 = 0 then some [UInt8.ofNat (n / 1024), UInt8.ofNat (n / 4)] else none

def decodeThree (c d e f : Char) : Option (List UInt8) := do
  let n := (← value c) * 262144 + (← value d) * 4096 + (← value e) * 64 + (← value f)
  some [UInt8.ofNat (n / 65536), UInt8.ofNat (n / 256), UInt8.ofNat n]

/-- Padding may only stand in the last group. -/
def decode : List Char → Option (List UInt8)
  | c :: d :: e :: f :: rest =>
      if rest = [] ∧ f = '=' then
        if e = '=' then decodeOne c d else decodeTwo c d e
      else do
        let group ← decodeThree c d e f
        let octets ← decode rest
        some (group ++ octets)
  | [] => some []
  | _ => none

/-! ### Round trip -/

theorem ofNat_eq {n : Nat} {a : UInt8} (h : n % 256 = a.toNat) : UInt8.ofNat n = a := by
  refine UInt8.toNat_inj.mp ?_
  rw [UInt8.toNat_ofNat']
  exact h

theorem decodeThree_digits (a b c : UInt8) :
    let n := a.toNat * 65536 + b.toNat * 256 + c.toNat
    decodeThree (digit (n / 262144)) (digit (n / 4096 % 64)) (digit (n / 64 % 64)) (digit (n % 64)) =
      some [a, b, c] := by
  intro n
  have ha := a.toNat_lt
  have hb := b.toNat_lt
  have hc := c.toNat_lt
  have hn : n / 262144 * 262144 + n / 4096 % 64 * 4096 + n / 64 % 64 * 64 + n % 64 = n := by omega
  unfold decodeThree
  rw [value_digit _ (by omega), value_digit _ (by omega), value_digit _ (by omega),
    value_digit _ (by omega)]
  simp only [Option.bind_eq_bind, Option.bind_some, hn]
  rw [ofNat_eq (a := a) (by omega), ofNat_eq (a := b) (by omega), ofNat_eq (a := c) (by omega)]

theorem decodeTwo_digits (a b : UInt8) :
    let n := a.toNat * 1024 + b.toNat * 4
    decodeTwo (digit (n / 4096)) (digit (n / 64 % 64)) (digit (n % 64)) = some [a, b] := by
  intro n
  have ha := a.toNat_lt
  have hb := b.toNat_lt
  have hn : n / 4096 * 4096 + n / 64 % 64 * 64 + n % 64 = n := by omega
  unfold decodeTwo
  rw [value_digit _ (by omega), value_digit _ (by omega), value_digit _ (by omega)]
  simp only [Option.bind_eq_bind, Option.bind_some, hn]
  rw [if_pos (by omega), ofNat_eq (a := a) (by omega), ofNat_eq (a := b) (by omega)]

theorem decodeOne_digits (a : UInt8) :
    let n := a.toNat * 16
    decodeOne (digit (n / 64)) (digit (n % 64)) = some [a] := by
  intro n
  have ha := a.toNat_lt
  have hn : n / 64 * 64 + n % 64 = n := by omega
  unfold decodeOne
  rw [value_digit _ (by omega), value_digit _ (by omega)]
  simp only [Option.bind_eq_bind, Option.bind_some, hn]
  rw [if_pos (by omega), ofNat_eq (a := a) (by omega)]

theorem decode_encode (octets : List UInt8) : decode (encode octets) = some octets := by
  induction octets using encode.induct with
  | case1 a b c rest ih =>
      have hlast : digit ((a.toNat * 65536 + b.toNat * 256 + c.toNat) % 64) ≠ '=' :=
        digit_ne_pad _ (Nat.mod_lt _ (by decide))
      have hgroup := decodeThree_digits a b c
      simp only [encode, decode, hlast, and_false, if_false]
      rw [hgroup, ih]
      rfl
  | case2 a b =>
      have hthird : digit ((a.toNat * 1024 + b.toNat * 4) % 64) ≠ '=' :=
        digit_ne_pad _ (Nat.mod_lt _ (by decide))
      simp only [encode, decode, hthird, and_self, if_true, if_false]
      exact decodeTwo_digits a b
  | case3 a =>
      simp only [encode, decode, and_self, if_true]
      exact decodeOne_digits a
  | case4 => rfl

example : encode "light work".toUTF8.toList = "bGlnaHQgd29yaw==".toList := by decide +kernel

end Base64
