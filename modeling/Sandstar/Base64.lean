import Mathlib.Data.List.Basic

set_option autoImplicit false

namespace Sandstar.Base64

def alphabet : List Char :=
  "ABCDEFGHIJKLMNOPQRSTUVWXYZabcdefghijklmnopqrstuvwxyz0123456789+/".toList

def symbol (n : ℕ) : Char := alphabet.getD n '='

def value (c : Char) : Option ℕ := alphabet.idxOf? c

def encode : List UInt8 → List Char
  | [] => []
  | [a] => [symbol (a.toNat / 4), symbol (a.toNat % 4 * 16), '=', '=']
  | [a, b] =>
    [symbol (a.toNat / 4), symbol (a.toNat % 4 * 16 + b.toNat / 16), symbol (b.toNat % 16 * 4), '=']
  | a :: b :: c :: rest =>
    symbol (a.toNat / 4) :: symbol (a.toNat % 4 * 16 + b.toNat / 16) ::
      symbol (b.toNat % 16 * 4 + c.toNat / 64) :: symbol (c.toNat % 64) :: encode rest

/-- The bytes of a last group that is filled up. -/
def decodeLast (w x : ℕ) (y : Char) : Option (List UInt8) :=
  if y = '=' then if x % 16 = 0 then some [UInt8.ofNat (w * 4 + x / 16)] else none
  else (value y).bind fun y =>
    if y % 4 = 0 then
      some [UInt8.ofNat (w * 4 + x / 16), UInt8.ofNat (x % 16 * 16 + y / 4)]
    else none

def decode : List Char → Option (List UInt8)
  | [] => some []
  | w :: x :: y :: z :: rest =>
    (value w).bind fun w => (value x).bind fun x =>
      if z = '=' ∧ rest = [] then decodeLast w x y
      else (value y).bind fun y => (value z).bind fun z =>
        (decode rest).map fun bytes => UInt8.ofNat (w * 4 + x / 16) ::
          UInt8.ofNat (x % 16 * 16 + y / 4) :: UInt8.ofNat (y % 4 * 64 + z) :: bytes
  | _ => none

theorem value_symbol {n : ℕ} (h : n < 64) : value (symbol n) = some n := by
  have hall : ∀ n < 64, value (symbol n) = some n := by decide +kernel
  exact hall n h

theorem symbol_ne {n : ℕ} (h : n < 64) : symbol n ≠ '=' := by
  have hall : ∀ n < 64, symbol n ≠ '=' := by decide +kernel
  exact hall n h

theorem comma_ne_symbol (n : ℕ) : ',' ≠ symbol n := by
  have hcomma : ',' ∉ alphabet := by decide +kernel
  unfold symbol
  rw [List.getD_eq_getElem?_getD]
  cases hn : alphabet[n]? with
  | none => decide
  | some c =>
    rintro rfl
    exact hcomma (List.mem_of_getElem? hn)

theorem ofNat_byte {n : ℕ} {a : UInt8} (h : n = a.toNat) : UInt8.ofNat n = a := by
  rw [h, UInt8.ofNat_toNat]

theorem decode_encode (bytes : List UInt8) : decode (encode bytes) = some bytes := by
  fun_induction encode bytes with
  | case1 => rfl
  | case2 a =>
    have ha := a.toNat_lt
    have h1 := value_symbol (n := a.toNat / 4) (by omega)
    have h2 := value_symbol (n := a.toNat % 4 * 16) (by omega)
    simp only [decode, h1, h2, Option.bind_some, and_self, if_true, decodeLast]
    rw [if_pos (by omega), ofNat_byte (a := a) (by omega)]
  | case3 a b =>
    have ha := a.toNat_lt
    have hb := b.toNat_lt
    have h1 := value_symbol (n := a.toNat / 4) (by omega)
    have h2 := value_symbol (n := a.toNat % 4 * 16 + b.toNat / 16) (by omega)
    have h3 := value_symbol (n := b.toNat % 16 * 4) (by omega)
    have hne := symbol_ne (n := b.toNat % 16 * 4) (by omega)
    simp only [decode, h1, h2, h3, Option.bind_some, and_self, if_true, decodeLast, if_neg hne]
    rw [if_pos (by omega), ofNat_byte (a := a) (by omega), ofNat_byte (a := b) (by omega)]
  | case4 a b c rest ih =>
    have ha := a.toNat_lt
    have hb := b.toNat_lt
    have hc := c.toNat_lt
    have h1 := value_symbol (n := a.toNat / 4) (by omega)
    have h2 := value_symbol (n := a.toNat % 4 * 16 + b.toNat / 16) (by omega)
    have h3 := value_symbol (n := b.toNat % 16 * 4 + c.toNat / 64) (by omega)
    have h4 := value_symbol (n := c.toNat % 64) (by omega)
    have hne := symbol_ne (n := c.toNat % 64) (by omega)
    simp only [decode, h1, h2, h3, h4, Option.bind_some, hne, false_and, if_false, ih, Option.map_some]
    rw [ofNat_byte (a := a) (by omega), ofNat_byte (a := b) (by omega), ofNat_byte (a := c) (by omega)]

theorem no_comma_encode (bytes : List UInt8) : ',' ∉ encode bytes := by
  fun_induction encode bytes with
  | case1 => simp
  | case2 a => simp [comma_ne_symbol]
  | case3 a b => simp [comma_ne_symbol]
  | case4 a b c rest ih => simp [comma_ne_symbol, ih]

end Sandstar.Base64
