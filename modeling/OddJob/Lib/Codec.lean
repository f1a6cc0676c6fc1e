import Mathlib.Data.Nat.Digits.Defs

/-! Values in bytes, each read from the front of a text that may go on after it. -/

/-- How values are written, and read back whatever comes after them. -/
structure Codec (Value : Type) where
  write : Value → List UInt8
  read : List UInt8 → Option (Value × List UInt8)
  read_write : ∀ value rest, read (write value ++ rest) = some (value, rest)

namespace Codec

variable {Value First Second : Type}

/-- Values in the form of others. -/
def map (codec : Codec First) (pack : First → Second) (unpack : Second → First)
    (inverse : ∀ value, pack (unpack value) = value) : Codec Second where
  write value := codec.write (unpack value)
  read text := (codec.read text).map fun (value, rest) => (pack value, rest)
  read_write value rest := by simp [codec.read_write, inverse]

def prod (first : Codec First) (second : Codec Second) : Codec (First × Second) where
  write value := first.write value.1 ++ second.write value.2
  read text := do
    let (left, rest) ← first.read text
    let (right, rest) ← second.read rest
    return ((left, right), rest)
  read_write value rest := by simp [first.read_write, second.read_write]

/-- The digits of a number, least first, up to the byte that ends them. -/
def readDigits : List UInt8 → Option (Nat × List UInt8)
  | [] => none
  | digit :: rest =>
    if digit = 255 then some (0, rest)
    else (readDigits rest).map fun (number, rest) => (digit.toNat + 128 * number, rest)

private theorem readDigits_append {digits : List Nat} (small : ∀ digit ∈ digits, digit < 128)
    (rest : List UInt8) :
    readDigits (digits.map UInt8.ofNat ++ 255 :: rest) =
      some (Nat.ofDigits 128 digits, rest) := by
  induction digits with
  | nil => rfl
  | cons digit others ih =>
    have fits : digit < 128 := small digit List.mem_cons_self
    have same : (UInt8.ofNat digit).toNat = digit :=
      UInt8.toNat_ofNat_of_lt' (fits.trans (by decide))
    have more : UInt8.ofNat digit ≠ 255 := by
      intro last
      have equal : (UInt8.ofNat digit).toNat = 255 := congrArg UInt8.toNat last
      omega
    have later := ih fun other member => small other (List.mem_cons_of_mem digit member)
    rw [List.map_cons, List.cons_append, readDigits, if_neg more, later, Option.map_some, same,
      Nat.ofDigits_cons]

def nat : Codec Nat where
  write number := (Nat.digits 128 number).map UInt8.ofNat ++ [255]
  read := readDigits
  read_write number rest := by
    have small : ∀ digit ∈ Nat.digits 128 number, digit < 128 :=
      fun _ => Nat.digits_lt_base (by decide)
    rw [List.append_assoc, List.singleton_append, readDigits_append small, Nat.ofDigits_digits]

/-- A number as the difference of two. -/
def int : Codec Int :=
  (nat.prod nat).map (fun (above, below) => (above : Int) - below)
    (fun number => (number.toNat, (-number).toNat)) Int.toNat_sub_toNat_neg

section List

variable (codec : Codec Value)

def readList : Nat → List UInt8 → Option (List Value × List UInt8)
  | 0, rest => some ([], rest)
  | length + 1, text => do
    let (value, rest) ← codec.read text
    let (values, rest) ← readList length rest
    return (value :: values, rest)

private theorem readList_append (values : List Value) (rest : List UInt8) :
    codec.readList values.length (values.flatMap codec.write ++ rest) = some (values, rest) := by
  induction values with
  | nil => rfl
  | cons value others ih =>
    simp [readList, codec.read_write, ih]

/-- The length of a list, and then its values. -/
def list : Codec (List Value) where
  write values := nat.write values.length ++ values.flatMap codec.write
  read text := do
    let (length, rest) ← nat.read text
    codec.readList length rest
  read_write values rest := by simp [nat.read_write, codec.readList_append]

def option : Codec (Option Value) :=
  codec.list.map List.head? Option.toList (by rintro (_ | _) <;> rfl)

end List

def string : Codec String :=
  nat.list.map (fun codes => String.ofList (codes.map Char.ofNat))
    (fun text => text.toList.map Char.toNat) fun text => by simp [Function.comp_def]

end Codec
