/-
  Mtrader.Codec.Fields

  Several texts as one text: every character of a field stands behind a `+`, and a
  field ends with a `.`, so that a field may hold any character.
-/

import Mathlib.Data.Option.Basic
import Mathlib.Data.Int.Order.Basic

namespace Fields

/-- One field, with its end. -/
def writeField (f : List Char) : List Char := (f.flatMap fun ch => ['+', ch]) ++ ['.']

def write (fs : List (List Char)) : List Char := fs.flatMap writeField

/-- Put a character in front of the first field. -/
def push (ch : Char) : List (List Char) → List (List Char)
  | [] => [[ch]]
  | f :: fs => (ch :: f) :: fs

def read : List Char → List (List Char)
  | [] => []
  | [_] => [[]]
  | mark :: ch :: rest => if mark = '.' then [] :: read (ch :: rest) else push ch (read rest)

theorem read_end (rest : List Char) : read ('.' :: rest) = [] :: read rest := by
  cases rest with
  | nil => rfl
  | cons ch rest => rw [read, if_pos rfl]

theorem read_char (ch : Char) (rest : List Char) :
    read ('+' :: ch :: rest) = push ch (read rest) := by
  rw [read, if_neg (by decide)]

theorem read_writeField (f rest : List Char) : read (writeField f ++ rest) = f :: read rest := by
  induction f with
  | nil => exact read_end rest
  | cons ch f ih =>
      show read ('+' :: ch :: (writeField f ++ rest)) = (ch :: f) :: read rest
      rw [read_char, ih]
      rfl

/-- Reading gives back the fields that were written. -/
theorem read_write (fs : List (List Char)) : read (write fs) = fs := by
  induction fs with
  | nil => rfl
  | cons f fs ih =>
      show read (writeField f ++ write fs) = f :: fs
      rw [read_writeField, ih]

-- ============================================================================
-- Fields that are not texts
-- ============================================================================

/-- A sign and decimal digits; a negative number is written as its predecessor's
    absolute value. -/
def ofInt : ℤ → List Char
  | .ofNat n => '+' :: Nat.toDigits 10 n
  | .negSucc n => '-' :: Nat.toDigits 10 n

def toInt : List Char → ℤ
  | [] => 0
  | sign :: digits =>
      if sign = '-' then .negSucc (Nat.ofDigitChars 10 digits 0)
      else .ofNat (Nat.ofDigitChars 10 digits 0)

theorem toInt_ofInt (i : ℤ) : toInt (ofInt i) = i := by
  have hdigits : ∀ n, Nat.ofDigitChars 10 (Nat.toDigits 10 n) 0 = n :=
    fun n => Nat.ofDigitChars_toDigits (by decide) (by decide)
  cases i with
  | ofNat n => rw [ofInt, toInt, if_neg (by decide), hdigits]
  | negSucc n => rw [ofInt, toInt, if_pos rfl, hdigits]

/-- A field that may be missing. -/
def ofOption : Option (List Char) → List Char
  | none => []
  | some f => '+' :: f

def toOption : List Char → Option (List Char)
  | [] => none
  | _ :: f => some f

theorem toOption_ofOption (f : Option (List Char)) : toOption (ofOption f) = f := by
  cases f with
  | none => rfl
  | some f => rfl

end Fields
