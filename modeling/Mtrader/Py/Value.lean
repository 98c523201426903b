/-
  Mtrader.Py.Value

  The Python data that crosses the boundaries of the trading service: values,
  dicts, the conversions `float`, `int`, `str`, truthiness, and the
  exceptions they raise.

  Floats are a parameter `F` with the operations of `Prims`, so that a result
  holds of IEEE doubles and of exact numbers alike; `ℚ` is the exact instance.
  A datetime is a count of microseconds, and the text its `isoformat` gives is a
  value of its own (`Val.iso`), which `fromisoformat` turns back.
-/

import Mathlib.Data.Rat.Floor

namespace Py

/-- A naive datetime, in microseconds. -/
abbrev Time : Type := ℤ

/-- The exceptions that the modelled code raises or lets through; `external` is
    raised by a collaborator. -/
inductive Exc
  | valueError (msg : String)
  | typeError (msg : String)
  | keyError (key : String)
  | attributeError (msg : String)
  | external (msg : String)
  deriving DecidableEq, Repr

/-- A computation of two steps that succeeds has succeeded in both. -/
theorem bind_eq_ok {ε α β : Type} {x : Except ε α} {f : α → Except ε β} {b : β} :
    (x >>= f) = .ok b ↔ ∃ a, x = .ok a ∧ f a = .ok b := by
  cases x with
  | ok a => exact ⟨fun h => ⟨a, rfl, h⟩, fun ⟨_, h, hf⟩ => by cases h; exact hf⟩
  | error e => exact ⟨fun h => (by cases h), fun ⟨_, h, _⟩ => (by cases h)⟩

-- ============================================================================
-- Floats
-- ============================================================================

/-- The primitive operations of Python that the model takes as given: float
    arithmetic and the conversions between numbers and text. -/
class Prims (F : Type) extends Sub F, Mul F, Div F where
  /-- A literal, or an int used as a float. -/
  ofRat : ℚ → F
  abs : F → F
  lt : F → F → Bool
  le : F → F → Bool
  /-- `round(x)`; no integer for nan and infinities. -/
  round : F → Option ℤ
  /-- `int(x)`; no integer for nan and infinities. -/
  trunc : F → Option ℤ
  /-- `float(s)` and `int(s)` on text. -/
  floatOfStr : String → Option F
  intOfStr : String → Option ℤ
  repr : F → String
  /-- `t.isoformat(sep)`. -/
  isoformat : Char → Time → String

variable {F : Type} [Prims F]

/-- `x == 0`; nan is not zero. -/
def isZero (x : F) : Bool := Prims.le x (Prims.ofRat 0) && Prims.le (Prims.ofRat 0) x

/-- `s.upper()` on ASCII letters. -/
def upper (s : String) : String := String.ofList (s.toList.map Char.toUpper)

/-- The value of a run of digits, with single underscores between them. -/
def digitsValue (acc : ℕ) : List Char → Option ℕ
  | [] => some acc
  | '_' :: c :: cs =>
      if c.isDigit then digitsValue (10 * acc + (c.toNat - '0'.toNat)) cs else none
  | c :: cs =>
      if c.isDigit then digitsValue (10 * acc + (c.toNat - '0'.toNat)) cs else none

/-- The text without the whitespace around it. -/
def strip (s : List Char) : List Char :=
  ((s.dropWhile Char.isWhitespace).reverse.dropWhile Char.isWhitespace).reverse

/-- An unsigned decimal integer literal. -/
def natLiteral : List Char → Option ℕ
  | [] => none
  | '_' :: _ => none
  | cs => digitsValue 0 cs

/-- A literal with an optional sign before it. -/
def signed {α : Type} [Neg α] (literal : List Char → Option α) : List Char → Option α
  | '-' :: cs => (literal cs).map fun x => -x
  | '+' :: cs => literal cs
  | cs => literal cs

/-- `int(s)`: an optional sign and ASCII digits. -/
def intLiteral (s : String) : Option ℤ :=
  signed (fun cs => (natLiteral cs).map fun n => (n : ℤ)) (strip s.toList)

/-- `q` with its point moved. -/
def scale (q : ℚ) : ℤ → ℚ
  | .ofNat k => q * (10 ^ k : ℕ)
  | .negSucc k => q / (10 ^ (k + 1) : ℕ)

/-- An unsigned decimal number: digits before the point or after it, or both. -/
def pointLiteral (cs : List Char) : Option ℚ :=
  let whole := cs.takeWhile (· ≠ '.')
  let fraction := (cs.dropWhile (· ≠ '.')).drop 1
  let places := (fraction.filter Char.isDigit).length
  match whole, fraction with
  | [], [] => none
  | [], _ => (natLiteral fraction).map fun n => scale n (-places)
  | _, [] => (natLiteral whole).map fun n => (n : ℚ)
  | _, _ => do
      let n ← natLiteral whole
      let f ← natLiteral fraction
      return n + scale f (-places)

/-- An unsigned decimal number with an optional exponent. -/
def decimalLiteral (cs : List Char) : Option ℚ := do
  let isExponent (c : Char) := c = 'e' || c = 'E'
  let q ← pointLiteral (cs.takeWhile fun c => !isExponent c)
  match cs.dropWhile fun c => !isExponent c with
  | [] => return q
  | _ :: es =>
      let k ← signed (fun cs => (natLiteral cs).map fun n => (n : ℤ)) es
      return scale q k

/-- `float(s)` in exact arithmetic, where there is no nan and no infinity. -/
def floatLiteral (s : String) : Option ℚ := signed decimalLiteral (strip s.toList)

/-- `round(q)` in exact arithmetic: to the nearest integer, ties to even. -/
def roundHalfEven (q : ℚ) : ℤ :=
  let n := ⌊q⌋
  if q - n < 1 / 2 then n
  else if 1 / 2 < q - n then n + 1
  else if n % 2 = 0 then n else n + 1

/-- A number in decimal, with at least `width` digits. -/
def padded (width : ℕ) (n : ℤ) : String :=
  let ds := (toString n).toList
  String.ofList (List.replicate (width - ds.length) '0' ++ ds)

/-- Year, month and day of a day number counted from 1970-01-01. -/
def civil (day : ℤ) : ℤ × ℤ × ℤ :=
  let z := day + 719468
  let era := z / 146097
  let doe := z % 146097
  let yoe := (doe - doe / 1460 + doe / 36524 - doe / 146096) / 365
  let doy := doe - (365 * yoe + yoe / 4 - yoe / 100)
  let mp := (5 * doy + 2) / 153
  let month := if mp < 10 then mp + 3 else mp - 9
  let year := yoe + era * 400 + if month ≤ 2 then 1 else 0
  (year, month, doy - (153 * mp + 2) / 5 + 1)

/-- `t.isoformat(sep)` for microseconds since 1970-01-01. -/
def isoText (sep : Char) (t : Time) : String :=
  let (year, month, day) := civil (t / 86400000000)
  let us := t % 86400000000
  let seconds := us / 1000000
  padded 4 year ++ "-" ++ padded 2 month ++ "-" ++ padded 2 day ++ String.ofList [sep] ++
    padded 2 (seconds / 3600) ++ ":" ++ padded 2 (seconds / 60 % 60) ++ ":" ++
    padded 2 (seconds % 60) ++
    if us % 1000000 = 0 then "" else "." ++ padded 6 (us % 1000000)

/-- Exact arithmetic. -/
instance : Prims ℚ where
  ofRat q := q
  abs q := |q|
  lt x y := decide (x < y)
  le x y := decide (x ≤ y)
  round q := some (roundHalfEven q)
  trunc q := some (if 0 ≤ q then ⌊q⌋ else -⌊-q⌋)
  floatOfStr := floatLiteral
  intOfStr := intLiteral
  repr q := toString q
  isoformat := isoText

example : ["-1.5e-1", " .5", "2.", "1_0E+2", "1..5", ".", "e5", "1__0"].map floatLiteral =
    [some (-3 / 20), some (1 / 2), some 2, some 1000, none, none, none, none] := by
  decide +kernel

-- ============================================================================
-- Values
-- ============================================================================

/-- The values held in the dicts of the service. -/
inductive Val (F : Type) : Type
  | none
  | bool (b : Bool)
  | int (i : ℤ)
  | float (x : F)
  | str (s : String)
  /-- The text that `isoformat` gives for a datetime. -/
  | iso (t : Time)
  | datetime (t : Time)
  deriving DecidableEq

namespace Val

/-- `bool(v)`. -/
def truthy : Val F → Bool
  | .none => false
  | .bool b => b
  | .int i => i != 0
  | .float x => !isZero x
  | .str s => s != ""
  | .iso _ => true
  | .datetime _ => true

/-- `v or w`. -/
def orElse (v w : Val F) : Val F := if v.truthy then v else w

/-- A number in arithmetic: `bool` and `int` count, text does not. -/
def number : Val F → Except Exc F
  | .bool b => .ok (Prims.ofRat (if b then 1 else 0))
  | .int i => .ok (Prims.ofRat i)
  | .float x => .ok x
  | .none => .error (.typeError "unsupported operand type: 'NoneType'")
  | .str _ => .error (.typeError "unsupported operand type: 'str'")
  | .iso _ => .error (.typeError "unsupported operand type: 'str'")
  | .datetime _ => .error (.typeError "unsupported operand type: 'datetime'")

/-- `float(v)`. -/
def toFloat : Val F → Except Exc F
  | .str s =>
      match Prims.floatOfStr s with
      | .some x => .ok x
      | .none => .error (.valueError ("could not convert string to float: " ++ s))
  | .iso _ => .error (.valueError "could not convert string to float")
  | v => v.number

/-- `int(v)`. -/
def toInt : Val F → Except Exc ℤ
  | .bool b => .ok (if b then 1 else 0)
  | .int i => .ok i
  | .float x =>
      match Prims.trunc x with
      | .some i => .ok i
      | .none => .error (.valueError "cannot convert float to integer")
  | .str s =>
      match Prims.intOfStr F s with
      | .some i => .ok i
      | .none => .error (.valueError ("invalid literal for int() with base 10: " ++ s))
  | .iso _ => .error (.valueError "invalid literal for int() with base 10")
  | .none => .error (.typeError "int() argument must be a string or a real number")
  | .datetime _ => .error (.typeError "int() argument must be a string or a real number")

/-- `str(v)`. -/
def toStr : Val F → String
  | .none => "None"
  | .bool b => if b then "True" else "False"
  | .int i => toString i
  | .float x => Prims.repr x
  | .str s => s
  | .iso t => Prims.isoformat F 'T' t
  | .datetime t => Prims.isoformat F ' ' t

@[simp] theorem truthy_none : (Val.none : Val F).truthy = false := rfl

@[simp] theorem truthy_str (s : String) : (Val.str s : Val F).truthy = (s != "") := rfl

@[simp] theorem truthy_float (x : F) : (Val.float x).truthy = !isZero x := rfl

@[simp] theorem toFloat_float (x : F) : (Val.float x).toFloat = .ok x := rfl

@[simp] theorem toStr_str (s : String) : (Val.str s : Val F).toStr = s := rfl

end Val

-- ============================================================================
-- Dicts
-- ============================================================================

/-- An enumeration of the keys of a kind of dict, with their Python text. -/
class DictKey (K : Type) where
  name : K → String

/-- A dict with keys in `K` whose order does not matter. -/
abbrev Dict (K F : Type) : Type := K → Option (Val F)

namespace Dict

variable {K : Type}

/-- `{}`. -/
def empty : Dict K F := fun _ => none

/-- `d.get(k)`. -/
def get (d : Dict K F) (k : K) : Val F := (d k).getD .none

/-- `d.get(k, default)`. -/
def getD (d : Dict K F) (k : K) (default : Val F) : Val F := (d k).getD default

/-- `d[k]`. -/
def item [DictKey K] (d : Dict K F) (k : K) : Except Exc (Val F) :=
  match d k with
  | some v => .ok v
  | none => .error (.keyError (DictKey.name k))

omit [Prims F] in
theorem item_eq_ok [DictKey K] {d : Dict K F} {k : K} {v : Val F} (h : d.item k = .ok v) :
    d k = some v := by
  unfold Dict.item at h
  split at h
  next w hw =>
    cases h
    exact hw
  next => cases h

end Dict

end Py
