/-
  Mtrader.Codec.Base64

  Base64 with the standard alphabet: `encode` as `base64.b64encode` writes it, and
  `decode` as `base64.b64decode` reads it by default.  The reader is lenient: it skips
  every character outside the alphabet, and stops at the padding that completes a
  group of four, whatever stands behind it.
-/

import Mtrader.Py.Bytes
import Mathlib.Tactic.Linarith

namespace Base64

open Py (Bytes)

def alphabet : List Char :=
  "ABCDEFGHIJKLMNOPQRSTUVWXYZabcdefghijklmnopqrstuvwxyz0123456789+/".toList

/-- The character of a six-bit value. -/
def symbol (d : ℕ) : Char := alphabet.getD d '='

/-- The six-bit value of a character. -/
def value (ch : Char) : Option ℕ := alphabet.findIdx? fun s => s = ch

theorem value_symbol {d : ℕ} (h : d < 64) : value (symbol d) = some d := by
  revert d
  decide +kernel

theorem symbol_ne_pad {d : ℕ} (h : d < 64) : symbol d ≠ '=' := by
  revert d
  decide +kernel

theorem symbol_ascii {d : ℕ} (h : d < 64) : Bytes.IsAscii (symbol d) := by
  revert d
  decide +kernel

-- ============================================================================
-- Writing
-- ============================================================================

/-- Three bytes as four characters. -/
def group (a b c : UInt8) : List Char :=
  [symbol (a.toNat / 4), symbol (a.toNat % 4 * 16 + b.toNat / 16),
    symbol (b.toNat % 16 * 4 + c.toNat / 64), symbol (c.toNat % 64)]

/-- `base64.b64encode`. -/
def encode : Bytes → List Char
  | a :: b :: c :: rest => group a b c ++ encode rest
  | [a, b] => [symbol (a.toNat / 4), symbol (a.toNat % 4 * 16 + b.toNat / 16),
      symbol (b.toNat % 16 * 4), '=']
  | [a] => [symbol (a.toNat / 4), symbol (a.toNat % 4 * 16), '=', '=']
  | [] => []

theorem encode_ascii (bs : Bytes) : ∀ ch ∈ encode bs, Bytes.IsAscii ch := by
  have hpad : Bytes.IsAscii '=' := by decide
  induction bs using encode.induct with
  | case1 a b c rest ih =>
      have ha := a.toNat_lt
      have hb := b.toNat_lt
      have hc := c.toNat_lt
      rw [encode]
      intro ch hch
      rw [List.mem_append] at hch
      rcases hch with hch | hch
      · rw [group] at hch
        simp only [List.mem_cons, List.not_mem_nil, or_false] at hch
        rcases hch with rfl | rfl | rfl | rfl <;> exact symbol_ascii (by omega)
      · exact ih ch hch
  | case2 a b =>
      have ha := a.toNat_lt
      have hb := b.toNat_lt
      rw [encode]
      intro ch hch
      simp only [List.mem_cons, List.not_mem_nil, or_false] at hch
      rcases hch with rfl | rfl | rfl | rfl
      · exact symbol_ascii (by omega)
      · exact symbol_ascii (by omega)
      · exact symbol_ascii (by omega)
      · exact hpad
  | case3 a =>
      have ha := a.toNat_lt
      rw [encode]
      intro ch hch
      simp only [List.mem_cons, List.not_mem_nil, or_false] at hch
      rcases hch with rfl | rfl | rfl | rfl
      · exact symbol_ascii (by omega)
      · exact symbol_ascii (by omega)
      · exact hpad
      · exact hpad
  | case4 => nofun

/-- Whole groups are written one after the other. -/
theorem encode_append {as : Bytes} (bs : Bytes) (h : 3 ∣ as.length) :
    encode (as ++ bs) = encode as ++ encode bs := by
  induction as using encode.induct with
  | case1 a b c rest ih =>
      have hrest : 3 ∣ rest.length := by
        have hlen : (a :: b :: c :: rest).length = rest.length + 3 := rfl
        omega
      show group a b c ++ encode (rest ++ bs) = group a b c ++ encode rest ++ encode bs
      rw [ih hrest, List.append_assoc]
  | case2 a b =>
      have hlen : [a, b].length = 2 := rfl
      omega
  | case3 a =>
      have hlen : [a].length = 1 := rfl
      omega
  | case4 => rfl

theorem length_encode {bs : Bytes} (h : 3 ∣ bs.length) :
    (encode bs).length = bs.length / 3 * 4 := by
  induction bs using encode.induct with
  | case1 a b c rest ih =>
      have hlen : (a :: b :: c :: rest).length = rest.length + 3 := rfl
      have hgroup : (group a b c).length = 4 := rfl
      have hrest : 3 ∣ rest.length := by omega
      rw [encode, List.length_append, ih hrest, hgroup, hlen]
      omega
  | case2 a b =>
      have hlen : [a, b].length = 2 := rfl
      omega
  | case3 a =>
      have hlen : [a].length = 1 := rfl
      omega
  | case4 => rfl

-- ============================================================================
-- Reading
-- ============================================================================

/-- Where the reader is in a group of four, with the bits it has not used yet. -/
inductive Quad
  | first
  | second (left : ℕ)
  | third (left : ℕ)
  | fourth (left : ℕ)

/-- How many characters of the group have been read. -/
def Quad.pos : Quad → ℕ
  | first => 0
  | second _ => 1
  | third _ => 2
  | fourth _ => 3

/-- The byte, if any, that six more bits complete. -/
def Quad.emit (d : ℕ) : Quad → List UInt8
  | first => []
  | second left => [UInt8.ofNat (left * 4 + d / 16)]
  | third left => [UInt8.ofNat (left * 16 + d / 4)]
  | fourth left => [UInt8.ofNat (left * 64 + d)]

def Quad.next (d : ℕ) : Quad → Quad
  | first => second d
  | second _ => third (d % 16)
  | third _ => fourth (d % 4)
  | fourth _ => first

/-- `binascii.a2b_base64`, from the middle of a text: `pads` counts the padding since
    the last character of the alphabet. -/
def read (quad : Quad) (pads : ℕ) : List Char → Option Bytes
  | [] => if quad.pos = 0 then some [] else none
  | ch :: rest =>
      if ch = '=' then
        if 2 ≤ quad.pos ∧ 4 ≤ quad.pos + (pads + 1) then some []
        else read quad (if 2 ≤ quad.pos then pads + 1 else pads) rest
      else
        match value ch with
        | none => read quad pads rest
        | some d => (read (quad.next d) 0 rest).map (quad.emit d ++ ·)

/-- `base64.b64decode`; `none` when it raises.  A text with a character beyond ASCII is
    refused before anything is read. -/
def decode (cs : List Char) : Option Bytes :=
  if cs.all fun ch => Bytes.IsAscii ch then read .first 0 cs else none

theorem all_ascii {cs : List Char} :
    (cs.all fun ch => Bytes.IsAscii ch) = true ↔ ∀ ch ∈ cs, Bytes.IsAscii ch := by
  rw [List.all_eq_true]
  exact forall₂_congr fun ch _ => decide_eq_true_iff

theorem ascii_of_decode {cs : List Char} {bs : Bytes} (h : decode cs = some bs) :
    ∀ ch ∈ cs, Bytes.IsAscii ch := by
  rw [decode] at h
  split at h
  next hall => exact all_ascii.mp hall
  next => cases h

theorem read_symbol (quad : Quad) (pads : ℕ) {d : ℕ} (hd : d < 64) (rest : List Char) :
    read quad pads (symbol d :: rest) = (read (quad.next d) 0 rest).map (quad.emit d ++ ·) := by
  rw [read, if_neg (symbol_ne_pad hd), value_symbol hd]

theorem ofNat_eq {a : UInt8} {n : ℕ} (h : n = a.toNat) : UInt8.ofNat n = a := by
  rw [h, UInt8.ofNat_toNat]

theorem read_group (pads : ℕ) (a b c : UInt8) (rest : List Char) :
    read .first pads (group a b c ++ rest) = (read .first 0 rest).map ([a, b, c] ++ ·) := by
  have ha := a.toNat_lt
  have hb := b.toNat_lt
  have hc := c.toNat_lt
  show read .first pads (symbol _ :: symbol _ :: symbol _ :: symbol _ :: rest) = _
  rw [read_symbol _ _ (by omega), read_symbol _ _ (by omega), read_symbol _ _ (by omega),
    read_symbol _ _ (by omega)]
  simp only [Quad.next, Quad.emit, Option.map_map, List.nil_append]
  rw [ofNat_eq (a := a) (by omega), ofNat_eq (a := b) (by omega), ofNat_eq (a := c) (by omega)]
  rfl

/-- Reading gives back the bytes that were written. -/
theorem decode_encode (bs : Bytes) : decode (encode bs) = some bs := by
  rw [decode, if_pos (all_ascii.mpr (encode_ascii bs))]
  induction bs using encode.induct with
  | case1 a b c rest ih =>
      rw [encode, read_group, ih]
      rfl
  | case2 a b =>
      have ha := a.toNat_lt
      have hb := b.toNat_lt
      rw [encode, read_symbol _ _ (by omega), read_symbol _ _ (by omega),
        read_symbol _ _ (by omega)]
      simp only [Quad.next, Quad.emit, Option.map_map, List.nil_append]
      rw [ofNat_eq (a := a) (by omega), ofNat_eq (a := b) (by omega)]
      rfl
  | case3 a =>
      have ha := a.toNat_lt
      rw [encode, read_symbol _ _ (by omega), read_symbol _ _ (by omega)]
      simp only [Quad.next, Quad.emit, Option.map_map, List.nil_append]
      rw [ofNat_eq (a := a) (by omega)]
      rfl
  | case4 => rfl

theorem encode_injective : Function.Injective encode := by
  intro as bs h
  have has := decode_encode as
  rw [h, decode_encode] at has
  exact (Option.some.inj has).symm

-- ============================================================================
-- How long a text has to be
-- ============================================================================

/-- Three quarters of a byte for each character read, in quarters, less what has been
    written. -/
def Quad.credit : Quad → ℕ
  | first => 0
  | second _ => 3
  | third _ => 2
  | fourth _ => 1

theorem Quad.emit_credit (quad : Quad) (d : ℕ) :
    4 * (quad.emit d).length + (quad.next d).credit = quad.credit + 3 := by
  cases quad <;> rfl

theorem length_of_read {cs : List Char} {quad : Quad} {pads : ℕ} {bs : Bytes}
    (h : read quad pads cs = some bs) : 4 * bs.length ≤ quad.credit + 3 * cs.length := by
  induction cs generalizing quad pads bs with
  | nil =>
      rw [read] at h
      split at h
      · cases h
        simp
      · cases h
  | cons ch rest ih =>
      rw [read] at h
      rw [List.length_cons]
      split at h
      · split at h
        · cases h
          simp
        · have hrest := ih h
          omega
      · split at h
        · have hrest := ih h
          omega
        · next d _ =>
            rw [Option.map_eq_some_iff] at h
            obtain ⟨tail, htail, rfl⟩ := h
            have hrest := ih htail
            have hemit := quad.emit_credit d
            rw [List.length_append]
            omega

/-- A text has at least four characters for every three bytes read from it. -/
theorem length_of_decode {cs : List Char} {bs : Bytes} (h : decode cs = some bs) :
    4 * bs.length ≤ 3 * cs.length := by
  rw [decode, if_pos (all_ascii.mpr (ascii_of_decode h))] at h
  have hlen := length_of_read h
  rw [Quad.credit] at hlen
  omega

end Base64
