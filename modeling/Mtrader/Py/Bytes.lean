/-
  Mtrader.Py.Bytes

  Python's `bytes`, and what `str.encode` and `bytes.decode` make of a text.

  A text here is a sequence of Unicode scalar values, so that encoding it never
  fails; decoding fails on bytes that are not UTF-8.
-/

import Mathlib.Data.List.Basic

namespace Py

/-- `bytes`. -/
abbrev Bytes := List UInt8

namespace Bytes

/-- `s.encode()`. -/
def ofStr (s : String) : Bytes := s.toUTF8.data.toList

/-- `bs.decode()`; `none` when the bytes are not UTF-8. -/
def toStr (bs : Bytes) : Option String := String.fromUTF8? ⟨bs.toArray⟩

theorem toStr_ofStr (s : String) : toStr (ofStr s) = some s := by
  have hbytes : (⟨(ofStr s).toArray⟩ : ByteArray) = s.toByteArray := by
    rw [ofStr, Array.toArray_toList]
    rfl
  rw [toStr, hbytes, String.fromUTF8?, dif_pos s.isValidUTF8]
  rfl

/-- `bs.ljust(n, fill)`. -/
def ljust (bs : Bytes) (n : ℕ) (fill : UInt8) : Bytes := bs ++ List.replicate (n - bs.length) fill

theorem ljust_of_le {bs : Bytes} {n : ℕ} (h : n ≤ bs.length) (fill : UInt8) :
    bs.ljust n fill = bs := by
  rw [ljust, Nat.sub_eq_zero_of_le h, List.replicate_zero, List.append_nil]

-- ============================================================================
-- ASCII
-- ============================================================================

/-- A character that UTF-8 writes as one byte. -/
def IsAscii (ch : Char) : Prop := ch.utf8Size = 1

instance (ch : Char) : Decidable (IsAscii ch) := inferInstanceAs (Decidable (_ = _))

theorem flatMap_ascii {cs : List Char} (h : ∀ ch ∈ cs, IsAscii ch) :
    cs.flatMap String.utf8EncodeChar = cs.map Char.toUInt8 := by
  induction cs with
  | nil => rfl
  | cons ch cs ih =>
      rw [List.flatMap_cons, ih fun d hd => h d (List.mem_cons_of_mem ch hd),
        String.utf8EncodeChar_eq_singleton (h ch List.mem_cons_self)]
      rfl

/-- An ASCII text has one byte for each of its characters. -/
theorem ofStr_ascii {s : String} (h : ∀ ch ∈ s.toList, IsAscii ch) :
    ofStr s = s.toList.map Char.toUInt8 := by
  have hbytes : s.toByteArray = s.toList.utf8Encode := by
    rw [← String.toByteArray_ofList, String.ofList_toList]
  rw [← flatMap_ascii h]
  show s.toByteArray.data.toList = _
  rw [hbytes, List.utf8Encode]
  simp

theorem toUInt8_inj {ch ch' : Char} (h : IsAscii ch) (h' : IsAscii ch')
    (heq : ch.toUInt8 = ch'.toUInt8) : ch = ch' := by
  have hle : ch.val.toNat ≤ 127 := Char.utf8Size_eq_one_iff.mp h
  have hle' : ch'.val.toNat ≤ 127 := Char.utf8Size_eq_one_iff.mp h'
  have hnat : ch.val.toNat % 256 = ch'.val.toNat % 256 := congrArg UInt8.toNat heq
  have hval : ch.val.toNat = ch'.val.toNat := by omega
  exact Char.ext (UInt32.toNat_inj.mp hval)

theorem map_toUInt8_inj {cs cs' : List Char} (h : ∀ ch ∈ cs, IsAscii ch)
    (h' : ∀ ch ∈ cs', IsAscii ch) (heq : cs.map Char.toUInt8 = cs'.map Char.toUInt8) :
    cs = cs' := by
  induction cs generalizing cs' with
  | nil => exact (List.map_eq_nil_iff.mp heq.symm).symm
  | cons ch cs ih =>
      cases cs' with
      | nil => cases heq
      | cons ch' cs' =>
          rw [List.map_cons, List.map_cons, List.cons.injEq] at heq
          rw [toUInt8_inj (h ch List.mem_cons_self) (h' ch' List.mem_cons_self) heq.1,
            ih (fun d hd => h d (List.mem_cons_of_mem ch hd))
              (fun d hd => h' d (List.mem_cons_of_mem ch' hd)) heq.2]

end Bytes

/-- `s[-n:]`. -/
def lastChars (n : ℕ) (s : String) : String :=
  String.ofList (s.toList.drop (s.toList.length - n))

end Py
