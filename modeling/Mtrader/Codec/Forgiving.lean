/-
  Mtrader.Codec.Forgiving

  The other reader of base64, forgiving as browsers are: it drops white space, takes a
  text with or without its padding, and refuses every other character that is not in the
  alphabet.
-/

import Mtrader.Codec.Base64

namespace Base64

open Py (Bytes)

/-- ASCII white space. -/
def isSpace (ch : Char) : Bool := ch ∈ ['\t', '\n', '\x0c', '\r', ' ']

/-- A text without one or two signs of padding at its end. -/
def dropPads (cs : List Char) : List Char :=
  match cs.reverse with
  | '=' :: '=' :: rest => rest.reverse
  | '=' :: rest => rest.reverse
  | _ => cs

/-- The bytes of six-bit values; bits left over at the end are dropped. -/
def unpack (quad : Quad) : List ℕ → Bytes
  | [] => []
  | d :: ds => quad.emit d ++ unpack (quad.next d) ds

/-- The forgiving reader; `none` when it fails. -/
def forgiving (cs : List Char) : Option Bytes := do
  let cs := cs.filter fun ch => !isSpace ch
  let cs := if cs.length % 4 = 0 then dropPads cs else cs
  let ds ← cs.mapM value
  if ds.length % 4 = 1 then none else some (unpack .first ds)

-- ============================================================================
-- What is written
-- ============================================================================

/-- The six-bit values that `encode` writes. -/
def digits : Bytes → List ℕ
  | a :: b :: c :: rest =>
      [a.toNat / 4, a.toNat % 4 * 16 + b.toNat / 16, b.toNat % 16 * 4 + c.toNat / 64,
        c.toNat % 64] ++ digits rest
  | [a, b] => [a.toNat / 4, a.toNat % 4 * 16 + b.toNat / 16, b.toNat % 16 * 4]
  | [a] => [a.toNat / 4, a.toNat % 4 * 16]
  | [] => []

/-- The number of signs of padding that `encode` writes. -/
def pads : Bytes → ℕ
  | _ :: _ :: _ :: rest => pads rest
  | [_, _] => 1
  | [_] => 2
  | [] => 0

theorem encode_eq (bs : Bytes) :
    encode bs = (digits bs).map symbol ++ List.replicate (pads bs) '=' := by
  induction bs using encode.induct with
  | case1 a b c rest ih =>
      rw [encode, ih]
      rfl
  | case2 a b => rfl
  | case3 a => rfl
  | case4 => rfl

theorem digits_lt (bs : Bytes) : ∀ d ∈ digits bs, d < 64 := by
  induction bs using encode.induct with
  | case1 a b c rest ih =>
      have ha := a.toNat_lt
      have hb := b.toNat_lt
      have hc := c.toNat_lt
      intro d hd
      rcases List.mem_append.mp hd with hd | hd
      · simp only [List.mem_cons, List.not_mem_nil, or_false] at hd
        omega
      · exact ih d hd
  | case2 a b =>
      have ha := a.toNat_lt
      have hb := b.toNat_lt
      intro d hd
      simp only [digits, List.mem_cons, List.not_mem_nil, or_false] at hd
      omega
  | case3 a =>
      have ha := a.toNat_lt
      intro d hd
      simp only [digits, List.mem_cons, List.not_mem_nil, or_false] at hd
      omega
  | case4 =>
      intro d hd
      cases hd

theorem pads_le (bs : Bytes) : pads bs ≤ 2 := by
  induction bs using encode.induct with
  | case1 a b c rest ih => exact ih
  | case2 a b => simp [pads]
  | case3 a => simp [pads]
  | case4 => simp [pads]

theorem length_digits (bs : Bytes) : ((digits bs).length + pads bs) % 4 = 0 := by
  induction bs using encode.induct with
  | case1 a b c rest ih =>
      simp only [digits, pads, List.length_append, List.length_cons, List.length_nil]
      omega
  | case2 a b => simp [digits, pads]
  | case3 a => simp [digits, pads]
  | case4 => simp [digits, pads]

theorem unpack_digits (bs : Bytes) : unpack .first (digits bs) = bs := by
  induction bs using encode.induct with
  | case1 a b c rest ih =>
      have ha := a.toNat_lt
      have hb := b.toNat_lt
      have hc := c.toNat_lt
      simp only [digits, List.cons_append, List.nil_append, unpack, Quad.next, Quad.emit, ih]
      rw [ofNat_eq (a := a) (by omega), ofNat_eq (a := b) (by omega), ofNat_eq (a := c) (by omega)]
  | case2 a b =>
      have ha := a.toNat_lt
      have hb := b.toNat_lt
      simp only [digits, unpack, Quad.next, Quad.emit, List.nil_append, List.cons_append]
      rw [ofNat_eq (a := a) (by omega), ofNat_eq (a := b) (by omega)]
  | case3 a =>
      have ha := a.toNat_lt
      simp only [digits, unpack, Quad.next, Quad.emit, List.nil_append, List.cons_append]
      rw [ofNat_eq (a := a) (by omega)]
  | case4 => rfl

-- ============================================================================
-- Reading it
-- ============================================================================

theorem symbol_not_space {d : ℕ} (h : d < 64) : isSpace (symbol d) = false := by
  revert d
  decide +kernel

theorem mapM_symbol {ds : List ℕ} (h : ∀ d ∈ ds, d < 64) :
    (ds.map symbol).mapM value = some ds := by
  induction ds with
  | nil => rfl
  | cons d ds ih =>
      have hd := value_symbol (h d List.mem_cons_self)
      have hds := ih fun d' hd' => h d' (List.mem_cons_of_mem d hd')
      simp [hd, hds]

/-- The padding of a text comes off again. -/
theorem dropPads_append {cs : List Char} {n : ℕ} (hn : n ≤ 2) (hcs : ∀ ch ∈ cs, ch ≠ '=') :
    dropPads (cs ++ List.replicate n '=') = cs := by
  have hlast : ∀ ch rest, cs.reverse = ch :: rest → ch ≠ '=' := by
    intro ch rest h
    apply hcs
    rw [← List.mem_reverse, h]
    exact List.mem_cons_self
  unfold dropPads
  rw [List.reverse_append, List.reverse_replicate]
  obtain rfl | rfl | rfl : n = 0 ∨ n = 1 ∨ n = 2 := by omega
  · split
    next rest heq => exact absurd rfl (hlast _ _ heq)
    next rest heq => exact absurd rfl (hlast _ _ heq)
    next => simp
  · show (match '=' :: cs.reverse with
      | '=' :: '=' :: rest => rest.reverse
      | '=' :: rest => rest.reverse
      | _ => _) = cs
    split
    next rest heq => exact absurd rfl (hlast _ _ (List.cons.inj heq).2)
    next rest _ heq =>
      rw [← (List.cons.inj heq).2, List.reverse_reverse]
    next hne => exact absurd rfl (hne _)
  · exact List.reverse_reverse cs

/-- The forgiving reader, too, gives back the bytes that were written. -/
theorem forgiving_encode (bs : Bytes) : forgiving (encode bs) = some bs := by
  have hdigits := digits_lt bs
  have hspace : (encode bs).filter (fun ch => !isSpace ch) = encode bs := by
    rw [List.filter_eq_self, encode_eq]
    intro ch hch
    rcases List.mem_append.mp hch with hch | hch
    · obtain ⟨d, hd, rfl⟩ := List.mem_map.mp hch
      rw [symbol_not_space (hdigits d hd)]
      rfl
    · rw [List.eq_of_mem_replicate hch]
      decide
  have hlength : (encode bs).length % 4 = 0 := by
    rw [encode_eq, List.length_append, List.length_map, List.length_replicate]
    exact length_digits bs
  have hpads : dropPads (encode bs) = (digits bs).map symbol := by
    rw [encode_eq]
    refine dropPads_append (pads_le bs) fun ch hch => ?_
    obtain ⟨d, hd, rfl⟩ := List.mem_map.mp hch
    exact symbol_ne_pad (hdigits d hd)
  have hcount : (digits bs).length % 4 ≠ 1 := by
    have hle := pads_le bs
    have hsum := length_digits bs
    omega
  simp only [forgiving, hspace, hlength, if_true, hpads, mapM_symbol hdigits, Option.bind_eq_bind,
    Option.bind_some, hcount, if_false, unpack_digits]

end Base64
