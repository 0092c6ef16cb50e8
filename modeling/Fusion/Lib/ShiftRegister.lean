import Mathlib.Algebra.Group.Nat.Defs
import Mathlib.Data.List.Basic
import Mathlib.Logic.Function.Iterate

/-!
# ShiftRegister — linear feedback shift registers over bits

The register moves down one place for each bit; the bit that falls out
decides whether the feedback word is added. Adding is exclusive or, so a
step is linear, and where the feedback word has its top bit set it loses
nothing. Two inputs that differ within one register's width of bits
therefore leave different states, whatever comes before and after.
-/

namespace ShiftRegister

variable {n : Nat}

/-- One move of the register. -/
def shift (poly c : BitVec n) : BitVec n :=
  if c.getLsbD 0 then (c >>> 1) ^^^ poly else c >>> 1

/-- A bit as the lowest one of a word. -/
def bit (b : Bool) : BitVec n :=
  if b then 1#n else 0#n

/-- The register after one input bit. -/
def feed (poly c : BitVec n) (b : Bool) : BitVec n :=
  shift poly (c ^^^ bit b)

/-- The register after some input bits. -/
def feeds (poly c : BitVec n) (bits : List Bool) : BitVec n :=
  bits.foldl (feed poly) c

/-- The word with these bits, the lowest one first. -/
def pack : List Bool → BitVec n
  | [] => 0#n
  | b :: bits => bit b ^^^ (pack bits <<< 1)

/-- The lowest `w` bits of a number, the lowest one first. -/
def bitsOf (w x : Nat) : List Bool :=
  (List.range w).map x.testBit

/-! ## The bits of a word -/

@[simp] theorem length_bitsOf (w x : Nat) : (bitsOf w x).length = w := by simp [bitsOf]

theorem getElem?_bitsOf (w x i : Nat) :
    (bitsOf w x)[i]? = if i < w then some (x.testBit i) else none := by
  rw [bitsOf, List.getElem?_map]
  split
  · rename_i hi
    rw [List.getElem?_range hi]
    rfl
  · rename_i hi
    rw [List.getElem?_eq_none (by simpa using hi)]
    rfl

theorem bitsOf_append (a b x y : Nat) (hx : x < 2 ^ a) :
    bitsOf a x ++ bitsOf b y = bitsOf (a + b) (2 ^ a * y + x) := by
  apply List.ext_getElem?
  intro i
  rw [List.getElem?_append, length_bitsOf, getElem?_bitsOf, getElem?_bitsOf, getElem?_bitsOf,
    Nat.testBit_two_pow_mul_add y hx]
  rcases Nat.lt_or_ge i a with hlow | hhigh
  · have hin : i < a + b := by omega
    simp [hlow, hin]
  · have hout : ¬ i < a := by omega
    have hiff : i - a < b ↔ i < a + b := by omega
    simp [hout, hiff]

theorem bitsOf_injective {w x y : Nat} (hx : x < 2 ^ w) (hy : y < 2 ^ w)
    (h : bitsOf w x = bitsOf w y) : x = y := by
  apply Nat.eq_of_testBit_eq
  intro i
  rcases Nat.lt_or_ge i w with hi | hi
  · have hbit : (bitsOf w x)[i]? = (bitsOf w y)[i]? := by rw [h]
    rw [getElem?_bitsOf, getElem?_bitsOf, if_pos hi, if_pos hi] at hbit
    exact Option.some.inj hbit
  · have hpow : 2 ^ w ≤ 2 ^ i := Nat.pow_le_pow_right (by omega) hi
    rw [Nat.testBit_lt_two_pow (by omega), Nat.testBit_lt_two_pow (by omega)]

theorem getLsbD_bit (b : Bool) (i : Nat) :
    (bit b : BitVec n).getLsbD i = (decide (i < n) && (decide (i = 0) && b)) := by
  cases b with
  | false => simp [bit]
  | true =>
    rcases Nat.eq_zero_or_pos i with rfl | hpos
    · simp [bit]
    · have hne : i ≠ 0 := by omega
      simp [bit, BitVec.getLsbD_one, hne]

theorem getLsbD_pack (bits : List Bool) (i : Nat) :
    (pack bits : BitVec n).getLsbD i = (decide (i < n) && bits.getD i false) := by
  induction bits generalizing i with
  | nil => simp [pack]
  | cons b bits ih =>
    rw [pack, BitVec.getLsbD_xor, getLsbD_bit, BitVec.getLsbD_shiftLeft]
    cases i with
    | zero => simp
    | succ i =>
      by_cases hi : i + 1 < n
      · have hlow : i < n := by omega
        simp only [Nat.add_sub_cancel, ih, List.getD_cons_succ]
        simp [hi, hlow]
      · simp [hi]

theorem pack_bitsOf (w x : Nat) (hx : x < 2 ^ w) : (pack (bitsOf w x) : BitVec n) =
    BitVec.ofNat n x := by
  apply BitVec.eq_of_getLsbD_eq
  intro i hi
  rw [getLsbD_pack, BitVec.getLsbD_ofNat, List.getD_eq_getElem?_getD, getElem?_bitsOf]
  split
  · rfl
  · rename_i hout
    have hpow : 2 ^ w ≤ 2 ^ i := Nat.pow_le_pow_right (by omega) (by omega)
    rw [Nat.testBit_lt_two_pow (by omega)]
    rfl

/-- Within the width no bit is lost. -/
theorem pack_injective {bits bits' : List Bool} (hlen : bits.length = bits'.length)
    (hn : bits.length ≤ n) (h : (pack bits : BitVec n) = pack bits') : bits = bits' := by
  apply List.ext_getElem hlen
  intro i hi hi'
  have hbit : (pack bits : BitVec n).getLsbD i = (pack bits' : BitVec n).getLsbD i := by rw [h]
  have hin : i < n := by omega
  rw [getLsbD_pack, getLsbD_pack] at hbit
  simpa [hin, hi, hi'] using hbit

/-! ## One move -/

variable {poly : BitVec n}

/-- A move is linear. -/
theorem shift_xor (c d : BitVec n) : shift poly (c ^^^ d) = shift poly c ^^^ shift poly d := by
  unfold shift
  rw [BitVec.getLsbD_xor, BitVec.ushiftRight_xor_distrib]
  apply BitVec.eq_of_getLsbD_eq
  intro i hi
  cases c.getLsbD 0 <;> cases d.getLsbD 0 <;> simp only [BitVec.getLsbD_xor, Bool.xor_false,
    Bool.xor_true, Bool.not_false, Bool.not_true, if_true, if_false, Bool.false_eq_true]
  · cases (c >>> 1).getLsbD i <;> cases (d >>> 1).getLsbD i <;> cases poly.getLsbD i <;> rfl
  · cases (c >>> 1).getLsbD i <;> cases (d >>> 1).getLsbD i <;> cases poly.getLsbD i <;> rfl
  · cases (c >>> 1).getLsbD i <;> cases (d >>> 1).getLsbD i <;> cases poly.getLsbD i <;> rfl

/-- With the top bit of the feedback set, only the zero word moves to zero. -/
theorem eq_zero_of_shift (hpoly : poly.msb = true) {c : BitVec n} (h : shift poly c = 0#n) :
    c = 0#n := by
  unfold shift at h
  split at h
  · -- the word that moved down has no top bit, the feedback has
    have hpos : 0 < n := by
      by_contra hn
      obtain rfl : n = 0 := by omega
      rw [BitVec.msb_eq_getLsbD_last, BitVec.getLsbD_of_ge poly _ (by omega)] at hpoly
      cases hpoly
    have heq : c >>> 1 = poly := BitVec.xor_eq_zero_iff.mp h
    rw [← heq, BitVec.msb_eq_getLsbD_last, BitVec.getLsbD_ushiftRight] at hpoly
    rw [BitVec.getLsbD_of_ge c _ (by omega)] at hpoly
    cases hpoly
  · rename_i hlow
    apply BitVec.eq_of_getLsbD_eq
    intro i hi
    cases i with
    | zero => simpa using hlow
    | succ i =>
      have hbit : (c >>> 1).getLsbD i = (0#n).getLsbD i := by rw [h]
      rw [BitVec.getLsbD_ushiftRight, Nat.add_comm] at hbit
      simpa using hbit

theorem shift_injective (hpoly : poly.msb = true) : Function.Injective (shift poly) := by
  intro c d h
  apply BitVec.xor_eq_zero_iff.mp
  apply eq_zero_of_shift hpoly
  rw [shift_xor, h, BitVec.xor_self]

/-- Bits above the lowest only move down. -/
theorem shift_shiftLeft {bits : List Bool} (hn : bits.length < n) :
    shift poly (pack bits <<< 1) = pack bits := by
  have hlow : (pack bits <<< 1 : BitVec n).getLsbD 0 = false := by
    simp [BitVec.getLsbD_shiftLeft]
  rw [shift, hlow, if_neg (by simp)]
  apply BitVec.eq_of_getLsbD_eq
  intro i hi
  rw [BitVec.getLsbD_ushiftRight, BitVec.getLsbD_shiftLeft, Nat.add_comm 1 i]
  rcases Nat.lt_or_ge (i + 1) n with hlt | hge
  · simp [hlt]
  · have hout : bits.length ≤ i := by omega
    simp [getLsbD_pack, hout]

/-! ## A run of bits -/

theorem feeds_append (c : BitVec n) (a b : List Bool) :
    feeds poly c (a ++ b) = feeds poly (feeds poly c a) b :=
  List.foldl_append

theorem feeds_injective (hpoly : poly.msb = true) (bits : List Bool) {c d : BitVec n}
    (h : feeds poly c bits = feeds poly d bits) : c = d := by
  induction bits generalizing c d with
  | nil => exact h
  | cons b bits ih =>
    have hstep : shift poly (c ^^^ bit b) = shift poly (d ^^^ bit b) := ih h
    exact (BitVec.xor_left_inj _).mp (shift_injective hpoly hstep)

/-- **Up to a register's width of bits** may be added at once and moved
through afterwards. -/
theorem feeds_eq_shift_pack (c : BitVec n) {bits : List Bool} (hn : bits.length ≤ n) :
    feeds poly c bits = (shift poly)^[bits.length] (c ^^^ pack bits) := by
  induction bits generalizing c with
  | nil => simp [feeds, pack]
  | cons b bits ih =>
    have hlt : bits.length < n := hn
    have hpack : shift poly (c ^^^ pack (b :: bits)) = shift poly (c ^^^ bit b) ^^^ pack bits := by
      rw [pack, ← BitVec.xor_assoc, shift_xor, shift_shiftLeft hlt]
    show feeds poly (shift poly (c ^^^ bit b)) bits = _
    rw [ih _ (by omega), List.length_cons, Function.iterate_succ_apply, hpack]

theorem shift_zero : shift poly 0#n = 0#n := by
  simp [shift]

/-- **Codewords**: a word of bits with its own remainder behind it leaves
zero. -/
theorem feeds_remainder (c : BitVec n) (bits : List Bool) :
    feeds poly c (bits ++ bitsOf n (feeds poly c bits).toNat) = 0#n := by
  rw [feeds_append, feeds_eq_shift_pack _ (by simp), pack_bitsOf _ _ (BitVec.isLt _),
    BitVec.ofNat_toNat, BitVec.setWidth_eq, BitVec.xor_self]
  exact Function.iterate_fixed shift_zero _

/-- **Bursts**: inputs that differ within one width of bits leave different
states. -/
theorem feeds_burst (hpoly : poly.msb = true) (c : BitVec n) (before after : List Bool)
    {w w' : List Bool} (hlen : w.length = w'.length) (hn : w.length ≤ n) (hne : w ≠ w') :
    feeds poly c (before ++ w ++ after) ≠ feeds poly c (before ++ w' ++ after) := by
  intro h
  have hn' : w'.length ≤ n := by omega
  rw [feeds_append, feeds_append _ (before ++ w'), feeds_append, feeds_append] at h
  have hmid := feeds_injective hpoly after h
  rw [feeds_eq_shift_pack _ hn, feeds_eq_shift_pack _ hn', ← hlen] at hmid
  have hpack := (shift_injective hpoly).iterate _ hmid
  exact hne (pack_injective hlen hn ((BitVec.xor_right_inj _).mp hpack))

/-- The same, where the difference is bounded by positions. -/
theorem feeds_ne_of_window (hpoly : poly.msb = true) (c : BitVec n) {a b : List Bool}
    (hlen : a.length = b.length) (hne : a ≠ b) (k : Nat)
    (hout : ∀ i, i < k ∨ k + n ≤ i → a[i]? = b[i]?) : feeds poly c a ≠ feeds poly c b := by
  have hcut (l : List Bool) : l = l.take k ++ (l.drop k).take n ++ l.drop (k + n) := by
    rw [List.append_assoc, ← List.drop_drop, List.take_append_drop, List.take_append_drop]
  have hbefore : b.take k = a.take k := by
    apply List.ext_getElem?
    intro i
    rw [List.getElem?_take, List.getElem?_take]
    split
    · rename_i hi
      exact (hout i (.inl hi)).symm
    · rfl
  have hafter : b.drop (k + n) = a.drop (k + n) := by
    apply List.ext_getElem?
    intro i
    rw [List.getElem?_drop, List.getElem?_drop]
    exact (hout _ (.inr (by omega))).symm
  have hmid : (a.drop k).take n ≠ (b.drop k).take n := by
    intro h
    apply hne
    rw [hcut a, hcut b, h, hbefore, hafter]
  rw [hcut a, hcut b, hbefore, hafter]
  exact feeds_burst hpoly c _ _ (by simp [hlen]) (List.length_take_le ..) hmid

end ShiftRegister
