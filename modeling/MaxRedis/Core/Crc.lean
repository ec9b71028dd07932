/-
Checksums by table: a general library, with nothing of any particular program in it.
-/
import MaxRedis.Core.Bytes

namespace MaxRedis.Crc

open Bytes List

variable (table : ℕ → UInt32) (crc : UInt32)

def step (crc : UInt32) (b : UInt8) : UInt32 := table ((crc ^^^ b.toUInt32) &&& 0xFF).toNat ^^^ (crc >>> 8)

def run (crc : UInt32) (bs : List UInt8) : UInt32 := bs.foldl (step table) crc

def TopBytes : Prop := ∀ i < 256, ∀ j < 256, table i >>> 24 = table j >>> 24 → i = j

@[simp] lemma run_cons (b : UInt8) (bs : List UInt8) :
    run table crc (b :: bs) = run table (step table crc b) bs := rfl

@[simp] lemma run_append (as bs : List UInt8) :
    run table crc (as ++ bs) = run table (run table crc as) bs := foldl_append

/-! ## The low byte of a register and the rest -/

lemma step_eq (b : UInt8) : step table crc b = table (crc.toUInt8 ^^^ b).toNat ^^^ (crc >>> 8) := by
  have hlow : ((crc ^^^ b.toUInt32) &&& 0xFF).toNat = (crc.toUInt8 ^^^ b).toNat := by
    calc
      ((crc ^^^ b.toUInt32) &&& 0xFF).toNat = (crc ^^^ b.toUInt32).toNat % 256 := by
        exact Nat.and_two_pow_sub_one_eq_mod _ 8
      _ = (crc ^^^ b.toUInt32).toUInt8.toNat := (UInt32.toNat_toUInt8 _).symm
      _ = (crc.toUInt8 ^^^ b).toNat := by rw [UInt32.toUInt8_xor, UInt8.toUInt8_toUInt32]
  rw [step, hlow]

lemma toNat_rest (c : UInt32) : (c >>> 8).toNat = c.toNat / 256 := by
  exact Nat.shiftRight_eq_div_pow c.toNat 8

lemma eq_of_low_rest {c d : UInt32} (hlow : c.toUInt8 = d.toUInt8) (hrest : c >>> 8 = d >>> 8) : c = d := by
  have hmod := congrArg UInt8.toNat hlow
  have hdiv := congrArg UInt32.toNat hrest
  rw [UInt32.toNat_toUInt8, UInt32.toNat_toUInt8] at hmod
  rw [toNat_rest, toNat_rest] at hdiv
  rw [← UInt32.toNat_inj]
  omega

lemma step_top (b : UInt8) : step table crc b >>> 24 = table (crc.toUInt8 ^^^ b).toNat >>> 24 := by
  have hzero : crc >>> 8 >>> 24 = 0 := by
    rw [← UInt32.toNat_inj, UInt32.toNat_shiftRight, toNat_rest]
    have hlt := crc.toNat_lt
    have hshift : UInt32.toNat 24 % 32 = 24 := rfl
    rw [hshift, UInt32.toNat_zero]
    omega
  rw [step_eq, UInt32.shiftRight_xor, hzero, UInt32.xor_zero]

/-! ## Top bytes -/

def topBits (ws : List UInt32) : ℕ := ws.foldl (fun s (w : UInt32) => s ||| 2 ^ (w >>> 24).toNat) 0

lemma exists_top_of_testBit {ws : List UInt32} {k : ℕ} (h : (topBits ws).testBit k) :
    ∃ w ∈ ws, (w >>> 24).toNat = k := by
  have hfold : ∀ (ws : List UInt32) (s : ℕ), (ws.foldl (fun s (w : UInt32) => s ||| 2 ^ (w >>> 24).toNat) s).testBit k →
      s.testBit k ∨ ∃ w ∈ ws, (w >>> 24).toNat = k := by
    intro ws
    induction ws with
    | nil => exact fun s hs => Or.inl hs
    | cons w _ ih =>
      intro s hs
      rcases ih _ hs with hor | ⟨v, hv, htop⟩
      · rw [Nat.testBit_or, Bool.or_eq_true, Nat.testBit_two_pow] at hor
        rcases hor with hk | hk
        · exact Or.inl hk
        · exact Or.inr ⟨w, mem_cons_self, of_decide_eq_true hk⟩
      · exact Or.inr ⟨v, mem_cons_of_mem w hv, htop⟩
  rcases hfold ws 0 h with hzero | hw
  · rw [Nat.zero_testBit] at hzero
    cases hzero
  · exact hw

lemma topBytes_of_surjective (h : ∀ k < 256, ∃ i < 256, (table i >>> 24).toNat = k) : TopBytes table := by
  have hbyte : ∀ w : UInt32, (w >>> 24).toNat < 256 := by
    intro w
    have hw := w.toNat_lt
    have hshift : UInt32.toNat 24 % 32 = 24 := rfl
    rw [UInt32.toNat_shiftRight, hshift]
    omega
  let top : Fin 256 → Fin 256 := fun i => ⟨(table i >>> 24).toNat, hbyte _⟩
  have hsurj : Function.Surjective top := by
    intro k
    obtain ⟨i, hi, htop⟩ := h k k.isLt
    exact ⟨⟨i, hi⟩, Fin.ext htop⟩
  have hinj := Finite.injective_iff_surjective.2 hsurj
  intro i hi j hj heq
  have hfin : top ⟨i, hi⟩ = top ⟨j, hj⟩ := Fin.ext (congrArg UInt32.toNat heq)
  exact congrArg Fin.val (hinj hfin)

/-! ## Registers that differ -/

section Injective
variable {table} (h : TopBytes table)
include h

lemma step_injective (b : UInt8) : Function.Injective (fun crc => step table crc b) := by
  intro c d hcd
  have heq : step table c b = step table d b := hcd
  have htop : table (c.toUInt8 ^^^ b).toNat >>> 24 = table (d.toUInt8 ^^^ b).toNat >>> 24 := by
    rw [← step_top, ← step_top, heq]
  have hindex := h _ (UInt8.toNat_lt _) _ (UInt8.toNat_lt _) htop
  have hlow : c.toUInt8 = d.toUInt8 := (UInt8.xor_left_inj b).1 (UInt8.toNat_inj.1 hindex)
  rw [step_eq, step_eq, hindex] at heq
  exact eq_of_low_rest hlow ((UInt32.xor_right_inj _).1 heq)

lemma run_injective (bs : List UInt8) : Function.Injective (fun crc => run table crc bs) := by
  induction bs with
  | nil => exact fun c d hcd => hcd
  | cons b _ ih => exact fun c d hcd => step_injective h b (ih hcd)

end Injective

/-! ## Bytes that differ -/

lemma step_xor (crc w : UInt32) : step table (crc ^^^ w) 0 = step table crc w.toUInt8 ^^^ (w >>> 8) := by
  rw [step_eq, step_eq, UInt32.toUInt8_xor, UInt8.xor_zero, UInt32.shiftRight_xor, UInt32.xor_assoc]

lemma run_eq_zeros {bs : List UInt8} (hlen : bs.length ≤ 4) (crc : UInt32) :
    run table crc bs = run table (crc ^^^ UInt32.ofNat (decodeLE bs)) (replicate bs.length 0) := by
  induction bs generalizing crc with
  | nil => simp [decodeLE]
  | cons b bs ih =>
    have hfit : decodeLE (b :: bs) < 2 ^ 32 := by
      calc
        decodeLE (b :: bs) < 256 ^ (b :: bs).length := decodeLE_lt _
        _ ≤ 256 ^ 4 := Nat.pow_le_pow_right (by decide) hlen
    have hb := b.toNat_lt
    rw [decodeLE] at hfit
    have hlow : (UInt32.ofNat (decodeLE (b :: bs))).toUInt8 = b := by
      rw [← UInt8.toNat_inj, UInt32.toNat_toUInt8, UInt32.toNat_ofNat', decodeLE]
      omega
    have hrest : UInt32.ofNat (decodeLE (b :: bs)) >>> 8 = UInt32.ofNat (decodeLE bs) := by
      rw [← UInt32.toNat_inj, toNat_rest, UInt32.toNat_ofNat', UInt32.toNat_ofNat', decodeLE]
      omega
    rw [length_cons, replicate_succ, run_cons, run_cons, step_xor, hlow, hrest]
    exact ih (by simp at hlen; omega) (step table crc b)

section Burst
variable {table} (h : TopBytes table) {crc : UInt32}
include h

lemma run_burst {xs ys : List UInt8} (hlen : xs.length = ys.length) (h4 : xs.length ≤ 4)
    (hrun : run table crc xs = run table crc ys) : xs = ys := by
  have hzeros : run table (crc ^^^ UInt32.ofNat (decodeLE xs)) (replicate ys.length 0) =
      run table (crc ^^^ UInt32.ofNat (decodeLE ys)) (replicate ys.length 0) := by
    rw [← run_eq_zeros table (hlen ▸ h4), ← hrun, ← hlen, ← run_eq_zeros table h4]
  have hadded := (UInt32.xor_right_inj _).1 (run_injective h _ hzeros)
  have hfit : ∀ zs : List UInt8, zs.length ≤ 4 → decodeLE zs < 2 ^ 32 := fun zs hz =>
    lt_of_lt_of_le (decodeLE_lt zs) (Nat.pow_le_pow_right (by decide) hz)
  have hnum := congrArg UInt32.toNat hadded
  rw [UInt32.toNat_ofNat_of_lt' (hfit xs h4), UInt32.toNat_ofNat_of_lt' (hfit ys (hlen ▸ h4))] at hnum
  exact decodeLE_inj hlen hnum

theorem burst_detected {as xs ys bs : List UInt8} (hlen : xs.length = ys.length) (h4 : xs.length ≤ 4)
    (hrun : run table crc (as ++ (xs ++ bs)) = run table crc (as ++ (ys ++ bs))) : xs = ys := by
  rw [run_append, run_append, run_append, run_append] at hrun
  exact run_burst h hlen h4 (run_injective h bs hrun)

end Burst

/-- **The residue**: behind a message, the complement of its register leads to one and the same register. -/
lemma run_complement :
    run table crc (encodeLE 4 (~~~crc).toNat) = run table (-1) (replicate 4 0) := by
  have hdecode : decodeLE (encodeLE 4 (~~~crc).toNat) = (~~~crc).toNat :=
    decodeLE_encodeLE_of_lt (by simpa using UInt32.toNat_lt (~~~crc))
  rw [run_eq_zeros table (by simp), hdecode, UInt32.ofNat_toNat, UInt32.xor_not, UInt32.xor_self]
  rfl

/-! ## Bit by bit -/

section Bits
variable (poly : UInt32)

def bit (crc : UInt32) : UInt32 := if crc &&& 1 = 1 then (crc >>> 1) ^^^ poly else crc >>> 1

lemma low_bit (c : UInt32) : c &&& 1 = 1 ↔ c.toNat % 2 = 1 := by
  rw [← UInt32.toNat_inj, UInt32.toNat_and]
  exact Nat.and_one_is_mod c.toNat ▸ Iff.rfl

lemma bit_xor (a b : UInt32) : bit poly (a ^^^ b) = bit poly a ^^^ bit poly b := by
  have hlow : (a ^^^ b) &&& 1 = 1 ↔ ¬(a &&& 1 = 1 ↔ b &&& 1 = 1) := by
    rw [low_bit, low_bit, low_bit, UInt32.toNat_xor, Nat.xor_mod_two_eq_one]
  unfold bit
  rw [UInt32.shiftRight_xor]
  by_cases ha : a &&& 1 = 1
  · by_cases hb : b &&& 1 = 1
    · rw [if_neg (by rw [hlow]; tauto), if_pos ha, if_pos hb]
      -- the polynomial has been added twice
      rw [UInt32.xor_assoc (a >>> 1), UInt32.xor_comm (b >>> 1), ← UInt32.xor_assoc poly, UInt32.xor_self,
        UInt32.zero_xor]
    · rw [if_pos (by rw [hlow]; tauto), if_pos ha, if_neg hb, UInt32.xor_assoc, UInt32.xor_assoc,
        UInt32.xor_comm (b >>> 1)]
  · by_cases hb : b &&& 1 = 1
    · rw [if_pos (by rw [hlow]; tauto), if_neg ha, if_pos hb, UInt32.xor_assoc]
    · rw [if_neg (by rw [hlow]; tauto), if_neg ha, if_neg hb]

lemma iterate_bit_xor (k : ℕ) (a b : UInt32) : (bit poly)^[k] (a ^^^ b) = (bit poly)^[k] a ^^^ (bit poly)^[k] b := by
  induction k generalizing a b with
  | zero => rfl
  | succ k ih => rw [Function.iterate_succ_apply, bit_xor, ih]; rfl

lemma toNat_iterate_bit {k : ℕ} {c : UInt32} (h : c.toNat % 2 ^ k = 0) :
    ((bit poly)^[k] c).toNat = c.toNat / 2 ^ k := by
  induction k generalizing c with
  | zero => simp
  | succ k ih =>
    have heven : c.toNat % 2 = 0 := by
      rw [Nat.pow_succ'] at h
      exact Nat.mod_eq_zero_of_dvd (dvd_of_mul_right_dvd (Nat.dvd_of_mod_eq_zero h))
    have hbit : (bit poly c).toNat = c.toNat / 2 := by
      rw [bit, if_neg (by rw [low_bit]; omega)]
      exact Nat.shiftRight_eq_div_pow c.toNat 1
    have hrest : (bit poly c).toNat % 2 ^ k = 0 := by
      rw [hbit, ← Nat.mod_mul_right_div_self, ← Nat.pow_succ', h, Nat.zero_div]
    rw [Function.iterate_succ_apply, ih hrest, hbit, Nat.div_div_eq_div_mul, ← Nat.pow_succ']

lemma step_eq_bits {table : ℕ → UInt32} (h : ∀ i < 256, table i = (bit poly)^[8] (.ofNat i)) (crc : UInt32)
    (b : UInt8) : step table crc b = (bit poly)^[8] (crc ^^^ b.toUInt32) := by
  set x := crc ^^^ b.toUInt32 with hx
  have hlow : (x &&& 0xFF).toNat = x.toNat % 256 := Nat.and_two_pow_sub_one_eq_mod _ 8
  have hword : ((x &&& 0xFF) : UInt32) = .ofNat (x.toNat % 256) := by
    rw [← hlow, UInt32.ofNat_toNat]
  -- the low byte and the rest of the register
  set rest := x ^^^ (x &&& 0xFF) with hrest
  have hsplit : x = (x &&& 0xFF) ^^^ rest := by
    rw [hrest, UInt32.xor_comm x, ← UInt32.xor_assoc, UInt32.xor_self, UInt32.zero_xor]
  have hnat : rest.toNat = x.toNat ^^^ x.toNat % 256 := by
    rw [hrest, UInt32.toNat_xor, hlow]
  have hzero : rest.toNat % 2 ^ 8 = 0 := by
    rw [hnat, Nat.xor_mod_two_pow, Nat.mod_mod, Nat.xor_self]
  have hbyte : b.toNat / 2 ^ 8 = 0 := Nat.div_eq_of_lt b.toNat_lt
  have hshift : (bit poly)^[8] rest = crc >>> 8 := by
    rw [← UInt32.toNat_inj, toNat_iterate_bit poly hzero, hnat, Nat.xor_div_two_pow,
      Nat.div_eq_of_lt (Nat.mod_lt x.toNat (by decide)), Nat.xor_zero, hx, UInt32.toNat_xor, Nat.xor_div_two_pow,
      UInt8.toNat_toUInt32, hbyte, Nat.xor_zero, toNat_rest]
  calc step table crc b = table (x &&& 0xFF).toNat ^^^ (crc >>> 8) := rfl
    _ = (bit poly)^[8] (x &&& 0xFF) ^^^ (bit poly)^[8] rest := by
      rw [hshift, hlow, h _ (Nat.mod_lt _ (by decide)), ← hword]
    _ = (bit poly)^[8] x := by rw [← iterate_bit_xor, ← hsplit]

lemma run_eq_bits {table : ℕ → UInt32} (h : ∀ i < 256, table i = (bit poly)^[8] (.ofNat i)) (crc : UInt32)
    (bs : List UInt8) : run table crc bs = bs.foldl (fun crc b => (bit poly)^[8] (crc ^^^ b.toUInt32)) crc := by
  induction bs generalizing crc with
  | nil => rfl
  | cons b bs ih => rw [run_cons, ih, step_eq_bits poly h, foldl_cons]

end Bits

end MaxRedis.Crc
