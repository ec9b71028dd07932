/-
Byte strings on disk: unsigned numbers, least significant byte first, and files that are a sequence of records.
-/
import Mathlib.Tactic

namespace MaxRedis.Bytes

open List

/-! ## Numbers -/

def encodeLE : ℕ → ℕ → List UInt8
  | 0, _ => []
  | width + 1, n => UInt8.ofNat n :: encodeLE width (n / 256)

def decodeLE : List UInt8 → ℕ
  | [] => 0
  | b :: bs => b.toNat + 256 * decodeLE bs

@[simp] lemma length_encodeLE (width n : ℕ) : (encodeLE width n).length = width := by
  induction width generalizing n with
  | zero => rfl
  | succ _ ih => simp [encodeLE, ih]

lemma decodeLE_encodeLE (width n : ℕ) : decodeLE (encodeLE width n) = n % 256 ^ width := by
  induction width generalizing n with
  | zero => simp [encodeLE, decodeLE, Nat.mod_one]
  | succ _ ih =>
    have hbyte : (UInt8.ofNat n).toNat = n % 256 := by simp
    rw [encodeLE, decodeLE, ih, hbyte, pow_succ', Nat.mod_mul]

lemma decodeLE_encodeLE_of_lt {width n : ℕ} (h : n < 256 ^ width) : decodeLE (encodeLE width n) = n := by
  rw [decodeLE_encodeLE, Nat.mod_eq_of_lt h]

lemma decodeLE_lt (bs : List UInt8) : decodeLE bs < 256 ^ bs.length := by
  induction bs with
  | nil => simp [decodeLE]
  | cons b =>
    have hb := b.toNat_lt
    rw [decodeLE, length_cons]
    omega

lemma encodeLE_decodeLE (bs : List UInt8) : encodeLE bs.length (decodeLE bs) = bs := by
  induction bs with
  | nil => rfl
  | cons b bs ih =>
    have hb := b.toNat_lt
    have hlow : UInt8.ofNat (b.toNat + 256 * decodeLE bs) = b := by
      rw [← UInt8.toNat_inj, UInt8.toNat_ofNat']
      omega
    have hhigh : (b.toNat + 256 * decodeLE bs) / 256 = decodeLE bs := by omega
    rw [length_cons, decodeLE, encodeLE, hlow, hhigh, ih]

lemma decodeLE_inj {bs cs : List UInt8} (hlen : bs.length = cs.length) (h : decodeLE bs = decodeLE cs) : bs = cs := by
  rw [← encodeLE_decodeLE bs, ← encodeLE_decodeLE cs, hlen, h]

/-! ## Records -/

section Records
variable {τ α : Type} (step : τ → List UInt8 → Option (τ × List UInt8)) (push : τ → α → τ) (write : α → List UInt8)

def scan : ℕ → τ → List UInt8 → τ
  | 0, t, _ => t
  | fuel + 1, t, bs =>
    match step t bs with
    | none => t
    | some (t, rest) => scan fuel t rest

def writeAll (as : List α) : List UInt8 := as.flatMap write

def Accepts : τ → List α → Prop
  | _, [] => True
  | t, a :: as => (∀ rest, step t (write a ++ rest) = some (push t a, rest)) ∧ Accepts (push t a) as

def Stops : τ → List α → Prop
  | _, [] => True
  | t, a :: as => (∀ m < (write a).length, step t ((write a).take m) = none) ∧ Stops (push t a) as

def whole : ℕ → List α → List α
  | _, [] => []
  | n, a :: as => if (write a).length ≤ n then a :: whole (n - (write a).length) as else []

variable {step push write} {as : List α} {t : τ}

@[simp] lemma writeAll_nil : writeAll write [] = [] := rfl

@[simp] lemma writeAll_cons (a : α) (as : List α) : writeAll write (a :: as) = write a ++ writeAll write as := rfl

@[simp] lemma writeAll_append (as bs : List α) :
    writeAll write (as ++ bs) = writeAll write as ++ writeAll write bs := by
  simp [writeAll]

lemma length_le_writeAll (hw : ∀ a, 0 < (write a).length) (as : List α) : as.length ≤ (writeAll write as).length := by
  induction as with
  | nil => exact Nat.zero_le _
  | cons a =>
    have ha := hw a
    simp only [writeAll_cons, length_cons, length_append]
    omega

lemma scan_invariant {P : τ → Prop} (hstep : ∀ t t' bs rest, step t bs = some (t', rest) → P t → P t')
    (h : P t) (fuel : ℕ) (bs : List UInt8) : P (scan step fuel t bs) := by
  induction fuel generalizing t bs with
  | zero => exact h
  | succ _ ih =>
    unfold scan
    split
    · exact h
    · rename_i t' rest hs
      exact ih (hstep _ _ _ _ hs h) rest

lemma scan_accepts (h : Accepts step push write t as) (fuel : ℕ) (rest : List UInt8) :
    scan step (as.length + fuel) t (writeAll write as ++ rest) = scan step fuel (as.foldl push t) rest := by
  induction as generalizing t with
  | nil => simp
  | cons a as ih =>
    have hfuel : (a :: as).length + fuel = (as.length + fuel) + 1 := by simp; omega
    rw [hfuel, writeAll_cons, append_assoc, scan, h.1]
    exact ih h.2

theorem scan_writeAll (hnil : ∀ t, step t [] = none) (h : Accepts step push write t as) {fuel : ℕ}
    (hf : as.length ≤ fuel) : scan step fuel t (writeAll write as) = as.foldl push t := by
  obtain ⟨k, rfl⟩ := Nat.exists_eq_add_of_le hf
  have hs := scan_accepts h k []
  rw [append_nil] at hs
  rw [hs]
  cases k with
  | zero => rfl
  | succ => rw [scan, hnil]

/-! ### Files that are cut -/

lemma getElem?_whole {n j : ℕ} {a : α} :
    (whole write n as)[j]? = some a ↔ as[j]? = some a ∧ (writeAll write (as.take (j + 1))).length ≤ n := by
  induction as generalizing n j with
  | nil => simp [whole]
  | cons _ _ ih =>
    rw [whole, take_succ_cons, writeAll_cons, length_append]
    split_ifs with hb
    · cases j with
      | zero => simp [hb]
      | succ =>
        rw [getElem?_cons_succ, ih]
        exact and_congr_right fun _ => by omega
    · simp only [getElem?_nil, reduceCtorEq, false_iff]
      intro _
      omega

theorem scan_cut (hw : ∀ a, 0 < (write a).length) (hnil : ∀ t, step t [] = none)
    (h : Accepts step push write t as) (hs : Stops step push write t as) {n fuel : ℕ}
    (hf : ((writeAll write as).take n).length < fuel) :
    scan step fuel t ((writeAll write as).take n) = (whole write n as).foldl push t := by
  induction as generalizing t n fuel with
  | nil =>
    obtain ⟨fuel, rfl⟩ := Nat.exists_eq_succ_of_ne_zero (Nat.ne_zero_of_lt hf)
    rw [writeAll_nil, take_nil, scan, hnil]
    rfl
  | cons a as ih =>
    obtain ⟨fuel, rfl⟩ := Nat.exists_eq_succ_of_ne_zero (Nat.ne_zero_of_lt hf)
    have ha := hw a
    rw [whole]
    split_ifs with hn
    · have hcut : (writeAll write (a :: as)).take n =
          write a ++ (writeAll write as).take (n - (write a).length) := by
        rw [writeAll_cons, take_append, take_of_length_le hn]
      rw [hcut, length_append] at hf
      rw [hcut, scan, h.1]
      exact ih h.2 hs.2 (by omega)
    · -- the cut goes through this record
      have hcut : (writeAll write (a :: as)).take n = (write a).take n := by
        rw [writeAll_cons, take_append_of_le_length (by omega)]
      rw [hcut, scan, hs.1 n (by omega)]
      rfl

end Records

end MaxRedis.Bytes
