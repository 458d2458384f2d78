import Mathlib.Algebra.Group.Nat.Defs

/-!
# Byte memory with little-endian loads and stores

A memory gives a byte to every offset. Words of several bytes are read and
written with the least significant byte first. A load is determined by the
bytes it covers, and a store changes only the bytes it covers; the load and
store laws of fixed widths follow from these two facts.
-/

namespace Foundation

/-- A byte at every offset. -/
abbrev ByteMemory := Nat → UInt8

namespace ByteMemory

/-- The number whose `n` little-endian bytes start at `off`. -/
def loadNat (d : ByteMemory) (off : Nat) : Nat → Nat
  | 0 => 0
  | n + 1 => (d off).toNat + 256 * loadNat d (off + 1) n

variable (d d' : ByteMemory)

/-- Write the `n` low bytes of `v` from `off` on. -/
def storeNat (off n v : Nat) : ByteMemory := fun i =>
  if off ≤ i ∧ i < off + n then UInt8.ofNat (v / 256 ^ (i - off)) else d i

def load32 (off : Nat) : UInt32 := UInt32.ofNat (d.loadNat off 4)

def load64 (off : Nat) : UInt64 := UInt64.ofNat (d.loadNat off 8)

def store32 (off : Nat) (v : UInt32) : ByteMemory := d.storeNat off 4 v.toNat

def store64 (off : Nat) (v : UInt64) : ByteMemory := d.storeNat off 8 v.toNat

/-- Set the first `n` bytes to zero. -/
def clear (n : Nat) : ByteMemory := fun i => if i < n then 0 else d i

/-- Consecutive 32-bit words from `off` on. -/
def loadWords (d : ByteMemory) (off : Nat) : Nat → List UInt32
  | 0 => []
  | n + 1 => d.load32 off :: loadWords d (off + 4) n

/-- Write consecutive 32-bit words from `off` on. -/
def storeWords (d : ByteMemory) (off : Nat) : List UInt32 → ByteMemory
  | [] => d
  | w :: ws => storeWords (d.store32 off w) (off + 4) ws

/-- Two memories agree on the bytes from `off` to `off + n`. -/
def Agree (off n : Nat) : Prop := ∀ i, off ≤ i → i < off + n → d' i = d i

variable {d d'}

theorem Agree.mono {off n off' n' : Nat} (h : d.Agree d' off n)
    (hl : off ≤ off') (hr : off' + n' ≤ off + n) : d.Agree d' off' n' :=
  fun i h₁ h₂ => h i (by omega) (by omega)

theorem loadNat_congr {off n : Nat} (h : d.Agree d' off n) :
    d'.loadNat off n = d.loadNat off n := by
  induction n generalizing off with
  | zero => rfl
  | succ n ih =>
      have hhead : d' off = d off := h off (by omega) (by omega)
      have hrest : d.Agree d' (off + 1) n := h.mono (by omega) (by omega)
      simp only [loadNat, hhead, ih hrest]

theorem load32_congr {off : Nat} (h : d.Agree d' off 4) : d'.load32 off = d.load32 off := by
  rw [load32, load32, loadNat_congr h]

theorem load64_congr {off : Nat} (h : d.Agree d' off 8) : d'.load64 off = d.load64 off := by
  rw [load64, load64, loadNat_congr h]

theorem loadWords_congr {off n : Nat} (h : d.Agree d' off (4 * n)) :
    d'.loadWords off n = d.loadWords off n := by
  induction n generalizing off with
  | zero => rfl
  | succ n ih =>
      simp only [loadWords]
      have hhead : d.Agree d' off 4 := h.mono (by omega) (by omega)
      have htail : d.Agree d' (off + 4) (4 * n) := h.mono (by omega) (by omega)
      rw [load32_congr hhead, ih htail]

/-- Reading back bytes that spell `v` gives `v`, cut to the width read. -/
theorem loadNat_of_bytes {off n v : Nat}
    (h : ∀ j, j < n → d (off + j) = UInt8.ofNat (v / 256 ^ j)) :
    d.loadNat off n = v % 256 ^ n := by
  induction n generalizing off v with
  | zero => simp [loadNat, Nat.mod_one]
  | succ n ih =>
      have hhead : (d off).toNat = v % 256 := by
        have h0 := h 0 (by omega)
        simp only [Nat.add_zero, Nat.pow_zero, Nat.div_one] at h0
        simp [h0]
      have htail : d.loadNat (off + 1) n = v / 256 % 256 ^ n := by
        apply ih
        intro j hj
        rw [Nat.div_div_eq_div_mul, ← Nat.pow_succ', Nat.add_assoc, Nat.add_comm 1 j]
        exact h (j + 1) (by omega)
      rw [loadNat, hhead, htail, Nat.pow_succ', Nat.mod_mul]

theorem storeNat_agree {off n v off' n' : Nat}
    (h : off' + n' ≤ off ∨ off + n ≤ off') : d.Agree (d.storeNat off n v) off' n' := by
  intro i h₁ h₂
  simp only [storeNat]
  rw [if_neg (by omega)]

theorem store32_agree {off off' n' : Nat} {v : UInt32}
    (h : off' + n' ≤ off ∨ off + 4 ≤ off') : d.Agree (d.store32 off v) off' n' :=
  storeNat_agree h

theorem store64_agree {off off' n' : Nat} {v : UInt64}
    (h : off' + n' ≤ off ∨ off + 8 ≤ off') : d.Agree (d.store64 off v) off' n' :=
  storeNat_agree h

theorem loadNat_storeNat (off n v : Nat) :
    (d.storeNat off n v).loadNat off n = v % 256 ^ n := by
  apply loadNat_of_bytes
  intro j hj
  simp only [storeNat]
  rw [if_pos (by omega), Nat.add_sub_cancel_left]

@[simp] theorem load32_store32 (off : Nat) (v : UInt32) : (d.store32 off v).load32 off = v := by
  have hv : v.toNat < 256 ^ 4 := v.toNat_lt
  rw [load32, store32, loadNat_storeNat, Nat.mod_eq_of_lt hv, UInt32.ofNat_toNat]

@[simp] theorem load64_store64 (off : Nat) (v : UInt64) : (d.store64 off v).load64 off = v := by
  have hv : v.toNat < 256 ^ 8 := v.toNat_lt
  rw [load64, store64, loadNat_storeNat, Nat.mod_eq_of_lt hv, UInt64.ofNat_toNat]

theorem storeWords_agree {ws : List UInt32} {off off' n' : Nat}
    (h : off' + n' ≤ off ∨ off + 4 * ws.length ≤ off') :
    d.Agree (d.storeWords off ws) off' n' := by
  induction ws generalizing d off with
  | nil => intro i _ _; rfl
  | cons w ws ih =>
      simp only [List.length_cons] at h
      intro i h₁ h₂
      rw [storeWords, ih (d := d.store32 off w) (by omega) i h₁ h₂]
      have hfirst : d.Agree (d.store32 off w) off' n' := store32_agree (by omega)
      exact hfirst i h₁ h₂

theorem loadWords_storeWords (off : Nat) (ws : List UInt32) :
    (d.storeWords off ws).loadWords off ws.length = ws := by
  induction ws generalizing d off with
  | nil => rfl
  | cons w ws ih =>
      simp only [storeWords, List.length_cons, loadWords]
      have hhead : (d.store32 off w).Agree ((d.store32 off w).storeWords (off + 4) ws) off 4 :=
        storeWords_agree (by omega)
      rw [ih, load32_congr hhead, load32_store32]

section Frame

variable {off off' : Nat} {v : UInt32} {v' : UInt64}

@[simp] theorem load32_store32_ne (h : off + 4 ≤ off' ∨ off' + 4 ≤ off) :
    (d.store32 off' v).load32 off = d.load32 off :=
  load32_congr (store32_agree h)

@[simp] theorem load32_store64_ne (h : off + 4 ≤ off' ∨ off' + 8 ≤ off) :
    (d.store64 off' v').load32 off = d.load32 off :=
  load32_congr (store64_agree h)

@[simp] theorem load64_store32_ne (h : off + 8 ≤ off' ∨ off' + 4 ≤ off) :
    (d.store32 off' v).load64 off = d.load64 off :=
  load64_congr (store32_agree h)

@[simp] theorem load32_storeWords_ne {ws : List UInt32}
    (h : off + 4 ≤ off' ∨ off' + 4 * ws.length ≤ off) :
    (d.storeWords off' ws).load32 off = d.load32 off :=
  load32_congr (storeWords_agree h)

@[simp] theorem load64_storeWords_ne {ws : List UInt32}
    (h : off + 8 ≤ off' ∨ off' + 4 * ws.length ≤ off) :
    (d.storeWords off' ws).load64 off = d.load64 off :=
  load64_congr (storeWords_agree h)

@[simp] theorem loadWords_store32_ne {n : Nat} (h : off + 4 * n ≤ off' ∨ off' + 4 ≤ off) :
    (d.store32 off' v).loadWords off n = d.loadWords off n :=
  loadWords_congr (store32_agree h)

end Frame

end ByteMemory

end Foundation
