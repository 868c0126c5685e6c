import WasmHot.Core.Object

/-!
# Words and their bytes

A `uint32_t` crosses the borders of the program as four bytes, least significant byte first: in the
length and the type of a frame and in the magic and the type of an output delta. `loadU32` reads
them and `storeU32` writes them, and each undoes the other.
-/

namespace WasmHot

/-- The four bytes that `memcpy` reads out of a `uint32_t`, least significant byte first. -/
def storeU32 (n : UInt32) : List UInt8 :=
  [n.toUInt8, (n >>> 8).toUInt8, (n >>> 16).toUInt8, (n >>> 24).toUInt8]

@[simp] theorem length_storeU32 (n : UInt32) : (storeU32 n).length = 4 := rfl

/-- Bits put above those of a number are added to it. -/
theorem or_mul_two_pow {a k : ℕ} (h : a < 2 ^ k) (b : ℕ) : a ||| b * 2 ^ k = a + b * 2 ^ k := by
  rw [← Nat.shiftLeft_eq, Nat.or_comm, ← Nat.shiftLeft_add_eq_or_of_lt h, Nat.add_comm]

/-- The value of four bytes. -/
theorem toNat_loadU32 (b₀ b₁ b₂ b₃ : UInt8) (rest : List UInt8) :
    (loadU32 (b₀ :: b₁ :: b₂ :: b₃ :: rest)).toNat =
      b₀.toNat + b₁.toNat * 2 ^ 8 + b₂.toNat * 2 ^ 16 + b₃.toNat * 2 ^ 24 := by
  have h₀ := b₀.toNat_lt
  have h₁ := b₁.toNat_lt
  have h₂ := b₂.toNat_lt
  have h₃ := b₃.toNat_lt
  have h₀₁ : b₀.toNat + b₁.toNat * 2 ^ 8 < 2 ^ 16 := by omega
  have h₀₂ : b₀.toNat + b₁.toNat * 2 ^ 8 + b₂.toNat * 2 ^ 16 < 2 ^ 24 := by omega
  have hor : (loadU32 (b₀ :: b₁ :: b₂ :: b₃ :: rest)).toNat =
      b₀.toNat ||| b₁.toNat * 2 ^ 8 ||| b₂.toNat * 2 ^ 16 ||| b₃.toNat * 2 ^ 24 := by
    simp only [loadU32, UInt32.toNat_or, UInt32.toNat_shiftLeft, UInt8.toNat_toUInt32,
      Nat.shiftLeft_eq, UInt32.reduceToNat, Nat.reduceMod]
    rw [Nat.mod_eq_of_lt, Nat.mod_eq_of_lt, Nat.mod_eq_of_lt] <;> omega
  rw [hor, or_mul_two_pow h₀, or_mul_two_pow h₀₁, or_mul_two_pow h₀₂]

/-- What `memcpy` wrote, `memcpy` reads back. -/
@[simp] theorem loadU32_storeU32_append (n : UInt32) (rest : List UInt8) :
    loadU32 (storeU32 n ++ rest) = n := by
  apply UInt32.toNat_inj.mp
  have hn := n.toNat_lt
  simp only [storeU32, List.cons_append, toNat_loadU32, UInt32.toNat_toUInt8,
    UInt32.toNat_shiftRight, Nat.shiftRight_eq_div_pow, UInt32.reduceToNat, Nat.reduceMod]
  omega

@[simp] theorem loadU32_storeU32 (n : UInt32) : loadU32 (storeU32 n) = n :=
  loadU32_storeU32_append n []

/-- Bytes with room for a word begin with the word that is read from them. -/
theorem storeU32_loadU32 {bytes : List UInt8} (h : 4 ≤ bytes.length) :
    storeU32 (loadU32 bytes) ++ bytes.drop 4 = bytes := by
  match bytes, h with
  | b₀ :: b₁ :: b₂ :: b₃ :: rest, _ =>
    have h₀ := b₀.toNat_lt
    have h₁ := b₁.toNat_lt
    have h₂ := b₂.toNat_lt
    have h₃ := b₃.toNat_lt
    simp only [storeU32, List.cons_append, List.cons.injEq, ← UInt8.toNat_inj, toNat_loadU32,
      UInt32.toNat_toUInt8, UInt32.toNat_shiftRight, Nat.shiftRight_eq_div_pow,
      UInt32.reduceToNat, Nat.reduceMod]
    refine ⟨?_, ?_, ?_, ?_, rfl⟩
    all_goals omega

end WasmHot
