/-!
# Variable-length numbers

A number is written seven bits a byte, lowest first, every byte but the last with its high bit
set. `Varint.decode` takes at most ten bytes and refuses what does not fit 64 bits;
`Varint.decode_encode` says that it reads what was written and leaves what follows.
-/

namespace StorageFeatures.Varint

/-- The bytes of a number. -/
def encode (n : Nat) : List UInt8 :=
  if n < 128 then [n.toUInt8] else (n % 128 + 128).toUInt8 :: encode (n / 128)
termination_by n
decreasing_by omega

/-- Reads a number of at most `limit` bytes, the last of which is below two if it is the tenth. -/
def take : Nat → List UInt8 → Option (Nat × List UInt8)
  | 0, _ | _, [] => none
  | limit + 1, b :: r =>
    if b.toNat < 128 then
      if limit = 0 ∧ 2 ≤ b.toNat then none else some (b.toNat, r)
    else
      match take limit r with
      | some (m, r) => some (b.toNat - 128 + 128 * m, r)
      | none => none

/-- Reads a number of 64 bits. -/
def decode (bytes : List UInt8) : Option (Nat × List UInt8) := take 10 bytes

theorem toNat_toUInt8 {n : Nat} (h : n < 256) : n.toUInt8.toNat = n := by
  simp [Nat.mod_eq_of_lt h]

/-- A number is read back from its groups of seven bits, given enough groups for its size. -/
theorem take_encode (limit n : Nat) (h : n < 2 * Nat.pow 128 limit) (rest : List UInt8) :
    take (limit + 1) (encode n ++ rest) = some (n, rest) := by
  induction limit generalizing n with
  | zero =>
    have h : n < 2 := h
    rw [encode, if_pos (by omega)]
    have hn := toNat_toUInt8 (n := n) (by omega)
    simp [take, show n % 256 = n by omega, show n < 128 by omega, show ¬ 2 ≤ n by omega]
  | succ limit ih =>
    rw [encode]
    split
    · rename_i hs
      simp [take, show n % 256 = n by omega, hs]
    · rename_i hb
      have h' : n / 128 < 2 * Nat.pow 128 limit := by
        have hp : Nat.pow 128 (limit + 1) = Nat.pow 128 limit * 128 := rfl
        omega
      have hn := toNat_toUInt8 (n := n % 128 + 128) (by omega)
      rw [List.cons_append, take, hn, if_neg (by omega), ih (n / 128) h']
      simp only [Option.some.injEq, Prod.mk.injEq, and_true]
      omega

/-- A number of 64 bits is read back, and what follows it is left. -/
theorem decode_encode {n : Nat} (h : n < UInt64.size) (rest : List UInt8) :
    decode (encode n ++ rest) = some (n, rest) :=
  take_encode 9 n h rest

/-- Reading takes at least one byte. -/
theorem length_of_take {limit n : Nat} {bytes rest : List UInt8}
    (h : take limit bytes = some (n, rest)) : rest.length < bytes.length := by
  induction limit generalizing bytes n rest with
  | zero => simp [take] at h
  | succ limit ih =>
    cases bytes with
    | nil => simp [take] at h
    | cons b r =>
      simp only [take] at h
      split at h
      · split at h
        · simp at h
        · simp only [Option.some.injEq, Prod.mk.injEq] at h
          simp [← h.2]
      · split at h
        · rename_i hm
          have := ih hm
          simp only [Option.some.injEq, Prod.mk.injEq] at h
          simp only [List.length_cons, ← h.2]
          omega
        · simp at h

end StorageFeatures.Varint
