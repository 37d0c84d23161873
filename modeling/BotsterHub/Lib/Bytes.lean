import Mathlib.Algebra.Group.Nat.Defs
import Mathlib.Data.Nat.Init

/-!
Little-endian words and self-delimiting blocks of bytes.

`leBytes w n` are the `w` low bytes of `n`, lowest first, and `ofLe` reads them back. A
concatenation of blocks, each a length word and its bytes, can be cut in one way only. If the
words of a code can be read back one at a time, no two texts have the same code.
-/

def leBytes : ℕ → ℕ → List UInt8
  | 0, _ => []
  | w + 1, n => UInt8.ofNat (n % 256) :: leBytes w (n / 256)

def ofLe : List UInt8 → ℕ
  | [] => 0
  | b :: bs => b.toNat + 256 * ofLe bs

@[simp] theorem length_leBytes (w n : ℕ) : (leBytes w n).length = w := by
  induction w generalizing n with
  | zero => rfl
  | succ w ih => rw [leBytes, List.length_cons, ih]

theorem ofLe_leBytes {w n : ℕ} (h : n < 256 ^ w) : ofLe (leBytes w n) = n := by
  induction w generalizing n with
  | zero =>
    have hn : n = 0 := by simpa using h
    rw [hn]
    rfl
  | succ w ih =>
    have hd : n / 256 < 256 ^ w := by
      rw [Nat.div_lt_iff_lt_mul (by decide), ← Nat.pow_succ]
      exact h
    have hm : (UInt8.ofNat (n % 256)).toNat = n % 256 :=
      UInt8.toNat_ofNat_of_lt' (Nat.mod_lt n (by decide))
    rw [leBytes, ofLe, ih hd, hm]
    omega

theorem leBytes_ofLe (bs : List UInt8) : leBytes bs.length (ofLe bs) = bs := by
  induction bs with
  | nil => rfl
  | cons b bs ih =>
    have hb : b.toNat < 256 := b.toNat_lt
    have hm : (b.toNat + 256 * ofLe bs) % 256 = b.toNat := by omega
    have hd : (b.toNat + 256 * ofLe bs) / 256 = ofLe bs := by omega
    rw [List.length_cons, ofLe, leBytes, hm, hd, ih, UInt8.ofNat_toNat]

structure IsBlock (w : ℕ) (block : List UInt8) : Prop where
  long : w ≤ block.length
  declared : ofLe (block.take w) = block.length - w

namespace IsBlock

variable {w : ℕ} {block block' rest rest' : List UInt8}

theorem length_eq (h : IsBlock w block) (h' : IsBlock w block')
    (heq : block ++ rest = block' ++ rest') : block.length = block'.length := by
  have ht : block.take w = block'.take w := by
    rw [← List.take_append_of_le_length h.long, heq, List.take_append_of_le_length h'.long]
  have hl := h.declared
  rw [ht, h'.declared] at hl
  have := h.long
  have := h'.long
  omega

theorem append_inj (h : IsBlock w block) (h' : IsBlock w block')
    (heq : block ++ rest = block' ++ rest') : block = block' ∧ rest = rest' :=
  List.append_inj heq (h.length_eq h' heq)

end IsBlock

section Code

variable {α β : Type*} {write : α → List β} {read : List β → Option (α × List β)}

theorem flatMap_injective_of_read (hn : read [] = none)
    (hr : ∀ a rest, read (write a ++ rest) = some (a, rest)) :
    Function.Injective (List.flatMap write) := by
  intro text text' h
  induction text generalizing text' with
  | nil =>
    cases text' with
    | nil => rfl
    | cons a rest =>
      -- The code of a letter is not empty, since it is read back.
      have hw := hr a (rest.flatMap write)
      rw [← List.flatMap_cons, ← h, List.flatMap_nil, hn] at hw
      cases hw
  | cons a rest ih =>
    have hw := hr a (rest.flatMap write)
    rw [← List.flatMap_cons, h] at hw
    cases text' with
    | nil =>
      rw [List.flatMap_nil, hn] at hw
      cases hw
    | cons =>
      rw [List.flatMap_cons, hr] at hw
      obtain ⟨rfl, hrest⟩ := Prod.mk.inj (Option.some.inj hw)
      rw [ih hrest.symm]

end Code
