/-
# Base64Encode

A signature of the COS SDK is the digest and the text it is of, written with
`Base64Encode`. The encoder collects the bits of a byte behind those that are
not out yet, in 32 bits, and takes six off the front as long as there are six:
it is `Regroup.encode` with digits of eight and of six bits. No bit is lost of
any text, however long, and the assertions behind the loop hold of every text
but the empty one, for which `retval.size() - 2` wraps around.

Key definitions: `base64Encode`, `base64Decode`.
Key theorems: `base64Loop_regroup`, `base64_round_trip`.
-/
import CosFtp.Str
import CosFtp.Lib.Regroup

namespace CosFtp
namespace Sdk

open Regroup

/-- `b64_table`: the capital and the small letters, the digits, `+` and `/`. -/
def b64Table : Bytes :=
  (List.range' 65 26 ++ List.range' 97 26 ++ List.range' 48 10 ++ [43, 47]).map UInt8.ofNat

def b64 (x : ℕ) : UInt8 := b64Table.getD x 61

/-- The `while` loop of `Base64Encode`, with the bits it leaves. -/
def base64Drain (accumulator : UInt32) (bitsCollected : ℕ) : Bytes × ℕ :=
  if 6 ≤ bitsCollected then
    let bits := bitsCollected - 6
    let (out, left) := base64Drain accumulator bits
    (b64 (accumulator >>> UInt32.ofNat bits &&& 0x3f).toNat :: out, left)
  else ([], bitsCollected)
termination_by bitsCollected

/-- The loop of `Base64Encode` over the text. -/
def base64Loop : Bytes → UInt32 → ℕ → Bytes × UInt32 × ℕ
  | [], accumulator, bitsCollected => ([], accumulator, bitsCollected)
  | i :: rest, accumulator, bitsCollected =>
    let accumulator := accumulator <<< 8 ||| i.toUInt32
    let (out, left) := base64Drain accumulator (bitsCollected + 8)
    let (more, last) := base64Loop rest accumulator left
    (out ++ more, last)

/-- `CodecUtil::Base64Encode`, or nothing where an assertion fails. The padding is what `retval` is made
of before the loop. -/
def base64Encode (plainText : Bytes) : Option Bytes :=
  let size := (plainText.length + 2) / 3 * 4
  let (out, accumulator, bitsCollected) := base64Loop plainText 0 0
  if 0 < bitsCollected ∧ ¬ bitsCollected < 6 then none
  else
    let out := if 0 < bitsCollected then
      out ++ [b64 (accumulator <<< UInt32.ofNat (6 - bitsCollected) &&& 0x3f).toNat] else out
    -- of an empty text, the difference wraps around
    if 2 ≤ size ∧ size - 2 ≤ out.length ∧ out.length ≤ size then
      some (out ++ List.replicate (size - out.length) 61)
    else none

/-- The digit that a letter stands for. -/
def unB64 (c : UInt8) : ℕ := b64Table.idxOf c

/-- How a signature is read. -/
def base64Decode (e : Bytes) : Bytes :=
  (regroup 6 8 32 ((e.filter (· ≠ 61)).map unB64) 0 0).1.map UInt8.ofNat

theorem b64_digit {x : ℕ} (hx : x < 64) : unB64 (b64 x) = x ∧ b64 x ≠ 61 ∧ b64 x ∈ b64Table := by
  have hall : ∀ n : Fin 64, unB64 (b64 n) = n ∧ b64 n ≠ 61 ∧ b64 n ∈ b64Table := by decide +kernel
  exact hall ⟨x, hx⟩

/-- How far a shift of less than 32 goes. -/
theorem shift_width {k : ℕ} (hk : k < 32) : (UInt32.ofNat k).toNat % 32 = k := by
  rw [UInt32.toNat_ofNat', Nat.mod_eq_of_lt (by omega : k < 2 ^ 32), Nat.mod_eq_of_lt hk]

theorem mask_six : (0x3f : UInt32).toNat = 2 ^ 6 - 1 := rfl

/-- Six bits of the accumulator. -/
theorem shiftRight_six (accumulator : UInt32) {k : ℕ} (hk : k < 32) :
    (accumulator >>> UInt32.ofNat k &&& 0x3f).toNat = accumulator.toNat / 2 ^ k % 2 ^ 6 := by
  rw [UInt32.toNat_and, UInt32.toNat_shiftRight, shift_width hk, mask_six, Nat.and_two_pow_sub_one_eq_mod,
    Nat.shiftRight_eq_div_pow]

/-- The bits that are left, filled up with zeros. -/
theorem shiftLeft_six (accumulator : UInt32) {k : ℕ} (hk : k < 32) :
    (accumulator <<< UInt32.ofNat k &&& 0x3f).toNat = accumulator.toNat * 2 ^ k % 2 ^ 32 % 2 ^ 6 := by
  rw [UInt32.toNat_and, UInt32.toNat_shiftLeft, shift_width hk, mask_six, Nat.and_two_pow_sub_one_eq_mod,
    Nat.shiftLeft_eq]

/-- A byte behind the bits that are there. -/
theorem push_byte (accumulator : UInt32) (i : UInt8) :
    (accumulator <<< 8 ||| i.toUInt32).toNat = (accumulator.toNat * 2 ^ 8 + i.toNat) % 2 ^ 32 := by
  have hi : i.toNat < 2 ^ 8 := i.toNat_lt
  have hbyte : i.toUInt32.toNat = i.toNat % 2 ^ 32 := by
    rw [UInt8.toNat_toUInt32, Nat.mod_eq_of_lt (by omega)]
  have hshift : (8 : UInt32).toNat % 32 = 8 := rfl
  rw [UInt32.toNat_or, UInt32.toNat_shiftLeft, hshift, hbyte, ← Nat.or_mod_two_pow,
    ← Nat.shiftLeft_add_eq_or_of_lt hi, Nat.shiftLeft_eq]

theorem base64Drain_eq (accumulator : UInt32) (bits : ℕ) (hbits : bits ≤ 32) :
    base64Drain accumulator bits = ((drain 6 accumulator.toNat bits).map b64, bits % 6) := by
  rw [base64Drain, drain]
  by_cases hle : 6 ≤ bits
  · have ih := base64Drain_eq accumulator (bits - 6) (by omega)
    rw [if_pos hle, if_pos ⟨by decide, hle⟩]
    dsimp only
    rw [ih, shiftRight_six accumulator (by omega), ← Nat.mod_eq_sub_mod hle]
    rfl
  · rw [if_neg hle, if_neg fun h => hle h.2, Nat.mod_eq_of_lt (by omega)]
    rfl
termination_by bits

/-- **The loop writes the digits of six bits.** -/
theorem base64Loop_regroup : ∀ (plainText : Bytes) (accumulator : UInt32) (bits : ℕ), bits < 6 →
    ∀ out acc left, regroup 8 6 32 (plainText.map UInt8.toNat) accumulator.toNat bits = (out, acc, left) →
    ∃ last : UInt32, base64Loop plainText accumulator bits = (out.map b64, last, left) ∧ last.toNat = acc
  | [], accumulator, bits, _, out, acc, left, h => by
    cases h
    exact ⟨accumulator, rfl, rfl⟩
  | i :: rest, accumulator, bits, hbits, out, acc, left, h => by
    obtain ⟨more, acc', left', hrest⟩ : ∃ more acc' left', regroup 8 6 32 (rest.map UInt8.toNat)
        (accumulator <<< 8 ||| i.toUInt32).toNat ((bits + 8) % 6) = (more, acc', left') := ⟨_, _, _, rfl⟩
    obtain ⟨last, hloop, hlast⟩ := base64Loop_regroup rest _ _ (Nat.mod_lt _ (by decide)) more acc' left' hrest
    rw [List.map_cons, regroup, ← push_byte, hrest] at h
    cases h
    refine ⟨last, ?_, hlast⟩
    rw [base64Loop, base64Drain_eq _ (bits + 8) (by omega)]
    dsimp only
    rw [hloop, List.map_append]

theorem bytes_lt (plainText : Bytes) : ∀ x ∈ plainText.map UInt8.toNat, x < 2 ^ 8 := by
  intro x hx
  obtain ⟨i, -, rfl⟩ := List.mem_map.mp hx
  exact i.toNat_lt

/-- What `Base64Encode` makes of the digits: the letters, padded to groups of four. -/
theorem base64Encode_eq (plainText : Bytes) : base64Encode plainText =
    if plainText = [] then none
    else some ((encode 8 6 32 (plainText.map UInt8.toNat)).map b64 ++
      List.replicate ((plainText.length + 2) / 3 * 4 - (encode 8 6 32 (plainText.map UInt8.toNat)).length) 61) := by
  have hdigits := bytes_lt plainText
  obtain ⟨out, acc, left, hrun⟩ : ∃ out acc left,
      regroup 8 6 32 (plainText.map UInt8.toNat) 0 0 = (out, acc, left) := ⟨_, _, _, rfl⟩
  obtain ⟨last, hloop, rfl⟩ := base64Loop_regroup plainText 0 0 (by decide) out acc left hrun
  obtain ⟨-, -, hleft, -⟩ := regroup_value (by decide) (by decide) _ 0 0 hdigits (by decide) out last.toNat left hrun
  obtain ⟨pad, hpad, -, hlen, -⟩ := encode_value (by decide : 0 < 6) (by decide : 8 + 6 ≤ 32 + 1) (by decide) hdigits
  have hout : (if 0 < left then
      out.map b64 ++ [b64 (last <<< UInt32.ofNat (6 - left) &&& 0x3f).toNat] else out.map b64) =
        (encode 8 6 32 (plainText.map UInt8.toNat)).map b64 := by
    unfold encode
    rw [hrun]
    dsimp only
    split
    · rw [shiftLeft_six last (by omega), List.map_append]
      rfl
    · rfl
  unfold base64Encode
  rw [hloop]
  dsimp only
  rw [if_neg fun h => h.2 hleft, hout, List.length_map]
  rw [List.length_map] at hlen
  by_cases hnil : plainText = []
  · rw [if_pos hnil, if_neg]
    rw [hnil]
    exact fun h => absurd h.1 (by decide)
  · have hpos := List.length_pos_of_ne_nil hnil
    rw [if_neg hnil, if_pos]
    omega

/-- **A text is read back from its encoding.** Every text but the empty one is encoded, in groups of four letters
of the table, of which the last may be padded by one or two; an assertion fails of the empty one. -/
theorem base64_round_trip (plainText : Bytes) :
    (base64Encode plainText = none ↔ plainText = []) ∧
      ∀ e, base64Encode plainText = some e → e.length = (plainText.length + 2) / 3 * 4 ∧ base64Decode e = plainText ∧
        ∃ letters pad, e = letters ++ List.replicate pad 61 ∧ pad ≤ 2 ∧ ∀ c ∈ letters, c ∈ b64Table := by
  rw [base64Encode_eq]
  constructor
  · split
    · simp [*]
    · simp [*]
  intro e he
  have hdigits := bytes_lt plainText
  obtain ⟨pad, hpad, -, hlen, hlt⟩ :=
    encode_value (by decide : 0 < 6) (by decide : 8 + 6 ≤ 32 + 1) (by decide) hdigits
  have hback := regroup_regroup (b := 6) (by decide) (by decide) (by decide : 8 + 6 ≤ 32 + 1)
    (by decide : 8 + 6 ≤ 32 + 1) hdigits
  generalize encode 8 6 32 (plainText.map UInt8.toNat) = ds at he hlen hlt hback
  rw [List.length_map] at hlen
  split at he
  · cases he
  obtain rfl := Option.some.inj he
  have hkept : ((ds.map b64 ++ List.replicate ((plainText.length + 2) / 3 * 4 - ds.length) 61).filter
      (· ≠ 61)).map unB64 = ds := by
    have hletters : (ds.map b64).filter (· ≠ 61) = ds.map b64 := List.filter_eq_self.mpr fun c hc => by
      obtain ⟨x, hx, rfl⟩ := List.mem_map.mp hc
      exact decide_eq_true (b64_digit (hlt x hx)).2.1
    rw [List.filter_append, hletters, List.filter_replicate_of_neg (by decide), List.append_nil, List.map_map]
    calc ds.map (unB64 ∘ b64) = ds.map id := List.map_congr_left fun x hx => (b64_digit (hlt x hx)).1
      _ = ds := List.map_id ds
  refine ⟨?_, ?_, ds.map b64, _, rfl, by omega, ?_⟩
  · rw [List.length_append, List.length_map, List.length_replicate]
    omega
  · unfold base64Decode
    rw [hkept, hback, List.map_map]
    calc plainText.map (UInt8.ofNat ∘ UInt8.toNat) = plainText.map id :=
          List.map_congr_left fun i _ => UInt8.ofNat_toNat
      _ = plainText := List.map_id plainText
  · intro c hc
    obtain ⟨x, hx, rfl⟩ := List.mem_map.mp hc
    exact (b64_digit (hlt x hx)).2.2

end Sdk
end CosFtp
