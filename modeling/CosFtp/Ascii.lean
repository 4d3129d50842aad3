/-
# ASCII transfers

The two conversions of ascii.c. Each works on a buffer and carries one bit to
the next: whether the last byte was a CR. `dropCr` and `insertCr` say what
they are to do to a whole stream, and `asciiToBin_append` and
`binToAscii_append` that it does not matter how the stream was cut into
buffers.

Key definitions: `vsfAsciiAsciiToBin`, `vsfAsciiBinToAscii`, `dropCr`, `insertCr`.
-/
import CosFtp.Str

namespace CosFtp

/-! ### Uploads: CR LF to LF -/

/-- The loop of `vsf_ascii_ascii_to_bin`: what is stored, and whether the last
byte was a CR. -/
def asciiToBinLoop : Bytes → Bytes × Bool
  | [] => ([], false)
  | [b] => if b ≠ chCr then ([b], false) else ([], true)
  | b :: c :: rest =>
    let ret := asciiToBinLoop (c :: rest)
    (if b ≠ chCr ∨ c ≠ chLf then b :: ret.1 else ret.1, ret.2)

def vsfAsciiAsciiToBin (buf : Bytes) (prevCr : Bool) : Bytes × Bool :=
  let ret := asciiToBinLoop buf
  -- the CR that was held back goes out before anything but a LF
  (if prevCr ∧ (buf = [] ∨ buf.head? ≠ some chLf) then chCr :: ret.1 else ret.1, ret.2)

/-- Every CR directly before a LF removed. -/
def dropCr : Bytes → Bytes
  | [] => []
  | b :: rest => if b = chCr ∧ rest.head? = some chLf then dropCr rest else b :: dropCr rest

/-- The CR a buffer holds back. -/
def heldCr (cr : Bool) : Bytes := if cr then [chCr] else []

/-- What a buffer stores and holds back converts whatever comes behind it. -/
theorem asciiToBinLoop_append : ∀ buf x : Bytes,
    dropCr (buf ++ x) = (asciiToBinLoop buf).1 ++ dropCr (heldCr (asciiToBinLoop buf).2 ++ x)
  | [], _ => rfl
  | [b], x => by
    by_cases hb : b = chCr
    · simp [asciiToBinLoop, heldCr, hb]
    · simp [asciiToBinLoop, dropCr, heldCr, hb]
  | b :: c :: rest, x => by
    have ih := asciiToBinLoop_append (c :: rest) x
    rw [List.cons_append] at ih
    rw [List.cons_append, List.cons_append, dropCr, asciiToBinLoop, ih]
    by_cases h : b = chCr ∧ c = chLf
    · simp [h]
    · have h' : b ≠ chCr ∨ c ≠ chLf := by
        by_contra hno
        push Not at hno
        exact h hno
      simp [h, h']

/-- **It does not matter how an upload is cut into buffers**: what was stored,
followed by the conversion of what is held back and of the rest, is the
conversion of it all. -/
theorem asciiToBin_append {buf : Bytes} (hbuf : buf ≠ []) (prevCr : Bool) (x : Bytes) :
    dropCr (heldCr prevCr ++ (buf ++ x)) =
      (vsfAsciiAsciiToBin buf prevCr).1 ++ dropCr (heldCr (vsfAsciiAsciiToBin buf prevCr).2 ++ x) := by
  have hloop := asciiToBinLoop_append buf x
  obtain ⟨b, rest, rfl⟩ := List.exists_cons_of_ne_nil hbuf
  unfold vsfAsciiAsciiToBin
  cases prevCr with
  | false => simpa [heldCr] using hloop
  | true =>
    by_cases hb : b = chLf
    · simpa [heldCr, dropCr, hb] using hloop
    · have hhead : ¬ (chCr = chCr ∧ (b :: rest ++ x).head? = some chLf) := by simp [hb]
      rw [show heldCr true ++ (b :: rest ++ x) = chCr :: (b :: rest ++ x) from rfl, dropCr,
        if_neg hhead, hloop]
      simp [hb]

/-! ### Downloads: LF to CR LF -/

/-- `vsf_ascii_bin_to_ascii`: what is stored, and whether the last byte was a CR. -/
def vsfAsciiBinToAscii : Bytes → Bool → Bytes × Bool
  | [], prevCr => ([], prevCr)
  | b :: rest, prevCr =>
    let ret := vsfAsciiBinToAscii rest (b = chCr)
    (if b = chLf ∧ !prevCr then chCr :: b :: ret.1 else b :: ret.1, ret.2)

/-- A CR inserted before every LF whose predecessor is none, the first byte's
being `prev`. -/
def insertCrAfter (prev : Option UInt8) (s : Bytes) : Bytes :=
  ((prev :: s.map some).zip s).flatMap fun p =>
    if p.2 = chLf ∧ p.1 ≠ some chCr then [chCr, p.2] else [p.2]

/-- A CR inserted before every LF that does not follow one. -/
def insertCr (s : Bytes) : Bytes := insertCrAfter none s

theorem binToAscii_append : ∀ (a b : Bytes) (prevCr : Bool),
    vsfAsciiBinToAscii (a ++ b) prevCr =
      ((vsfAsciiBinToAscii a prevCr).1 ++
        (vsfAsciiBinToAscii b (vsfAsciiBinToAscii a prevCr).2).1,
        (vsfAsciiBinToAscii b (vsfAsciiBinToAscii a prevCr).2).2)
  | [], b, prevCr => rfl
  | c :: a, b, prevCr => by
    rw [List.cons_append, vsfAsciiBinToAscii, binToAscii_append a b, vsfAsciiBinToAscii]
    split <;> rfl

theorem binToAscii_eq_insertCrAfter : ∀ (s : Bytes) (prev : Option UInt8),
    (vsfAsciiBinToAscii s (prev = some chCr)).1 = insertCrAfter prev s
  | [], _ => rfl
  | b :: s, prev => by
    have ih := binToAscii_eq_insertCrAfter s (some b)
    have hb : decide (some b = some chCr) = decide (b = chCr) := by simp
    rw [hb] at ih
    rw [vsfAsciiBinToAscii, insertCrAfter, List.map_cons, List.zip_cons_cons, List.flatMap_cons]
    rw [insertCrAfter] at ih
    by_cases h : b = chLf ∧ prev ≠ some chCr
    · have h' : b = chLf ∧ (!decide (prev = some chCr)) = true := by simpa using h
      rw [if_pos h, if_pos h', ih]
      rfl
    · have h' : ¬ (b = chLf ∧ (!decide (prev = some chCr)) = true) := by simpa using h
      rw [if_neg h, if_neg h', ih]
      rfl

/-- A whole stream converted in one buffer. -/
theorem binToAscii_eq_insertCr (s : Bytes) : (vsfAsciiBinToAscii s false).1 = insertCr s :=
  binToAscii_eq_insertCrAfter s none

end CosFtp
