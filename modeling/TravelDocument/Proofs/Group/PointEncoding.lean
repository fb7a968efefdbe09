import TravelDocument.Proofs.Group.OnCurve

/-!
# A point has one encoding

The byte strings that are read as points are `04` and two coordinates in exactly the bytes of the
prime, below it and on the curve (`decodePoint_eq_ok_iff_isEncoding`). Each of them is written again
as it was, and every point of the curve is read back from what is written for it
(`points_encoded_uniquely`).

How many bits the prime is stored in makes no difference: with each conversion between byte strings,
words and precisions made on its own, the same points are read (`decodeStored?_eq`).
-/

namespace TravelDocument.WeierstrassCurve

variable {c : WeierstrassCurve}

/-! ## Which byte strings are points -/

/-- `04` and the coordinates of the point, which are reduced and satisfy the equation of the
curve. -/
structure IsEncoding (c : WeierstrassCurve) (bytes : Bytes) (p : AffinePoint) : Prop where
  bytes : ∃ x y, bytes = 0x04 :: (x ++ y) ∧ x.length = c.fieldSize ∧
    y.length = c.fieldSize ∧ p = ⟨Bytes.toNat x, Bytes.toNat y⟩
  x_lt : p.x < c.prime
  y_lt : p.y < c.prime
  equation : p.y ^ 2 ≡ p.x ^ 3 + c.a * p.x + c.b [MOD c.prime]

theorem decodePoint_eq_ok_iff_isEncoding {bytes : Bytes} {p : AffinePoint} :
    c.decodePoint bytes = .ok p ↔ c.IsEncoding bytes p := by
  rw [decodePoint_eq_ok_iff]
  constructor
  · rintro ⟨x, y, hbytes, hx, hy, hp, hc⟩
    obtain ⟨hpx, hpy, he⟩ := contains_iff_modEq.1 hc
    exact ⟨⟨x, y, hbytes, hx, hy, hp⟩, hpx, hpy, he⟩
  · rintro ⟨⟨x, y, hbytes, hx, hy, hp⟩, hpx, hpy, he⟩
    exact ⟨x, y, hbytes, hx, hy, hp, contains_iff_modEq.2 ⟨hpx, hpy, he⟩⟩

/-! ## Reading in words -/

/-- Brings both coordinates to the precision of the prime before they are checked. -/
def checkStored? (c : WeierstrassCurve) (x y : SizedNat) : Option AffinePoint := do
  let x ← x.resize? c.precision
  let y ← y.resize? c.precision
  if c.contains ⟨x.value, y.value⟩ then some ⟨x.value, y.value⟩ else none

/-- Reads a point into words of the precision of the prime, and checks it there. -/
def decodeStored? (c : WeierstrassCurve) : Bytes → Option AffinePoint
  | [] => none
  | format :: coordinates =>
    if format ≠ 0x04 ∨ coordinates.length ≠ 2 * c.fieldSize then none
    else do
      let x ← SizedNat.read? c.precision (coordinates.take c.fieldSize)
      let y ← SizedNat.read? c.precision (coordinates.drop c.fieldSize)
      c.checkStored? x y

section

variable (hprime : (⟨c.prime, c.precision⟩ : SizedNat).IsStored)
include hprime

theorem lt_two_pow_of_contains {p : AffinePoint} (h : c.contains p = true) :
    p.x < 2 ^ c.precision ∧ p.y < 2 ^ c.precision := by
  obtain ⟨hx, hy, -⟩ := contains_iff_modEq.1 h
  have hlt : c.prime < 2 ^ c.precision := bitLength_le_iff.1 hprime.fits
  exact ⟨Nat.lt_trans hx hlt, Nat.lt_trans hy hlt⟩

/-- **The precision of the coordinates does not matter** for the check of a point. -/
theorem checkStored?_eq {x y : SizedNat} (hx : x.IsStored) (hy : y.IsStored) :
    c.checkStored? x y =
      if c.contains ⟨x.value, y.value⟩ then some ⟨x.value, y.value⟩ else none := by
  obtain ⟨k, hk, hprecision⟩ := hprime.words
  dsimp only at hprecision
  have hfits : c.contains ⟨x.value, y.value⟩ = true →
      x.value < 2 ^ (64 * k) ∧ y.value < 2 ^ (64 * k) := by
    rw [← hprecision]
    exact lt_two_pow_of_contains hprime
  rw [checkStored?, hprecision, hx.resize? hk, hy.resize? hk]
  by_cases hc : c.contains ⟨x.value, y.value⟩ = true
  · obtain ⟨hlx, hly⟩ := hfits hc
    simp [hlx, hly, hc]
  · rw [if_neg hc]
    split
    · split <;> simp [hc]
    · rfl

/-- **The precision of the prime does not matter** for the reading of points. -/
theorem decodeStored?_eq (bytes : Bytes) :
    c.decodeStored? bytes = (c.decodePoint bytes).toOption := by
  obtain ⟨k, hk, hprecision⟩ := hprime.words
  dsimp only at hprecision
  cases bytes with
  | nil => rfl
  | cons format coordinates =>
    by_cases hformat : format ≠ 0x04 ∨ coordinates.length ≠ 2 * c.fieldSize
    · rw [decodeStored?, decodePoint, if_pos hformat, if_pos hformat]
      rfl
    · -- a point below the prime has coordinates that fit in the words of the field
      have hfits := lt_two_pow_of_contains hprime
        (p := ⟨Bytes.toNat (coordinates.take c.fieldSize),
        Bytes.toNat (coordinates.drop c.fieldSize)⟩)
      rw [hprecision] at hfits
      rw [decodeStored?, decodePoint, if_neg hformat, if_neg hformat]
      simp only [hprecision, SizedNat.read?_words hk]
      by_cases hlt : Bytes.toNat (coordinates.take c.fieldSize) < 2 ^ (64 * k) ∧
          Bytes.toNat (coordinates.drop c.fieldSize) < 2 ^ (64 * k)
      · rw [if_pos hlt.1, if_pos hlt.2]
        simp only [Option.bind_eq_bind, Option.bind_some]
        rw [checkStored?_eq hprime ⟨⟨k, hk, rfl⟩, bitLength_le_iff.2 hlt.1⟩
          ⟨⟨k, hk, rfl⟩, bitLength_le_iff.2 hlt.2⟩]
        split <;> rfl
      · -- a coordinate without room is not below the prime either
        rw [if_neg fun hc => hlt (hfits hc)]
        split
        · rename_i hx
          rw [if_neg fun hy => hlt ⟨hx, hy⟩]
          rfl
        · rfl

end

/-! ## One encoding -/

/-- Points of the curve and their encodings belong together one to one. -/
structure EncodesUniquely (c : WeierstrassCurve) : Prop where
  decode (bytes : Bytes) (p : AffinePoint) : c.decodePoint bytes = .ok p ↔ c.IsEncoding bytes p
  encode_decode {bytes : Bytes} {p : AffinePoint} :
    c.decodePoint bytes = .ok p → c.encodePoint p = .ok bytes
  unique {bytes other : Bytes} {p : AffinePoint} :
    c.decodePoint bytes = .ok p → c.decodePoint other = .ok p → bytes = other
  decode_encode {p : AffinePoint} : c.contains p = true →
    ∃ bytes, c.encodePoint p = .ok bytes ∧ c.decodePoint bytes = .ok p
  /-- If the curve was checked with a stored prime, the same points are read in words. -/
  words {prime : SizedNat} {a b : Nat} {generator : AffinePoint} {cofactor : Nat} :
    prime.IsStored → make prime a b generator cofactor = .ok c →
      ∀ bytes, c.decodeStored? bytes = (c.decodePoint bytes).toOption

/-- **A point has exactly one encoding**, on every curve. -/
theorem points_encoded_uniquely (c : WeierstrassCurve) : c.EncodesUniquely where
  decode _ _ := decodePoint_eq_ok_iff_isEncoding
  encode_decode := encodePoint_of_decodePoint
  unique h h' :=
    Except.ok.inj ((encodePoint_of_decodePoint h).symm.trans (encodePoint_of_decodePoint h'))
  decode_encode h := by
    obtain ⟨bytes, hencode, -, hdecode⟩ := exists_encodePoint h
    exact ⟨bytes, hencode, hdecode⟩
  words hprime h bytes := by
    obtain ⟨_, rfl, -⟩ := make_eq_ok h
    exact decodeStored?_eq hprime bytes

/-- Bytes of 13 plus the prime are no other encoding of 13. -/
example : let c : WeierstrassCurve := ⟨23, 64, 1, 1, ⟨13, 16⟩, 4, rfl⟩
    make (.ofBytes [23]) 1 1 ⟨13, 16⟩ 4 = .ok c ∧ c.decodePoint [0x04, 13, 16] = .ok
      ⟨13, 16⟩ ∧ c.decodePoint [0x04, 36, 16] = .error .invalidPublicKey := by
  decide +kernel

end TravelDocument.WeierstrassCurve
