import PipeScript.Proofs.Number.IntegerText
import PipeScript.Proofs.Number.Rounding

/-! # Integers as bounds

The text of an integer is read as that integer up to `2^53` (`ofText_text_exact`).  Beyond, it is
read as some integer that is beyond as well and has the same sign, or as an infinity
(`ofText_text_beyond`): as a bound for anything shorter it is as good as the integer itself. -/

namespace PipeScript.Proofs.Number.Bounds

open PipeScript.Proofs.Number.Exact PipeScript.Proofs.Number.Rounding
open PipeScript.Proofs.Number.IntegerText

theorem ofText_text_exact {n : ℤ} (h : n.natAbs ≤ 2 ^ 53) :
    Number.ofText (Number.int n).text = .int n := by
  have hwhole := isDouble_iff.mp (isDouble_of_le h)
  rw [ofText_text, Number.ofBinary64, hwhole]

theorem ofText_text_beyond {n : ℤ} (h : 2 ^ 53 ≤ n.natAbs) :
    Number.ofText (Number.int n).text = .float (.infinite (decide (n < 0))) ∨
      ∃ k : ℕ, 2 ^ 53 ≤ k ∧
        Number.ofText (Number.int n).text = .int (Binary64.signed (decide (n < 0)) k) := by
  rw [ofText_text]
  unfold Binary64.ofInt
  rcases ofRatio_large h (decide (n < 0)) with
    hround | ⟨mantissa, exponent, canonical, hfull, hround⟩
  · rw [hround]
    exact .inl rfl
  · rw [hround]
    refine .inr ⟨mantissa * 2 ^ (exponent + 1), ?_, ofBinary64_full _ canonical⟩
    calc 2 ^ 53 = 2 ^ 52 * 2 ^ 1 := rfl
      _ ≤ mantissa * 2 ^ (exponent + 1) :=
        Nat.mul_le_mul hfull (Nat.pow_le_pow_right (by decide) (by omega))

/-- An integer up to `2^53` does not count beside an infinity. -/
theorem add?_infinite {n : ℤ} (h : n.natAbs ≤ 2 ^ 53) (negative : Bool) :
    (Number.int n).add? (.float (.infinite negative)) = some (.float (.infinite negative)) := by
  have hwhole := isDouble_iff.mp (isDouble_of_le h)
  unfold Number.add? Number.toBinary64?
  dsimp only
  rcases hdouble : Binary64.ofInt n with _ | other | ⟨sign, mantissa, exponent, canonical⟩
  · rw [hdouble] at hwhole
    cases hwhole
  · rw [hdouble] at hwhole
    cases hwhole
  · rfl

end PipeScript.Proofs.Number.Bounds
