import BackupWatch.Proofs.Decimal.Magnitude
import BackupWatch.Proofs.Retry.Delay
import BackupWatch.Proofs.Time.Seconds

/-!
The standard policy. A delay that is neither long nor spread widely can be computed whatever chance
says, and those of the standard policy are seconds, spread by a tenth.
-/

namespace BackupWatch

open Decimal Float.Model Float.Model.UnpackedFloat

namespace Time.Duration

theorem exists_ofSeconds?_of_small {x : Float} (h : Small 60 x) (hpos : 0.0 < x) :
    ∃ d, ofSeconds? x = .ok d := by
  obtain ⟨v, hvalue, hless⟩ := h.isValue (by decide) hpos
  obtain ⟨m, e, hread, rfl⟩ := hvalue.ofFloat
  have hclose := abs_le.mp (abs_nanosecondsIn_sub_le m e)
  have hnanoseconds : (nanosecondsIn m e : ℚ) < 18446744073709551616 * 1000000000 := by
    norm_num at hless
    linarith
  exact ⟨_, ofSeconds?_of_ofFloat hread (by exact_mod_cast hnanoseconds)⟩

end Time.Duration

namespace Retry

open Time

/-- A delay is computed if neither its base delay nor its jitter is large. -/
theorem exists_spread {p : Policy} {tries : ℕ} {base : Duration} {die : Float}
    (hbase : p.baseDelay tries = .ok base) (hsmall : Small 20 base.toSeconds)
    (hjitter : Small 20 p.jitter)
    (hrange : ((p.jitter - -p.jitter) / greatestDraw).isFinite = true) (hlow : -1.0 ≤ die)
    (hhigh : die ≤ 1.0) : ∃ d, p.spread die base = .ok d := by
  unfold Policy.spread
  by_cases hnone : p.jitter ≤ 0.0
  · rw [if_pos hnone]
    exact ⟨base, Duration.ofSeconds?_toSeconds hbase⟩
  · rw [if_neg hnone, if_pos hrange]
    have hproduct : Small 22 (p.jitter * die) :=
      hjitter.mul (small_of_le hlow hhigh) (by decide) (by decide)
    have hsum : Small 24 (1.0 + p.jitter * die) :=
      (small_of_unpack unpack_one (by decide)).add hproduct (by decide) (by decide)
    have hseconds : Small 60 (base.toSeconds * (1.0 + p.jitter * die)) :=
      (hsmall.mul hsum (by decide) (by decide)).mono (by decide)
    dsimp only
    split
    · next hpos => exact Duration.exists_ofSeconds?_of_small hseconds hpos
    · exact ⟨⟨0⟩, by decide +kernel⟩

/-- The standard delays are one, two, four and eight seconds. -/
theorem exists_baseDelay_standard {tries : ℕ} (hpos : 0 < tries) (hless : tries < 5) :
    ∃ base, Policy.standard.baseDelay tries = .ok base ∧ Small 20 base.toSeconds := by
  have hseconds : ∀ (n : ℕ) (e : ℤ), (Duration.ofSeconds n).toSeconds.toModel.unpack =
      .finite .positive 4503599627370496 e (by decide) → e ≤ 20 - 53 →
      Policy.standard.baseDelay tries = .ok (.ofSeconds n) →
      ∃ base, Policy.standard.baseDelay tries = .ok base ∧ Small 20 base.toSeconds :=
    fun n e hunpack he hbase => ⟨_, hbase, small_of_unpack hunpack he⟩
  obtain rfl | rfl | rfl | rfl : tries = 1 ∨ tries = 2 ∨ tries = 3 ∨ tries = 4 := by omega
  · exact hseconds 1 (-52) rfl (by decide) (by decide +kernel)
  · exact hseconds 2 (-51) rfl (by decide) (by decide +kernel)
  · exact hseconds 4 (-50) rfl (by decide) (by decide +kernel)
  · exact hseconds 8 (-49) rfl (by decide) (by decide +kernel)

/-- Whatever chance says, all delays of the standard policy can be computed. -/
theorem steady_standard : Policy.standard.Steady := by
  have hjitter : Policy.standard.jitter.toModel.unpack =
      .finite .positive 7205759403792794 (-56) (by decide) := rfl
  have hrange : ((Policy.standard.jitter - -Policy.standard.jitter) /
      greatestDraw).isFinite = true := by decide +kernel
  intro tries hpos hless die hlow hhigh
  obtain ⟨base, hbase, hsmall⟩ := exists_baseDelay_standard hpos hless
  obtain ⟨d, hd⟩ := exists_spread hbase hsmall (small_of_unpack hjitter (by decide)) hrange hlow
    hhigh
  exact ⟨d, bind_eq_ok_iff.mpr ⟨base, hbase, hd⟩⟩

end Retry
end BackupWatch
