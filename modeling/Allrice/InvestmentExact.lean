/-
When the estimate is exact.  The totals are summed without a check on the way,
so an order of the samples can run past the exact whole numbers and come back
with a rounding error.  Where none keeps one, and only there, every total that
is given is the exact sum, and the order of the samples does not matter.
-/
import Allrice.InvestmentEstimate

namespace Allrice.InvestmentEstimate

open RunningTotal

namespace Sample

end Sample

namespace Input

variable {clock : Clock} {input : Input}

/-- No order of the samples keeps a rounding error: those of its minutes add up
to nothing, and so do those of its values where their sum is in range; where it
is not, they do not bring it back.  What a statement names is in range. -/
structure Steadied (clock : Clock) (input : Input) : Prop where
  minutes : input.truncated = false → isSafe input.minutes.sum = true ∧
    ∀ order, order.Perm input.minutes → (errors order).sum = 0
  range : ∀ currency order, order.Perm (input.values currency) →
    isSafe (order.sum + (errors order).sum) = isSafe order.sum
  exact : input.truncated = false → ∀ currency order,
    order.Perm (input.values currency) → isSafe order.sum = true →
      (errors order).sum = 0
  subscriptions : ∀ currency r, input.statement clock currency = some r →
    r.content.subscriptionKnown = true → r.references.sum ≤ maxSafe
  costs : ∀ currency r, input.statement clock currency = some r →
    r.content.subscriptionKnown = true → ∀ modelMinor otherMinor : Nat,
      r.content.modelMinor = some modelMinor →
        r.content.otherMinor = some otherMinor →
          modelMinor + r.references.sum + otherMinor ≤ maxSafe

variable {n : Int} {r : InvestmentRevision InvestmentStatement}
  {currency : Currency} {order : List Int}

def withSamples (input : Input) (samples : List Sample) : Input :=
  { input with samples := samples }

variable {samples : List Sample}

theorem estimated_perm (h : samples.Perm input.samples) :
    (input.withSamples samples).estimated.Perm input.estimated := h.map _

theorem included_perm (h : samples.Perm input.samples) :
    (input.withSamples samples).included.Perm input.included :=
  (estimated_perm h).filter _

theorem valued_perm (h : samples.Perm input.samples) (currency : Currency) :
    ((input.withSamples samples).valued currency).Perm
      (input.valued currency) :=
  (included_perm h).filter _

theorem values_perm (h : samples.Perm input.samples) (currency : Currency) :
    ((input.withSamples samples).values currency).Perm
      (input.values currency) :=
  (valued_perm h currency).filterMap _

theorem minutes_perm (h : samples.Perm input.samples) :
    (input.withSamples samples).minutes.Perm input.minutes :=
  (included_perm h).filterMap _

theorem truncated_eq (h : samples.Perm input.samples) :
    (input.withSamples samples).truncated = input.truncated := by
  unfold truncated
  change decide (samples.length < input.candidateWorks) = _
  rw [h.length_eq]

theorem Steadied.perm (hinput : input.Steadied clock)
    (h : samples.Perm input.samples) :
    (input.withSamples samples).Steadied clock where
  minutes := by
    rw [truncated_eq h, (minutes_perm h).sum_eq]
    intro huncut
    obtain ⟨hsafe, hnone⟩ := hinput.minutes huncut
    refine ⟨hsafe, fun order horder => ?_⟩
    exact hnone order (horder.trans (minutes_perm h))
  range currency order horder :=
    hinput.range currency order (horder.trans (values_perm h currency))
  exact := by
    rw [truncated_eq h]
    intro huncut currency order horder
    exact hinput.exact huncut currency order
      (horder.trans (values_perm h currency))
  subscriptions := hinput.subscriptions
  costs := hinput.costs

end Input

namespace Input

variable {clock : Clock} {input : Input} {samples : List Sample}
  {currency : Currency} {order : List Int}
  {r : InvestmentRevision InvestmentStatement} {report : InvestmentReport}

/-- Where sizes say that no order runs past the exact whole numbers and comes
back, none keeps a rounding error. -/
theorem steadied_of_steady
    (hminutes : input.truncated = false →
      positives input.minutes ≤ maxSafe ∧ negatives input.minutes ≤ maxSafe)
    (hvalues : ∀ currency, Steady (input.values currency))
    (hcosts : ∀ currency r, input.statement clock currency = some r →
      r.content.subscriptionKnown = true →
        r.references.sum + (r.content.modelMinor.getD 0 : Nat) +
          (r.content.otherMinor.getD 0 : Nat) ≤ maxSafe) :
    input.Steadied clock where
  minutes := by
    intro huncut
    obtain ⟨hpos, hneg⟩ := hminutes huncut
    have hsum := sum_eq input.minutes
    have hle := positives_nonneg input.minutes
    have hle' := negatives_nonneg input.minutes
    refine ⟨isSafe_iff.mpr (by omega), fun order horder => ?_⟩
    have htotal := @total_exact order
      (by rwa [positives_perm horder]) (by rwa [negatives_perm horder])
    rw [total_eq] at htotal
    omega
  range := by
    intro currency order horder
    have hrange := ((hvalues currency).perm horder.symm).right.range
    rw [← total_eq, total, hrange, Int.zero_add]
  exact := by
    intro _ currency order horder hsafe
    have hexact := ((hvalues currency).perm horder.symm).right.exact
    rw [Int.zero_add, ← total, total_eq] at hexact
    have := hexact hsafe
    omega
  subscriptions := by
    intro currency r hr hknown
    have := hcosts currency r hr hknown
    omega
  costs := by
    intro currency r hr hknown modelMinor otherMinor hmodel hother
    have := hcosts currency r hr hknown
    rw [hmodel, hother] at this
    simp only [Option.getD_some] at this
    omega

end Input

end Allrice.InvestmentEstimate
