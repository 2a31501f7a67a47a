import EventCourier.Limits

/-!
# Wider limits

Limits are compared one by one.  What is done under limits may depend on them in one way only: it
is refused under some, and under all others it has one and the same outcome.
-/

namespace EventCourier
namespace Limits

structure Le (limits limits' : Limits) : Prop where
  field_le : limits.maxFieldBytes ≤ limits'.maxFieldBytes
  payload_le : limits.maxPayloadBytes ≤ limits'.maxPayloadBytes
  depth_le : limits.maxDepth ≤ limits'.maxDepth

instance : LE Limits := ⟨Le⟩

def widest : Limits :=
  ⟨.ofNat (UInt64.size - 1), .ofNat (UInt64.size - 1), .ofNat (UInt64.size - 1)⟩

theorem le_widest (limits : Limits) : limits ≤ widest := by
  have hlast : ∀ n : UInt64, n ≤ .ofNat (UInt64.size - 1) := by
    intro n
    rw [UInt64.le_iff_toNat_le]
    exact Nat.le_pred_of_lt n.toNat_lt
  exact ⟨hlast _, hlast _, hlast _⟩

/-- The limits can only keep the call from succeeding.  Where it succeeds it also does with wider
limits, and it gives the same wherever it succeeds. -/
structure OnlyRefuse {ε α : Type} (call : Limits → Except ε α) : Prop where
  widens : ∀ limits limits', limits ≤ limits' → ∀ result, call limits = .ok result →
    call limits' = .ok result
  agrees : ∀ limits limits' result result', call limits = .ok result →
    call limits' = .ok result' → result = result'

theorem OnlyRefuse.of_widens
    {ε α : Type} {call : Limits → Except ε α}
    (hwidens : ∀ limits limits', limits ≤ limits' → ∀ result, call limits = .ok result →
      call limits' = .ok result) : OnlyRefuse call := by
  constructor
  case widens => exact hwidens
  case agrees =>
    intro limits limits' result result' hcall hcall'
    have hwide := hwidens limits widest (le_widest limits) result hcall
    have hwide' := hwidens limits' widest (le_widest limits') result' hcall'
    rw [hwide] at hwide'
    exact Except.ok.inj hwide'

end Limits
end EventCourier
