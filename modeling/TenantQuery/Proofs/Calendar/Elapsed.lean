import TenantQuery.Proofs.Calendar.Representable
import TenantQuery.Proofs.Calendar.Unit

namespace TenantQuery.Instant

open Calendar

variable {a b : Instant} {m n : Int}

theorem Moderate.addMonths (h : a.Moderate) (hm : m.natAbs ≤ 3 * 10 ^ 12) :
    (a.addMonths m).Representable := by
  obtain ⟨hlow, hhigh⟩ := h
  have hpos := a.date_valid.month_pos
  have hle := a.date_valid.month_le
  have hyear := (a.date_addMonths m).1
  apply representable_of_year <;> simp only [firstYear] <;> omega

end TenantQuery.Instant
