/-
The map of recipients. No forwarding address stands for two recipients (`Distinct`), each stands for the one that it was
entered with (`named?_eq_some_iff`), and taking one out leaves all others as they were: `erase_entries`, `named?_erase`.
-/
import Mathlib
import LmtpRelay.Session.Recipients

namespace LmtpRelay.Recipients

/-- no forwarding address stands for two recipients -/
def Distinct (m : Recipients) : Prop := m.resolved.Nodup

theorem contains_iff {m : Recipients} {resolved : String} : m.contains resolved = true ↔ resolved ∈ m.resolved := by
  simp [contains, Recipients.resolved, List.mem_map]

theorem named?_isSome (m : Recipients) (resolved : String) : (m.named? resolved).isSome = m.contains resolved := by
  rw [Bool.eq_iff_iff, named?, Option.isSome_map, List.find?_isSome, contains, List.any_eq_true]

theorem named?_of_mem {m : Recipients} (distinct : m.Distinct) {entry : String × String} (h : entry ∈ m.entries) :
    m.named? entry.1 = some entry.2 := by
  obtain ⟨entries⟩ := m
  unfold Distinct Recipients.resolved at distinct
  unfold named?
  dsimp only at distinct h ⊢
  induction entries with
  | nil => cases h
  | cons first rest ih =>
    rw [List.map_cons, List.nodup_cons] at distinct
    rcases List.mem_cons.1 h with rfl | h
    · rw [List.find?_cons_of_pos (by simp)]
      rfl
    · have apart : first.1 ≠ entry.1 := fun same => distinct.1 (same ▸ List.mem_map_of_mem h)
      rw [List.find?_cons_of_neg (by simpa using apart)]
      exact ih distinct.2 h

theorem named?_eq_some_iff {m : Recipients} (distinct : m.Distinct) {resolved recipient : String} :
    m.named? resolved = some recipient ↔ (resolved, recipient) ∈ m.entries := by
  constructor
  · intro h
    obtain ⟨⟨address, name⟩, found, rfl⟩ := Option.map_eq_some_iff.1 h
    obtain rfl : address = resolved := by simpa using List.find?_some found
    exact List.mem_of_find?_eq_some found
  · intro h
    exact named?_of_mem distinct h

theorem Distinct.append {m : Recipients} (distinct : m.Distinct) {resolved : String}
    (new : m.contains resolved = false) (recipient : String) :
    Distinct ⟨m.entries ++ [(resolved, recipient)]⟩ := by
  have unused : resolved ∉ m.resolved := fun used => by
    rw [contains_iff.2 used] at new
    cases new
  have joined : Recipients.resolved ⟨m.entries ++ [(resolved, recipient)]⟩ = m.resolved ++ [resolved] :=
    List.map_append
  rw [Distinct, joined, List.nodup_append]
  refine ⟨distinct, by simp, fun a ha b hb same => ?_⟩
  obtain rfl := List.mem_singleton.1 hb
  exact unused (same ▸ ha)

/-- an address is taken out as a filter would -/
theorem erase_entries {m : Recipients} (distinct : m.Distinct) (resolved : String) :
    (m.erase resolved).entries = m.entries.filter fun entry => entry.1 != resolved := by
  obtain ⟨entries⟩ := m
  unfold Distinct Recipients.resolved at distinct
  unfold erase
  dsimp only at distinct ⊢
  induction entries with
  | nil => rfl
  | cons entry rest ih =>
    rw [List.map_cons, List.nodup_cons] at distinct
    obtain ⟨new, distinct⟩ := distinct
    by_cases same : entry.1 = resolved
    · have others : rest.filter (fun entry => entry.1 != resolved) = rest := by
        rw [List.filter_eq_self]
        intro other hother
        have apart : other.1 ≠ resolved := fun h => new (List.mem_map.2 ⟨other, hother, h.trans same.symm⟩)
        simpa using apart
      simp [same, others]
    · simp [same, ih distinct]

theorem Distinct.erase {m : Recipients} (distinct : m.Distinct) (resolved : String) : (m.erase resolved).Distinct :=
  (List.eraseP_sublist.map Prod.fst).nodup distinct

theorem named?_erase {m : Recipients} (distinct : m.Distinct) (resolved other : String) :
    (m.erase resolved).named? other = if other = resolved then none else m.named? other := by
  rw [named?, erase_entries distinct, List.find?_filter, named?]
  by_cases same : other = resolved
  · rw [if_pos same]
    simp [same]
  · rw [if_neg same]
    congr 2
    funext entry
    by_cases here : entry.1 = other
    · simp [here, same]
    · simp [here]

end LmtpRelay.Recipients
