/-
Which reports count. Reports may come in any order, more than once, and about addresses that nobody has: the first one
for each address in use counts, and no other. `statuses` and `unreported` say what a list of reports comes to, without
regard to how it is taken in; taking the reports in one after another comes to the same: `drain_eq`.
-/
import LmtpRelay.Proofs.Session.Recipients
import LmtpRelay.Session.Data

namespace LmtpRelay

/-! ## First reports -/

/-- the first report for each address, in the order in which they came -/
def firstReports : List StatusEvent → List StatusEvent
  | [] => []
  | e :: rest => e :: (firstReports rest).filter fun later => later.recipient != e.recipient

def firstFor? (events : List StatusEvent) (resolved : String) : Option StatusEvent :=
  events.find? fun e => e.recipient == resolved

theorem firstFor?_cons (e : StatusEvent) (rest : List StatusEvent) (resolved : String) :
    firstFor? (e :: rest) resolved = if e.recipient = resolved then some e else firstFor? rest resolved := by
  unfold firstFor?
  by_cases same : e.recipient = resolved
  · rw [List.find?_cons_of_pos (by simpa using same), if_pos same]
  · rw [List.find?_cons_of_neg (by simpa using same), if_neg same]

theorem firstFor?_append_of_some {events : List StatusEvent} {resolved : String}
    (reported : (firstFor? events resolved).isSome = true) (later : List StatusEvent) :
    firstFor? (events ++ later) resolved = firstFor? events resolved := by
  obtain ⟨e, he⟩ := Option.isSome_iff_exists.1 reported
  unfold firstFor? at he ⊢
  rw [List.find?_append, he]
  rfl

theorem firstFor?_recipient {events : List StatusEvent} {resolved : String} {e : StatusEvent}
    (h : firstFor? events resolved = some e) : e.recipient = resolved := by
  simpa using List.find?_some h

theorem firstReports_sublist (events : List StatusEvent) : (firstReports events).Sublist events := by
  induction events with
  | nil => exact List.Sublist.refl []
  | cons e rest ih => exact (List.filter_sublist.trans ih).cons_cons e

theorem firstReports_once (events : List StatusEvent) : ((firstReports events).map StatusEvent.recipient).Nodup := by
  induction events with
  | nil => exact List.nodup_nil
  | cons e rest ih =>
    rw [firstReports, List.map_cons, List.nodup_cons]
    refine ⟨?_, (List.filter_sublist.map _).nodup ih⟩
    intro again
    obtain ⟨later, hlater, same⟩ := List.mem_map.1 again
    have other := (List.mem_filter.1 hlater).2
    simp [same] at other

theorem mem_firstReports {events : List StatusEvent} {e : StatusEvent} :
    e ∈ firstReports events ↔ firstFor? events e.recipient = some e := by
  induction events with
  | nil => simp [firstReports, firstFor?]
  | cons first rest ih =>
    rw [firstReports, List.mem_cons, List.mem_filter, ih, firstFor?_cons]
    by_cases same : first.recipient = e.recipient
    · simp [same, eq_comm]
    · have other : e ≠ first := fun h => same (h ▸ rfl)
      have apart : e.recipient ≠ first.recipient := fun h => same h.symm
      simp [same, other, apart]

theorem firstFor?_firstReports (events : List StatusEvent) (resolved : String) :
    firstFor? (firstReports events) resolved = firstFor? events resolved := by
  induction events with
  | nil => rfl
  | cons e rest ih =>
    rw [firstReports, firstFor?_cons, firstFor?_cons]
    by_cases here : e.recipient = resolved
    · rw [if_pos here, if_pos here]
    · rw [if_neg here, if_neg here, ← ih, firstFor?, List.find?_filter, firstFor?]
      refine List.find?_congr fun later _ => ?_
      by_cases same : later.recipient = resolved
      · simp [same, Ne.symm here]
      · simp [same]

/-- where no address is reported on twice, the order of the reports does not matter -/
theorem firstFor?_perm {events events' : List StatusEvent} (perm : events.Perm events')
    (once : (events.map StatusEvent.recipient).Nodup) (resolved : String) :
    firstFor? events resolved = firstFor? events' resolved := by
  induction perm with
  | nil => rfl
  | cons e _ ih => rw [firstFor?_cons, firstFor?_cons, ih (List.nodup_cons.1 once).2]
  | swap e e' rest =>
    have apart : e.recipient ≠ e'.recipient := fun same =>
      (List.nodup_cons.1 once).1 (same ▸ List.mem_cons_self)
    rw [firstFor?_cons, firstFor?_cons, firstFor?_cons, firstFor?_cons]
    by_cases here : e.recipient = resolved
    · have other : e'.recipient ≠ resolved := fun same => apart (here.trans same.symm)
      simp [here, other]
    · simp [here]
  | trans first _ ih ih' => rw [ih once, ih' ((first.map _).nodup_iff.1 once)]

/-! ## Statuses -/

namespace Recipients

/-- the reports that count: the first one for each address in use -/
def counted (m : Recipients) (events : List StatusEvent) : List StatusEvent :=
  (firstReports events).filter fun e => m.contains e.recipient

/-- a report under the name of the recipient that its address stands for -/
def rename (m : Recipients) (e : StatusEvent) : StatusEvent := ⟨(m.named? e.recipient).getD e.recipient, e.result⟩

def statuses (m : Recipients) (events : List StatusEvent) : List StatusEvent := (m.counted events).map m.rename

def unreported (m : Recipients) (events : List StatusEvent) : Recipients :=
  ⟨m.entries.filter fun entry => (firstFor? events entry.1).isNone⟩

theorem unreported_nil (m : Recipients) : m.unreported [] = m := by
  exact congrArg Recipients.mk (List.filter_eq_self.2 fun _ _ => rfl)

/-- a report about an address in use settles that address and leaves the others to the reports after it -/
theorem unreported_cons {m : Recipients} (distinct : m.Distinct) (e : StatusEvent) (rest : List StatusEvent) :
    (m.erase e.recipient).unreported rest = m.unreported (e :: rest) := by
  unfold unreported
  rw [erase_entries distinct, List.filter_filter]
  congr 2
  funext entry
  rw [firstFor?_cons]
  by_cases same : e.recipient = entry.1
  · simp [same]
  · have apart : entry.1 ≠ e.recipient := fun h => same h.symm
    simp [same, apart]

theorem counted_erase {m : Recipients} (distinct : m.Distinct) (resolved : String) (events : List StatusEvent) :
    (m.erase resolved).counted events = (m.counted events).filter fun e => e.recipient != resolved := by
  unfold counted
  rw [List.filter_filter]
  congr 1
  funext e
  rw [← named?_isSome, ← named?_isSome, named?_erase distinct]
  by_cases same : e.recipient = resolved <;> simp [same]

theorem counted_cons (m : Recipients) (e : StatusEvent) (rest : List StatusEvent) : m.counted (e :: rest)
    = if m.contains e.recipient then e :: (m.counted rest).filter fun later => later.recipient != e.recipient
      else m.counted rest := by
  unfold counted
  rw [firstReports, List.filter_cons]
  split
  · rw [List.filter_filter, List.filter_filter]
    congr 2
    funext later
    exact Bool.and_comm _ _
  · next foreign =>
    rw [List.filter_filter]
    congr 1
    funext later
    by_cases same : later.recipient = e.recipient
    · simp [same, foreign]
    · simp [same]

theorem statuses_cons {m : Recipients} (distinct : m.Distinct) (e : StatusEvent) (rest : List StatusEvent) :
    m.statuses (e :: rest) = match m.named? e.recipient with
      | some recipient => ⟨recipient, e.result⟩ :: (m.erase e.recipient).statuses rest
      | none => m.statuses rest := by
  have known := m.named?_isSome e.recipient
  unfold statuses
  rw [counted_cons, ← known]
  cases hn : m.named? e.recipient with
  | none => rfl
  | some recipient =>
    have first : m.rename e = ⟨recipient, e.result⟩ := by rw [rename, hn]; rfl
    rw [Option.isSome_some, if_pos rfl, List.map_cons, first, counted_erase distinct]
    congr 1
    refine List.map_congr_left fun later hlater => ?_
    have other : later.recipient ≠ e.recipient := by simpa using (List.mem_filter.1 hlater).2
    rw [rename, rename, named?_erase distinct, if_neg other]

theorem unreported_isEmpty {m : Recipients} {received : List StatusEvent} :
    (m.unreported received).isEmpty = true
      ↔ ∀ resolved ∈ m.resolved, (firstFor? received resolved).isSome = true := by
  simp [unreported, isEmpty, Recipients.resolved, Option.isSome_iff_ne_none]

theorem mem_counted {m : Recipients} {received : List StatusEvent} {e : StatusEvent} :
    e ∈ m.counted received ↔ e.recipient ∈ m.resolved ∧ firstFor? received e.recipient = some e := by
  rw [counted, List.mem_filter, mem_firstReports, contains_iff, and_comm]

theorem firstFor?_counted {m : Recipients} (events : List StatusEvent) {resolved : String}
    (used : resolved ∈ m.resolved) : firstFor? (m.counted events) resolved = firstFor? events resolved := by
  rw [← firstFor?_firstReports events, counted, firstFor?, List.find?_filter, firstFor?]
  refine List.find?_congr fun e _ => ?_
  by_cases here : e.recipient = resolved
  · simp [here, contains_iff.2 used]
  · simp [here]

/-- where no recipient is named twice, the status of each is the first report for its address -/
theorem firstFor?_statuses {m : Recipients} (distinct : m.Distinct) (names : m.names.Nodup)
    (received : List StatusEvent) {entry : String × String} (h : entry ∈ m.entries) :
    firstFor? (m.statuses received) entry.2 = (firstFor? received entry.1).map fun e => ⟨entry.2, e.result⟩ := by
  have apart : ∀ other ∈ m.entries, other.2 = entry.2 → other.1 = entry.1 := fun other hother same =>
    congrArg Prod.fst (List.inj_on_of_nodup_map names hother h same)
  have used : entry.1 ∈ m.resolved := List.mem_map_of_mem h
  have here : ∀ e ∈ m.counted received, ((m.rename e).recipient == entry.2) = (e.recipient == entry.1) := by
    intro e he
    obtain ⟨other, hother, same⟩ := List.mem_map.1 (mem_counted.1 he).1
    have name : (m.rename e).recipient = other.2 := by
      rw [rename, ← same, named?_of_mem distinct hother]
      rfl
    rw [name, ← same, Bool.eq_iff_iff, beq_iff_eq, beq_iff_eq]
    refine ⟨apart other hother, fun same => ?_⟩
    have first := named?_of_mem distinct hother
    rw [same, named?_of_mem distinct h] at first
    exact (Option.some.inj first).symm
  have renamed : firstFor? (m.statuses received) entry.2 = (firstFor? (m.counted received) entry.1).map m.rename := by
    rw [statuses, firstFor?, List.find?_map]
    exact congrArg (Option.map m.rename) (List.find?_congr here)
  rw [renamed, firstFor?_counted received used]
  cases hf : firstFor? received entry.1 with
  | none => rfl
  | some e =>
    have same := firstFor?_recipient hf
    rw [Option.map_some, Option.map_some, rename, same, named?_of_mem distinct h]
    rfl

end Recipients

/-! ## Taking reports in -/

namespace Session

theorem Collected.drain_eq (c : Collected) (distinct : c.outstanding.Distinct) (events : List StatusEvent) :
    c.drain events = ⟨c.outstanding.unreported events, c.statuses ++ c.outstanding.statuses events⟩ := by
  induction events generalizing c with
  | nil => rw [drain, Recipients.unreported_nil]; simp [Recipients.statuses, Recipients.counted, firstReports]
  | cons e rest ih =>
    rw [drain]
    split
    · next nobody =>
      obtain ⟨⟨entries⟩, taken⟩ := c
      obtain rfl : entries = [] := by simpa [Recipients.isEmpty] using nobody
      simp [Recipients.unreported, Recipients.statuses, Recipients.counted, Recipients.contains]
    · have known := c.outstanding.named?_isSome e.recipient
      rw [Recipients.statuses_cons distinct, Collected.take]
      cases hn : c.outstanding.named? e.recipient with
      | some recipient =>
        rw [ih _ (distinct.erase _), Recipients.unreported_cons distinct]
        simp
      | none =>
        rw [hn] at known
        -- nobody is known by this address, so the report changes nothing
        have same : c.outstanding.unreported (e :: rest) = c.outstanding.unreported rest := by
          unfold Recipients.unreported
          congr 1
          refine List.filter_congr fun entry hentry => ?_
          have other : e.recipient ≠ entry.1 := by
            intro here
            have used : c.outstanding.contains e.recipient = true :=
              Recipients.contains_iff.2 (List.mem_map.2 ⟨entry, hentry, here.symm⟩)
            rw [used] at known
            cases known
          rw [firstFor?_cons, if_neg other]
        dsimp only
        rw [ih c distinct, same]

theorem Collected.drain_append (c : Collected) (events later : List StatusEvent) :
    c.drain (events ++ later) = (c.drain events).drain later := by
  induction events generalizing c with
  | nil => rfl
  | cons e rest ih =>
    rw [List.cons_append, drain, drain]
    split
    · next nobody =>
      cases later with
      | nil => rfl
      | cons e' later => rw [drain, if_pos nobody]
    · exact ih _

end Session
end LmtpRelay
