/-
The map of recipients over any history of insertions, removals and clearings. Each change is recorded with its answer;
from the records alone it can be told which insertions still stand: those that were accepted, and whose address nothing
has taken out since.

- `step_entries`: what one change leaves of the entries and what it adds to them can be told from its record.
- `run_entries`: after any changes the entries are those that survived them, and behind these the insertions that stand.
- `standsFor_iff`: an insertion that stands is the last one of its address that was accepted.
- `ordered_by_insertion`: the map is that of the insertions that stand, in their order, in all its answers.
-/
import LmtpRelay.Proofs.Session.Recipients

namespace LmtpRelay.Recipients

/-! ## Changes -/

/-- add a recipient, as a session does with one that its forwarder accepts; the answer is whether the forwarding address
was free -/
def insert (m : Recipients) (resolved recipient : String) : Bool × Recipients :=
  ((m.insert? resolved recipient).isSome, (m.insert? resolved recipient).getD m)

/-- take a forwarding address out, as a session does when a status for it comes; the answer is the recipient that it
stood for -/
def remove (m : Recipients) (resolved : String) : Option String × Recipients := (m.named? resolved, m.erase resolved)

/-- a change of the recipients -/
inductive Change where
  | insert (resolved recipient : String)
  | remove (resolved : String)
  | clear
  deriving DecidableEq, Repr

/-- a change with its answer -/
inductive Record where
  | insert (resolved recipient : String) (accepted : Bool)
  | remove (resolved : String) (found : Option String)
  | clear
  deriving DecidableEq, Repr

def step (m : Recipients) : Change → Record × Recipients
  | .insert resolved recipient =>
    (.insert resolved recipient (m.insert resolved recipient).1, (m.insert resolved recipient).2)
  | .remove resolved => (.remove resolved (m.remove resolved).1, (m.remove resolved).2)
  | .clear => (.clear, empty)

def run (m : Recipients) : List Change → List Record × Recipients
  | [] => ([], m)
  | change :: rest => ((m.step change).1 :: ((m.step change).2.run rest).1, ((m.step change).2.run rest).2)

variable {m : Recipients} {resolved recipient : String}

theorem insert_new (new : m.contains resolved = false) (recipient : String) :
    m.insert resolved recipient = (true, ⟨m.entries ++ [(resolved, recipient)]⟩) := by
  simp [insert, insert?, new]

theorem insert_used (used : m.contains resolved = true) (recipient : String) :
    m.insert resolved recipient = (false, m) := by
  simp [insert, insert?, used]

/-! ## What the records tell -/

namespace Record

/-- whether a change takes an address out -/
def undoes : Record → String → Bool
  | .insert _ _ _, _ => false
  | .remove resolved _, address => address == resolved
  | .clear, _ => true

def joined : Record → List (String × String)
  | .insert resolved recipient true => [(resolved, recipient)]
  | _ => []

theorem mem_joined {record : Record} :
    (resolved, recipient) ∈ record.joined ↔ record = .insert resolved recipient true := by
  cases record with
  | insert address name accepted => cases accepted <;> simp [joined, eq_comm]
  | remove address found => simp [joined]
  | clear => simp [joined]

end Record

/-- whether nothing takes the address of an entry out -/
def survives (records : List Record) (entry : String × String) : Bool :=
  records.all fun record => !record.undoes entry.1

/-- the entries of the insertions that stand, in the order of the insertions: each was accepted, and nothing has taken
its address out since -/
def standing : List Record → List (String × String)
  | [] => []
  | record :: since => record.joined.filter (survives since) ++ standing since

/-- an address stands for a recipient: the last insertion of it that was accepted named this one, and the address has
not been taken out since -/
def StandsFor (records : List Record) (resolved recipient : String) : Prop :=
  ∃ before since, records = before ++ .insert resolved recipient true :: since ∧
    (∀ other, .insert resolved other true ∉ since) ∧ ∀ record ∈ since, record.undoes resolved = false

@[simp] theorem survives_nil (entry : String × String) : survives [] entry = true := rfl

@[simp] theorem survives_cons (record : Record) (records : List Record) (entry : String × String) :
    survives (record :: records) entry = (!record.undoes entry.1 && survives records entry) := rfl

theorem survives_iff {records : List Record} {entry : String × String} :
    survives records entry = true ↔ ∀ record ∈ records, record.undoes entry.1 = false := by
  simp [survives]

/-- the insertions that stand are among those that were accepted, and nothing has undone them -/
theorem mem_standing {records : List Record} : (resolved, recipient) ∈ standing records ↔
    ∃ before since, records = before ++ .insert resolved recipient true :: since ∧
      ∀ record ∈ since, record.undoes resolved = false := by
  induction records with
  | nil => simp [standing]
  | cons record rest ih =>
    rw [standing, List.mem_append, List.mem_filter, Record.mem_joined, survives_iff, ih]
    constructor
    · rintro (⟨rfl, kept⟩ | ⟨before, since, rfl, kept⟩)
      · exact ⟨[], rest, rfl, kept⟩
      · exact ⟨record :: before, since, rfl, kept⟩
    · rintro ⟨before, since, same, kept⟩
      cases before with
      | nil =>
        obtain ⟨rfl, rfl⟩ := List.cons.inj same
        exact .inl ⟨rfl, kept⟩
      | cons first before =>
        obtain ⟨-, rfl⟩ := List.cons.inj same
        exact .inr ⟨before, since, rfl, kept⟩

/-- whether an insertion stands is told by what comes after it alone -/
theorem standing_suffix (before since : List Record) : standing since <:+ standing (before ++ since) := by
  induction before with
  | nil => exact List.suffix_rfl
  | cons record before ih => exact ih.trans (List.suffix_append ..)

/-- where no address repeats, an insertion that stands is the last of its address that was accepted -/
theorem standsFor_iff {records : List Record} (distinct : ((standing records).map Prod.fst).Nodup) :
    StandsFor records resolved recipient ↔ (resolved, recipient) ∈ standing records := by
  rw [mem_standing]
  constructor
  · rintro ⟨before, since, split, -, kept⟩
    exact ⟨before, since, split, kept⟩
  · rintro ⟨before, since, rfl, kept⟩
    refine ⟨before, since, rfl, fun other again => ?_, kept⟩
    -- an accepted insertion of the same address further on would stand as well, and the address would repeat
    obtain ⟨between, later, rfl⟩ := List.append_of_mem again
    have second : (resolved, other) ∈ standing (between ++ .insert resolved other true :: later) :=
      mem_standing.2 ⟨between, later, rfl, fun record there => kept record (by simp [there])⟩
    have first : standing (.insert resolved recipient true :: (between ++ .insert resolved other true :: later))
        = (resolved, recipient) :: standing (between ++ .insert resolved other true :: later) := by
      rw [standing, Record.joined, List.filter_singleton, survives_iff.2 kept]
      rfl
    have nodup := ((standing_suffix before _).sublist.map Prod.fst).nodup distinct
    rw [first, List.map_cons, List.nodup_cons] at nodup
    exact nodup.1 (List.mem_map.2 ⟨_, second, rfl⟩)

/-! ## One change -/

theorem empty_distinct : empty.Distinct := List.nodup_nil

theorem step_distinct (distinct : m.Distinct) (change : Change) : (m.step change).2.Distinct := by
  cases change with
  | insert resolved recipient =>
    cases free : m.contains resolved with
    | true => simpa [step, insert_used free] using distinct
    | false => simpa [step, insert_new free] using distinct.append free recipient
  | remove resolved => exact distinct.erase resolved
  | clear => exact empty_distinct

/-- **What one change makes of the entries** can be told from its record. -/
theorem step_entries (distinct : m.Distinct) (change : Change) : (m.step change).2.entries
    = (m.entries.filter fun entry => !(m.step change).1.undoes entry.1) ++ (m.step change).1.joined := by
  cases change with
  | insert resolved recipient =>
    cases free : m.contains resolved with
    | true => simp [step, insert_used free, Record.undoes, Record.joined]
    | false => simp [step, insert_new free, Record.undoes, Record.joined]
  | remove resolved =>
    have erased := erase_entries distinct resolved
    simpa [step, remove, Record.undoes, Record.joined, bne] using erased
  | clear => simp [step, empty, Record.undoes, Record.joined]

/-! ## Any changes -/

theorem run_distinct (distinct : m.Distinct) (changes : List Change) : (m.run changes).2.Distinct := by
  induction changes generalizing m with
  | nil => exact distinct
  | cons change rest ih => exact ih (step_distinct distinct change)

/-- **The entries after any changes:** those that survived them, and then the insertions that stand. -/
theorem run_entries (distinct : m.Distinct) (changes : List Change) : (m.run changes).2.entries
    = m.entries.filter (survives (m.run changes).1) ++ standing (m.run changes).1 := by
  induction changes generalizing m with
  | nil =>
    have kept : m.entries.filter (survives []) = m.entries := List.filter_eq_self.2 fun _ _ => survives_nil _
    simp only [run, kept, standing, List.append_nil]
  | cons change rest ih =>
    set record := (m.step change).1
    set later := ((m.step change).2.run rest).1
    have both : ∀ entry : String × String,
        (survives later entry && !record.undoes entry.1) = survives (record :: later) entry := by
      intro entry
      rw [survives_cons, Bool.and_comm]
    calc (m.run (change :: rest)).2.entries
        = (m.step change).2.entries.filter (survives later) ++ standing later := ih (step_distinct distinct change)
      _ = m.entries.filter (survives (record :: later))
            ++ (record.joined.filter (survives later) ++ standing later) := by
          rw [step_entries distinct, List.filter_append, List.filter_filter, List.append_assoc]
          simp only [record, both]
      _ = m.entries.filter (survives (record :: later)) ++ standing (record :: later) := rfl

/-- **The recipients are a map in the order of insertion.** After any changes from the beginning no forwarding address
occurs twice. An insertion is accepted exactly if its address stands for nobody, and one that is not changes nothing.
A removal answers with the recipient that the address stands for, if there is one, and takes out that entry and no
other; to look an address up, or to ask whether it is in use, gives the same. The addresses and the recipients, their
number and whether there are any are those of the insertions that stand, in the order of insertion. -/
theorem ordered_by_insertion (changes : List Change) :
    let records := (empty.run changes).1
    let m := (empty.run changes).2
    m.resolved.Nodup ∧
    (∀ resolved recipient,
      ((m.insert resolved recipient).1 = true ↔ ∀ other, ¬StandsFor records resolved other) ∧
      ((m.insert resolved recipient).1 = false → (m.insert resolved recipient).2 = m)) ∧
    (∀ resolved,
      (∀ recipient, (m.remove resolved).1 = some recipient ↔ StandsFor records resolved recipient) ∧
      ((m.remove resolved).1 = none ↔ ∀ recipient, ¬StandsFor records resolved recipient) ∧
      (m.remove resolved).2.entries = m.entries.filter fun entry => entry.1 != resolved) ∧
    (∀ resolved,
      (∀ recipient, m.named? resolved = some recipient ↔ StandsFor records resolved recipient) ∧
      (m.contains resolved = true ↔ ∃ recipient, StandsFor records resolved recipient)) ∧
    m.resolved = (standing records).map Prod.fst ∧ m.names = (standing records).map Prod.snd ∧
      m.size = (standing records).length ∧ (m.isEmpty = true ↔ standing records = []) := by
  intro records m
  have distinct : m.Distinct := run_distinct empty_distinct changes
  have entries : m.entries = standing records := run_entries empty_distinct changes
  have apart : ((standing records).map Prod.fst).Nodup := entries ▸ distinct
  have named : ∀ resolved recipient, m.named? resolved = some recipient ↔ StandsFor records resolved recipient := by
    intro resolved recipient
    rw [named?_eq_some_iff distinct, entries, standsFor_iff apart]
  have used : ∀ resolved, m.contains resolved = true ↔ ∃ recipient, StandsFor records resolved recipient := by
    intro resolved
    rw [← named?_isSome, Option.isSome_iff_exists]
    simp only [named]
  have free : ∀ resolved, m.contains resolved = false ↔ ∀ recipient, ¬StandsFor records resolved recipient := by
    intro resolved
    rw [← not_exists, ← used, Bool.not_eq_true]
  refine ⟨distinct, ?_, ?_, fun resolved => ⟨named resolved, used resolved⟩, congrArg (List.map Prod.fst) entries,
    congrArg (List.map Prod.snd) entries, congrArg List.length entries, ?_⟩
  · intro resolved recipient
    rw [← free]
    cases present : m.contains resolved with
    | true => simp [insert_used present]
    | false => simp [insert_new present]
  · intro resolved
    have nobody : (m.remove resolved).1 = none ↔ m.contains resolved = false := by
      rw [← named?_isSome, Option.isSome_eq_false_iff, Option.isNone_iff_eq_none, remove]
    exact ⟨named resolved, nobody.trans (free resolved), erase_entries distinct resolved⟩
  · rw [isEmpty, entries, List.isEmpty_iff]

/-- an address that is taken out from before the others and entered again behind them, with two addresses that stand for
one recipient; an address in use is refused, and its entry stays -/
theorem ordered_by_insertion_again :
    let changes := [Change.clear, .insert "p@f" "p@h", .insert "q@f" "q@h", .insert "r@f" "q@h", .insert "q@f" "s@h",
      .remove "p@f", .insert "p@f" "t@h"]
    let records := (empty.run changes).1
    let m := (empty.run changes).2
    StandsFor records "q@f" "q@h" ∧ (m.remove "q@f").1 = some "q@h" ∧ m.names = ["q@h", "q@h", "t@h"] ∧
      (m.insert "r@f" "s@h").1 = false ∧ (m.insert "r@f" "s@h").2 = m := by
  intro changes records m
  have stands : StandsFor records "q@f" "q@h" :=
    ⟨[.clear, .insert "p@f" "p@h" true], [.insert "r@f" "q@h" true, .insert "q@f" "s@h" false,
      .remove "p@f" (some "p@h"), .insert "p@f" "t@h" true], by decide, by simp, by decide⟩
  have refused : (m.insert "r@f" "s@h").1 = false := by decide
  have in_order : (standing records).map Prod.snd = ["q@h", "q@h", "t@h"] := by decide
  obtain ⟨-, inserted, removed, -, -, names, -⟩ := ordered_by_insertion changes
  exact ⟨stands, ((removed "q@f").1 "q@h").2 stands, names.trans in_order, refused,
    (inserted "r@f" "s@h").2 refused⟩

end LmtpRelay.Recipients
