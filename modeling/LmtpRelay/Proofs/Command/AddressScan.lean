/-
Scanning an address list. A scan goes over a text piece by piece (`Reads`), and what it reads next does not depend on
the entries that it has read: the entries after one are those that the rest of the text spells (`run_next`). A group that
is opened first is the first entry: `run_in_group`.
-/
import LmtpRelay.Proofs.Command.Parsed
import LmtpRelay.Proofs.Text.Words

namespace LmtpRelay.AddressList

/-! ## Scanning piece by piece -/

def run (s : Scan) (text : List Char) : Except Fault (List Entry) := do
  let s ← text.foldlM Scan.step s
  s.finish

theorem run_cons (s : Scan) (c : Char) (text : List Char) : run s (c :: text) = s.step c >>= fun s' => run s' text := by
  unfold run
  rw [List.foldlM_cons]
  cases s.step c <;> rfl

theorem entries_eq (text : List Char) : entries text = (run Scan.initial text).map List.reverse := by
  unfold entries run
  cases text.foldlM Scan.step Scan.initial with
  | error f => rfl
  | ok s => cases h : s.finish <;> simp [h, bind, Except.bind, Except.map, pure, Except.pure]

theorem entries_eq_ok_iff {text : List Char} {es : List Entry} :
    entries text = .ok es ↔ run Scan.initial text = .ok es.reverse := by
  rw [entries_eq]
  cases run Scan.initial text with
  | error f => exact ⟨nofun, nofun⟩
  | ok out => simp [Except.map, List.reverse_eq_iff]

/-- the scan goes over a piece of text from one state to another -/
def Reads (s : Scan) (piece : List Char) (s' : Scan) : Prop := ∀ rest, run s (piece ++ rest) = run s' rest

theorem Reads.refl (s : Scan) : Reads s [] s := fun _ => rfl

theorem Reads.trans {s s' s'' : Scan} {a b : List Char} (h : Reads s a s') (h' : Reads s' b s'') :
    Reads s (a ++ b) s'' := by
  intro rest
  rw [List.append_assoc, h, h']

theorem Reads.step {s s' s'' : Scan} {c : Char} {piece : List Char} (h : s.step c = .ok s')
    (more : Reads s' piece s'') : Reads s (c :: piece) s'' := by
  intro rest
  rw [List.cons_append, run_cons, h]
  exact more rest

/-- a piece with no `stop` in it, and the `stop`, where every other character is passed over -/
theorem Reads.until {s s' : Scan} {stop : Char} (passes : ∀ c, c ≠ stop → s.step c = .ok s)
    (stops : s.step stop = .ok s') {piece : List Char} (absent : stop ∉ piece) : Reads s (piece ++ [stop]) s' := by
  induction piece with
  | nil => exact .step stops (.refl s')
  | cons c piece ih =>
    obtain ⟨other, others⟩ := not_or.1 (mt List.mem_cons.2 absent)
    exact .step (passes c (Ne.symm other)) (ih others)

/-! ## Addresses that are read -/

variable {es : List Entry} {read : List Char}

/-- an address that has been read is an entry, if it has an at sign -/
theorem push_eq {place place' : Place} (address : List Char) :
    (⟨place, read, none, es⟩ : Scan).push place' address =
      if '@' ∈ address then .ok ⟨place', [], none, .mailbox address :: es⟩ else .error .noAtSign := by
  simp only [Scan.push, List.contains_iff_mem]

/-- a bare address is what was read, without the blanks at its end -/
theorem bareAddress_eq (s : Scan) : s.bareAddress = Text.trimEnd s.address.reverse := by
  unfold Scan.bareAddress
  induction s.address with
  | nil => rfl
  | cons c read ih =>
    rw [List.reverse_cons, Text.trimEnd_concat, ← ih, List.dropWhile_cons]
    split
    · rfl
    · rw [List.reverse_cons]

theorem finish_bare (read : List Char) : (⟨.bare, read, none, es⟩ : Scan).finish =
    if '@' ∈ Text.trimEnd read.reverse then .ok (.mailbox (Text.trimEnd read.reverse) :: es) else .error .noAtSign := by
  show ((⟨.bare, read, none, es⟩ : Scan).push .start _).map Scan.entries = _
  rw [bareAddress_eq, push_eq]
  split <;> rfl

/-- either separator does the same to words as the end, and the next entry begins -/
theorem step_separator {c : Char} (separator : c ∈ [',', ';']) (read : List Char) :
    (⟨.bare, read, none, es⟩ : Scan).step c =
      (⟨.bare, read, none, es⟩ : Scan).finish.map fun es' => ⟨.start, [], none, es'⟩ := by
  rw [finish_bare]
  rcases List.mem_pair.1 separator with rfl | rfl
  · show (⟨.bare, read, none, es⟩ : Scan).push .start _ = _
    rw [bareAddress_eq, push_eq]
    split <;> rfl
  · show ((⟨.bare, read, none, es⟩ : Scan).push .start _).map Scan.endGroup = _
    rw [bareAddress_eq, push_eq]
    split <;> rfl

/-! ## Entries that were read before -/

/-- the scan with older entries in front of those that it has read -/
def Scan.after (s : Scan) (older : List Entry) : Scan := { s with entries := s.entries ++ older }

theorem push_after (s : Scan) (older : List Entry) (place : Place) (address : List Char) :
    (s.after older).push place address = (s.push place address).map (·.after older) := by
  rcases s with ⟨_, _, members, _⟩
  unfold Scan.push
  split
  · cases members <;> rfl
  · rfl

theorem openGroup_after (s : Scan) (older : List Entry) :
    (s.after older).openGroup = s.openGroup.map (·.after older) := by
  rcases s with ⟨_, _, members, _⟩
  cases members <;> rfl

theorem endGroup_after (s : Scan) (older : List Entry) : (s.after older).endGroup = s.endGroup.after older := by
  rcases s with ⟨_, _, members, _⟩
  cases members <;> rfl

theorem begin_after (s : Scan) (older : List Entry) (c : Char) :
    (s.after older).begin c = (s.begin c).map (·.after older) := by
  have same : (s.after older).members = s.members := rfl
  unfold Scan.begin
  rw [endGroup_after, same]
  split_ifs <;> rfl

/-- **What is read next does not depend on the entries before it.** -/
theorem step_after (s : Scan) (older : List Entry) (c : Char) :
    (s.after older).step c = (s.step c).map (·.after older) := by
  have here : (s.after older).place = s.place := rfl
  cases place : s.place <;> simp only [Scan.step, here, place]
  case start | opened => exact begin_after s older c
  case named => split_ifs <;> first | rfl | exact openGroup_after s older
  case bracketed => split_ifs <;> first | rfl | exact push_after s older _ _
  case closed =>
    rw [endGroup_after]
    split_ifs <;> rfl
  case bare =>
    have same : (s.after older).bareAddress = s.bareAddress := rfl
    have ended : (((s.push .start s.bareAddress).map (·.after older)).map Scan.endGroup) =
        ((s.push .start s.bareAddress).map Scan.endGroup).map (·.after older) := by
      cases s.push .start s.bareAddress with
      | error f => rfl
      | ok s' => exact congrArg Except.ok (endGroup_after s' older)
    rw [same, push_after, openGroup_after, ended]
    split_ifs <;> rfl
  case escaped => rfl
  all_goals split_ifs <;> rfl

theorem finish_after (s : Scan) (older : List Entry) : (s.after older).finish = s.finish.map (· ++ older) := by
  rcases s with ⟨place, address, members, es⟩
  cases members with
  | some members => cases place <;> rfl
  | none =>
    cases place
    case bare =>
      let s : Scan := ⟨.bare, address, none, es⟩
      show ((s.after older).push .start s.bareAddress).map _ = ((s.push .start s.bareAddress).map _).map _
      rw [push_after]
      cases s.push .start s.bareAddress <;> rfl
    all_goals rfl

theorem run_after (s : Scan) (older : List Entry) (text : List Char) :
    run (s.after older) text = (run s text).map (· ++ older) := by
  induction text generalizing s with
  | nil => exact finish_after s older
  | cons c text ih =>
    rw [run_cons, run_cons, step_after]
    cases s.step c with
    | error f => rfl
    | ok s' => exact ih s'

/-- the entries after one that has been read are those that the rest of the text spells -/
theorem run_next {first : Entry} {text : List Char} {out : List Entry} :
    run ⟨.start, [], none, [first]⟩ text = .ok out ↔
      ∃ others, out.reverse = first :: others ∧ entries text = .ok others := by
  have apart : run ⟨.start, [], none, [first]⟩ text = (run Scan.initial text).map (· ++ [first]) :=
    run_after Scan.initial [first] text
  rw [apart, entries_eq]
  cases run Scan.initial text with
  | error f => simp [Except.map]
  | ok read =>
    simp only [Except.map, Except.ok.injEq, exists_eq_right']
    rw [← List.reverse_inj, List.reverse_append, List.reverse_singleton, List.singleton_append]
    exact eq_comm

/-! ## Groups -/

theorem step_in_group {s s' : Scan} {c : Char} (inside : s.members.isSome = true) (h : s.step c = .ok s') :
    (s'.members.isSome = true ∧ s'.entries = s.entries) ∨
      ∃ members, s' = ⟨.start, [], none, .group members :: s.entries⟩ := by
  rcases s with ⟨place, address, _ | members, es⟩
  · cases inside
  have pushed : ∀ {next : Place} {a : List Char} {s₁ : Scan},
      (⟨place, address, some members, es⟩ : Scan).push next a = .ok s₁ →
        s₁.members.isSome = true ∧ s₁.entries = es := by
    intro next a s₁ h
    unfold Scan.push at h
    split at h
    · cases h
      exact ⟨rfl, rfl⟩
    · cases h
  have ended : ∀ {s₁ : Scan}, s₁.members.isSome = true → s₁.entries = es →
      ∃ members, s₁.endGroup = ⟨.start, [], none, .group members :: es⟩ := by
    rintro ⟨_, _, _ | members, _⟩ some_members rfl
    · cases some_members
    · exact ⟨members.reverse, rfl⟩
  by_cases after_bare : place = .bare ∧ c = ';'
  · -- the member ends, and the group with it
    obtain ⟨rfl, rfl⟩ := after_bare
    cases push : (⟨.bare, address, some members, es⟩ : Scan).push .start
        (⟨.bare, address, some members, es⟩ : Scan).bareAddress with
    | error f =>
      simp [Scan.step, push, Except.map] at h
    | ok s₁ =>
      simp only [Scan.step, push] at h
      obtain rfl := Except.ok.inj h
      exact .inr (ended (pushed push).1 (pushed push).2)
  · cases place <;> simp only [Scan.step, Scan.begin] at h <;> (try split_ifs at h)
    all_goals first
      | (cases h; exact .inl ⟨rfl, rfl⟩)
      | (cases h; exact .inr ⟨_, rfl⟩)
      | cases h
      | exact .inl (pushed h)
      | simp_all

def GroupFirst (read : List Entry) : Prop := ∃ members others, read.reverse = .group members :: others

/-- when a group is open and nothing was read before it, the group is the first entry -/
theorem run_in_group {s : Scan} {text : List Char} {out : List Entry} (inside : s.members.isSome = true)
    (first : s.entries = []) (h : run s text = .ok out) : GroupFirst out := by
  induction text generalizing s with
  | nil =>
    rcases s with ⟨place, address, _ | members, es⟩
    · cases inside
    cases first
    cases place <;> cases h
    exact ⟨[], [], rfl⟩
  | cons c text ih =>
    rw [run_cons] at h
    obtain ⟨s', step, h⟩ := bind_ok h
    rcases step_in_group inside step with ⟨inside', same⟩ | ⟨members, rfl⟩
    · exact ih inside' (same.trans first) h
    · rw [first] at h
      obtain ⟨others, same, -⟩ := run_next.1 h
      exact ⟨members, others, same⟩

end LmtpRelay.AddressList
