/-
What a fault says of a line. The wording of a fault may repeat a path, a parameter or the whole line, but a line of the
peer has no line feed in it, and so neither has the wording: `parse_fault_unbroken`. A recipient that was parsed has no
line feed either.
-/
import LmtpRelay.Proofs.Command.Parsed

namespace LmtpRelay

/-! ## Steps that fail -/

theorem bind_error {ε α β : Type} {x : Except ε α} {f : α → Except ε β} {e : ε} (h : (x >>= f) = .error e) :
    x = .error e ∨ ∃ a, x = .ok a ∧ f a = .error e := by
  cases x with
  | error e' => exact .inl (congrArg Except.error (Except.error.inj h))
  | ok a => exact .inr ⟨a, rfl, h⟩

theorem mapError_error {ε ε' α : Type} {x : Except ε α} {f : ε → ε'} {e : ε'} (h : x.mapError f = .error e) :
    ∃ e', x = .error e' ∧ f e' = e := by
  cases x with
  | error e' => exact ⟨e', rfl, Except.error.inj h⟩
  | ok a => cases h

/-! ## Texts without a line feed -/

/-- a text with no line feed in it -/
def Unbroken (s : String) : Prop := '\n' ∉ s.toList

instance (s : String) : Decidable (Unbroken s) := inferInstanceAs (Decidable (_ ∉ _))

theorem OneLine.unbroken {s : String} (h : OneLine s) : Unbroken s := h.2

theorem Unbroken.append {a b : String} (ha : Unbroken a) (hb : Unbroken b) : Unbroken (a ++ b) := by
  simp only [Unbroken, String.toList_append, List.mem_append, not_or]
  exact ⟨ha, hb⟩

theorem unbroken_number (n : Nat) : Unbroken (toString n) := by
  intro h
  have digit : Char.isDigit '\n' = true := Nat.isDigit_of_mem_toDigits (by decide) (by decide) (Nat.toList_repr ▸ h)
  exact absurd digit (by decide)

theorem Text.Blankless.unbroken {cs : List Char} (h : Text.Blankless cs) : Unbroken (String.ofList cs) :=
  h.oneLine.unbroken

theorem Octets.ofText_of_toText? {bs : Octets} {text : String} (h : toText? bs = some text) : ofText text = bs := by
  unfold toText? String.fromUTF8? at h
  split at h
  · obtain rfl := Option.some.inj h
    rfl
  · cases h

/-- octets without a line feed spell no text with one -/
theorem Octets.unbroken {bs : Octets} {text : String} (h : toText? bs = some text) (none_there : lf ∉ bs) :
    Unbroken text := by
  intro there
  refine none_there ?_
  rw [← ofText_of_toText? h, ofText_eq]
  exact List.mem_flatMap.2 ⟨'\n', there, by decide⟩

/-! ## Parts of a text -/

namespace Text

theorem trimEnd_subset (cs : List Char) : trimEnd cs ⊆ cs := by
  induction cs with
  | nil => exact List.Subset.refl _
  | cons c cs ih =>
    unfold trimEnd
    split
    · split
      · exact List.nil_subset _
      · exact List.cons_subset_cons c (List.nil_subset cs)
    · exact List.cons_subset_cons c ih

theorem trim_subset (cs : List Char) : trim cs ⊆ cs :=
  List.Subset.trans (trimEnd_subset _) (List.dropWhile_sublist _).subset

end Text

/-! ## Parameters -/

namespace Parameters

theorem checkSize_fault {key : String} {value : Option String} {fault : ParameterFault}
    (hv : ∀ v, value = some v → Text.Blankless v.toList) (h : checkSize key value = .error fault) :
    Unbroken fault.message := by
  unfold checkSize at h
  split at h
  · split at h
    · obtain rfl := Except.error.inj h
      decide
    · cases h
    · obtain rfl := Except.error.inj h
      have given : Unbroken (value.getD "") := by
        cases value with
        | none => decide
        | some v =>
          have line := (hv v rfl).unbroken
          rwa [String.ofList_toList] at line
      exact Unbroken.append (by decide) given
  · cases h

theorem addToken_fault {ps : Parameters} {token : List Char} {fault : ParameterFault} (ht : Text.Blankless token)
    (h : ps.addToken token = .error fault) : Unbroken fault.message := by
  obtain ⟨hk, hv⟩ := splitToken_blankless ht
  unfold addToken at h
  dsimp only at h
  split at h
  · obtain rfl := Except.error.inj h
    have key : Unbroken (capital (splitToken token).1) := (Text.upper_blankless hk).unbroken
    exact (Unbroken.append (by decide) key).append (by decide)
  · cases hc : checkSize (splitToken token).1 (splitToken token).2 with
    | error f =>
      rw [hc] at h
      obtain rfl := Except.error.inj h
      exact checkSize_fault hv hc
    | ok _ =>
      rw [hc] at h
      cases h

/-- a word has no blanks, so what is said of it has no line feed -/
theorem parse_fault {cs : List Char} {fault : ParameterFault} (h : parse cs = .error fault) :
    Unbroken fault.message := by
  have step : ∀ {tokens : List (List Char)} {ps : Parameters}, (∀ t ∈ tokens, Text.Blankless t) →
      tokens.foldlM addToken ps = .error fault → Unbroken fault.message := by
    intro tokens ps each hf
    induction tokens generalizing ps with
    | nil => cases hf
    | cons token rest ih =>
      rw [List.foldlM_cons] at hf
      rcases bind_error hf with ha | ⟨ps', -, hf⟩
      · exact addToken_fault (each token List.mem_cons_self) ha
      · exact ih (fun t ht => each t (List.mem_cons_of_mem token ht)) hf
  exact step (Text.words_blankless cs) h

end Parameters

/-! ## Commands -/

theorem AddressList.Fault.unbroken (fault : AddressList.Fault) : Unbroken fault.message := by
  cases fault <;> decide

namespace Command

theorem parseAddress_fault {path : List Char} {fault : CommandFault} (hp : Text.Blankless path)
    (h : parseAddress path = .error fault) : Unbroken fault.message := by
  rcases bind_error h with he | ⟨entries, -, h⟩
  · obtain ⟨f, -, rfl⟩ := mapError_error he
    exact f.unbroken
  · cases entries with
    | nil =>
      obtain rfl := Except.error.inj h
      exact (Unbroken.append (by decide) hp.unbroken).append (by decide)
    | cons entry rest =>
      cases entry with
      | mailbox address => cases h
      | group members =>
        obtain rfl := Except.error.inj h
        exact Unbroken.append (by decide) hp.unbroken

theorem parsePath_fault {allowNull : Bool} {rest : List Char} {fault : CommandFault}
    (h : parsePath allowNull rest = .error fault) : Unbroken fault.message := by
  have blankless := Text.splitBlank_blankless (Text.trim rest)
  unfold parsePath at h
  rcases bind_error h with hw | ⟨params, -, h⟩
  · obtain ⟨f, hf, rfl⟩ := mapError_error hw
    exact Parameters.parse_fault hf
  · split at h
    · split at h
      · cases h
      · obtain rfl := Except.error.inj h
        decide
    · rcases bind_error h with ha | ⟨address, -, h⟩
      · exact parseAddress_fault blankless ha
      · cases h

theorem parseVerb_fault {line verb argument : List Char} {fault : CommandFault}
    (hl : Unbroken (String.ofList line)) (h : parseVerb line verb argument = .error fault) :
    Unbroken fault.message := by
  unfold parseVerb at h
  dsimp only at h
  repeat' split at h
  all_goals first | cases h; done | skip
  · obtain rfl := Except.error.inj h
    exact Unbroken.append (by decide) hl
  · obtain rfl := Except.error.inj h
    exact hl

/-- **A fault of a line without a line feed is worded without one.** -/
theorem parse_fault_unbroken {line : Octets} {fault : CommandFault} (h : parse line = .error fault)
    (none_there : Octets.lf ∉ line) : Unbroken fault.message := by
  have path : ∀ {allowNull : Bool} {rest : List Char} {make : String × Parameters → Command},
      (parsePath allowNull rest).map make = .error fault → Unbroken fault.message := by
    intro allowNull rest make hm
    cases hp : parsePath allowNull rest with
    | ok r =>
      rw [hp] at hm
      cases hm
    | error f =>
      rw [hp] at hm
      obtain rfl := Except.error.inj hm
      exact parsePath_fault hp
  unfold parse at h
  split at h
  · next text spelled =>
    have unbroken := Octets.unbroken spelled none_there
    have trimmed : Unbroken (String.ofList (Text.trim text.toList)) := by
      intro there
      rw [String.toList_ofList] at there
      exact unbroken (Text.trim_subset _ there)
    unfold parseText at h
    dsimp only at h
    split at h
    · exact path h
    · exact path h
    · split at h <;> exact parseVerb_fault trimmed h
  · obtain rfl := Except.error.inj h
    decide

/-- a recipient that was parsed is on one line -/
theorem parse_rcpt_oneLine {line : Octets} {recipient : String} {params : Parameters}
    (h : parse line = .ok (.rcpt recipient params)) : OneLine recipient := by
  have other : ∀ {line verb argument : List Char}, parseVerb line verb argument ≠ .ok (.rcpt recipient params) := by
    intro line verb argument hv
    unfold parseVerb at hv
    dsimp only at hv
    repeat' split at hv
    all_goals cases hv
  unfold parse at h
  split at h
  · next text _ =>
    unfold parseText at h
    dsimp only at h
    split at h
    · next rest _ =>
      cases hp : parsePath true rest <;> rw [hp] at h <;> cases h
    · next rest _ _ =>
      cases hp : parsePath false rest with
      | error f =>
        rw [hp] at h
        cases h
      | ok r =>
        rw [hp] at h
        obtain ⟨rfl, -⟩ := Command.rcpt.inj (Except.ok.inj h)
        exact (parsePath_oneLine hp).1
    · split at h <;> exact absurd h other
  · cases h

end Command
end LmtpRelay
