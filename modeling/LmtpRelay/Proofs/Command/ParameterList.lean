/-
Which parameter lists are read, and as what. A text is made of words, and a word of a key and, behind the first equals
sign, a value (`Spells`). The list is read exactly if no key comes twice, in whatever letter case, and each SIZE is a
positive number that a machine word of 64 bits can hold (`fold_ok_iff`). What is read then is what the words spell, in
their order and with the keys in capitals, and it is looked up without regard to the letter case of the key
(`Listed.get?`, `Listed.has_iff`): `parse_parameters`.
-/
import LmtpRelay.Proofs.Command.ParameterText

namespace LmtpRelay.Parameters

/-! ## What the words spell -/

/-- a key as it is written, and the value behind it, if any -/
abbrev Written := List Char × Option (List Char)

namespace Written

def word (w : Written) : List Char := token w.1 w.2

def kept (w : Written) : Parameter := ⟨String.ofList (Text.upper w.1), w.2.map String.ofList⟩

/-- whether a key is that of a parameter, in any letter case -/
def has (key : List Char) (w : Written) : Bool := Text.sameFolded w.1 key

/-- whether the parameter may stand in a list: a SIZE has to be a positive number of at most 64 bits -/
def Sized (w : Written) : Prop :=
  w.has "SIZE".toList = true → ∃ value n, w.2 = some value ∧ Text.Numeral value n ∧ n ≠ 0 ∧ n < 2 ^ 64

end Written

/-- a text spells parameters: they are its words, each parted at its first equals sign -/
structure Spells (cs : List Char) (list : List Written) : Prop where
  words : Text.Parted cs (list.map Written.word)
  parted : ∀ w ∈ list, '=' ∉ w.1

/-- no two parameters have the same key -/
def Distinct (list : List Written) : Prop := list.Pairwise fun w w' => w.has w'.1 = false

theorem exists_written (words : List (List Char)) :
    ∃ list : List Written, words = list.map Written.word ∧ ∀ w ∈ list, '=' ∉ w.1 := by
  induction words with
  | nil => exact ⟨[], rfl, nofun⟩
  | cons word words ih =>
    obtain ⟨list, rfl, parted⟩ := ih
    obtain ⟨key, value, no_mark, rfl⟩ := exists_token word
    refine ⟨(key, value) :: list, rfl, fun w there => ?_⟩
    rcases List.mem_cons.1 there with rfl | there
    · exact no_mark
    · exact parted w there

theorem exists_spells (cs : List Char) : ∃ list, Spells cs list := by
  obtain ⟨list, words, parted⟩ := exists_written (Text.words cs)
  exact ⟨list, Text.words_eq_iff.1 words, parted⟩

/-- a word spells one parameter only -/
theorem word_injective {w w' : Written} (parted : '=' ∉ w.1) (parted' : '=' ∉ w'.1) (same : w.word = w'.word) :
    w = w' := by
  have split := (splitToken_token parted w.2).symm.trans ((congrArg splitToken same).trans
    (splitToken_token parted' w'.2))
  obtain ⟨keys, values⟩ := Prod.mk.inj split
  refine Prod.ext (String.ofList_injective keys) ?_
  exact Option.map_injective (fun _ _ => String.ofList_injective) values

theorem Spells.unique {cs : List Char} {list list' : List Written} (h : Spells cs list) (h' : Spells cs list') :
    list = list' := by
  have words := (Text.words_eq_iff.2 h.words).symm.trans (Text.words_eq_iff.2 h'.words)
  have parted := h.parted
  have parted' := h'.parted
  clear h h'
  induction list generalizing list' with
  | nil => exact (List.map_eq_nil_iff.1 words.symm).symm
  | cons w list ih =>
    cases list' with
    | nil => cases words
    | cons w' list' =>
      obtain ⟨first, rest⟩ := List.cons.inj words
      have here := word_injective (parted w List.mem_cons_self) (parted' w' List.mem_cons_self) first
      rw [here, ih rest (fun v there => parted v (List.mem_cons_of_mem _ there))
        (fun v there => parted' v (List.mem_cons_of_mem _ there))]

/-! ## Looking up -/

/-- parameters that hold what was written, in its order -/
def Listed (list : List Written) (ps : Parameters) : Prop := ps.entries = list.map Written.kept

section listed

variable {list : List Written} {ps : Parameters}

theorem kept_key_iff (w : Written) (key : String) : w.kept.key = capital key ↔ w.has key.toList = true := by
  rw [Written.has, Text.sameFolded_iff]
  exact String.ofList_inj

theorem Listed.has_iff (h : Listed list ps) (key : String) :
    ps.has key = true ↔ ∃ w ∈ list, w.has key.toList = true := by
  rw [Parameters.has, h, List.any_map]
  simp only [List.any_eq_true, Function.comp_apply, beq_iff_eq, kept_key_iff]

theorem Distinct.keys_nodup (distinct : Distinct list) (h : Listed list ps) :
    (ps.entries.map Parameter.key).Nodup := by
  rw [h, List.map_map, List.Nodup, List.pairwise_map]
  refine distinct.imp fun {w w'} other same => ?_
  have folded : w.has w'.1 = true := Text.sameFolded_iff.2 (String.ofList_injective same)
  rw [folded] at other
  cases other

theorem Listed.get? (h : Listed list ps) (distinct : Distinct list) {w : Written} (there : w ∈ list) {key : String}
    (same : w.has key.toList = true) : ps.get? key = w.2.map String.ofList := by
  have here : w.kept ∈ ps.entries := h ▸ List.mem_map_of_mem there
  have named := (kept_key_iff w key).2 same
  have found : ps.entries.find? (fun p => p.key == capital key) = some w.kept := by
    cases search : ps.entries.find? fun p => p.key == capital key with
    | none => exact absurd (beq_iff_eq.2 named) (List.find?_eq_none.1 search _ here)
    | some p =>
      have first : p.key = capital key := by simpa using List.find?_some search
      rw [List.inj_on_of_nodup_map (distinct.keys_nodup h) (List.mem_of_find?_eq_some search) here
        (first.trans named.symm)]
  rw [Parameters.get?, found]
  rfl

theorem Listed.get?_none (h : Listed list ps) {key : String} (absent : ∀ w ∈ list, w.has key.toList = false) :
    ps.get? key = none := by
  have nobody : ps.entries.find? (fun p => p.key == capital key) = none := by
    rw [h, List.find?_eq_none]
    intro p there
    obtain ⟨w, member, rfl⟩ := List.mem_map.1 there
    rw [beq_iff_eq, kept_key_iff, absent w member]
    exact Bool.false_ne_true
  rw [Parameters.get?, nobody]
  rfl

/-- **In which letter case a key is looked up does not matter.** -/
theorem lookup_folded (ps : Parameters) {key key' : String} (same : Text.sameFolded key.toList key'.toList = true) :
    ps.get? key' = ps.get? key ∧ ps.has key' = ps.has key := by
  have capitals : capital key' = capital key := by rw [capital, capital, Text.sameFolded_iff.1 same]
  rw [Parameters.get?, Parameters.get?, Parameters.has, Parameters.has, capitals]
  exact ⟨rfl, rfl⟩

/-- the size is given exactly where there is a SIZE, and it is positive -/
theorem Listed.size? (h : Listed list ps) (distinct : Distinct list) (sized : ∀ w ∈ list, w.Sized) :
    (ps.size?.isSome = true ↔ ∃ w ∈ list, w.has "SIZE".toList = true) ∧ ∀ n, ps.size? = some n → 1 ≤ n := by
  by_cases given : ∃ w ∈ list, w.has "SIZE".toList = true
  · obtain ⟨w, there, named⟩ := given
    obtain ⟨value, n, valued, spelled, positive, within⟩ := sized w there named
    have found : ps.size? = some n := by
      rw [Parameters.size?, h.get? distinct there named, valued]
      refine Text.numeral?_eq_some_iff.2 ⟨?_, Nat.le_sub_one_of_lt within⟩
      rwa [String.toList_ofList]
    rw [found]
    refine ⟨⟨fun _ => ⟨w, there, named⟩, fun _ => rfl⟩, fun m same => ?_⟩
    obtain rfl := Option.some.inj same
    exact Nat.pos_of_ne_zero positive
  · have absent : ∀ w ∈ list, w.has "SIZE".toList = false := fun w there =>
      Bool.eq_false_iff.2 fun named => given ⟨w, there, named⟩
    have none_found : ps.size? = none := by
      rw [Parameters.size?, h.get?_none absent]
      rfl
    rw [none_found]
    exact ⟨⟨nofun, fun there => absurd there given⟩, nofun⟩

end listed

/-! ## Reading -/

theorem checkSize_ok_iff (w : Written) :
    checkSize (String.ofList w.1) (w.2.map String.ofList) = .ok () ↔ w.Sized := by
  obtain ⟨key, value⟩ := w
  have named : Written.has "SIZE".toList (key, value) = Text.sameFolded (String.ofList key).toList "SIZE".toList := by
    rw [String.toList_ofList (l := key)]
    rfl
  unfold checkSize Written.Sized
  rw [named]
  cases Text.sameFolded (String.ofList key).toList "SIZE".toList with
  | false => exact ⟨fun _ => nofun, fun _ => rfl⟩
  | true =>
    rw [if_pos rfl]
    cases value with
    | none => exact ⟨nofun, fun sized => absurd (sized rfl) (by rintro ⟨_, _, valued, _⟩; cases valued)⟩
    | some value =>
      dsimp only [Option.map_some, Option.bind_some]
      rw [String.toList_ofList]
      constructor
      · intro checked _
        split at checked
        · cases checked
        · rename_i n positive read
          obtain ⟨spelled, within⟩ := Text.numeral?_eq_some_iff.1 read
          refine ⟨value, n, rfl, spelled, fun zero => positive (zero ▸ rfl), ?_⟩
          exact Nat.lt_of_le_of_lt within (by decide)
        · cases checked
      · intro sized
        obtain ⟨_, n, valued, spelled, positive, within⟩ := sized rfl
        obtain rfl := Option.some.inj valued
        have read : Text.numeral? sizeLimit value = some n :=
          Text.numeral?_eq_some_iff.2 ⟨spelled, Nat.le_sub_one_of_lt within⟩
        rw [read]
        cases n with
        | zero => exact absurd rfl positive
        | succ n => rfl

theorem spelled_word_kept {w : Written} (parted : '=' ∉ w.1) : spelled w.word = w.kept := by
  rw [spelled, Written.word, splitToken_token parted, capital, String.toList_ofList, Written.kept]

/-- a word is added exactly if its key is new and its size, if it is one, is in order -/
theorem addToken_word {list : List Written} {ps : Parameters} (h : Listed list ps) {w : Written} (parted : '=' ∉ w.1) :
    (∃ ps', ps.addToken w.word = .ok ps') ↔ (∀ v ∈ list, v.has w.1 = false) ∧ w.Sized := by
  have given := h.has_iff (String.ofList w.1)
  rw [String.toList_ofList] at given
  have there : (∀ v ∈ list, v.has w.1 = false) ↔ ps.has (String.ofList w.1) = false := by
    rw [← Bool.not_eq_true, given]
    exact ⟨fun new ⟨v, member, same⟩ => absurd same (by rw [new v member]; exact Bool.false_ne_true),
      fun new v member => Bool.eq_false_iff.2 fun same => new ⟨v, member, same⟩⟩
  rw [there, ← checkSize_ok_iff]
  unfold addToken
  rw [Written.word, splitToken_token parted]
  dsimp only
  cases ps.has (String.ofList w.1) with
  | true => exact ⟨nofun, fun h => absurd h.1 Bool.noConfusion⟩
  | false =>
    rw [if_neg Bool.false_ne_true]
    cases checkSize (String.ofList w.1) (w.2.map String.ofList) with
    | ok _ => exact ⟨fun _ => ⟨rfl, rfl⟩, fun _ => ⟨_, rfl⟩⟩
    | error f => exact ⟨nofun, fun h => nomatch h.2⟩

/-- words are added behind others exactly if no key comes twice and each size is in order -/
theorem fold_ok_iff {done list : List Written} {ps : Parameters} (h : Listed done ps) (parted : ∀ w ∈ list, '=' ∉ w.1)
    (distinct : Distinct done) :
    (∃ ps', (list.map Written.word).foldlM addToken ps = .ok ps') ↔
      Distinct (done ++ list) ∧ ∀ w ∈ list, w.Sized := by
  -- the words that are added already are the ones the next key is compared with
  induction list generalizing done ps with
  | nil => exact ⟨fun _ => ⟨by rwa [List.append_nil], nofun⟩, fun _ => ⟨ps, rfl⟩⟩
  | cons w list ih =>
    have here := parted w List.mem_cons_self
    have added := addToken_word h here
    rw [List.map_cons, List.foldlM_cons, List.append_cons, List.forall_mem_cons]
    cases first : ps.addToken w.word with
    | error f =>
      refine ⟨nofun, fun ⟨all, sized, _⟩ => ?_⟩
      have new : ∀ v ∈ done, v.has w.1 = false := fun v there =>
        (List.pairwise_append.1 (List.pairwise_append.1 all).1).2.2 v there w List.mem_cons_self
      obtain ⟨ps', found⟩ := added.2 ⟨new, sized⟩
      rw [first] at found
      cases found
    | ok ps₁ =>
      obtain ⟨new, sized⟩ := added.1 ⟨ps₁, first⟩
      have listed : Listed (done ++ [w]) ps₁ := by
        rw [Listed, addToken_ok first, h, List.map_append, spelled_word_kept here]
        rfl
      have apart : Distinct (done ++ [w]) := by
        refine List.pairwise_append.2 ⟨distinct, List.pairwise_singleton _ _, fun v there v' last => ?_⟩
        rw [List.mem_singleton.1 last]
        exact new v there
      refine (ih listed (fun v there => parted v (List.mem_cons_of_mem _ there)) apart).trans ?_
      exact and_congr_right fun _ => (and_iff_right sized).symm

/-- **Which parameter lists are read, and as what.** Each text spells exactly one list of parameters. It is read exactly
if no two of them have the same key and each SIZE is a positive number of at most 64 bits. The parameters are then what
was written, in its order, with the keys in capitals and the values untouched; no key is there twice; in which letter
case a key is looked up does not matter, and what is found is what was written for it; the size is given exactly where
there is a SIZE, and it is positive; and, written out, the parameters are read as the same again. -/
theorem parse_parameters (text : String) :
    ∃ list, Spells text.toList list ∧ (∀ other, Spells text.toList other → other = list) ∧
      ((∃ ps, parse text.toList = .ok ps) ↔ Distinct list ∧ ∀ w ∈ list, w.Sized) ∧
      ∀ ps, parse text.toList = .ok ps →
        ps.entries = list.map Written.kept ∧
        (ps.entries.map Parameter.key).Nodup ∧
        (∀ key key' : String, Text.sameFolded key.toList key'.toList = true →
          ps.get? key' = ps.get? key ∧ ps.has key' = ps.has key) ∧
        (∀ key : String, ps.has key = true ↔ ∃ w ∈ list, w.has key.toList = true) ∧
        (∀ w ∈ list, ∀ key : String, w.has key.toList = true → ps.get? key = w.2.map String.ofList) ∧
        (ps.size?.isSome = true ↔ ∃ w ∈ list, w.has "SIZE".toList = true) ∧
        (∀ n, ps.size? = some n → 1 ≤ n) ∧
        parse ps.text.toList = .ok ps := by
  obtain ⟨list, spells⟩ := exists_spells text.toList
  have words := Text.words_eq_iff.2 spells.words
  have start : Listed [] empty := rfl
  have read_iff : (∃ ps, parse text.toList = .ok ps) ↔ Distinct list ∧ ∀ w ∈ list, w.Sized := by
    rw [parse, words]
    exact fold_ok_iff start spells.parted List.Pairwise.nil
  refine ⟨list, spells, fun other h => h.unique spells, read_iff, fun ps read => ?_⟩
  obtain ⟨distinct, sized⟩ := read_iff.1 ⟨ps, read⟩
  have listed : Listed list ps := by
    rw [Listed, parse_entries read, words, List.map_map]
    exact List.map_congr_left fun w there => spelled_word_kept (spells.parted w there)
  obtain ⟨size_given, size_positive⟩ := listed.size? distinct sized
  exact ⟨listed, distinct.keys_nodup listed, fun _ _ same => lookup_folded ps same, listed.has_iff,
    fun _ there _ same => listed.get? distinct there same, size_given, size_positive, parse_text read⟩

/-- a key that comes again is refused in any letter case, even with the same value -/
example : parse "SIZE=+5 Size=+5".toList = .error (.duplicate "SIZE") := by decide +kernel

end LmtpRelay.Parameters
