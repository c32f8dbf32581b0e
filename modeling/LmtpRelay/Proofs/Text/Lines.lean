/-
Texts that stay on one line. An octet below 128 stands in the encoding of a text only for the character with the same
number, so a text with neither a carriage return nor a line feed has neither octet: `OneLine.octets`. Text without
blanks is on one line, and so is what is put together from such texts with spaces.
-/
import Mathlib
import LmtpRelay.Text.Blank
import LmtpRelay.Text.Fold
import LmtpRelay.Text.Octets

namespace LmtpRelay

/-! ## Encoding -/

namespace Octets

theorem ofText_append (a b : String) : ofText (a ++ b) = ofText a ++ ofText b := by
  simp [ofText]

theorem ofText_eq (s : String) : ofText s = s.toList.flatMap String.utf8EncodeChar := by
  rw [ofText, ← String.utf8Encode_toList, List.utf8Encode, List.data_toByteArray]

/-- a small octet encodes only the character with its number -/
theorem small_of_mem_encode {b : UInt8} {c : Char} (small : b.toNat < 128) (h : b ∈ String.utf8EncodeChar c) :
    c.toNat = b.toNat := by
  unfold String.utf8EncodeChar at h
  dsimp only at h
  split at h
  · next le =>
    obtain rfl := List.mem_singleton.1 h
    have low : c.toNat ≤ 127 := le
    rw [UInt8.toNat_ofNat']
    show c.toNat = c.toNat % 256
    omega
  · -- every octet of a longer encoding is 128 or more
    exfalso
    split at h
    · simp only [List.mem_cons, List.not_mem_nil, or_false] at h
      rcases h with rfl | rfl <;> simp only [UInt8.toNat_ofNat'] at small <;> omega
    · split at h
      · simp only [List.mem_cons, List.not_mem_nil, or_false] at h
        rcases h with rfl | rfl | rfl <;> simp only [UInt8.toNat_ofNat'] at small <;> omega
      · simp only [List.mem_cons, List.not_mem_nil, or_false] at h
        rcases h with rfl | rfl | rfl | rfl <;> simp only [UInt8.toNat_ofNat'] at small <;> omega

theorem not_mem_ofText {b : UInt8} {c : Char} (small : b.toNat < 128) (same : b.toNat = c.toNat) {s : String}
    (h : c ∉ s.toList) : b ∉ ofText s := by
  rw [ofText_eq]
  intro hb
  obtain ⟨d, hd, encoded⟩ := List.mem_flatMap.1 hb
  have number : d.toNat = c.toNat := (small_of_mem_encode small encoded).trans same
  have : d = c := Char.toNat_inj.1 number
  exact h (this ▸ hd)

theorem toText?_ofText (s : String) : toText? (ofText s) = some s := by
  have whole : (⟨⟨ofText s⟩⟩ : ByteArray) = s.toByteArray := rfl
  rw [toText?, whole, String.fromUTF8?, dif_pos s.isValidUTF8]
  rfl

end Octets

/-! ## One line -/

/-- a text with no end of line in it -/
def OneLine (s : String) : Prop := '\r' ∉ s.toList ∧ '\n' ∉ s.toList

instance (s : String) : Decidable (OneLine s) := inferInstanceAs (Decidable (_ ∧ _))

theorem OneLine.octets {s : String} (h : OneLine s) : Octets.cr ∉ Octets.ofText s ∧ Octets.lf ∉ Octets.ofText s :=
  ⟨Octets.not_mem_ofText (by decide) rfl h.1, Octets.not_mem_ofText (by decide) rfl h.2⟩

theorem OneLine.append {a b : String} (ha : OneLine a) (hb : OneLine b) : OneLine (a ++ b) := by
  simp only [OneLine, String.toList_append, List.mem_append, not_or]
  exact ⟨⟨ha.1, hb.1⟩, ha.2, hb.2⟩

theorem OneLine.intercalate {separator : String} (hs : OneLine separator) {texts : List String}
    (h : ∀ t ∈ texts, OneLine t) : OneLine (separator.intercalate texts) := by
  simp only [OneLine, String.toList_intercalate]
  induction texts with
  | nil => exact ⟨List.not_mem_nil, List.not_mem_nil⟩
  | cons t rest ih =>
    cases rest with
    | nil =>
      rw [List.map_singleton, List.intercalate_singleton]
      exact h t List.mem_cons_self
    | cons u rest =>
      obtain ⟨hcr, hlf⟩ := ih fun v hv => h v (List.mem_cons_of_mem t hv)
      obtain ⟨tcr, tlf⟩ := h t List.mem_cons_self
      simp only [List.map_cons, List.intercalate_cons_cons, List.mem_append, not_or] at hcr hlf ⊢
      exact ⟨⟨⟨tcr, hs.1⟩, hcr⟩, ⟨⟨tlf, hs.2⟩, hlf⟩⟩

/-! ## Text without blanks -/

namespace Text

/-- characters none of which is blank -/
def Blankless (cs : List Char) : Prop := ∀ c ∈ cs, isBlank c = false

theorem Blankless.oneLine {cs : List Char} (h : Blankless cs) : OneLine (String.ofList cs) := by
  constructor <;> rw [String.toList_ofList] <;> intro hc <;> exact absurd (h _ hc) (by decide)

theorem splitBlank_blankless (cs : List Char) : Blankless (splitBlank cs).1 := by
  intro c hc
  have kept := List.all_eq_true.1 (List.all_takeWhile (p := fun c => !isBlank c) (l := cs)) c hc
  simpa using kept

theorem Blankless.consWord {c : Char} {ws : List (List Char)} (hc : isBlank c = false) (h : ∀ w ∈ ws, Blankless w) :
    ∀ w ∈ consWord c ws, Blankless w := by
  cases ws with
  | nil =>
    intro w hw d hd
    obtain rfl := List.mem_singleton.1 hw
    obtain rfl := List.mem_singleton.1 hd
    exact hc
  | cons v vs =>
    intro w hw
    rcases List.mem_cons.1 hw with rfl | hw
    · intro d hd
      rcases List.mem_cons.1 hd with rfl | hd
      · exact hc
      · exact h v List.mem_cons_self d hd
    · exact h w (List.mem_cons_of_mem v hw)

theorem words_blankless (cs : List Char) : ∀ w ∈ words cs, Blankless w := by
  induction cs with
  | nil => intro w hw; cases hw
  | cons c cs ih =>
    unfold words
    split
    · exact ih
    · next hc =>
      rw [Bool.not_eq_true] at hc
      split
      · exact Blankless.consWord hc ih
      · intro w hw
        rcases List.mem_cons.1 hw with rfl | hw
        · intro d hd
          obtain rfl := List.mem_singleton.1 hd
          exact hc
        · exact ih w hw

theorem splitOnce_subset {mark : Char} {cs before after : List Char} (h : splitOnce mark cs = some (before, after)) :
    before ⊆ cs ∧ after ⊆ cs := by
  induction cs generalizing before with
  | nil => cases h
  | cons c cs ih =>
    unfold splitOnce at h
    split at h
    · obtain ⟨rfl, rfl⟩ := Prod.mk.inj (Option.some.inj h)
      exact ⟨List.nil_subset _, List.subset_cons_self _ _⟩
    · obtain ⟨⟨b, a⟩, hb, same⟩ := Option.map_eq_some_iff.1 h
      obtain ⟨rfl, rfl⟩ := Prod.mk.inj same
      obtain ⟨before, after⟩ := ih hb
      exact ⟨List.cons_subset_cons c before, fun d hd => List.mem_cons_of_mem c (after hd)⟩

theorem isBlank_toUpper {c : Char} (h : isBlank c = false) : isBlank c.toUpper = false := by
  unfold Char.toUpper
  split
  · next letter =>
    have low : 97 ≤ c.val.toNat := letter.1
    have high : c.val.toNat ≤ 122 := letter.2
    have number : (c.val + ('A'.val - 'a'.val)).toNat = c.val.toNat - 32 := by
      rw [UInt32.toNat_add, show ('A'.val - 'a'.val).toNat = 4294967264 from rfl]
      omega
    simp only [isBlank, Char.toNat, number, Bool.or_eq_false_iff, Bool.and_eq_false_iff, decide_eq_false_iff_not,
      beq_eq_false_iff_ne]
    omega
  · exact h

theorem upper_blankless {cs : List Char} (h : Blankless cs) : Blankless (upper cs) := by
  intro c hc
  obtain ⟨d, hd, rfl⟩ := List.mem_map.1 hc
  exact isBlank_toUpper (h d hd)

end Text
end LmtpRelay
