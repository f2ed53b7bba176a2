import Mathlib
import TemplateExpr.Text.Blank
import TemplateExpr.Token

/-!
# Classes of characters

* `not_isBlank_of_isNameStart`   no blank starts a name;
* `not_isDigit_of_isNameStart`   and no digit does;
* `takeWhile_append_boundary`    a run of one class ends at a character outside it.
-/

namespace TemplateExpr

namespace Text

theorem inSpans_disjoint {spans spans' : Spans} {c : Char}
    (h : ∀ s ∈ spans, ∀ t ∈ spans', s.2 < t.1 ∨ t.2 < s.1) (hc : inSpans spans c = true) :
    inSpans spans' c = false := by
  rw [inSpans, List.any_eq_true] at hc
  obtain ⟨s, hs, hsc⟩ := hc
  rw [inSpans, List.any_eq_false]
  intro t ht htc
  have := h s hs t ht
  simp only [Bool.and_eq_true, decide_eq_true_eq] at hsc htc
  omega

/-- Characters between two code points that no run of blanks touches. -/
theorem not_isBlank_of_range {low high : Nat} (h : ∀ s ∈ blankSpans, s.2 < low ∨ high < s.1)
    {c : Char} (hl : low ≤ c.toNat) (hh : c.toNat ≤ high) : isBlank c = false := by
  rw [isBlank, inSpans, List.any_eq_false]
  intro s hs hc
  have := h s hs
  simp only [Bool.and_eq_true, decide_eq_true_eq] at hc
  omega

theorem not_isBlank_of_isAlpha {c : Char} (h : c.isAlpha = true) : isBlank c = false := by
  have hn : c.val.toNat = c.toNat := rfl
  simp only [Char.isAlpha, Char.isUpper, Char.isLower, Bool.or_eq_true, decide_eq_true_eq,
    Bool.and_eq_true, UInt32.le_iff_toNat_le, ge_iff_le, hn] at h
  have hrange : 65 ≤ c.toNat ∧ c.toNat ≤ 122 := by simp at h; omega
  exact not_isBlank_of_range (by decide) hrange.1 hrange.2

theorem not_isBlank_of_isDigit {c : Char} (h : c.isDigit = true) : isBlank c = false := by
  rw [Char.isDigit_iff_toNat] at h
  exact not_isBlank_of_range (by decide) h.1 h.2

/-- No blank is a letter. -/
theorem not_isBlank_of_isAlphabetic {c : Char} (h : isAlphabetic c = true) :
    isBlank c = false := by
  rw [isAlphabetic] at h
  split at h
  · exact not_isBlank_of_isAlpha h
  · exact inSpans_disjoint (by decide +kernel) h

end Text

theorem not_isBlank_of_isNameStart {c : Char} (h : isNameStart c = true) :
    Text.isBlank c = false := by
  simp only [isNameStart, Bool.or_eq_true, beq_iff_eq] at h
  rcases h with (h | rfl) | rfl
  · exact Text.not_isBlank_of_isAlphabetic h
  · decide
  · decide

/-! ## names and digits -/

theorem not_isDigit_of_isNameStart {c : Char} (h : isNameStart c = true) : c.isDigit = false := by
  cases hd : c.isDigit with
  | false => rfl
  | true =>
    have hn : c.toNat < 128 ∧ c.isAlpha = false ∧ c ≠ '_' ∧ c ≠ '$' := by
      simp only [Char.isDigit, Bool.and_eq_true, decide_eq_true_eq, UInt32.le_iff_toNat_le,
        ge_iff_le] at hd
      have hv : c.val.toNat = c.toNat := rfl
      simp only [hv] at hd
      refine ⟨?_, ?_, ?_, ?_⟩
      · simp at hd; omega
      · simp only [Char.isAlpha, Char.isUpper, Char.isLower, Bool.or_eq_false_iff,
          decide_eq_false_iff_not, Bool.and_eq_false_iff, UInt32.le_iff_toNat_le, ge_iff_le, hv]
        refine ⟨?_, ?_⟩ <;> (simp at hd ⊢; omega)
      · rintro rfl; simp at hd
      · rintro rfl; simp at hd
    rw [isNameStart, Text.isAlphabetic, if_pos hn.1, hn.2.1] at h
    simp [hn.2.2] at h

theorem isName_cons {c : Char} {cs : List Char} :
    isName (c :: cs) = true ↔ isNameStart c = true ∧ ∀ d ∈ cs, isNamePart d = true := by
  simp [isName]

theorem takeWhile_append_boundary {p : Char → Bool} {cs r : List Char}
    (h : ∀ d ∈ cs, p d = true) (hr : ∀ c ∈ r.head?, p c = false) :
    (cs ++ r).takeWhile p = cs ∧ (cs ++ r).dropWhile p = r := by
  rw [List.takeWhile_append_of_pos h, List.dropWhile_append_of_pos h]
  cases r with
  | nil => simp
  | cons c r =>
    have : p c = false := hr c rfl
    simp [this]

theorem toLower_of_isDigit {c : Char} (hc : c.isDigit = true) : c.toLower = c := by
  rw [Char.toLower, dif_neg]
  rintro ⟨h, _⟩
  rw [Char.isDigit_iff_toNat] at hc
  have hval : 'A'.val.toNat ≤ c.val.toNat := UInt32.le_iff_toNat_le.mp h
  have hn : c.val.toNat = c.toNat := rfl
  rw [hn] at hval
  simp at hc hval
  omega

end TemplateExpr
