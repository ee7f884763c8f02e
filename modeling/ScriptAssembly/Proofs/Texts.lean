import ScriptAssembly.Proofs.Lists
import ScriptAssembly.Text.Basic
/-
Numerals and quoted strings say what they were written for.

A numeral is made of digits alone, which gives its value back; padding and a
minus sign are no digits and do no harm. Between the quotes of a string,
characters are written one behind the other without a mark between them, so
there it must be seen where one ends: what does not begin with a backslash is a
single character, what does is an escape of two, or a code point in braces that
ends at the first closing one.
-/
namespace ScriptAssembly.Text

/-! ## Decimal numerals -/

theorem toList_decimal (n : Nat) : (decimal n).toList = Nat.toDigits 10 n :=
  Nat.toList_repr

theorem isDigit_of_mem_decimal {n : Nat} {c : Char} (h : c ∈ (decimal n).toList) : c.isDigit := by
  rw [toList_decimal] at h
  exact Nat.isDigit_of_mem_toDigits (by decide) (by decide) h

theorem not_mem_decimal {c : Char} (hc : c.isDigit = false) (n : Nat) : c ∉ (decimal n).toList := fun h => by
  simp [isDigit_of_mem_decimal h] at hc

theorem decimal_inj {m n : Nat} (h : decimal m = decimal n) : m = n := by
  have hd : Nat.toDigits 10 m = Nat.toDigits 10 n := by
    rw [← toList_decimal, ← toList_decimal, h]
  rw [← Nat.ofDigitChars_toDigits (b := 10) (n := m) (by decide) (by decide), hd,
    Nat.ofDigitChars_toDigits (by decide) (by decide)]

/-- A padded numeral without its padding. -/
theorem filter_padStart_decimal (width n : Nat) :
    (padStart width ' ' (decimal n)).toList.filter Char.isDigit = (decimal n).toList := by
  have hpad : (List.replicate (width - (decimal n).toList.length) ' ').filter Char.isDigit = [] :=
    List.filter_eq_nil_iff.mpr fun c hc => by simp [List.eq_of_mem_replicate hc]
  have hdigits : (decimal n).toList.filter Char.isDigit = (decimal n).toList :=
    List.filter_eq_self.mpr fun _ => isDigit_of_mem_decimal
  rw [padStart, String.toList_ofList, List.leftpad, List.filter_append, hpad, hdigits, List.nil_append]

theorem padStart_decimal_inj {width m n : Nat}
    (h : padStart width ' ' (decimal m) = padStart width ' ' (decimal n)) : m = n := by
  apply decimal_inj
  rw [← String.toList_inj, ← filter_padStart_decimal width, h, filter_padStart_decimal]

theorem not_mem_padStart_decimal {c : Char} (hc : c.isDigit = false) (hs : c ≠ ' ') (width n : Nat) :
    c ∉ (padStart width ' ' (decimal n)).toList := by
  rw [padStart, String.toList_ofList, List.leftpad, List.mem_append, not_or]
  exact ⟨fun h => hs (List.eq_of_mem_replicate h), not_mem_decimal hc n⟩

/-- The characters of a signed numeral are digits, behind a minus sign or not. -/
theorem not_mem_signedDecimal {c : Char} (hc : c.isDigit = false) (hm : c ≠ '-') (z : Int) :
    c ∉ (signedDecimal z).toList := by
  unfold signedDecimal
  split
  · rw [String.toList_append, List.mem_append, not_or]
    exact ⟨by simpa using hm, not_mem_decimal hc _⟩
  · exact not_mem_decimal hc _

theorem signedDecimal_inj {y z : Int} (h : signedDecimal y = signedDecimal z) : y = z := by
  -- a minus sign is no digit, so the two have it or have it not together
  have hminus (n : Nat) (s : String) : decimal n ≠ "-" ++ s := fun he =>
    not_mem_decimal (c := '-') (by decide) n (by simp [he])
  unfold signedDecimal at h
  split at h <;> split at h
  · have habs := decimal_inj ((String.append_right_inj _).mp h)
    omega
  · exact absurd h.symm (hminus _ _)
  · exact absurd h (hminus _ _)
  · have habs := decimal_inj h
    omega

/-! ## Hexadecimal digits -/

theorem digitChar_inj : ∀ a < 16, ∀ b < 16, Nat.digitChar a = Nat.digitChar b → a = b := by
  decide

theorem hexDigits_inj {m n : Nat} (h : hexDigits m = hexDigits n) : m = n := by
  unfold hexDigits at h
  induction m using Nat.strongRecOn generalizing n with
  | ind m ih =>
    rw [Nat.toDigits_eq_if (n := m) (by decide), Nat.toDigits_eq_if (n := n) (by decide)] at h
    split at h <;> split at h
    next hm hn => exact digitChar_inj m hm n hn (by simpa using h)
    next hm hn => exact absurd (congrArg List.length h) (by simp)
    next hm hn => exact absurd (congrArg List.length h) (by simp)
    next hm hn =>
      obtain ⟨hfront, hlast⟩ := List.append_inj' h rfl
      have hdiv := ih (m / 16) (by omega) hfront
      have hmod := digitChar_inj (m % 16) (by omega) (n % 16) (by omega) (by simpa using hlast)
      omega

/-- Hexadecimal digits are the characters of the numbers below sixteen. -/
theorem not_mem_hexDigits {c : Char} (hc : ∀ d < 16, Nat.digitChar d ≠ c) (n : Nat) : c ∉ hexDigits n := by
  unfold hexDigits
  induction n using Nat.strongRecOn with
  | ind n ih =>
    rw [Nat.toDigits_eq_if (by decide)]
    split
    next hn => simpa using (hc n hn).symm
    next hn =>
      rw [List.mem_append, List.mem_singleton, not_or]
      exact ⟨ih (n / 16) (by omega), (hc (n % 16) (by omega)).symm⟩

/-! ## Quoted strings -/

namespace Quoted

/-- The escapes of two characters: a character and what stands for it behind the backslash. -/
def shortEscapes : List (Char × Char) :=
  [('\x00', '0'), ('\t', 't'), ('\r', 'r'), ('\n', 'n'), ('"', '"'), ('\\', '\\')]

theorem shortEscapes_inj : ∀ p ∈ shortEscapes, ∀ q ∈ shortEscapes, p.2 = q.2 → p.1 = q.1 := by
  decide

theorem shortEscapes_ne_u : ∀ p ∈ shortEscapes, p.2 ≠ 'u' := by
  decide

/-- A character is written in one of three forms. -/
theorem encodeChar_cases (c : Char) :
    (∃ e, (c, e) ∈ shortEscapes ∧ encodeChar c = ['\\', e]) ∨ encodeChar c = codePoint c ∨
      (c ≠ '\\' ∧ encodeChar c = [c]) := by
  by_cases hshort : c ∈ shortEscapes.map Prod.fst
  · left
    simp only [shortEscapes, List.map_cons, List.map_nil, List.mem_cons, List.not_mem_nil, or_false] at hshort
    rcases hshort with rfl | rfl | rfl | rfl | rfl | rfl <;> exact ⟨_, by decide, rfl⟩
  · right
    simp only [shortEscapes, List.map_cons, List.map_nil, List.mem_cons, List.not_mem_nil, or_false, not_or] at hshort
    obtain ⟨hnull, htab, hreturn, hfeed, hquote, hslash⟩ := hshort
    simp only [encodeChar, hnull, htab, hreturn, hfeed, hquote, hslash, if_false]
    split
    · exact .inl rfl
    · exact .inr ⟨hslash, rfl⟩

theorem codePoint_append_inj {c d : Char} {s t : List Char} (h : codePoint c ++ s = codePoint d ++ t) :
    c = d ∧ s = t := by
  have hdigits : hexDigits c.toNat ++ '\x7d' :: s = hexDigits d.toNat ++ '\x7d' :: t := by
    simpa [codePoint] using h
  obtain ⟨hcd, hst⟩ := append_cons_inj_left (not_mem_hexDigits (by decide) _)
    (not_mem_hexDigits (by decide) _) hdigits
  exact ⟨Char.toNat_inj.mp (hexDigits_inj hcd), hst⟩

/-- A character can be told from what is written for it, and so can where that ends. -/
theorem encodeChar_append_inj {c d : Char} {s t : List Char} (h : encodeChar c ++ s = encodeChar d ++ t) :
    c = d ∧ s = t := by
  rcases encodeChar_cases c with ⟨e, hce, hc⟩ | hc | ⟨hplainc, hc⟩ <;>
    rcases encodeChar_cases d with ⟨e', hde, hd⟩ | hd | ⟨hplaind, hd⟩ <;>
    rw [hc, hd] at h
  · obtain ⟨he, hst⟩ : e = e' ∧ s = t := by simpa using h
    exact ⟨shortEscapes_inj _ hce _ hde he, hst⟩
  · exact absurd (List.cons.inj (List.cons.inj h).2).1 (shortEscapes_ne_u _ hce)
  · exact absurd (List.cons.inj h).1.symm hplaind
  · exact absurd (List.cons.inj (List.cons.inj h).2).1.symm (shortEscapes_ne_u _ hde)
  · exact codePoint_append_inj h
  · exact absurd (List.cons.inj h).1.symm hplaind
  · exact absurd (List.cons.inj h).1 hplainc
  · exact absurd (List.cons.inj h).1 hplainc
  · simpa using h

theorem encodeChar_ne_nil (c : Char) : encodeChar c ≠ [] := by
  rcases encodeChar_cases c with ⟨e, -, hc⟩ | hc | ⟨-, hc⟩ <;> simp [hc, codePoint]

theorem encode_inj {s t : List Char} (h : encode s = encode t) : s = t := by
  unfold encode at h
  induction s generalizing t with
  | nil =>
    cases t with
    | nil => rfl
    | cons d t => simp [encodeChar_ne_nil] at h
  | cons c s ih =>
    cases t with
    | nil => simp [encodeChar_ne_nil] at h
    | cons d t =>
      obtain ⟨rfl, hst⟩ := encodeChar_append_inj (by simpa using h)
      rw [ih hst]

end Quoted

/-- **A quoted string is told by its text.** -/
theorem quote_inj {s t : String} (h : quote s = quote t) : s = t := by
  have hl : '"' :: (Quoted.encode s.toList ++ ['"']) = '"' :: (Quoted.encode t.toList ++ ['"']) :=
    String.ofList_inj.mp h
  exact String.toList_inj.mp (Quoted.encode_inj (by simpa using hl))

end ScriptAssembly.Text
