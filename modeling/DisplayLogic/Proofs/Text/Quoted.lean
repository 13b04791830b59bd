import DisplayLogic.Json.Quoted
import DisplayLogic.Text.Quoted
import Mathlib.Data.List.TakeWhile
import Mathlib.Tactic.SplitIfs

/-!
# Nothing is lost in quotes

The escaped form of a text can be read from the left, one character at a time: `readEscaped` finds
the first character of the text and what is left of its escaped form. Texts that are quoted alike
are therefore the same.
-/

namespace DisplayLogic.Text

/-- The character behind a backslash that stands for another one, or for itself. -/
def ofLetter (letter : Char) : Char :=
  if letter = '0' then '\x00'
  else if letter = 't' then '\t'
  else if letter = 'r' then '\r'
  else if letter = 'n' then '\n'
  else letter

/-- The number that hexadecimal digits write. -/
def hexValue (digits : List Char) : Nat :=
  digits.foldl (fun value c => 16 * value + (JsonText.hexDigit? c).getD 0) 0

/-- The first character of a text in its escaped form, and what is behind it. -/
def readEscaped : List Char → Option (Char × List Char)
  | [] => none
  | '\\' :: 'u' :: '\x7b' :: rest =>
    let digits := rest.takeWhile (· != '\x7d')
    some (.ofNat (hexValue digits), rest.drop (digits.length + 1))
  | '\\' :: letter :: rest => some (ofLetter letter, rest)
  | c :: rest => some (c, rest)

theorem hexDigit?_digitChar : ∀ d < 16, JsonText.hexDigit? d.digitChar = some d := by
  decide

theorem digitChar_ne_brace : ∀ d < 16, d.digitChar ≠ '\x7d' := by
  decide

theorem hexValue_toDigits (n : Nat) : hexValue (Nat.toDigits 16 n) = n := by
  induction n using Nat.strong_induction_on with
  | h n ih =>
      rcases Nat.lt_or_ge n 16 with hlt | hle
      · rw [Nat.toDigits_of_lt_base hlt, hexValue, List.foldl_cons, hexDigit?_digitChar n hlt]
        exact Nat.zero_add n
      · have hdigit : n % 16 < 16 := Nat.mod_lt n (by decide)
        have hshorter : n / 16 < n := Nat.div_lt_self (by omega) (by decide)
        have hvalue := ih (n / 16) hshorter
        rw [hexValue] at hvalue
        rw [Nat.toDigits_of_base_le (by decide) hle, hexValue, List.foldl_append, hvalue,
          List.foldl_cons, hexDigit?_digitChar _ hdigit]
        exact Nat.div_add_mod n 16

/-- Hexadecimal numbers are written in sixteen digits. -/
theorem exists_digitChar_of_mem_toDigits {n : Nat} {c : Char} (h : c ∈ Nat.toDigits 16 n) :
    ∃ d < 16, c = d.digitChar := by
  induction n using Nat.strong_induction_on with
  | h n ih =>
      rcases Nat.lt_or_ge n 16 with hlt | hle
      · rw [Nat.toDigits_of_lt_base hlt, List.mem_singleton] at h
        exact ⟨n, hlt, h⟩
      · have hdigit : n % 16 < 16 := Nat.mod_lt n (by decide)
        have hshorter : n / 16 < n := Nat.div_lt_self (by omega) (by decide)
        rw [Nat.toDigits_of_base_le (by decide) hle, List.mem_append, List.mem_singleton] at h
        rcases h with h | h
        · exact ih _ hshorter h
        · exact ⟨n % 16, hdigit, h⟩

theorem brace_not_mem_toDigits (n : Nat) : '\x7d' ∉ Nat.toDigits 16 n := by
  intro h
  obtain ⟨d, hd, hbrace⟩ := exists_digitChar_of_mem_toDigits h
  exact digitChar_ne_brace d hd hbrace.symm

theorem readEscaped_escapeNumber (c : Char) (rest : List Char) :
    readEscaped (escapeNumber c.toNat ++ rest) = some (c, rest) := by
  have hdigits : (Nat.toDigits 16 c.toNat ++ '\x7d' :: rest).takeWhile (· != '\x7d') =
      Nat.toDigits 16 c.toNat := by
    rw [List.takeWhile_append_of_pos]
    · simp
    · intro d hd
      rw [bne_iff_ne]
      rintro rfl
      exact brace_not_mem_toDigits c.toNat hd
  have hescape : escapeNumber c.toNat ++ rest =
      '\\' :: 'u' :: '\x7b' :: (Nat.toDigits 16 c.toNat ++ '\x7d' :: rest) := by
    simp [escapeNumber]
  rw [hescape, readEscaped]
  simp only [hdigits, hexValue_toDigits, Char.ofNat_toNat]
  rw [← List.drop_drop, List.drop_left]
  rfl

theorem readEscaped_escape (c : Char) (rest : List Char) :
    readEscaped (escape c ++ rest) = some (c, rest) := by
  unfold escape
  split_ifs with hnull htab hreturn hfeed hbackslash hquote hhidden
  · rw [hnull]
    rfl
  · rw [htab]
    rfl
  · rw [hreturn]
    rfl
  · rw [hfeed]
    rfl
  · rw [hbackslash]
    rfl
  · rw [hquote]
    rfl
  · exact readEscaped_escapeNumber c rest
  · simp [readEscaped, hbackslash]

theorem escape_ne_nil (c : Char) : escape c ≠ [] := by
  intro h
  have hread := readEscaped_escape c []
  rw [h] at hread
  nomatch hread

theorem escapeAll_injective {cs ds : List Char} (h : escapeAll cs = escapeAll ds) : cs = ds := by
  induction cs generalizing ds with
  | nil =>
      cases ds with
      | nil => rfl
      | cons d ds => exact absurd (List.append_eq_nil_iff.mp h.symm).1 (escape_ne_nil d)
  | cons c cs ih =>
      cases ds with
      | nil => exact absurd (List.append_eq_nil_iff.mp h).1 (escape_ne_nil c)
      | cons d ds =>
          have hread := readEscaped_escape c (escapeAll cs)
          rw [← escapeAll_cons, h, escapeAll_cons, readEscaped_escape] at hread
          obtain ⟨rfl, hrest⟩ := Prod.mk.inj (Option.some.inj hread)
          rw [ih hrest.symm]

/-- Quoted texts are the same only if the texts are. -/
theorem quote_injective {s t : String} (h : quote s = quote t) : s = t := by
  have hlists := congrArg String.toList h
  rw [quote, quote, String.toList_ofList, String.toList_ofList] at hlists
  have hescaped := List.append_cancel_right (List.cons.inj hlists).2
  exact String.toList_inj.mp (escapeAll_injective hescaped)

end DisplayLogic.Text
