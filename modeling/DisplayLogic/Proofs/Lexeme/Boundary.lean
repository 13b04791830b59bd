import DisplayLogic.Lexeme
import Mathlib.Data.List.Find
import Mathlib.Data.List.TakeWhile

/-!
# Where lexemes end

A lexeme at the front of a text is not changed by what is written behind the text, as long as that
begins with a boundary: a character that completes no spelling and continues neither a numeral nor
a name. The main statement `front_append` says so of everything that can stand at a front. The one
exception is a quote without a closing one, which would take in what is written behind it.
-/

namespace DisplayLogic

namespace Lexeme

/-- Whether a character can neither complete a spelling nor continue a run. -/
def isBoundary (c : Char) : Bool := c != '=' && !isNumeralChar c && !Name.isNameChar c

/-- The text is empty or begins with a boundary. -/
def StartsApart (cs : List Char) : Prop := ∀ c ∈ cs.head?, isBoundary c = true

/-- A quote at the front of the text has a closing one. -/
def IsClosed (cs : List Char) : Prop := ∀ content, cs = '"' :: content → '"' ∈ content

theorem takeWhile_append_of_head {test : Char → Bool} {rest : List Char}
    (h : ∀ c ∈ rest.head?, test c = false) (cs : List Char) :
    (cs ++ rest).takeWhile test = cs.takeWhile test := by
  have hrest : rest.takeWhile test = [] := by
    cases rest with
    | nil => rfl
    | cons c rest => simp [h c rfl]
  rw [List.takeWhile_append, hrest, List.append_nil]
  split
  · rename_i hlength
    exact ((List.takeWhile_prefix test).eq_of_length hlength).symm
  · rfl

theorem StartsApart.isNumeralChar {rest : List Char} (h : StartsApart rest) :
    ∀ c ∈ rest.head?, Lexeme.isNumeralChar c = false := by
  intro c hc
  have hboundary := h c hc
  simp only [isBoundary, Bool.and_eq_true, Bool.not_eq_true'] at hboundary
  exact hboundary.1.2

theorem StartsApart.isNameChar {rest : List Char} (h : StartsApart rest) :
    ∀ c ∈ rest.head?, Name.isNameChar c = false := by
  intro c hc
  have hboundary := h c hc
  simp only [isBoundary, Bool.and_eq_true, Bool.not_eq_true'] at hboundary
  exact hboundary.2

/-! ### Spellings -/

theorem isPrefixOf_append {word rest : List Char} (hword : ∀ c ∈ word, isBoundary c = false)
    (hrest : StartsApart rest) (cs : List Char) :
    word.isPrefixOf (cs ++ rest) = word.isPrefixOf cs := by
  induction cs generalizing word with
  | nil =>
      cases word with
      | nil => simp
      | cons w word =>
          cases rest with
          | nil => rfl
          | cons r rest =>
              have hne : (w == r) = false := by
                rw [beq_eq_false_iff_ne]
                rintro rfl
                have hboundary := hrest w rfl
                rw [hword w List.mem_cons_self] at hboundary
                nomatch hboundary
              rw [List.nil_append, List.isPrefixOf_cons_cons, hne]
              rfl
  | cons c cs ih =>
      cases word with
      | nil => rfl
      | cons w word =>
          rw [List.cons_append, List.isPrefixOf_cons_cons, List.isPrefixOf_cons_cons,
            ih fun d hd => hword d (List.mem_cons_of_mem _ hd)]

/-- Behind its first character no spelling has a boundary. -/
theorem isBoundary_of_mem_tail : ∀ s ∈ spellings, ∀ c ∈ s.1.tail, isBoundary c = false := by
  have hall : ∀ s ∈ spellings, (s.1.tail.all fun c => !isBoundary c) = true := by decide
  intro s hs c hc
  have hc' := List.all_eq_true.mp (hall s hs) c hc
  rwa [Bool.not_eq_true'] at hc'

theorem spelled?_append {cs rest : List Char} (hne : cs ≠ []) (hrest : StartsApart rest) :
    spelled? (cs ++ rest) = spelled? cs := by
  obtain ⟨c, cs, rfl⟩ := List.exists_cons_of_ne_nil hne
  have hsame : ∀ s ∈ spellings,
      s.1.isPrefixOf (c :: cs ++ rest) = s.1.isPrefixOf (c :: cs) := by
    intro s hs
    have htail := isBoundary_of_mem_tail s hs
    obtain ⟨word, l⟩ := s
    cases word with
    | nil => rfl
    | cons w word =>
        have hword := isPrefixOf_append htail hrest cs
        rw [List.cons_append, List.isPrefixOf_cons_cons, List.isPrefixOf_cons_cons]
        rw [List.tail_cons] at hword
        rw [hword]
  rw [spelled?, spelled?]
  exact List.find?_congr hsame

/-! ### Runs and quotes -/

theorem frontNumeral_append {rest : List Char} (hrest : StartsApart rest) (cs : List Char) :
    frontNumeral (cs ++ rest) = frontNumeral cs := by
  rw [frontNumeral, frontNumeral, takeWhile_append_of_head hrest.isNumeralChar]

theorem frontName_append {rest : List Char} (hrest : StartsApart rest) (cs : List Char) :
    frontName (cs ++ rest) = frontName cs := by
  rw [frontName, frontName, takeWhile_append_of_head hrest.isNameChar]

theorem frontQuoted_append {cs : List Char} (hclosing : '"' ∈ cs) (rest : List Char) :
    frontQuoted (cs ++ rest) = frontQuoted cs := by
  have hcontent : (cs.takeWhile (· != '"')).length < cs.length := by
    refine Nat.lt_of_le_of_ne (takeWhile_length_le _ cs) fun hlength => ?_
    have hall := (List.takeWhile_prefix (· != '"')).eq_of_length hlength
    rw [← hall] at hclosing
    simpa using List.mem_takeWhile_imp hclosing
  have happend : (cs ++ rest).takeWhile (· != '"') = cs.takeWhile (· != '"') := by
    rw [List.takeWhile_append, if_neg (Nat.ne_of_lt hcontent)]
  have hlonger : (cs.takeWhile (· != '"')).length < (cs ++ rest).length := by
    rw [List.length_append]
    omega
  rw [frontQuoted, frontQuoted, happend, if_pos hlonger, if_pos hcontent]

/-- What stands at the front of a text does not depend on what follows a boundary. -/
theorem front_append {cs rest : List Char} (hne : cs ≠ []) (hclosed : IsClosed cs)
    (hrest : StartsApart rest) : front (cs ++ rest) = front cs := by
  unfold front
  rw [spelled?_append hne hrest]
  obtain ⟨c, cs, rfl⟩ := List.exists_cons_of_ne_nil hne
  cases spelled? (c :: cs) with
  | some s => rfl
  | none =>
      rw [List.cons_append]
      by_cases hquote : c = '"'
      · subst hquote
        have hquoted := frontQuoted_append (hclosed cs rfl) rest
        simp [hquoted]
      · have hnumeral := frontNumeral_append hrest (c :: cs)
        have hname := frontName_append hrest (c :: cs)
        rw [List.cons_append] at hnumeral hname
        simp only [hquote, if_false, hnumeral, hname]

end Lexeme

end DisplayLogic
