import DisplayLogic.Name
import DisplayLogic.Number.Numeral
import DisplayLogic.Relation

/-!
# Lexemes

The text of a condition is made of lexemes, which are recognised without regard to what names stand
for. `Lexeme.front` says what stands at the front of a text: one of the fixed spellings, a quoted
text, a numeral, a name, a fault, or nothing, for a character that has no meaning. The fixed
spellings go before everything else, so that a name that begins with `true` or `false` is cut in
two.
-/

namespace DisplayLogic

/-- A meaningful piece of the text of a condition. -/
inductive Lexeme where
  | openGroup
  | closeGroup
  | or
  | and
  | relation (relation : Relation)
  | number (value : Number)
  | text (value : String)
  | boolean (value : Bool)
  | name (name : List Char)
deriving DecidableEq, Inhabited

namespace Lexeme

/-- The lexemes with one spelling, which is recognised whatever follows it. Of two spellings that
begin alike the longer one stands first. -/
def spellings : List (List Char × Lexeme) := [
  (['('], openGroup),
  ([')'], closeGroup),
  (['|'], or),
  (['&'], and),
  (['='], relation .equal),
  (['!', '='], relation .notEqual),
  (['>', '='], relation .greaterEqual),
  (['>'], relation .greater),
  (['<', '='], relation .lessEqual),
  (['<'], relation .less),
  (['f', 'a', 'l', 's', 'e'], boolean false),
  (['t', 'r', 'u', 'e'], boolean true)]

def isNumeralChar (c : Char) : Bool := c == '.' || c.isDigit

/-- What stands at the front of a text. -/
inductive Front where
  /-- Nothing, or a character without meaning. -/
  | nothing
  | lexeme (lexeme : Lexeme) (length : Nat)
  | notNumeral (run : List Char)
  | loneBang
deriving DecidableEq, Inhabited

/-- The quoted text that the characters behind an opening quote begin with. It ends at the next
quote or, if there is none, with the whole text. -/
def frontQuoted (cs : List Char) : Front :=
  let content := cs.takeWhile (· != '"')
  let closing := if content.length < cs.length then 1 else 0
  .lexeme (text (.ofList content)) (1 + content.length + closing)

/-- The run of digits and points that a text begins with. -/
def frontNumeral (cs : List Char) : Front :=
  let run := cs.takeWhile isNumeralChar
  match Number.ofNumeral? run with
  | some n => .lexeme (number n) run.length
  | none => .notNumeral run

def frontName (cs : List Char) : Front :=
  let run := cs.takeWhile Name.isNameChar
  .lexeme (name run) run.length

def spelled? (cs : List Char) : Option (List Char × Lexeme) :=
  spellings.find? fun s => s.1.isPrefixOf cs

def front (cs : List Char) : Front :=
  match spelled? cs with
  | some (spelling, l) => .lexeme l spelling.length
  | none =>
    match cs with
    | [] => .nothing
    | c :: rest =>
      if c = '!' then .loneBang
      else if c = '"' then frontQuoted rest
      else if isNumeralChar c then frontNumeral cs
      else if Name.isNameChar c then frontName cs
      else .nothing

theorem takeWhile_length_pos {test : Char → Bool} {c : Char} {rest : List Char}
    (h : test c = true) :
    0 < ((c :: rest).takeWhile test).length := by
  simp [h]

theorem takeWhile_length_le (test : Char → Bool) (cs : List Char) :
    (cs.takeWhile test).length ≤ cs.length :=
  (List.takeWhile_prefix test).length_le

/-- No lexeme is spelled by nothing, and a spelling that is found stands at the front of the text.
-/
theorem spelled?_bounds {cs spelling : List Char} {l : Lexeme}
    (h : spelled? cs = some (spelling, l)) :
    0 < spelling.length ∧ spelling.length ≤ cs.length := by
  have hfront := List.find?_some h
  have hmem := List.mem_of_find?_eq_some h
  refine ⟨?_, (List.isPrefixOf_iff_prefix.mp hfront).length_le⟩
  have : ∀ s ∈ spellings, 0 < s.1.length := by decide
  exact this _ hmem

/-- A lexeme takes at least one character and no more than there are. -/
theorem front_lexeme_bounds {cs : List Char} {l : Lexeme} {length : Nat}
    (h : front cs = .lexeme l length) : 0 < length ∧ length ≤ cs.length := by
  unfold front at h
  split at h
  · rename_i spelling l' hs
    cases h
    exact spelled?_bounds hs
  · split at h
    · nomatch h
    · split at h
      · nomatch h
      · split at h
        · rename_i rest _ _ _
          cases h
          have := takeWhile_length_le (· != '"') rest
          simp only [List.length_cons]
          split <;> omega
        · split at h
          · rename_i hc
            simp only [frontNumeral] at h
            split at h
            · cases h
              exact ⟨takeWhile_length_pos hc, takeWhile_length_le _ _⟩
            · nomatch h
          · split at h
            · rename_i hc
              cases h
              exact ⟨takeWhile_length_pos hc, takeWhile_length_le _ _⟩
            · nomatch h

/-- A run that is no numeral has at least one character and no more than there are. -/
theorem front_notNumeral_bounds {cs run : List Char} (h : front cs = .notNumeral run) :
    0 < run.length ∧ run.length ≤ cs.length := by
  unfold front at h
  split at h
  · nomatch h
  · split at h
    · nomatch h
    · split at h
      · nomatch h
      · split at h
        · nomatch h
        · split at h
          · rename_i hc
            simp only [frontNumeral] at h
            split at h
            · nomatch h
            · cases h
              exact ⟨takeWhile_length_pos hc, takeWhile_length_le _ _⟩
          · split at h <;> nomatch h

end Lexeme

end DisplayLogic
