import DisplayLogic.Condition.OfTokens
import DisplayLogic.Condition.Outline
import DisplayLogic.Proofs.Number.Text
import DisplayLogic.Proofs.Text.Quoted
import Mathlib.Data.List.Forall2

/-!
# What an outline tells

The outline of a condition loses nothing but what diagnostics never show. `Condition.Alike` is what
remains of equality: the same tree with the same connectives, literals and relations, and operands
of the same kinds, where sources have the same diagnostic text and numbers are the same to every
comparison. How far the comparisons agree on their literals is a parameter, because an outline shows
no more than the mode.

The tree is found again by its indentation. In a row of lines, those of one condition end at the
first line that is not indented more than the root, so that `outlineAt_append_inj` can split two
rows alike, whatever follows the conditions in them.
-/

namespace DisplayLogic

/-- Operands of one kind that show the same. -/
inductive Operand.Alike : Operand → Operand → Prop where
  | source {s s' : Source} (h : s.inspect = s'.inspect) : Alike (.source s) (.source s')
  | text (value : String) : Alike (.literal (.text value)) (.literal (.text value))
  | number {n n' : Number} (h : n.Same n') : Alike (.literal (.number n)) (.literal (.number n'))
  | boolean (value : Bool) : Alike (.literal (.boolean value)) (.literal (.boolean value))

/-- Kinds of literals that call for the same mode. -/
def LiteralKinds.SameMode (kinds kinds' : LiteralKinds) : Prop := kinds.mode = kinds'.mode

/-- Conditions of one shape that show the same at every node. -/
inductive Condition.Alike (agree : LiteralKinds → LiteralKinds → Prop) :
    Condition → Condition → Prop where
  | literal (value : Bool) : Alike agree (.literal value) (.literal value)
  | holds {s s' : Source} (h : s.inspect = s'.inspect) : Alike agree (.holds s) (.holds s')
  | comparison {left left' right right' : Operand} {kinds kinds' : LiteralKinds}
      (relation : Relation) (hleft : left.Alike left') (hright : right.Alike right')
      (hkinds : agree kinds kinds') :
      Alike agree (.comparison left relation right kinds) (.comparison left' relation right' kinds')
  | all {conditions conditions' : List Condition}
      (h : List.Forall₂ (Alike agree) conditions conditions') :
      Alike agree (.all conditions) (.all conditions')
  | any {conditions conditions' : List Condition}
      (h : List.Forall₂ (Alike agree) conditions conditions') :
      Alike agree (.any conditions) (.any conditions')

/-! ### Operands -/

theorem booleanText_injective {a b : Bool} (h : booleanText a = booleanText b) : a = b := by
  revert a b
  decide

theorem Mode.name_injective {mode mode' : Mode} (h : mode.name = mode'.name) : mode = mode' := by
  revert h
  cases mode <;> cases mode' <;> decide

/-- The kind of literal that the first character of a description belongs to. -/
def Operand.kindOf? (description : List Char) : Option Kind :=
  if description.head? = some 'V' then none
  else if description.head? = some '"' then some .text
  else if description.head? = some 't' ∨ description.head? = some 'f' then some .boolean
  else some .number

theorem Number.kindOf?_text (n : Number) : Operand.kindOf? n.text.toList = some .number := by
  cases n with
  | nan => rfl
  | infinite negative => cases negative <;> rfl
  | finite negative m =>
      have hne (mark : Char) (hmark : mark.isDigit = false) :=
        Decimal.head?_plain_ne m.isDigit_of_mem_shortest mark hmark
      rw [text, withSign, String.toList_ofList]
      cases negative && !m.isZero with
      | true => rfl
      | false =>
          simp [Operand.kindOf?, hne 'V' rfl, hne '"' rfl, hne 't' rfl, hne 'f' rfl]

/-- The kind of the literal that an operand is. -/
def Operand.literalKind? : Operand → Option Kind
  | .source _ => none
  | .literal c => some c.kind

theorem Operand.kindOf?_inspect (x : Operand) : kindOf? x.inspect.toList = x.literalKind? := by
  cases x with
  | source s =>
      rw [inspect, String.toList_append]
      rfl
  | literal c =>
      cases c with
      | text s =>
          rw [inspect, Text.quote, String.toList_ofList]
          rfl
      | number n => exact n.kindOf?_text
      | boolean value => cases value <;> rfl

/-- Operands that are described by the same text show the same. -/
theorem Operand.alike_of_inspect_eq {x x' : Operand} (h : x.inspect = x'.inspect) :
    x.Alike x' := by
  have hkind : x.literalKind? = x'.literalKind? := by
    rw [← kindOf?_inspect, h, kindOf?_inspect]
  cases x with
  | source s =>
      cases x' with
      | source s' => exact .source ((String.append_right_inj _).mp h)
      | literal c' => nomatch hkind
  | literal c =>
      cases x' with
      | source s' => nomatch hkind
      | literal c' =>
          cases c with
          | text s =>
              cases c' with
              | text s' =>
                  rw [Text.quote_injective h]
                  exact .text s'
              | _ => nomatch hkind
          | number n =>
              cases c' with
              | number n' => exact .number (Number.same_of_text_eq h)
              | _ => nomatch hkind
          | boolean value =>
              cases c' with
              | boolean value' =>
                  rw [booleanText_injective h]
                  exact .boolean value'
              | _ => nomatch hkind

theorem Operand.Alike.isLiteralOf_eq {x x' : Operand} (h : x.Alike x') (kind : Kind) :
    x.isLiteralOf kind = x'.isLiteralOf kind := by
  cases h <;> rfl

/-! ### Lines -/

/-- How many spaces a line begins with. -/
def indentation (line : String) : Nat := (line.toList.takeWhile (· == ' ')).length

theorem indentation_indent_append {caption : String} (h : caption.toList.head? ≠ some ' ')
    (depth : Nat) : indentation (indent depth ++ caption) = 2 * depth := by
  have hcaption : caption.toList.takeWhile (· == ' ') = [] := by
    cases hlist : caption.toList with
    | nil => rfl
    | cons c rest =>
        rw [List.takeWhile_cons_of_neg]
        rw [beq_iff_eq]
        rintro rfl
        exact h (by rw [hlist]; rfl)
  rw [indentation, indent, String.toList_append, String.toList_ofList, List.takeWhile_append_of_pos,
    hcaption, List.append_nil, List.length_replicate]
  intro c hc
  rw [List.eq_of_mem_replicate hc]
  rfl

/-- No line of what is below a root at this depth comes next. -/
def Outdented (depth : Nat) (lines : List String) : Prop :=
  ∀ line ∈ lines.head?, indentation line ≤ 2 * depth

namespace Condition

/-- What the first line of a condition shows behind its indentation. -/
def caption : Condition → String
  | .literal b => "Literal: " ++ booleanText b
  | .holds s => "Variable: " ++ s.inspect
  | .comparison _ relation _ kinds =>
    "Comparison: " ++ (relation.symbol ++ (" (" ++ (kinds.mode.name ++ ")")))
  | .all _ => "And"
  | .any _ => "Or"

/-- The lines of a condition behind the first. -/
def linesBelow (depth : Nat) : Condition → List String
  | .literal _ | .holds _ => []
  | .comparison left _ right _ =>
    [indent (depth + 1) ++ ("left: " ++ left.inspect),
      indent (depth + 1) ++ ("right: " ++ right.inspect)]
  | .all conditions | .any conditions => outlinesAt (depth + 1) conditions

/-- The first character of a caption, which is another one for each form of condition. -/
def initial : Condition → Char
  | .literal _ => 'L'
  | .holds _ => 'V'
  | .comparison .. => 'C'
  | .all _ => 'A'
  | .any _ => 'O'

theorem outlineAt_eq (depth : Nat) (c : Condition) :
    c.outlineAt depth = (indent depth ++ c.caption) :: c.linesBelow depth := by
  cases c <;> simp [outlineAt, caption, linesBelow, String.append_assoc]

theorem head?_caption (c : Condition) : c.caption.toList.head? = some c.initial := by
  cases c with
  | all conditions | any conditions =>
      rw [caption]
      rfl
  | _ =>
      rw [caption, String.toList_append]
      rfl

theorem indentation_line (depth : Nat) (c : Condition) :
    indentation (indent depth ++ c.caption) = 2 * depth := by
  apply indentation_indent_append
  rw [head?_caption]
  cases c <;> simp [initial]

theorem outdented_outlineAt_append (depth : Nat) (c : Condition) (rest : List String) :
    Outdented depth (c.outlineAt depth ++ rest) := by
  intro line hline
  rw [outlineAt_eq] at hline
  cases hline
  exact Nat.le_of_eq (indentation_line depth c)

theorem outdented_outlinesAt_append {depth : Nat} {rest : List String} (h : Outdented depth rest)
    (conditions : List Condition) :
    Outdented (depth + 1) (outlinesAt (depth + 1) conditions ++ rest) := by
  cases conditions with
  | nil => exact fun line hline => Nat.le_trans (h line hline) (by omega)
  | cons c others =>
      rw [outlinesAt, List.append_assoc]
      exact outdented_outlineAt_append (depth + 1) c _

theorem not_outdented_outlinesAt_cons (depth : Nat) (c : Condition) (others : List Condition)
    (rest : List String) : ¬ Outdented depth (outlinesAt (depth + 1) (c :: others) ++ rest) := by
  intro h
  rw [outlinesAt, outlineAt_eq] at h
  have hline := h _ rfl
  rw [indentation_line] at hline
  omega

/-- Conditions that come first in the same lines have the same form and the same caption. -/
theorem eq_of_outlineAt_append {depth : Nat} {c c' : Condition} {rest rest' : List String}
    (h : c.outlineAt depth ++ rest = c'.outlineAt depth ++ rest') :
    c.initial = c'.initial ∧ c.caption = c'.caption ∧
      c.linesBelow depth ++ rest = c'.linesBelow depth ++ rest' := by
  rw [outlineAt_eq, outlineAt_eq] at h
  obtain ⟨hline, hbelow⟩ := List.cons.inj h
  have hcaption := (String.append_right_inj _).mp hline
  refine ⟨?_, hcaption, hbelow⟩
  rw [← Option.some_inj, ← head?_caption, ← head?_caption, hcaption]

/-- A comparison shows its relation and its mode. -/
theorem comparison_caption_injective {left left' right right' : Operand}
    {relation relation' : Relation} {kinds kinds' : LiteralKinds}
    (h : (comparison left relation right kinds).caption =
      (comparison left' relation' right' kinds').caption) :
    relation = relation' ∧ kinds.mode = kinds'.mode := by
  have hlists := congrArg String.toList ((String.append_right_inj _).mp h)
  simp only [String.toList_append] at hlists
  have hsymbol (relation : Relation) : ' ' ∉ relation.symbol.toList := by
    cases relation <;> decide
  have hmode (mode : Mode) : ' ' ∉ '(' :: (mode.name.toList ++ [')']) := by
    cases mode <;> decide
  obtain ⟨hsymbols, -, hmodes⟩ :=
    (List.append_cons_inj_of_notMem (hsymbol relation) (hmode kinds.mode)).mp hlists
  constructor
  · apply Option.some.inj
    rw [← relation.ofSymbol?_symbol, ← relation'.ofSymbol?_symbol, String.toList_inj.mp hsymbols]
  · have hnames := List.append_cancel_right (List.cons.inj hmodes).2
    exact Mode.name_injective (String.toList_inj.mp hnames)

theorem alike_of_operandLine_eq {start label : String} {x x' : Operand}
    (h : start ++ (label ++ x.inspect) = start ++ (label ++ x'.inspect)) : x.Alike x' :=
  Operand.alike_of_inspect_eq ((String.append_right_inj _).mp ((String.append_right_inj _).mp h))

mutual

/-- The lines of a condition, and where they end, tell what it is alike. -/
theorem outlineAt_append_inj {depth : Nat} : ∀ (c c' : Condition) {rest rest' : List String},
    c.outlineAt depth ++ rest = c'.outlineAt depth ++ rest' →
      Outdented depth rest → Outdented depth rest' →
        c.Alike LiteralKinds.SameMode c' ∧ rest = rest'
  | .literal b, c', _, _, h, _, _ => by
      obtain ⟨hinitial, hcaption, hbelow⟩ := eq_of_outlineAt_append h
      cases c' with
      | literal b' =>
          rw [booleanText_injective ((String.append_right_inj _).mp hcaption)]
          exact ⟨.literal b', hbelow⟩
      | _ => nomatch hinitial
  | .holds s, c', _, _, h, _, _ => by
      obtain ⟨hinitial, hcaption, hbelow⟩ := eq_of_outlineAt_append h
      cases c' with
      | holds s' => exact ⟨.holds ((String.append_right_inj _).mp hcaption), hbelow⟩
      | _ => nomatch hinitial
  | .comparison left relation right kinds, c', _, _, h, _, _ => by
      obtain ⟨hinitial, hcaption, hbelow⟩ := eq_of_outlineAt_append h
      cases c' with
      | comparison left' relation' right' kinds' =>
          obtain ⟨rfl, hmode⟩ := comparison_caption_injective hcaption
          obtain ⟨hleft, hbelow⟩ := List.cons.inj hbelow
          obtain ⟨hright, hbelow⟩ := List.cons.inj hbelow
          have hleft := alike_of_operandLine_eq hleft
          have hright := alike_of_operandLine_eq hright
          exact ⟨.comparison relation hleft hright hmode, hbelow⟩
      | _ => nomatch hinitial
  | .all conditions, c', _, _, h, hrest, hrest' => by
      obtain ⟨hinitial, -, hbelow⟩ := eq_of_outlineAt_append h
      cases c' with
      | all conditions' =>
          obtain ⟨halike, hsame⟩ := outlinesAt_append_inj conditions conditions' hbelow hrest hrest'
          exact ⟨.all halike, hsame⟩
      | _ => nomatch hinitial
  | .any conditions, c', _, _, h, hrest, hrest' => by
      obtain ⟨hinitial, -, hbelow⟩ := eq_of_outlineAt_append h
      cases c' with
      | any conditions' =>
          obtain ⟨halike, hsame⟩ := outlinesAt_append_inj conditions conditions' hbelow hrest hrest'
          exact ⟨.any halike, hsame⟩
      | _ => nomatch hinitial

theorem outlinesAt_append_inj {depth : Nat} :
    ∀ (conditions conditions' : List Condition) {rest rest' : List String},
      outlinesAt (depth + 1) conditions ++ rest = outlinesAt (depth + 1) conditions' ++ rest' →
        Outdented depth rest → Outdented depth rest' →
          List.Forall₂ (Alike LiteralKinds.SameMode) conditions conditions' ∧ rest = rest'
  | [], [], _, _, h, _, _ => ⟨.nil, h⟩
  | c :: others, c' :: others', _, _, h, hrest, hrest' => by
      rw [outlinesAt, outlinesAt, List.append_assoc, List.append_assoc] at h
      obtain ⟨hc, hothers⟩ := outlineAt_append_inj c c' h (outdented_outlinesAt_append hrest others)
        (outdented_outlinesAt_append hrest' others')
      obtain ⟨halike, hsame⟩ := outlinesAt_append_inj others others' hothers hrest hrest'
      exact ⟨.cons hc halike, hsame⟩
  | [], c' :: others', _, rest', h, hrest, _ =>
      absurd (h ▸ hrest) (not_outdented_outlinesAt_cons depth c' others' rest')
  | c :: others, [], rest, _, h, _, hrest' =>
      absurd (h ▸ hrest') (not_outdented_outlinesAt_cons depth c others rest)

end

/-- Conditions with the same lines at some depth are alike. -/
theorem alike_of_outlineAt_eq {depth : Nat} {c c' : Condition}
    (h : c.outlineAt depth = c'.outlineAt depth) :
    c.Alike LiteralKinds.SameMode c' := by
  have hlines : c.outlineAt depth ++ [] = c'.outlineAt depth ++ [] := congrArg (· ++ []) h
  exact (outlineAt_append_inj c c' hlines nofun nofun).1

/-! ### Consistent conditions -/

/-- Every comparison knows the kinds of its literals. -/
inductive Consistent : Condition → Prop where
  | literal (value : Bool) : Consistent (.literal value)
  | holds (s : Source) : Consistent (.holds s)
  | comparison (left : Operand) (relation : Relation) (right : Operand) :
      Consistent (relate left relation right)
  | all {conditions : List Condition} (h : ∀ c ∈ conditions, Consistent c) :
      Consistent (.all conditions)
  | any {conditions : List Condition} (h : ∀ c ∈ conditions, Consistent c) :
      Consistent (.any conditions)

theorem forall₂_alike {agree : LiteralKinds → LiteralKinds → Prop}
    {conditions conditions' : List Condition}
    (h : List.Forall₂ (Alike agree) conditions conditions')
    (ih : ∀ c ∈ conditions, ∀ {c'}, c'.Consistent → c.Alike agree c' → c.Alike Eq c')
    (h' : ∀ c ∈ conditions', Consistent c) : List.Forall₂ (Alike Eq) conditions conditions' := by
  rw [List.forall₂_iff_zip] at h ⊢
  refine ⟨h.1, fun {c c'} hmem => ?_⟩
  obtain ⟨hc, hc'⟩ := List.of_mem_zip hmem
  exact ih c hc (h' c' hc') (h.2 hmem)

/-- Consistent conditions that are alike agree on the kinds of their literals. -/
theorem Alike.of_consistent {agree : LiteralKinds → LiteralKinds → Prop} {c c' : Condition}
    (hc : c.Consistent) (hc' : c'.Consistent) (h : c.Alike agree c') : c.Alike Eq c' := by
  induction hc generalizing c' with
  | literal value =>
      cases h
      exact .literal value
  | holds s =>
      cases h with
      | holds h => exact .holds h
  | comparison left relation right =>
      cases h with
      | comparison _ hleft hright _ =>
          cases hc' with
          | comparison left' _ right' =>
              refine .comparison relation hleft hright ?_
              rw [LiteralKinds.ofOperands, LiteralKinds.ofOperands]
              simp only [hleft.isLiteralOf_eq, hright.isLiteralOf_eq]
  | all _ ih =>
      cases h with
      | all h =>
          cases hc' with
          | all h' => exact .all (forall₂_alike h (fun c hc _ => ih c hc) h')
  | any _ ih =>
      cases h with
      | any h =>
          cases hc' with
          | any h' => exact .any (forall₂_alike h (fun c hc _ => ih c hc) h')

end Condition

end DisplayLogic
