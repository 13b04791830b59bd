import DisplayLogic.Proofs.Grammar.Conservation
import DisplayLogic.Proofs.Outcome

/-!
# The first faulty segment

A segment is what stands between two neighbouring connectives, whichever of the two they are.
Reading cuts tokens at one connective first and at the other one afterwards, and goes down into a
group as soon as it meets one that is alone in its segment. In effect it walks through the segments
from left to right, with those inside of a lone group in the place of the group. `Token.visited` is
the list of the segments that are met on this walk.

`SegmentFault` says what can be wrong with a segment, without regard to how it is read. Tokens form
no condition just when some segment that is met is at fault, and the first of these decides the
error.
-/

namespace DisplayLogic

namespace Token

def isConnective (t : Token) : Bool := t.isOr || t.isAnd

/-- Whether a token can be the whole of a segment. -/
def standsAlone : Token → Bool
  | group _ | boolean _ | source _ => true
  | _ => false

def isRelation : Token → Bool
  | relation _ => true
  | _ => false

def isOperand : Token → Bool
  | source _ | text _ | number _ | boolean _ => true
  | _ => false

/-- What is wrong with a segment, in which a group counts as one token. -/
inductive SegmentFault : List Token → ParseError → Prop where
  | empty : SegmentFault [] .empty
  | count {segment : List Token} (hzero : segment.length ≠ 0) (hone : segment.length ≠ 1)
      (hthree : segment.length ≠ 3) : SegmentFault segment (.wrongTokenCount segment.length)
  | alone {t : Token} (h : t.standsAlone = false) :
      SegmentFault [t] (.unexpectedToken t.kind "group, boolean or variable")
  | middle {left middle right : Token} (h : middle.isRelation = false) :
      SegmentFault [left, middle, right] (.unexpectedToken middle.kind "comparison")
  | left {left middle right : Token} (hmiddle : middle.isRelation = true)
      (h : left.isOperand = false) :
      SegmentFault [left, middle, right] (.unexpectedToken left.kind "comparison operand")
  | right {left middle right : Token} (hmiddle : middle.isRelation = true)
      (hleft : left.isOperand = true) (h : right.isOperand = false) :
      SegmentFault [left, middle, right] (.unexpectedToken right.kind "comparison operand")

end Token

/-! ### Cutting at several marks -/

section Cutting

variable {α : Type} {as : List α}

theorem mem_of_mem_splitOnP {test : α → Bool} {segment : List α} {a : α}
    (h : segment ∈ as.splitOnP test) (ha : a ∈ segment) : a ∈ as := by
  induction as generalizing segment with
  | nil =>
      rw [List.splitOnP_nil, List.mem_singleton] at h
      rwa [h] at ha
  | cons b rest ih =>
      rw [List.splitOnP_cons_eq_if_modifyHead] at h
      split at h
      · rcases List.mem_cons.mp h with rfl | h
        · nomatch ha
        · exact List.mem_cons_of_mem b (ih h ha)
      · obtain ⟨first, others, hsegments⟩ :=
          List.exists_cons_of_ne_nil (List.splitOnP_ne_nil test rest)
        rw [hsegments] at h ih
        rw [List.modifyHead_cons] at h
        rcases List.mem_cons.mp h with rfl | h
        · rcases List.mem_cons.mp ha with rfl | ha
          · exact List.mem_cons_self
          · exact List.mem_cons_of_mem b (ih List.mem_cons_self ha)
        · exact List.mem_cons_of_mem b (ih (List.mem_cons_of_mem first h) ha)

theorem Part.sections_eq_splitOnP (test : α → Bool) (as : List α) :
    sections test as = as.splitOnP test := by
  induction as with
  | nil => rfl
  | cons a rest ih =>
      rw [sections, List.splitOnP_cons_eq_if_modifyHead, ih]
      obtain ⟨first, others, hsections⟩ :=
        List.exists_cons_of_ne_nil (List.splitOnP_ne_nil test rest)
      rw [hsections, List.modifyHead_cons]

/-- Cutting at one mark and then at another leaves the same as cutting at both at once. -/
theorem flatMap_splitOnP (p q : α → Bool) (as : List α) :
    ((as.splitOnP p).flatMap fun segment => segment.splitOnP q) =
      as.splitOnP fun a => p a || q a := by
  induction as with
  | nil => rfl
  | cons a rest ih =>
      simp only [List.splitOnP_cons_eq_if_modifyHead]
      cases hp : p a with
      | true =>
          rw [if_pos rfl, List.flatMap_cons, ih]
          rfl
      | false =>
          obtain ⟨first, others, hsegments⟩ :=
            List.exists_cons_of_ne_nil (List.splitOnP_ne_nil p rest)
          obtain ⟨start, starts, hstarts⟩ :=
            List.exists_cons_of_ne_nil (List.splitOnP_ne_nil q first)
          rw [hsegments, List.flatMap_cons, hstarts] at ih
          rw [← ih, hsegments, if_neg Bool.false_ne_true, List.modifyHead_cons, List.flatMap_cons,
            List.splitOnP_cons_eq_if_modifyHead, hstarts, Bool.false_or]
          split <;> rfl

theorem map_splitOnP {β : Type} {f : α → β} {p : α → Bool} {q : β → Bool}
    (h : ∀ a, q (f a) = p a) (as : List α) :
    (as.map f).splitOnP q = (as.splitOnP p).map (List.map f) := by
  induction as with
  | nil => rfl
  | cons a rest ih =>
      obtain ⟨first, others, hsegments⟩ :=
        List.exists_cons_of_ne_nil (List.splitOnP_ne_nil p rest)
      rw [List.map_cons, List.splitOnP_cons_eq_if_modifyHead, List.splitOnP_cons_eq_if_modifyHead,
        ih, h, hsegments]
      split <;> rfl

end Cutting

namespace Token

/-- The segments that are met in tokens, from left to right. A group that is alone in its segment is
entered, and the segments inside of it are met in its place. -/
def visited (ts : List Token) : List (List Token) :=
  (ts.splitOnP isConnective).attach.flatMap fun ⟨segment, hsegment⟩ =>
    match segment, hsegment with
    | [.group items], _ => visited items
    | segment, _ => [segment]
termination_by sizeOf ts
decreasing_by
  rename_i hitems
  have hmem := List.sizeOf_lt_of_mem (mem_of_mem_splitOnP hitems List.mem_cons_self)
  simp only [group.sizeOf_spec] at hmem
  omega

/-- The segments that are met from a segment on: those inside of a lone group, or the segment. -/
def visitedFrom : List Token → List (List Token)
  | [.group items] => visited items
  | segment => [segment]

theorem visited_eq (ts : List Token) :
    visited ts = (ts.splitOnP isConnective).flatMap visitedFrom := by
  rw [visited, List.flatMap_def, List.flatMap_def]
  congr 1
  refine Eq.trans ?_ (List.attach_map_val (l := ts.splitOnP isConnective) (f := visitedFrom))
  refine List.map_congr_left fun ⟨segment, hsegment⟩ _ => ?_
  dsimp only
  split
  · rfl
  · rename_i hlone
    rw [visitedFrom]
    rintro items rfl
    exact hlone items hsegment rfl HEq.rfl

/-! ### One segment -/

theorem error?_relation (t : Token) :
    Outcome.error? t.part.relation =
      if t.isRelation then none else some (.unexpectedToken t.kind "comparison") := by
  cases t <;> rfl

theorem error?_operand (t : Token) :
    Outcome.error? t.part.operand =
      if t.isOperand then none else some (.unexpectedToken t.kind "comparison operand") := by
  cases t <;> rfl

theorem error?_ofSimple_three (left middle right : Token) :
    Outcome.error? (Condition.ofSimple (parts [left, middle, right])) =
      (Outcome.error? middle.part.relation).or
        ((Outcome.error? left.part.operand).or (Outcome.error? right.part.operand)) := by
  simp only [parts, Condition.ofSimple]
  cases middle.part.relation with
  | error e => rfl
  | ok relation =>
      cases left.part.operand with
      | error e => rfl
      | ok x => exact Outcome.error?_map _ _

/-- What reading finds wrong with a segment itself. A lone group is left to its own segments. -/
def segmentFault? : List Token → Option ParseError
  | [.group _] => none
  | segment => Outcome.error? (Condition.ofSimple (parts segment))

theorem segmentFault?_singleton (t : Token) :
    segmentFault? [t] =
      if t.standsAlone then none
      else some (.unexpectedToken t.kind "group, boolean or variable") := by
  cases t <;> rfl

theorem segmentFault?_of_length {segment : List Token} (h : segment.length ≠ 1) :
    segmentFault? segment = Outcome.error? (Condition.ofSimple (parts segment)) := by
  rw [segmentFault?]
  rintro items rfl
  exact h rfl

theorem ofSimple_of_length {parts : List Part} (hzero : parts.length ≠ 0)
    (hone : parts.length ≠ 1) (hthree : parts.length ≠ 3) :
    Condition.ofSimple parts = .error (.wrongTokenCount parts.length) := by
  match parts with
  | [] => exact absurd rfl hzero
  | [_] => exact absurd rfl hone
  | [_, _] => rfl
  | [_, _, _] => exact absurd rfl hthree
  | _ :: _ :: _ :: _ :: _ => rfl

theorem segmentFault?_singleton_iff {t : Token} {e : ParseError} :
    segmentFault? [t] = some e ↔ SegmentFault [t] e := by
  rw [segmentFault?_singleton]
  constructor
  · intro h
    cases halone : t.standsAlone with
    | true =>
        rw [halone] at h
        nomatch h
    | false =>
        rw [halone] at h
        cases h
        exact .alone halone
  · intro h
    cases h with
    | count _ hone => exact absurd rfl hone
    | alone halone =>
        rw [halone]
        rfl

theorem segmentFault?_three_iff {left middle right : Token} {e : ParseError} :
    segmentFault? [left, middle, right] = some e ↔ SegmentFault [left, middle, right] e := by
  have hlength : [left, middle, right].length ≠ 1 := Nat.succ_succ_ne_one 1
  rw [segmentFault?_of_length hlength, error?_ofSimple_three, error?_relation, error?_operand,
    error?_operand]
  constructor
  · intro h
    cases hmiddle : middle.isRelation with
    | false =>
        rw [hmiddle] at h
        cases h
        exact .middle hmiddle
    | true =>
        cases hleft : left.isOperand with
        | false =>
            rw [hmiddle, hleft] at h
            cases h
            exact .left hmiddle hleft
        | true =>
            cases hright : right.isOperand with
            | false =>
                rw [hmiddle, hleft, hright] at h
                cases h
                exact .right hmiddle hleft hright
            | true =>
                rw [hmiddle, hleft, hright] at h
                nomatch h
  · intro h
    cases h with
    | count _ _ hthree => exact absurd rfl hthree
    | middle hmiddle =>
        rw [hmiddle]
        rfl
    | left hmiddle hleft =>
        rw [hmiddle, hleft]
        rfl
    | right hmiddle hleft hright =>
        rw [hmiddle, hleft, hright]
        rfl

theorem segmentFault?_count_iff {segment : List Token} {e : ParseError}
    (hzero : segment.length ≠ 0) (hone : segment.length ≠ 1) (hthree : segment.length ≠ 3) :
    segmentFault? segment = some e ↔ SegmentFault segment e := by
  have hlength : (parts segment).length = segment.length := by
    rw [parts_eq_map, List.length_map]
  rw [segmentFault?_of_length hone, ofSimple_of_length (by rwa [hlength]) (by rwa [hlength])
    (by rwa [hlength]), hlength]
  constructor
  · rintro ⟨⟩
    exact .count hzero hone hthree
  · intro h
    cases h with
    | empty => exact absurd rfl hzero
    | count => rfl
    | alone => exact absurd rfl hone
    | _ => exact absurd rfl hthree

/-- Reading finds wrong with a segment what is wrong with it. -/
theorem segmentFault?_eq_some_iff (segment : List Token) (e : ParseError) :
    segmentFault? segment = some e ↔ SegmentFault segment e := by
  match segment with
  | [] =>
      constructor
      · rintro ⟨⟩
        exact .empty
      · intro h
        cases h with
        | empty => rfl
        | count hzero => exact absurd rfl hzero
  | [t] => exact segmentFault?_singleton_iff
  | [left, middle, right] => exact segmentFault?_three_iff
  | [_, _] => exact segmentFault?_count_iff (by simp) (by simp) (by simp)
  | _ :: _ :: _ :: _ :: _ => exact segmentFault?_count_iff (by simp) (by simp) (by simp)

/-! ### All segments that are met -/

theorem isConnective_eq (t : Token) : (t.part.isOr || t.part.isAnd) = t.isConnective := by
  cases t <;> rfl

/-- The first error in the segments at the top level decides. -/
theorem error?_ofTokens_eq (ts : List Token) :
    Outcome.error? (Condition.ofTokens ts) =
      (ts.splitOnP isConnective).findSome? fun segment =>
        Outcome.error? (Condition.ofSimple (parts segment)) := by
  have hjoint (ps : List Part) : Outcome.error? (Condition.ofJoint ps) =
      (ps.splitOnP Part.isAnd).findSome? fun part => Outcome.error? (Condition.ofSimple part) := by
    rw [Condition.ofJoint, Outcome.error?_map, Outcome.error?_mapM, Part.sections_eq_splitOnP]
  have hparts : (parts ts).splitOnP (fun p => p.isOr || p.isAnd) =
      (ts.splitOnP isConnective).map parts := by
    rw [parts_eq_map, map_splitOnP isConnective_eq]
    exact List.map_congr_left fun segment _ => (parts_eq_map segment).symm
  rw [Condition.ofTokens, Condition.ofParts, Outcome.error?_map, Outcome.error?_mapM,
    Part.sections_eq_splitOnP]
  simp only [hjoint]
  rw [← Outcome.findSome?_flatMap, flatMap_splitOnP, hparts, List.findSome?_map]
  rfl

/-- What is wrong with tokens is what is wrong with the first faulty segment met in them. The
induction is on the tokens, of which a group has fewer inside. -/
theorem error?_ofTokens (ts : List Token) :
    Outcome.error? (Condition.ofTokens ts) = (visited ts).findSome? segmentFault? := by
  have hsegment : ∀ segment ∈ ts.splitOnP isConnective,
      Outcome.error? (Condition.ofSimple (parts segment)) =
        (visitedFrom segment).findSome? segmentFault? := by
    intro segment hmem
    by_cases hlone : ∃ items, segment = [.group items]
    · obtain ⟨items, rfl⟩ := hlone
      exact error?_ofTokens items
    · have hne (items : List Token) : segment ≠ [.group items] := fun h => hlone ⟨items, h⟩
      rw [visitedFrom, List.findSome?_singleton, segmentFault?]
      · exact hne
      · exact hne
  rw [error?_ofTokens_eq, visited_eq, Outcome.findSome?_flatMap]
  exact Outcome.findSome?_congr hsegment
termination_by sizeOf ts
decreasing_by
  have hgroup := List.sizeOf_lt_of_mem (mem_of_mem_splitOnP hmem List.mem_cons_self)
  simp only [group.sizeOf_spec] at hgroup
  omega

end Token

/-- Tokens are refused just for the fault of the first segment met in them that has one. -/
theorem Condition.ofTokens_eq_error_iff {ts : List Token} {e : ParseError} :
    ofTokens ts = .error e ↔ Outcome.FirstFault Token.SegmentFault (Token.visited ts) e := by
  rw [← Outcome.error?_eq_some_iff, Token.error?_ofTokens,
    Outcome.findSome?_eq_some_iff_firstFault Token.segmentFault?_eq_some_iff]

end DisplayLogic
