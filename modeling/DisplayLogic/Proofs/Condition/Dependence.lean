import DisplayLogic.Condition.Eval

/-!
# What an evaluation depends on

What is read next can depend on what was read before: a false member ends a conjunction, and the
condition of an element decides which members are looked at. Nevertheless the cells that were read
decide everything. Contents of the cells that agree on them lead to the same value by the same
reads, whatever the other cells hold.

This is said of any way to look at the cells. `Observed.IsLocal` is kept by doing one thing after
another, where the second may depend on the value of the first, so that it passes from the single
looks at feeds to all views of sources and to conditions.
-/

namespace DisplayLogic

/-- The contents agree on the cells that the feeds take their data from. -/
def Cells.AgreeOn (feeds : List Feed) (cells cells' : Cells) : Prop :=
  ∀ f ∈ feeds, ∀ name, f.cell? = some name → cells name = cells' name

/-- Looking sees the same, by the same reads, in all contents that agree on the cells read. -/
def Observed.IsLocal {α : Type} (look : Cells → Observed α) : Prop :=
  ∀ cells cells', Cells.AgreeOn (look cells).reads cells cells' → look cells' = look cells

theorem Cells.AgreeOn.append {feeds feeds' : List Feed} {cells cells' : Cells}
    (h : Cells.AgreeOn (feeds ++ feeds') cells cells') :
    Cells.AgreeOn feeds cells cells' ∧ Cells.AgreeOn feeds' cells cells' :=
  List.forall_mem_append.mp h

/-- A feed takes its data from its cell alone. -/
theorem Feed.value?_eq_of_agreeOn {f : Feed} {cells cells' : Cells}
    (h : Cells.AgreeOn [f] cells cells') : f.value? cells' = f.value? cells := by
  have hcontent : f.content? cells' = f.content? cells := by
    cases horigin : f.origin with
    | fixed content => simp only [Feed.content?, horigin]
    | cell name =>
        have hcell : f.cell? = some name := by simp only [Feed.cell?, horigin]
        simp only [Feed.content?, horigin]
        exact (h f List.mem_cons_self name hcell).symm
  rw [Feed.value?, Feed.value?, hcontent]

namespace Observed

variable {α β : Type}

theorem isLocal_pure (a : α) : IsLocal fun _ => pure a := by
  intro cells cells' _
  rfl

/-- A look at a feed is local if it shows nothing but the value of the feed. -/
theorem isLocal_look (f : Feed) (view : Option Constant → α) :
    IsLocal fun cells => look f fun f => view (f.value? cells) := by
  intro cells cells' h
  have hvalue : f.value? cells' = f.value? cells := Feed.value?_eq_of_agreeOn h
  ext1
  · exact congrArg view hvalue
  · rfl

/-- The first part sees the same by its own reads, so that the second part is the same again. -/
theorem IsLocal.bind {look : Cells → Observed α} {next : α → Cells → Observed β}
    (hlook : IsLocal look) (hnext : ∀ a, IsLocal (next a)) :
    IsLocal fun cells => look cells >>= fun a => next a cells := by
  intro cells cells' h
  obtain ⟨hfirst, hsecond⟩ := Cells.AgreeOn.append h
  have hsame : look cells' = look cells := hlook cells cells' hfirst
  have hsame' : next (look cells).value cells' = next (look cells).value cells :=
    hnext (look cells).value cells cells' hsecond
  ext1
  · rw [value_bind, value_bind, hsame, hsame']
  · rw [reads_bind, reads_bind, hsame, hsame']

end Observed

/-! ### Sources and conditions are looked at locally -/

open Observed

mutual

theorem Source.isLocal_text : ∀ s : Source, IsLocal fun cells => s.text cells
  | .constant c => by
      simp only [Source.text]
      exact isLocal_pure _
  | .feed f => by
      simp only [Source.text]
      exact isLocal_look f fun value? => value?.elim Missing.text Constant.asText
  | .element condition positive negative => by
      simp only [Source.text]
      refine condition.isLocal_eval.bind fun b => ?_
      cases b with
      | true => exact Source.isLocal_joinedText positive
      | false => exact Source.isLocal_joinedText negative

theorem Source.isLocal_joinedText : ∀ sources : List Source,
    IsLocal fun cells => Source.joinedText cells sources
  | [] => isLocal_pure _
  | s :: rest => by
      simp only [Source.joinedText]
      exact s.isLocal_text.bind fun first =>
        (Source.isLocal_joinedText rest).bind fun others => isLocal_pure _

theorem Source.isLocal_number : ∀ s : Source, IsLocal fun cells => s.number cells
  | .constant c => by
      simp only [Source.number]
      exact isLocal_pure _
  | .feed f => by
      simp only [Source.number]
      exact isLocal_look f fun value? => value?.elim Missing.number Constant.asNumber
  | .element condition positive negative => by
      simp only [Source.number]
      exact condition.isLocal_eval.bind fun b => isLocal_pure _

theorem Source.isLocal_truth : ∀ s : Source, IsLocal fun cells => s.truth cells
  | .constant c => by
      simp only [Source.truth]
      exact isLocal_pure _
  | .feed f => by
      simp only [Source.truth]
      exact isLocal_look f fun value? => value?.elim Missing.truth Constant.asTruth
  | .element condition positive negative => by
      simp only [Source.truth]
      exact condition.isLocal_eval

theorem Operand.isLocal_text : ∀ x : Operand, IsLocal fun cells => x.text cells
  | .source s => by
      simp only [Operand.text]
      exact s.isLocal_text
  | .literal c => by
      simp only [Operand.text]
      exact isLocal_pure _

theorem Operand.isLocal_number : ∀ x : Operand, IsLocal fun cells => x.number cells
  | .source s => by
      simp only [Operand.number]
      exact s.isLocal_number
  | .literal c => by
      simp only [Operand.number]
      exact isLocal_pure _

theorem Operand.isLocal_truth : ∀ x : Operand, IsLocal fun cells => x.truth cells
  | .source s => by
      simp only [Operand.truth]
      exact s.isLocal_truth
  | .literal c => by
      simp only [Operand.truth]
      exact isLocal_pure _

theorem Condition.isLocal_eval : ∀ c : Condition, IsLocal fun cells => c.eval cells
  | .literal value => by
      simp only [Condition.eval]
      exact isLocal_pure _
  | .holds s => by
      simp only [Condition.eval]
      exact s.isLocal_truth
  | .comparison left relation right kinds => by
      simp only [Condition.eval]
      cases kinds.mode with
      | boolean =>
          exact left.isLocal_truth.bind fun a => right.isLocal_truth.bind fun b => isLocal_pure _
      | number =>
          exact left.isLocal_number.bind fun a => right.isLocal_number.bind fun b => isLocal_pure _
      | text =>
          exact left.isLocal_text.bind fun a => right.isLocal_text.bind fun b => isLocal_pure _
  | .all conditions => by
      simp only [Condition.eval]
      exact Condition.isLocal_evalAll conditions
  | .any conditions => by
      simp only [Condition.eval]
      exact Condition.isLocal_evalAny conditions

theorem Condition.isLocal_evalAll : ∀ conditions : List Condition,
    IsLocal fun cells => Condition.evalAll cells conditions
  | [] => isLocal_pure _
  | c :: rest => by
      simp only [Condition.evalAll]
      refine c.isLocal_eval.bind fun b => ?_
      cases b with
      | true => exact Condition.isLocal_evalAll rest
      | false => exact isLocal_pure _

theorem Condition.isLocal_evalAny : ∀ conditions : List Condition,
    IsLocal fun cells => Condition.evalAny cells conditions
  | [] => isLocal_pure _
  | c :: rest => by
      simp only [Condition.evalAny]
      refine c.isLocal_eval.bind fun b => ?_
      cases b with
      | true => exact isLocal_pure _
      | false => exact Condition.isLocal_evalAny rest

end

/-- What was read decides the outcome. Contents that agree on the cells read by an evaluation in the
first of them lead it to the same truth by the same reads in the second, and so do they for each
view of a source. -/
theorem eval_eq_of_agreeOn {cells cells' : Cells} :
    (∀ c : Condition, Cells.AgreeOn (c.eval cells).reads cells cells' →
      c.eval cells' = c.eval cells) ∧
    ∀ s : Source,
      (Cells.AgreeOn (s.text cells).reads cells cells' → s.text cells' = s.text cells) ∧
      (Cells.AgreeOn (s.number cells).reads cells cells' → s.number cells' = s.number cells) ∧
      (Cells.AgreeOn (s.truth cells).reads cells cells' → s.truth cells' = s.truth cells) := by
  refine ⟨?_, ?_⟩
  · intro c h
    exact c.isLocal_eval cells cells' h
  · intro s
    refine ⟨?_, ?_, ?_⟩
    · intro h
      exact s.isLocal_text cells cells' h
    · intro h
      exact s.isLocal_number cells cells' h
    · intro h
      exact s.isLocal_truth cells cells' h

/-- Behind a gate that is open nothing is read but the gate, so that the health may change. -/
theorem eval_eq_behind_open_gate :
    let gate : Feed := ⟨.boolean, "gate", .cell "gate"⟩
    let health : Feed := ⟨.number, "health", .cell "hp"⟩
    let c : Condition := .any [.holds (.feed gate),
      .comparison (.source (.feed health)) .less (.literal (.number .one)) ⟨false, true⟩]
    let s : Source := .element c [.feed gate] [.feed health]
    let cells (hp : Option Constant) : Cells := fun name =>
      if name = "gate" then some (.boolean true) else hp
    let before := cells none
    let after := cells (some (.number .one))
    before "hp" ≠ after "hp" ∧
      Cells.AgreeOn (c.eval before).reads before after ∧ c.eval after = c.eval before ∧
      Cells.AgreeOn (s.text before).reads before after ∧ s.text after = s.text before ∧
      Cells.AgreeOn (s.number before).reads before after ∧ s.number after = s.number before ∧
      Cells.AgreeOn (s.truth before).reads before after ∧ s.truth after = s.truth before := by
  intro gate health c s cells before after
  have hgate {feeds : List Feed} (h : ∀ f ∈ feeds, f = gate) :
      Cells.AgreeOn feeds before after := by
    intro f hf name hname
    rw [h f hf] at hname
    obtain rfl : "gate" = name := Option.some.inj hname
    rfl
  have hcondition : Cells.AgreeOn (c.eval before).reads before after := hgate (by decide)
  have htext : Cells.AgreeOn (s.text before).reads before after := hgate (by decide)
  have hnumber : Cells.AgreeOn (s.number before).reads before after := hgate (by decide)
  have htruth : Cells.AgreeOn (s.truth before).reads before after := hgate (by decide)
  obtain ⟨heval, hviews⟩ := @eval_eq_of_agreeOn before after
  obtain ⟨heqtext, heqnumber, heqtruth⟩ := hviews s
  exact ⟨nofun, hcondition, heval c hcondition, htext, heqtext htext, hnumber,
    heqnumber hnumber, htruth, heqtruth htruth⟩

end DisplayLogic
