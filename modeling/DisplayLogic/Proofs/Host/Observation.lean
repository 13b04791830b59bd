import DisplayLogic.Host
import DisplayLogic.Proofs.Condition.Meaning

/-!
# What looking at a condition does to a host

A host that looks at the live data counts the reads of its cells and changes nothing else. For a
condition the counts go up by the reads of `Condition.reads`, which the meaning of the condition
needs, and the contents of the cells stay as they are.
-/

namespace DisplayLogic

namespace Store

/-- A read is counted for the cell of its feed and for no other. -/
theorem reads_countRead (s : Store) (f : Feed) (name : String) :
    (s.countRead f).reads name = s.reads name + if f.cell? = some name then 1 else 0 := by
  unfold countRead
  cases hcell : f.cell? with
  | none => rfl
  | some cell =>
      simp only [reads]
      rw [find?_modify, find?_declare]
      · by_cases h : name = cell
        · subst h
          cases s.find? name <;> simp
        · have hne : cell ≠ name := Ne.symm h
          simp [h, hne]
      · intro c
        rfl

theorem reads_countReads (s : Store) (feeds : List Feed) (name : String) :
    (s.countReads feeds).reads name =
      s.reads name + feeds.countP fun f => f.cell? = some name := by
  induction feeds generalizing s with
  | nil => rfl
  | cons f rest ih =>
      have hstep : s.countReads (f :: rest) = (s.countRead f).countReads rest := rfl
      rw [hstep, ih, reads_countRead, List.countP_cons]
      by_cases h : f.cell? = some name
      · simp only [h, if_true, decide_true]
        omega
      · simp only [h, if_false, decide_false, Bool.false_eq_true]
        omega

end Store

namespace Host

/-- Looking at a condition finds what it means by just the reads that this takes. The reads are
counted, and nothing else about the host changes. -/
theorem observe_eval (c : Condition) :
    (∀ cells, c.eval cells = ⟨c.meaning cells, c.reads cells⟩) ∧
      ∀ h : Host,
        let reads := c.reads h.store.contents
        let (value, after) := h.observe fun cells => c.eval cells
        value = c.meaning h.store.contents ∧ after = { h with store := after.store } ∧
          after.store.contents = h.store.contents ∧
          ∀ name, after.store.reads name =
            h.store.reads name + reads.countP fun f => f.cell? = some name := by
  constructor
  · intro cells
    exact c.eval_eq cells
  · intro h reads
    have hobserve : h.observe (fun cells => c.eval cells) =
        (c.meaning h.store.contents, { h with store := h.store.countReads reads }) := by
      simp only [observe, c.eval_eq, reads]
    rw [hobserve]
    refine ⟨rfl, rfl, h.store.contents_countReads reads, ?_⟩
    intro name
    exact h.store.reads_countReads reads name

end Host

end DisplayLogic
