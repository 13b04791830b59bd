import DisplayLogic.Proofs.Compilation.Groups
import DisplayLogic.Proofs.Condition.Dependence
import DisplayLogic.Proofs.Condition.Parts
import DisplayLogic.Variables
import Mathlib.Data.List.Induction

/-!
# The registry of a document

A document that is accepted becomes a registry of just its names, and each name stands for the
source of its own last value. The sorted members of a document are the last values of its names in
ascending order, so that a name is registered once.

No source of a document takes its data from a cell. What is compiled against a document therefore
evaluates to the same whatever the cells hold.
-/

namespace DisplayLogic

namespace Json

/-! ### Members in order -/

theorem map_fst_insertMember (name : String) (value : Json) (members : List (String × Json)) :
    (insertMember name value members).map Prod.fst =
      Groups.insertName name (members.map Prod.fst) := by
  induction members with
  | nil => rfl
  | cons member rest ih =>
      obtain ⟨first, v⟩ := member
      rw [insertMember, List.map_cons, Groups.insertName]
      split
      · rfl
      · split
        · rename_i heq
          rw [List.map_cons, heq]
        · rw [List.map_cons, ih]

theorem sortedMembers_append_singleton (members : List (String × Json)) (name : String)
    (value : Json) :
    sortedMembers (members ++ [(name, value)]) =
      insertMember name value (sortedMembers members) := by
  rw [sortedMembers, List.foldl_append]
  rfl

/-- The names of the sorted members are the set of all names, in strictly ascending order. -/
theorem map_fst_sortedMembers (members : List (String × Json)) :
    (sortedMembers members).map Prod.fst = (Groups.ofList (members.map Prod.fst)).names := by
  induction members using List.reverseRecOn with
  | nil => rfl
  | append_singleton rest member ih =>
      obtain ⟨name, value⟩ := member
      rw [sortedMembers_append_singleton, map_fst_insertMember, ih, List.map_append, Groups.ofList,
        Groups.ofList, Groups.insertAll, Groups.insertAll, List.foldl_append]
      rfl

theorem pairwise_sortedMembers (members : List (String × Json)) :
    (sortedMembers members).Pairwise fun a b => a.1 < b.1 := by
  have hnames := (Groups.ofList (members.map Prod.fst)).ascending
  rw [← map_fst_sortedMembers, List.pairwise_map] at hnames
  exact hnames

/-- Of several values of a name the last one stands among the sorted members. -/
theorem memberValue?_sortedMembers (members : List (String × Json)) (name : String) :
    memberValue? (sortedMembers members) name = memberValue? members.reverse name := by
  induction members using List.reverseRecOn with
  | nil => rfl
  | append_singleton rest member ih =>
      obtain ⟨last, value⟩ := member
      rw [sortedMembers_append_singleton, memberValue?_insertMember, ih, List.reverse_append,
        List.reverse_singleton, List.singleton_append]
      by_cases h : name = last
      · subst h
        simp only [memberValue?, List.lookup_cons_self, if_true]
      · have hne : (name == last) = false := beq_eq_false_iff_ne.mpr h
        simp only [memberValue?, List.lookup_cons, hne, h, if_false]

/-- Every name has a last value. -/
theorem exists_memberValue?_reverse {members : List (String × Json)} {name : String}
    (h : name ∈ members.map Prod.fst) :
    ∃ value, memberValue? members.reverse name = some value := by
  obtain ⟨member, hmem, rfl⟩ := List.mem_map.mp h
  rw [← Option.isSome_iff_exists, memberValue?, List.lookup_isSome_iff]
  exact ⟨member, List.mem_reverse.mpr hmem, beq_self_eq_true member.1⟩

theorem mem_of_memberValue? {members : List (String × Json)} {name : String} {value : Json}
    (h : memberValue? members name = some value) : (name, value) ∈ members := by
  obtain ⟨before, behind, rfl, -⟩ := List.lookup_eq_some_iff.mp h
  exact List.mem_append_right before List.mem_cons_self

/-- A value of a document has no cell to take its data from. -/
theorem cell?_of_source? {value : Json} {name : String} {s : Source}
    (h : value.source? name = some s) : ∀ f ∈ s.feeds, f.cell? = none := by
  intro f hf
  cases value with
  | null | boolean b =>
      cases h
      rw [Source.feeds, List.mem_singleton] at hf
      rw [hf]
      rfl
  | number n | text t =>
      cases h
      rw [Source.feeds] at hf
      nomatch hf
  | array items | object members => nomatch h

end Json

namespace Registry

variable {r r' : Registry} {members : List (String × Json)}

/-! ### Registering members -/

theorem registerMember_eq_ok_iff {member : String × Json} :
    r.registerMember member = .ok r' ↔
      Name.isName member.1.toList = true ∧
        ∃ s, member.2.source? member.1 = some s ∧ r' = r.register member.1 ⟨s, []⟩ := by
  unfold registerMember
  cases hname : Name.isName member.1.toList with
  | false => simp
  | true =>
      cases hsource : member.2.source? member.1 with
      | none => simp
      | some s =>
          simp only [Bool.not_true, Bool.false_eq_true, if_false, Except.ok.injEq, true_and,
            Option.some.injEq, exists_eq_left']
          exact eq_comm

/-- Members of different names are registered side by side. -/
theorem find?_of_foldlM_registerMember (hdistinct : members.Pairwise fun a b => a.1 < b.1)
    (h : members.foldlM registerMember r = .ok r') :
    (∀ member ∈ members, Name.isName member.1.toList = true ∧
      ∃ s, member.2.source? member.1 = some s ∧ r'.find? member.1 = some ⟨s, []⟩) ∧
    ∀ name, name ∉ members.map Prod.fst → r'.find? name = r.find? name := by
  induction members generalizing r with
  | nil =>
      cases h
      exact ⟨List.forall_mem_nil _, fun name _ => rfl⟩
  | cons member rest ih =>
      obtain ⟨hfirst, hrest⟩ := List.pairwise_cons.mp hdistinct
      rw [List.foldlM_cons, Outcome.bind_eq_ok_iff] at h
      obtain ⟨next, hnext, h⟩ := h
      obtain ⟨hname, s, hsource, rfl⟩ := registerMember_eq_ok_iff.mp hnext
      obtain ⟨hmembers, hothers⟩ := ih hrest h
      have hnew : member.1 ∉ rest.map Prod.fst := by
        intro hmem
        obtain ⟨other, hother, heq⟩ := List.mem_map.mp hmem
        exact String.lt_irrefl _ (heq ▸ hfirst other hother)
      refine ⟨List.forall_mem_cons.mpr ⟨⟨hname, s, hsource, ?_⟩, hmembers⟩, ?_⟩
      · rw [hothers member.1 hnew, find?_register, if_pos rfl]
      · intro name hmem
        rw [List.map_cons, List.mem_cons, not_or] at hmem
        rw [hothers name hmem.2, find?_register, if_neg hmem.1]

theorem find?_of_ofDocument (h : ofDocument (.object members) = .ok r) {name : String}
    {value : Json} (hvalue : Json.memberValue? members.reverse name = some value) :
    Name.isName name.toList = true ∧
      ∃ s, value.source? name = some s ∧ r.find? name = some ⟨s, []⟩ := by
  rw [← Json.memberValue?_sortedMembers] at hvalue
  exact (find?_of_foldlM_registerMember (Json.pairwise_sortedMembers members) h).1 _
    (Json.mem_of_memberValue? hvalue)

theorem exists_members_of_ofDocument {document : Json} (h : ofDocument document = .ok r) :
    ∃ members, document = .object members := by
  cases document with
  | object members => exact ⟨members, rfl⟩
  | _ => nomatch h

/-- Whatever is found in the registry of a document stands for a value of the document. -/
theorem exists_source?_of_ofDocument {document : Json} {name : String} {entry : Entry}
    (h : ofDocument document = .ok r) (hentry : r.find? name = some entry) :
    Name.isName name.toList = true ∧ ∃ value : Json, value.source? name = some entry.source := by
  obtain ⟨members, rfl⟩ := exists_members_of_ofDocument h
  obtain ⟨hmembers, hothers⟩ :=
    find?_of_foldlM_registerMember (Json.pairwise_sortedMembers members) h
  by_cases hmem : name ∈ (Json.sortedMembers members).map Prod.fst
  · obtain ⟨member, hmember, rfl⟩ := List.mem_map.mp hmem
    obtain ⟨hname, s, hsource, hfind⟩ := hmembers member hmember
    obtain rfl : ⟨s, []⟩ = entry := Option.some.inj (hfind.symm.trans hentry)
    exact ⟨hname, member.2, hsource⟩
  · rw [hothers name hmem] at hentry
    nomatch hentry

/-! ### Registries without cells -/

/-- No source of the registry takes its data from a cell. -/
def IsFixed (r : Registry) : Prop :=
  ∀ name entry, r.find? name = some entry → ∀ f ∈ entry.source.feeds, f.cell? = none

theorem isFixed_empty : empty.IsFixed := nofun

theorem isFixed_of_ofDocument {document : Json} (h : ofDocument document = .ok r) : r.IsFixed := by
  intro name entry hentry
  obtain ⟨-, value, hsource⟩ := exists_source?_of_ofDocument h hentry
  exact Json.cell?_of_source? hsource

/-- What is registered under a name is found before anything else. -/
theorem findQualified?_of_find? {name : String} {entry : Entry} (h : r.find? name = some entry) :
    r.findQualified? name.toList = some entry := by
  rw [findQualified?, String.ofList_toList, h]
  rfl

theorem exists_find?_of_findQualified? {name : List Char} {entry : Entry}
    (h : r.findQualified? name = some entry) : ∃ key, r.find? key = some entry := by
  rw [findQualified?, Option.orElse_eq_some] at h
  rcases h with h | ⟨-, h⟩
  · exact ⟨_, h⟩
  · obtain ⟨rest, -, h⟩ := Option.bind_eq_some_iff.mp h
    exact ⟨_, h⟩

/-- The variables of what is compiled are sources that stand in the registry. -/
theorem exists_find?_of_mem_variables {e : Expression} {c : Condition} {s : Source}
    (h : (r.compile e).outcome = .ok c) (hs : s ∈ c.variables) :
    ∃ name entry, r.find? name = some entry ∧ entry.source = s := by
  obtain ⟨i, hi, rfl⟩ := List.getElem_of_mem hs
  obtain ⟨hlength, hbound⟩ := List.forall₂_iff_get.mp (forall₂_variables_of_compile h)
  obtain ⟨entry, hentry, hsource⟩ := hbound i (hlength ▸ hi) hi
  obtain ⟨name, hname⟩ := exists_find?_of_findQualified? hentry
  exact ⟨name, entry, hname, hsource⟩

/-- What is compiled against a registry without cells evaluates to the same in all contents. -/
theorem IsFixed.eval_eq (hr : r.IsFixed) {e : Expression} {c : Condition}
    (h : (r.compile e).outcome = .ok c) (cells cells' : Cells) : c.eval cells' = c.eval cells := by
  have hvariables : ∀ s ∈ c.variables, ∀ f ∈ s.feeds, f.cell? = none := by
    intro s hs
    obtain ⟨name, entry, hentry, rfl⟩ := exists_find?_of_mem_variables h hs
    exact hr name entry hentry
  refine c.isLocal_eval cells cells' ?_
  intro f hf name hname
  have hread : f ∈ c.feeds := by
    simp only [c.eval_eq] at hf
    exact (c.reads_sublist cells).subset hf
  rw [c.feeds_eq, List.mem_flatMap] at hread
  obtain ⟨s, hs, hfeed⟩ := hread
  rw [hvariables s hs f hfeed] at hname
  nomatch hname

end Registry

end DisplayLogic
