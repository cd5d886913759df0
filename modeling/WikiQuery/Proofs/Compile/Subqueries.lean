import WikiQuery.Compile.Session
import WikiQuery.Proofs.Compile.Outcome

namespace WikiQuery

namespace Session

-- What a session does with its sub-queries, one thing after the other. A description can be
-- compiled with whatever result, also with an error.
inductive Operation where
  | register (q : Subquery)
  | rollback (size : Nat)
  | take
  | reset (keys : SortKeys)
  | compile (d : Description) (join : Variable) (target : Option SortTarget)
  | compileRoot (d : Description) (join : Variable) (keys : SortKeys)

-- From this operation on, a reference need not stand for its sub-query any more. A whole query is
-- compiled from a fresh start, so that it revokes all references there are.
def Operation.Revokes (id : SubqueryId) : Operation → Prop
  | .register _ => False
  | .rollback size => size ≤ id.index
  | .take => True
  | .reset _ => True
  | .compile _ _ _ => False
  | .compileRoot _ _ _ => True

def perform (s : Session) : Operation → Session
  | .register q => { s with work := (s.work.register q).2 }
  | .rollback size => { s with work := s.work.rollback size }
  | .take => s.takeSubqueries.2
  | .reset keys => s.reset keys
  | .compile d join target => (s.compile d join target).2
  | .compileRoot d join keys => (s.compileRoot d join keys).2

def after (s : Session) (history : List Operation) : Session := history.foldl perform s

variable {s : Session} {op : Operation} {id : SubqueryId} {q : Subquery}

theorem compile_advances (s : Session) (d : Description) (join : Variable)
    (target : Option SortTarget) :
    s.work.Advances (s.compiler.Revisits s.sortKeys ⟨[], d, join, target, s.work⟩)
      (s.compile d join target).2.work :=
  (s.compiler.answers s.sortKeys ⟨[], d, join, target, s.work⟩).work

theorem entries_rollback (s : Session) (size : Nat) :
    (s.perform (.rollback size)).subqueries.entries = s.subqueries.entries.take size :=
  congrArg (·.subqueries.entries) (s.work.progress_rollback size)

theorem nodup_perform (h : s.subqueries.entries.Nodup) (op : Operation) :
    (s.perform op).subqueries.entries.Nodup := by
  cases op with
  | register q => exact SubqueryTable.nodup_register h q
  | rollback size =>
    rw [entries_rollback]
    exact h.sublist (List.take_sublist size _)
  | take => exact List.nodup_nil
  | reset keys => exact List.nodup_nil
  | compile d join target => exact (s.compile_advances d join target).distinct h
  | compileRoot d join keys => exact (compile_advances _ d join _).distinct List.nodup_nil

theorem nodup_after (h : s.subqueries.entries.Nodup) (history : List Operation) :
    (s.after history).subqueries.entries.Nodup := by
  induction history generalizing s with
  | nil => exact h
  | cons op rest ih => exact ih (nodup_perform h op)

-- What is registered or compiled later stands behind the sub-query, and a compilation takes back
-- only what it has registered itself.
theorem get?_perform (hid : s.subqueries.get? id = some q) (hop : ¬op.Revokes id) :
    (s.perform op).subqueries.get? id = some q := by
  cases op with
  | register other =>
    obtain ⟨hgrows, -⟩ := s.work.subqueries.register_cases other
    exact SubqueryTable.get?_mono hgrows hid
  | rollback size =>
    have hlt : id.index < size := Nat.not_le.mp hop
    unfold SubqueryTable.get? at hid ⊢
    rw [entries_rollback, List.getElem?_take_of_lt hlt]
    exact hid
  | take => exact absurd trivial hop
  | reset keys => exact absurd trivial hop
  | compile d join target =>
    exact SubqueryTable.get?_mono (s.compile_advances d join target).subqueries hid
  | compileRoot d join keys => exact absurd trivial hop

theorem get?_after {later : List Operation} (hid : s.subqueries.get? id = some q)
    (hlater : ∀ op ∈ later, ¬op.Revokes id) : (s.after later).subqueries.get? id = some q := by
  induction later generalizing s with
  | nil => exact hid
  | cons op rest ih =>
    obtain ⟨hop, hrest⟩ := List.forall_mem_cons.mp hlater
    exact ih (get?_perform hid hop) hrest

-- Whatever has been done to a session that started with no sub-queries, no sub-query has two places
-- in its table. A reference stands for the sub-query it was given out for as long as no operation
-- revokes it, a sub-query that has a place keeps it and nothing changes when it is registered once
-- more, and what goes is what is taken back.
theorem subqueries_stable (start : Session) (hstart : start.subqueries.entries = [])
    (history : List Operation) :
    let s := start.after history
    s.subqueries.entries.Nodup ∧
    (∀ q later, (∀ op ∈ later, ¬op.Revokes (s.work.register q).1) →
      ((s.perform (.register q)).after later).subqueries.get? (s.work.register q).1 = some q) ∧
    (∀ q id, s.subqueries.get? id = some q →
      (s.work.register q).1 = id ∧ s.perform (.register q) = s) ∧
    (∀ size, (s.perform (.rollback size)).subqueries.entries =
      s.subqueries.entries.take (min size s.subqueries.size)) ∧
    s.takeSubqueries.1 = s.subqueries ∧
    (s.perform .take).subqueries.entries = [] ∧
    ∀ keys, (s.perform (.reset keys)).subqueries.entries = [] := by
  intro s
  have hnodup : s.subqueries.entries.Nodup := nodup_after (hstart ▸ List.nodup_nil) history
  refine ⟨hnodup, ?_, ?_, ?_, rfl, rfl, fun keys => rfl⟩
  · intro q later hlater
    obtain ⟨-, hid, -⟩ := s.work.subqueries.register_cases q
    exact get?_after hid hlater
  · intro q id hid
    have htable : s.work.subqueries.register q = (id, s.work.subqueries) :=
      SubqueryTable.register_of_get? hnodup hid
    have hregister : s.work.register q = (id, s.work) := by
      rw [Work.register, htable]
    exact ⟨congrArg Prod.fst hregister, by rw [perform, hregister]⟩
  · intro size
    rw [entries_rollback]
    exact List.take_eq_take_min

-- The place of the capitals is taken back and goes to the rivers, which keep it when the capitals
-- are registered once more and taken back again.
theorem subqueries_stable_rivers :
    let cities : Subquery := .categories [5] 10
    let capitals : Subquery := .categories [7] 10
    let rivers : Subquery := .categories [9] 10
    let start : Session := { compiler := {} }
    let s := start.after [.register cities, .register capitals, .rollback 1]
    let later : List Operation :=
      [.register capitals, .rollback 2, .compile .thing ⟨"x"⟩ none, .register rivers]
    start.subqueries.entries = [] ∧
    ((start.after [.register cities]).work.register capitals).1 = ⟨1⟩ ∧
    (s.work.register rivers).1 = ⟨1⟩ ∧
    (∀ op ∈ later, ¬op.Revokes ⟨1⟩) ∧
    ((s.perform (.register rivers)).after later).subqueries.get? ⟨1⟩ = some rivers ∧
    s.subqueries.get? ⟨0⟩ = some cities ∧
    (s.work.register cities).1 = ⟨0⟩ ∧ s.perform (.register cities) = s := by
  intro cities capitals rivers start s later
  obtain ⟨-, hkeeps, hagain, -⟩ := subqueries_stable start rfl
    [.register cities, .register capitals, .rollback 1]
  have hlater : ∀ op ∈ later, ¬op.Revokes ⟨1⟩ := by simp [later, Operation.Revokes]
  have hcities : s.subqueries.get? ⟨0⟩ = some cities := rfl
  exact ⟨rfl, rfl, rfl, hlater, hkeeps rivers later hlater, hcities, hagain cities ⟨0⟩ hcities⟩

end Session

end WikiQuery
