import WikiQuery.JsonForm.Condition
import WikiQuery.Proofs.JsonForm.Condition
import WikiQuery.Proofs.JsonForm.Description

namespace WikiQuery

namespace Query

def Finite (q : Query) : Prop := q.condition.Finite

theorem ofJson?_toJson {q : Query} (h : q.Finite) : ofJson? q.toJson = some q := by
  simp [ofJson?, toJson, Condition.ofJson?_toJson h, SubqueryTable.ofJson?_toJson,
    SortKeys.ofJson?_toJson]

theorem finite_of_ofJson? {j : Json} {q : Query} (hj : j.Finite) (h : ofJson? j = some q) :
    q.Finite := by
  obtain ⟨r, hr, h⟩ := Option.bind_eq_some_iff.mp h
  obtain ⟨condition, hcondition, h⟩ := Option.bind_eq_some_iff.mp h
  obtain ⟨subqueries, -, h⟩ := Option.bind_eq_some_iff.mp h
  obtain ⟨sortKeys, -, h⟩ := Option.bind_eq_some_iff.mp h
  obtain ⟨result, -, h⟩ := Option.bind_eq_some_iff.mp h
  cases h
  have hfinite : condition.Finite :=
    (hj.record? hr).required? (fun _ _ => Condition.finite_of_ofJson?) hcondition
  exact hfinite

end Query

-- Nothing is lost in a JSON form: what is encoded is decoded again, and so is what was decoded from
-- some JSON value, however that was written.
structure Lossless {α : Type} (encode : α → Json) (decode : Json → Option α) (Finite : α → Prop) :
    Prop where
  decode_encode : ∀ x, Finite x → decode (encode x) = some x
  decode_again : ∀ j x, j.Finite → decode j = some x → decode (encode x) = some x

theorem Lossless.of_finite {α : Type} {encode : α → Json} {decode : Json → Option α}
    {Finite : α → Prop} (hencode : ∀ x, Finite x → decode (encode x) = some x)
    (hdecode : ∀ j x, j.Finite → decode j = some x → Finite x) :
    Lossless encode decode Finite where
  decode_encode := hencode
  decode_again j x hj hx := hencode x (hdecode j x hj hx)

-- Descriptions, conditions, tables of sub-queries and queries lose nothing in their JSON forms, as
-- long as their numbers are finite. The numbers of a JSON value that is read from a text are.
theorem jsonForms_lossless :
    Lossless Description.toJson (Description.ofJson? false) Description.Finite ∧
    Lossless Condition.toJson Condition.ofJson? Condition.Finite ∧
    Lossless SubqueryTable.toJson SubqueryTable.ofJson? (fun _ => True) ∧
    Lossless Query.toJson Query.ofJson? Query.Finite ∧
    ∀ cs j, Json.parse cs = some j → j.Finite := by
  refine ⟨?_, ?_, ?_, ?_, ?_⟩
  · apply Lossless.of_finite
    · intro d hd
      exact Description.ofJson?_toJson hd false
    · intro j d
      exact Description.finite_of_ofJson?
  · apply Lossless.of_finite
    · intro condition
      exact Condition.ofJson?_toJson
    · intro j condition
      exact Condition.finite_of_ofJson?
  · apply Lossless.of_finite
    · intro t _
      exact t.ofJson?_toJson
    · intro j t _ _
      trivial
  · apply Lossless.of_finite
    · intro q
      exact Query.ofJson?_toJson
    · intro j q
      exact Query.finite_of_ofJson?
  · intro cs j
    exact Json.finite_of_parse

-- Minus zero in a test within a union within a branch, a condition that is decoded from a kind given
-- by its place, and arrays: for descriptions, for a page within an object, and for a table.
theorem jsonForms_lossless_zero :
    let test : Test := .compare (.field "age" ⟨"x"⟩) .less (.value (.number ⟨0x8000000000000000⟩))
    let condition : Condition :=
      ⟨.alternatives [.ofPattern [.union [[.filter [test]], []]], .nothing],
        { weak := [.ofPattern [.sortKey ⟨"x"⟩ ⟨"y"⟩]] }⟩
    let j : Json := .object [("kind", .int 1), ("weak", .array [])]
    let parts : Json := .array [.array [.text "thing"], .array [.text "namespace", .int 0],
      .object [("kind", .text "concept"), ("concept", .array [.text "Foo", .int 108])]]
    let d : Description := .conjunction [.thing, .inNamespace 0, .concept ⟨"Foo", 108⟩]
    condition.Finite ∧ Condition.ofJson? condition.toJson = some condition ∧
      j.Finite ∧ Condition.ofJson? j = some .nothing ∧
      Condition.ofJson? Condition.nothing.toJson = some .nothing ∧
      Description.ofJson? false (.array [.text "conjunction", parts]) = some d ∧
      Description.ofJson? false d.toJson = some d ∧
      SubqueryTable.ofJson? (.array [.array []]) = some {} ∧
      SubqueryTable.ofJson? (SubqueryTable.toJson {}) = some {} := by
  intro test condition j parts d
  have hzero : (⟨0x8000000000000000⟩ : Number).isFinite = true := by decide
  have hfilter : Filter.Finite [test] := by
    intro t ht
    rw [List.mem_singleton.mp ht]
    exact ⟨trivial, hzero⟩
  have hunion : Clause.Finite (.union [[.filter [test]], []]) := by
    refine .union ?_
    simpa using Clause.Finite.filter hfilter
  have hfirst : (Condition.ofPattern [.union [[.filter [test]], []]]).Finite :=
    .mk (List.forall_mem_singleton.mpr hunion) nofun nofun
  have hweak : (Condition.ofPattern [.sortKey ⟨"x"⟩ ⟨"y"⟩]).Finite :=
    .mk (List.forall_mem_singleton.mpr (.sortKey ⟨"x"⟩ ⟨"y"⟩)) nofun nofun
  have hnothing : Condition.nothing.Finite := .mk trivial nofun nofun
  have hcondition : condition.Finite := by
    refine .mk trivial ?_ (List.forall_mem_singleton.mpr hweak)
    exact List.forall_mem_cons.mpr ⟨hfirst, List.forall_mem_singleton.mpr hnothing⟩
  have hj : j.Finite := by
    refine .object ?_
    exact List.forall_mem_cons.mpr ⟨.int 1, List.forall_mem_singleton.mpr (.array nofun)⟩
  have hdecode : Condition.ofJson? j = some .nothing := by
    simp [j, Condition.ofJson?, Condition.formOfJson?, Condition.attachmentsOfJson?,
      Condition.listOfJson?, Condition.formKinds, Condition.formKind?, Condition.nothing,
      Json.kind?]
  have hparts : (Json.array [.text "conjunction", parts]).Finite := by
    refine .array (List.forall_mem_cons.mpr ⟨.text _, List.forall_mem_singleton.mpr (.array ?_)⟩)
    refine List.forall_mem_cons.mpr ⟨.array (List.forall_mem_singleton.mpr (.text _)),
      List.forall_mem_cons.mpr ⟨.array ?_, List.forall_mem_singleton.mpr (.object ?_)⟩⟩
    · exact List.forall_mem_cons.mpr ⟨.text _, List.forall_mem_singleton.mpr (.int 0)⟩
    · refine List.forall_mem_cons.mpr ⟨.text _, List.forall_mem_singleton.mpr (.array ?_)⟩
      exact List.forall_mem_cons.mpr ⟨.text _, List.forall_mem_singleton.mpr (.int 108)⟩
  have hthing : Description.ofJson? true (.array [.text "thing"]) = some .thing :=
    (Description.ofJson?_array true .thing [] (by decide)).trans
      (Description.ofJson?_toJson .thing true)
  have hnamespace : Description.ofJson? true (.array [.text "namespace", .int 0]) =
      some (.inNamespace 0) :=
    (Description.ofJson?_array true .inNamespace [.int 0] (by decide)).trans
      (Description.ofJson?_toJson (.inNamespace 0) true)
  have hconcept : Description.ofJson? true (.object [("kind", .text "concept"),
      ("concept", .array [.text "Foo", .int 108])]) = some (.concept ⟨"Foo", 108⟩) := by
    show Description.ofJson? true (Description.tagged .concept [_]) = _
    rw [Description.ofJson?,
      Option.attach_eq_some _ ⟨_, Description.variant?_tagged rfl true .concept⟩]
    rfl
  have hdescription : Description.ofJson? false (.array [.text "conjunction", parts]) = some d := by
    refine (Description.ofJson?_array false .conjunction [parts] (by decide)).trans ?_
    rw [Description.ofJson?,
      Option.attach_eq_some _ ⟨_, Description.variant?_tagged rfl false .conjunction⟩]
    show (Description.listOfJson? _ >>= fun parts => some (Description.conjunction parts)) = _
    rw [Description.listOfJson?_eq, List.mapM_cons, hthing, List.mapM_cons, hnamespace,
      List.mapM_cons, hconcept]
    rfl
  obtain ⟨hdescriptions, hconditions, htables, -⟩ := jsonForms_lossless
  exact ⟨hcondition, hconditions.decode_encode condition hcondition, hj, hdecode,
    hconditions.decode_again j _ hj hdecode, hdescription,
    hdescriptions.decode_again _ _ hparts hdescription, rfl, htables.decode_encode {} trivial⟩

end WikiQuery
