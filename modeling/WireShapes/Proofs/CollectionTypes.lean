import WireShapes.Proofs.Symbols

/-!
# Types of collections

Resolution gives symbols to all shapes or to none.  They solve one equation for each shape, which no
other symbols solve where there is no endless way through collections; the equations do not know in
which order shapes were declared (`SymbolMap.ofModel_resolves`).
-/

namespace WireShapes

/-- Every shape of a model has its symbol by those of the table, and nothing else has one. -/
def SymbolMap.Solves (t : SymbolMap) (m : Model) : Prop :=
  (∀ name, (t.shape? name).isSome = (m.shape? name).isSome) ∧
    ∀ name, t.shape? name = (m.shape? name).bind fun shape ↦ shape.form.symbol? name t.reference?

/-! ## Tables of symbols -/

namespace SymbolMap

variable {m : Model} {t : SymbolMap} {name : String} {symbol : Symbol}

theorem ofModel_error {error : GenerateError} (hreferences : m.firstUnknown? = none)
    (h : ofModel m = .error error) :
    ∃ name, error = .anonymousCycle name ∧ m.CollectionCycle name := by
  obtain ⟨_, -, hmodel, -⟩ := exists_done hreferences
  rw [hmodel] at h
  obtain ⟨name, hname, herror⟩ := Failing.exists_of_mapM_error (Failing.map_eq_error.mp h)
  obtain ⟨other, hother, hcycle, -⟩ := Model.collectionCycle_of_resolve_error hreferences
    (.start (Model.known_iff.mpr hname)) herror
  exact ⟨other, hother, hcycle⟩

theorem solves_ofModel (h : ofModel m = .ok t) : t.Solves m := by
  refine ⟨isSome_shape?_ofModel h, fun name ↦ ?_⟩
  cases hshape : m.shape? name with
  | none =>
    have hnone := isSome_shape?_ofModel h name
    rw [hshape] at hnone
    exact Option.not_isSome_iff_eq_none.mp (by simp [hnone])
  | some shape =>
    obtain ⟨symbol, hsymbol, hresolve⟩ := exists_resolve h (Option.isSome_of_eq_some hshape)
    have hstep := Model.toOption_resolve_succ m m.shapes.size [] name
    rw [hresolve, hshape] at hstep
    simp only [Except.toOption, Option.bind_some, List.not_mem_nil, and_false, if_false] at hstep
    rw [hsymbol, Option.bind_some, hstep]
    refine Form.symbol?_congr fun hform slot ref href ↦ ?_
    have hinner := Form.symbol?_isSome (by rw [← hstep]; rfl) hform href
    rw [Model.resolved?, Option.isSome_map, Option.isSome_iff_exists] at hinner
    obtain ⟨inner, hinner⟩ := hinner
    have htarget := Model.known_of_firstUnknown? (firstUnknown?_of_ofModel h) hshape href
    obtain ⟨found, hfound, hresolved⟩ := exists_resolve h htarget
    obtain rfl := Model.resolve_unique (Failing.toOption_eq_some.mp hinner) hresolved
    rw [Model.resolved?, hinner, reference?, hfound]

theorem acc_of_ofModel (h : ofModel m = .ok t) (name : String) :
    Acc (fun b a ↦ m.Collects a b) name := by
  by_cases hname : m.Known name
  · obtain ⟨symbol, -, hresolve⟩ := exists_resolve h hname
    exact Model.acc_of_resolve hresolve
  · refine ⟨_, ?_⟩
    rintro _ ⟨shape, slot, ref, hshape, -⟩
    exact absurd (Option.isSome_of_eq_some hshape) hname

/-- Where no way through collections is endless, only one table solves a model. -/
theorem Solves.unique {t' : SymbolMap} (h : t.Solves m) (h' : t'.Solves m)
    (hacc : Acc (fun b a ↦ m.Collects a b) name) : t.shape? name = t'.shape? name := by
  induction hacc with
  | intro name _ ih =>
    rw [h.2, h'.2]
    cases hshape : m.shape? name with
    | none => rfl
    | some shape =>
      refine Form.symbol?_congr fun hform slot ref href ↦ ?_
      rw [reference?, reference?, ih ref.target ⟨shape, slot, ref, hshape, hform, href, rfl⟩]

/-- The symbol of a reference has the type of its target, in a box just if the reference is
indirect, and the class of its target. -/
theorem Solves.reference? (h : t.Solves m) {ref : Reference}
    (hsymbol : t.shape? ref.target = some symbol) :
    t.reference? ref = some ⟨if ref.indirect then .boxed symbol.type else symbol.type,
      symbol.shapeClass, ref.indirect⟩ := by
  have hequation := hsymbol
  rw [h.2] at hequation
  obtain ⟨shape, -, hshape⟩ := Option.bind_eq_some_iff.mp hequation
  have hplain := Form.isBoxed_of_symbol? hshape
  rw [SymbolMap.reference?, hsymbol, Option.map_some, Symbol.forReference]
  obtain ⟨type, shapeClass, isBoxed⟩ := symbol
  obtain rfl : isBoxed = false := hplain
  cases ref.indirect <;> rfl

theorem exists_ofModel_iff (hreferences : m.firstUnknown? = none) :
    (∃ t, ofModel m = .ok t) ↔ ¬ ∃ name, m.CollectionCycle name := by
  constructor
  · rintro ⟨t, ht⟩ ⟨name, hcycle⟩
    obtain ⟨next, ⟨shape, slot, ref, hshape, -⟩, -⟩ := Relation.TransGen.head'_iff.mp hcycle
    obtain ⟨symbol, -, hresolve⟩ := exists_resolve ht (Option.isSome_of_eq_some hshape)
    exact Model.not_collectionCycle_of_acc (Model.acc_of_resolve hresolve) hcycle
  · intro hacyclic
    cases ht : ofModel m with
    | ok t => exact ⟨t, rfl⟩
    | error error =>
      obtain ⟨name, -, hcycle⟩ := ofModel_error hreferences ht
      exact absurd ⟨name, hcycle⟩ hacyclic

/-- A model in another order has the same symbols. -/
theorem exists_ofModel_of_perm {m' : Model} (hperm : m'.shapes.entries.Perm m.shapes.entries)
    (hnodup : m.shapes.keys.Nodup) (h : ofModel m = .ok t) :
    ∃ t', ofModel m' = .ok t' ∧ t'.shape? = t.shape? := by
  have hnodup' : m'.shapes.keys.Nodup := (hperm.map Prod.fst).nodup_iff.mpr hnodup
  have hshape (name : String) : m'.shape? name = m.shape? name := by
    ext shape
    calc
      m'.shape? name = some shape ↔ (name, shape) ∈ m'.shapes.entries :=
        Table.lookup_eq_some_iff_mem hnodup'
      _ ↔ (name, shape) ∈ m.shapes.entries := hperm.mem_iff
      _ ↔ m.shape? name = some shape := (Table.lookup_eq_some_iff_mem hnodup).symm
  have hreferences : m'.firstUnknown? = none := by
    refine List.find?_eq_none.mpr fun ref href ↦ ?_
    rw [hshape]
    refine List.find?_eq_none.mp (firstUnknown?_of_ofModel h) ref ?_
    exact ((hperm.map Prod.snd).flatMap_right _).mem_iff.mp href
  have hcollects : m'.Collects = m.Collects := by
    funext a b
    simp only [Model.Collects, hshape]
  have hacyclic : ¬ ∃ name, m'.CollectionCycle name := by
    simp only [Model.CollectionCycle, hcollects]
    exact (exists_ofModel_iff (firstUnknown?_of_ofModel h)).mp ⟨t, h⟩
  obtain ⟨t', ht'⟩ := (exists_ofModel_iff hreferences).mpr hacyclic
  have hsolves : t'.Solves m := by
    have hsolves' := solves_ofModel ht'
    simp only [Solves, hshape] at hsolves'
    exact hsolves'
  exact ⟨t', ht', funext fun name ↦ hsolves.unique (solves_ofModel h) (acc_of_ofModel h name)⟩

/-- Resolution of a model, whatever the marks of its references.  The first reference in model order
to a shape that is not there is reported.  Otherwise one resolver for all shapes, with what is done
and the collections that it is inside of, comes to what the plain recursion comes to that resolves
every shape anew.  There are symbols exactly if no references lead through lists and maps only back
to where they started, and a shape where they do is reported.  The symbols are one for every shape,
and the only ones that solve the equations of the shapes; they do not depend on the order of
declarations. -/
theorem ofModel_resolves (m : Model) :
    match m.firstUnknown? with
    | some (shape, target) => ofModel m = .error (.unknownShape shape target)
    | none =>
      shape? <$> ofModel m =
        (fun _ name ↦ (m.resolve (m.shapes.size + 1) [] name).toOption) <$>
          m.resolveAnew m.shapes.keys ∧
      ((∃ t, ofModel m = .ok t) ↔ ¬ ∃ name, m.CollectionCycle name) ∧
      (∀ error, ofModel m = .error error →
        ∃ name, error = .anonymousCycle name ∧ m.CollectionCycle name) ∧
      ∀ t, ofModel m = .ok t →
        t.symbols.keys.Nodup ∧ (∀ name, name ∈ t.symbols.keys ↔ name ∈ m.shapes.keys) ∧
        t.Solves m ∧
        (∀ t' : SymbolMap, t'.Solves m → t'.shape? = t.shape?) ∧
        (∀ ref symbol, t.shape? ref.target = some symbol →
          t.reference? ref = some ⟨if ref.indirect then .boxed symbol.type else symbol.type,
            symbol.shapeClass, ref.indirect⟩) ∧
        ∀ m' : Model, m'.shapes.entries.Perm m.shapes.entries → m.shapes.keys.Nodup →
          ∃ t', ofModel m' = .ok t' ∧ t'.shape? = t.shape? := by
  cases hreferences : m.firstUnknown? with
  | some unknown => exact ofModel_of_unknown hreferences
  | none =>
    refine ⟨shape?_ofModel hreferences, exists_ofModel_iff hreferences,
      fun error ↦ ofModel_error hreferences, fun t ht ↦ ?_⟩
    have hsolves := solves_ofModel ht
    refine ⟨keys_nodup ht, fun name ↦ mem_keys_iff ht, hsolves, fun t' hsolves' ↦ ?_,
      fun ref symbol ↦ hsolves.reference?, fun m' hperm hnodup ↦ ?_⟩
    · funext name
      exact hsolves'.unique hsolves (acc_of_ofModel ht name)
    · exact exists_ofModel_of_perm hperm hnodup ht

/-! ### Nodes in a list, and a list and a map of each other -/

/-- Nodes that hold a list of nodes, by a reference that is marked. -/
def nestedModel : Model := .ofShapes [
  { name := "Node", form := .struct [{ name := "children", target := .to "Nodes" }] },
  { name := "Nodes", form := .list { target := ⟨"Node", true⟩ } }] []

/-- A list of maps whose values are such lists. -/
def loopedModel : Model := .ofShapes [
  { name := "Outer", form := .list { target := .to "Inner" } },
  { name := "Inner", form := .map { target := .to "String" } { target := ⟨"Outer", true⟩ } }] []

/-- A structure breaks a cycle, a mark does not. -/
theorem nested_and_looped_resolve :
    (∃ t, ofModel nestedModel = .ok t ∧ t.Solves nestedModel ∧ t.reference? (.to "Nodes") =
      some ⟨.vec (.boxed (.named "Node")), .collection, false⟩) ∧
    ∃ name, ofModel loopedModel = .error (.anonymousCycle name) ∧
      loopedModel.CollectionCycle name := by
  constructor
  · have hresolves := ofModel_resolves nestedModel
    have hreferences : nestedModel.firstUnknown? = none := by decide +kernel
    rw [hreferences] at hresolves
    have hfound : (ofModel nestedModel).toOption.bind (fun t ↦ t.shape? "Nodes") =
        some ⟨.vec (.boxed (.named "Node")), .collection, false⟩ := by decide +kernel
    obtain ⟨t, ht, hnodes⟩ := Option.bind_eq_some_iff.mp hfound
    have ht := Failing.toOption_eq_some.mp ht
    obtain ⟨-, -, -, hall⟩ := hresolves
    obtain ⟨-, -, hsolves, -, hreference, -⟩ := hall t ht
    exact ⟨t, ht, hsolves, hreference (.to "Nodes") _ hnodes⟩
  · have hresolves := ofModel_resolves loopedModel
    have hreferences : loopedModel.firstUnknown? = none := by decide +kernel
    rw [hreferences] at hresolves
    have hfails : (ofModel loopedModel).toOption.isSome = false := by decide +kernel
    cases ht : ofModel loopedModel with
    | ok t => simp [ht, Except.toOption] at hfails
    | error error =>
      obtain ⟨-, -, hcycles, -⟩ := hresolves
      obtain ⟨name, rfl, hcycle⟩ := hcycles error ht
      exact ⟨name, rfl, hcycle⟩

end SymbolMap

end WireShapes
