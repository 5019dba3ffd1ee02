import WireShapes.Proofs.Typing

/-!
# Decoders and builders have types

Whatever a decoder puts somewhere fits there (`Bindings.decoders_fill`).  Here the functions that
decoders are written as are typed by that, phrase by phrase, and so are the methods of builders that
they call.  A collection is added to where it is: the method is looked up through the reference to
the field and through the box, if there is one.  The main statement is `Bindings.boxes_agree`.
-/

namespace WireShapes

open Code (Ident Ty Expr Stmt Arm Decl Part Scope Typed AllTyped BodyTyped ArmsTyped Binds
  LibraryMethod Derefs HasDefault HasVariant HasField elementType startType textType unitType
  decodeError)

namespace Bindings

variable {code : List Decl} {scope : Scope} {type : Ty}

/-! ## Values -/

theorem typed_boxNew {value : Expr} (h : Typed code scope value type) :
    Typed code scope (boxNew value) (boxOf type) :=
  .library (.box type) (.cons h .nil)

/-- What is in a box has no type but that of a box. -/
theorem typed_boxNew_iff {value : Expr} : Typed code scope (boxNew value) type ↔
    ∃ inner, type = boxOf inner ∧ Typed code scope value inner := by
  refine ⟨fun h ↦ ?_, ?_⟩
  · generalize he : boxNew value = expr at h
    cases h with
    | library hcall hall =>
      obtain ⟨hpath, rfl, -⟩ := Expr.call.inj he
      have hbox := Expr.path.inj hpath
      obtain - | ⟨htyped, - | -⟩ := hall
      cases hcall with
      | box => exact ⟨_, rfl, htyped⟩
      | _ => simp [std, Code.Path.global, Code.Path.single] at hbox
    | _ =>
      simp [boxNew, Expr.applyPath, Expr.apply, Expr.name, Expr.none, std, Code.Path.global,
        Code.Path.single, Code.Path.member] at he
  · rintro ⟨inner, rfl, h⟩
    exact typed_boxNew h

theorem typed_some {value : Expr} (h : Typed code scope value type) :
    Typed code scope (.some value) (optionOf type) :=
  .library (.some type) (.cons h .nil)

theorem typed_ok {value : Expr} (h : Typed code scope value type) :
    Typed code scope (.ok value) (decoded type) :=
  .library (.ok type decodeError) (.cons h .nil)

theorem typed_tagText (htag : scope.lookup "tag" = some elementType) :
    Typed code scope tagText stringType :=
  .attempt (.inl rfl) (.libraryMethod (.name htag) (.self _) .readText .nil)

theorem typed_readScalar {text : Expr} (kind : Scalar.Kind) (h : Typed code scope text textType) :
    Typed code scope (readScalar kind text) (kindType kind) :=
  .attempt (.inl rfl) (.parsed kind h)

/-- A call of a function that is handed the element at hand. -/
theorem typed_decode {decoder : Ident} (h : HasFn code decoder [decoderParameter] (decoded type))
    (htag : scope.lookup "tag" = some elementType) :
    Typed code scope (.attempt (.applyPath (.single decoder.toText) [tagArgument])) type :=
  .attempt (.inl rfl) (.function h (.cons (.reference true (.name htag)) .nil))

/-- What has a type by the declarations that it calls has it by the rules, with the element at
hand. -/
theorem HasType.typed_ofElement {source : Source} (h : HasType code source.ofElement type)
    (htag : scope.lookup "tag" = some elementType) : Typed code scope source.ofElement type := by
  generalize he : source.ofElement = expr at h
  cases h with
  | elementText => exact typed_tagText htag
  | attributeText =>
    rcases source with (_ | _ | _) | _ | _ <;>
      simp [Source.ofElement, TextSource.ofElement, tagText, readScalar, Expr.applyPath,
        Expr.apply] at he
  | scalar kind text =>
    obtain rfl : text = .reference false tagText := by
      rcases source with (_ | _ | _) | _ | _ <;>
        simp_all [Source.ofElement, TextSource.ofElement, tagText, readScalar, Expr.applyPath,
          Expr.apply]
    exact typed_readScalar kind (.borrowed (typed_tagText htag))
  | converted text hfrom =>
    obtain rfl : text = .method tagText "as_str" [] := by
      rcases source with (_ | _ | _) | _ | _ <;>
        simp_all [Source.ofElement, TextSource.ofElement, tagText, readScalar, Expr.applyPath,
          Expr.apply]
    exact .converted hfrom (.libraryMethod (typed_tagText htag) (.self _) .asText .nil)
  | built hfill hstart hfinish =>
    have hbuilder := Typed.attempt (.inl rfl) (.function hfill
      (.cons (.reference true (.name htag)) (.cons (.start hstart) .nil)))
    refine .attempt (.inr rfl) (.method hbuilder hfinish (.other ?_) .nil)
    simp [resultOf, selfType, Ty.named, Ty.plain]
  | decoded hdecode => exact typed_decode hdecode htag

theorem HasType.typed_ofAttribute {source : TextSource} (h : HasType code source.ofAttribute type)
    (hvalue : scope.lookup "value" = some textType) :
    Typed code scope source.ofAttribute type := by
  generalize he : source.ofAttribute = expr at h
  cases h with
  | attributeText =>
    exact .libraryMethod (.name hvalue) (.reference (.self _)) .toOwned .nil
  | scalar kind text =>
    obtain rfl : text = .name "value" := by
      rcases source with _ | _ | _ <;>
        simp_all [TextSource.ofAttribute, readScalar, Expr.applyPath, Expr.apply]
    exact typed_readScalar kind (.name hvalue)
  | converted text hfrom =>
    obtain rfl : text = .name "value" := by
      rcases source with _ | _ | _ <;>
        simp_all [TextSource.ofAttribute, readScalar, Expr.applyPath, Expr.apply]
    exact .converted hfrom (.name hvalue)
  | _ =>
    rcases source with _ | _ | _ <;>
      simp [TextSource.ofAttribute, tagText, readScalar, Source.ofElement, Expr.applyPath,
        Expr.apply, Expr.name] at he

/-- A value that fits a place has the type of the place, if what is in the box has one. -/
theorem Fits.typed {σ : Type} {value : Boxing σ} {expr : σ → Expr} {indirect : Bool}
    (h : Fits code indirect (inBox value expr) type)
    (hplain : ∀ inner, expr value.source ≠ boxNew inner)
    (htyped : ∀ plain, HasType code (expr value.source) plain →
      Typed code scope (expr value.source) plain) :
    Typed code scope (inBox value expr) type := by
  obtain ⟨inner, plain, hinner, hvalue, rfl⟩ := h.inside
  have hinBox : inBox value expr =
      if value.boxed then boxNew (expr value.source) else expr value.source := rfl
  rw [hinBox] at hvalue ⊢
  cases hboxed : value.boxed <;> cases indirect
  · obtain rfl : expr value.source = inner := by simpa [hboxed] using hvalue
    exact htyped plain hinner
  · exact absurd (by simpa [hboxed] using hvalue) (hplain inner)
  · have hboxes := h.value_boxed.mp ⟨expr value.source, by simp [hinBox, hboxed]⟩
    cases hboxes
  · obtain rfl : expr value.source = inner := by
      simpa [hboxed, boxNew, Expr.applyPath, Expr.apply] using hvalue
    exact typed_boxNew (htyped plain hinner)

theorem Fits.typed_ofElement {value : Boxing Source} {indirect : Bool}
    (h : Fits code indirect (inBox value Source.ofElement) type)
    (htag : scope.lookup "tag" = some elementType) :
    Typed code scope (inBox value Source.ofElement) type :=
  h.typed value.source.ofElement_ne_boxNew fun _ hplain ↦ hplain.typed_ofElement htag

theorem Fits.typed_ofText {value : Boxing TextSource} {indirect : Bool}
    (h : Fits code indirect (inBox value TextSource.ofElement) type)
    (htag : scope.lookup "tag" = some elementType) :
    Typed code scope (inBox value TextSource.ofElement) type :=
  h.typed value.source.ofElement_ne_boxNew fun plain
    (hplain : HasType code (Source.text value.source).ofElement plain) ↦
      hplain.typed_ofElement htag

theorem Fits.typed_ofAttribute {value : Boxing TextSource} {indirect : Bool}
    (h : Fits code indirect (inBox value TextSource.ofAttribute) type)
    (hvalue : scope.lookup "value" = some textType) :
    Typed code scope (inBox value TextSource.ofAttribute) type :=
  h.typed value.source.ofAttribute_ne_boxNew fun _ hplain ↦ hplain.typed_ofAttribute hvalue

/-! ## Children -/

/-- The scope for a child whose name a pattern matches. -/
def childScope (scope : Scope) : Scope :=
  ("s", .to startType) :: ("tag", elementType) :: scope

/-- Arms for the children of an element have types, with the arm that passes over the others. -/
def ChildArms (code : List Decl) (scope : Scope) (arms : List Arm) : Prop :=
  ArmsTyped code (("tag", elementType) :: scope) (arms ++ [.mk (.name "_") none (.block [])])
    (.to startType) unitType

namespace ChildArms

theorem nil : ChildArms code scope [] := .free (.any _) (.block .nil) .nil

theorem cons {pattern : String} {body : List Stmt} {rest : List Arm}
    (h : BodyTyped code (childScope scope) body unitType) (hrest : ChildArms code scope rest) :
    ChildArms code scope (matchingArm pattern body :: rest) := by
  have hname : "s" ≠ "_" ∧ "s" ≠ "None" := by decide
  refine .guarded (.name hname _) ?_ (.block h) hrest
  exact .libraryMethod (.name List.lookup_cons_self) (.reference (.self _)) .isMatched
    (.cons (.text pattern) .nil)

theorem map {α : Type} {arms : List α} {pattern : α → String} {body : α → List Stmt}
    (h : ∀ arm ∈ arms, BodyTyped code (childScope scope) (body arm) unitType) :
    ChildArms code scope (arms.map fun arm ↦ matchingArm (pattern arm) (body arm)) := by
  induction arms with
  | nil => exact nil
  | cons arm rest ih =>
    exact cons (h arm List.mem_cons_self)
      (ih fun other hother ↦ h other (List.mem_cons_of_mem _ hother))

end ChildArms

/-- The type of what a decoder decodes from. -/
def decoderType : Ty := .reference none true elementType

theorem bodyTyped_walk {arms : List Arm} {rest : List Stmt} (harms : ChildArms code scope arms)
    (hdecoder : scope.lookup "decoder" = some decoderType) (hmore : rest ≠ [])
    (hrest : BodyTyped code scope rest type) : BodyTyped code scope (walk arms :: rest) type := by
  have hnext : Typed code scope (.attempt (.method (.name "decoder") "next_tag" []))
      (optionOf elementType) :=
    .attempt (.inl rfl) (.libraryMethod (.name hdecoder) (.reference (.self _)) .nextTag .nil)
  have hstart : Typed code (("tag", elementType) :: scope)
      (.method (.name "tag") "start_el" []) (.to startType) :=
    .libraryMethod (.name List.lookup_cons_self) (.self _) .startEl .nil
  exact .give (.whileLet hnext (.some (.mutable "tag" elementType)) (.last (.cases hstart harms)))
    hmore hrest

theorem bodyTyped_walkOrSkip {arms : List Arm} {rest : List Stmt}
    (harms : ChildArms code scope arms) (hdecoder : scope.lookup "decoder" = some decoderType)
    (hmore : rest ≠ []) (hrest : BodyTyped code scope rest type) :
    BodyTyped code scope (walkOrSkip arms :: rest) type := by
  rw [walkOrSkip]
  split
  · exact .run (.attempt (.inl rfl)
      (.libraryMethod (.name hdecoder) (.reference (.self _)) .skip .nil)) hrest
  · exact bodyTyped_walk harms hdecoder hmore hrest

/-- The entry of a map is taken apart. -/
theorem bodyTyped_bindEntry {b : Bindings} {d : MapDecoder} (hmade : .map d ∈ b.decoders)
    (htag : scope.lookup "tag" = some elementType) {rest : List Stmt}
    (hrest : BodyTyped b.code (("key", d.keyType.tree) :: ("value", d.valueType.tree) :: scope) rest
      type) :
    BodyTyped b.code scope (bindEntry d.entryIdent :: rest) type := by
  have hentry : HasFn b.code d.entryIdent [decoderParameter]
      (decoded (.tuple [d.keyType.tree, d.valueType.tree])) :=
    hasFn_of_decoderFn hmade (List.mem_cons_of_mem _ List.mem_cons_self)
  exact .bind (.inl rfl) (typed_decode hentry htag)
    (.pair (.name (by decide) _) (.name (by decide) _)) hrest

/-! ## Structures -/

section Structures

variable {m : Model} {b : Bindings} {member : Member} {decl : StructDecl} {field : Field}

/-- The methods of fields are implemented for the builder. -/
theorem implements_fieldMethod (hdecl : .struct decl ∈ b.types) (hfield : field ∈ decl.fields)
    {fn : Code.Fn} (hfn : .fn fn ∈ field.methods) :
    Implements b.code none decl.builder fn.name fn.parameters fn.result := by
  refine ⟨decl.fields.flatMap Field.methods ++ [decl.finish], fn, mem_code_of_mem_types hdecl ?_,
    List.mem_append_left _ (List.mem_flatMap.mpr ⟨field, hfield, hfn⟩), rfl, rfl, rfl⟩
  simp [TypeDecl.code, StructDecl.code, StructDecl.builderType]

theorem bodyTyped_changeBuilder {builder method : Ident} {arguments : List Expr}
    {parameters : List Code.Parameter}
    (himplements : Implements code none builder method.toText
      (.receiver .changing :: parameters) selfType)
    (hbuilder : scope.lookup "builder" = some (.named builder.toText))
    (h : AllTyped code scope arguments (parameters.filterMap Code.Parameter.type?)) :
    BodyTyped code scope [changeBuilder method arguments] unitType :=
  .run (.assign (.name hbuilder) (.method (.name hbuilder) himplements .self h)) .nil

variable (hdecl : .struct decl ∈ b.types) (hfield : field ∈ decl.fields)

include hdecl hfield

theorem implements_setter :
    Implements b.code none decl.builder field.setter.toText
      [.receiver .changing, .typed false "value" (optionOf field.type.tree)] selfType :=
  implements_fieldMethod hdecl hfield (List.mem_append_left _ (List.mem_cons_of_mem _
    List.mem_cons_self))

theorem implements_push {method : Ident} {item : TypeExpr}
    (hadder : field.adder = some (.push method item)) :
    Implements b.code none decl.builder method.toText
      [.receiver .changing, .typed false "item" item.tree] selfType :=
  implements_fieldMethod hdecl hfield (List.mem_append_right _ (by
    simp only [hadder, Option.toList_some, List.map_cons]
    exact List.mem_cons_self))

theorem implements_insert {method : Ident} {key value : TypeExpr}
    (hadder : field.adder = some (.insert method key value)) :
    Implements b.code none decl.builder method.toText
      [.receiver .changing, .typed false "key" key.tree, .typed false "value" value.tree]
      selfType :=
  implements_fieldMethod hdecl hfield (List.mem_append_right _ (by
    simp only [hadder, Option.toList_some, List.map_cons]
    exact List.mem_cons_self))

/-- What a child gives goes to the builder by a method that takes it. -/
theorem StructAction.Fills.bodyTyped {action : StructAction} (h : action.Fills m b member field)
    (hbuilder : scope.lookup "builder" = some (.named decl.builder.toText)) :
    BodyTyped b.code (childScope scope) action.code unitType := by
  cases action with
  | set setter value =>
    obtain ⟨rfl, hfits⟩ := h
    have hset : BodyTyped b.code (("value", field.type.tree) :: childScope scope)
        [changeBuilder field.setter [.some (.name "value")]] unitType :=
      bodyTyped_changeBuilder (implements_setter hdecl hfield) hbuilder
        (.cons (typed_some (.name rfl)) .nil)
    exact .bind (.inl rfl) (hfits.typed_ofElement rfl) (.name (by decide) _) hset
  | push method item =>
    obtain ⟨itemType, hadder, target, listItem, -, -, -, hfits⟩ := h
    have hpush : BodyTyped b.code (("item", itemType.tree) :: childScope scope)
        [changeBuilder method [.name "item"]] unitType :=
      bodyTyped_changeBuilder (implements_push hdecl hfield hadder) hbuilder
        (.cons (.name rfl) .nil)
    exact .bind (.inl rfl) (hfits.typed_ofElement rfl) (.name (by decide) _) hpush
  | insert method entry =>
    obtain ⟨d, hadder, hmade, rfl, -⟩ := h
    have hinsert : BodyTyped b.code
        (("key", d.keyType.tree) :: ("value", d.valueType.tree) :: childScope scope)
          [changeBuilder method [.name "key", .name "value"]] unitType :=
      bodyTyped_changeBuilder (implements_insert hdecl hfield hadder) hbuilder
        (.cons (.name rfl) (.cons (.name rfl) .nil))
    exact bodyTyped_bindEntry hmade rfl hinsert

/-- An attribute goes to the builder by the setter of its field. -/
theorem typed_attribute {arm : AttributeArm} {indirect : Bool} (hsetter : arm.setter = field.setter)
    (hfits : Fits b.code indirect (inBox arm.value TextSource.ofAttribute) field.type.tree)
    (hdecoder : scope.lookup "decoder" = some decoderType)
    (hbuilder : scope.lookup "builder" = some (.named decl.builder.toText)) {rest : List Stmt}
    (hmore : rest ≠ []) (hrest : BodyTyped b.code scope rest type) :
    BodyTyped b.code scope (arm.code :: rest) type := by
  have hfound : Typed b.code scope (.method (.method (.name "decoder") "start_el" []) "attr"
      [.text arm.pattern]) (optionOf textType) :=
    .libraryMethod (.libraryMethod (.name hdecoder) (.reference (.self _)) .startEl .nil)
      (.reference (.self _)) .attr (.cons (.text _) .nil)
  have hset : BodyTyped b.code (("value", textType) :: scope)
      [changeBuilder arm.setter [.some (inBox arm.value TextSource.ofAttribute)]] unitType :=
    bodyTyped_changeBuilder (hsetter ▸ implements_setter hdecl hfield) hbuilder
      (.cons (typed_some (hfits.typed_ofAttribute List.lookup_cons_self)) .nil)
  exact .give (.ifLet hfound (.some (.name (by decide) _)) hset) hmore hrest

end Structures

section Decoders

variable {m : Model} {b : Bindings} {shape : Shape}

theorem structDecoder_typed {d : StructDecoder} (h : (DecoderDecl.struct d).Fills m b shape)
    {fn : Code.Fn} (hfn : .fn fn ∈ d.code) : fn.Typed b.code := by
  obtain ⟨decl, hdecl, hbuilder, hattributes, harms⟩ := h
  obtain rfl := Decl.fn.inj (List.mem_singleton.mp hfn)
  let scope : Scope := [("decoder", decoderType), ("builder", .named d.builder.toText)]
  have hknown : scope.lookup "builder" = some (.named decl.builder.toText) := by rw [hbuilder]; rfl
  have hwalk : BodyTyped b.code scope
      [walkOrSkip (d.arms.map fun arm ↦ matchingArm arm.pattern arm.action.code),
        .give (.ok (.name "builder"))] (decoded (.named d.builder.toText)) := by
    refine bodyTyped_walkOrSkip (.map fun arm harm ↦ ?_) rfl (List.cons_ne_nil _ _)
      (.last (typed_ok (.name rfl)))
    obtain ⟨member, -, field, hfield, -, -, hfills⟩ := harms arm harm
    exact hfills.bodyTyped hdecl hfield hknown
  have hbody (arms : List AttributeArm) (hsubset : arms ⊆ d.attributes) :
      BodyTyped b.code scope (arms.map AttributeArm.code ++
        [walkOrSkip (d.arms.map fun arm ↦ matchingArm arm.pattern arm.action.code),
          .give (.ok (.name "builder"))]) (decoded (.named d.builder.toText)) := by
    induction arms with
    | nil => exact hwalk
    | cons arm rest ih =>
      obtain ⟨harm, hrest⟩ := List.cons_subset.mp hsubset
      obtain ⟨member, -, field, hfield, -, -, hsetter, hfits⟩ := hattributes arm harm
      exact typed_attribute hdecl hfield hsetter hfits rfl hknown (by simp) (ih hrest)
  exact hbody d.attributes (List.Subset.refl _)

/-! ## Unions -/

section Unions

variable {decl : UnionDecl} {case : UnionCase}

theorem hasVariant_case (hdecl : .union decl ∈ b.types) (hcase : case ∈ decl.cases) :
    HasVariant b.code decl.ident case.variant.toText (some case.type.tree) :=
  ⟨_, _, docLines case.doc, mem_code_of_mem_types hdecl List.mem_cons_self,
    List.mem_append_left _ (List.mem_map.mpr ⟨case, hcase, rfl⟩)⟩

theorem hasVariant_unknown (hdecl : .union decl ∈ b.types) :
    HasVariant b.code decl.ident "Unknown" none :=
  ⟨_, _, _, mem_code_of_mem_types hdecl List.mem_cons_self,
    List.mem_append_right _ (List.mem_singleton_self _)⟩

variable {union : Ident} {variant : String} {payload : Ty}
  (hvariant : HasVariant code union variant (some payload))
  (hbase : scope.lookup "base" = some (optionOf (.named union.toText)))

include hvariant hbase

/-- A variant is put into the union with a payload of its type. -/
theorem bodyTyped_putVariant {name : String} (hname : scope.lookup name = some payload) :
    BodyTyped code scope [putVariant (.member union.toText variant) name] unitType :=
  .run (.assign (.name hbase) (typed_some (.variant hvariant (.name hname)))) .nil

/-- What a variant has gathered is of its type, or the default of that. -/
theorem bodyTyped_takeGathered (hdefaults : HasDefault payload) {rest : List Stmt}
    (hrest : BodyTyped code (("acc", payload) :: scope) rest type) :
    BodyTyped code scope (takeGathered (.member union.toText variant) :: rest) type := by
  have htake : Typed code scope (.method (.name "base") "take" [])
      (optionOf (.named union.toText)) :=
    .libraryMethod (.name hbase) (.self _) (.take _) .nil
  have hfound : Binds code (.variant (.single "Some")
      [.variant (.member union.toText variant) [.name "acc"]]) (optionOf (.named union.toText))
        [("acc", payload)] := .some (.variant hvariant (.name (by decide) _))
  exact .bind (.inl rfl) (.cases htake (.free hfound (.name rfl)
    (.free (.any _) (.library (.default hdefaults) .nil) .nil))) (.mutable _ _) hrest

end Unions

/-- A collection in a box or without one has a default, and its methods are found. -/
theorem hasDefault_behind {collection : TypeExpr} (indirect : Bool)
    (h : HasDefault collection.tree) : HasDefault (collection.behind indirect).tree := by
  cases indirect
  · exact h
  · exact .box h

theorem derefs_behind (collection : TypeExpr) (indirect : Bool) :
    Derefs (collection.behind indirect).tree collection.tree := by
  cases indirect
  · exact .self _
  · exact .box (.self _)

/-- What a child gives goes to the variant of the member. -/
theorem UnionAction.Fills.bodyTyped {action : UnionAction} {member : Member} {type : TypeExpr}
    {union : Ident} {variant : String} (h : action.Fills m b member type)
    (hvariant : HasVariant b.code union variant (some type.tree))
    (hbase : scope.lookup "base" = some (optionOf (.named union.toText))) :
    BodyTyped b.code (childScope scope) (action.code (.member union.toText variant)) unitType := by
  have hchild : (childScope scope).lookup "base" = some (optionOf (.named union.toText)) := hbase
  cases action with
  | set value =>
    have hput : BodyTyped b.code (("value", type.tree) :: childScope scope)
        [putVariant (.member union.toText variant) "value"] unitType :=
      bodyTyped_putVariant hvariant (by exact hbase) rfl
    exact .bind (.inl rfl) (Fits.typed_ofElement h rfl) (.name (by decide) _) hput
  | push item =>
    obtain ⟨itemType, target, listItem, -, -, rfl, hfits⟩ := h
    have hput : BodyTyped b.code (("item", itemType.tree) ::
        ("acc", (TypeExpr.behind member.target.indirect (.vec itemType)).tree) :: childScope scope)
          [putVariant (.member union.toText variant) "acc"] unitType :=
      bodyTyped_putVariant hvariant (by exact hbase) rfl
    refine bodyTyped_takeGathered hvariant hchild (hasDefault_behind _ (.vec itemType.tree)) ?_
    refine .bind (.inl rfl) (hfits.typed_ofElement rfl) (.name (by decide) _) ?_
    exact .run (.libraryMethod (.name rfl) (derefs_behind (.vec itemType) _) (.push itemType.tree)
      (.cons (.name rfl) .nil)) hput
  | insert entry =>
    obtain ⟨d, hmade, rfl, rfl⟩ := h
    have hput : BodyTyped b.code (("key", d.keyType.tree) :: ("value", d.valueType.tree) ::
        ("acc", (TypeExpr.behind member.target.indirect (.hashMap d.keyType d.valueType)).tree) ::
          childScope scope) [putVariant (.member union.toText variant) "acc"] unitType :=
      bodyTyped_putVariant hvariant (by exact hbase) rfl
    refine bodyTyped_takeGathered hvariant hchild
      (hasDefault_behind _ (.hashMap d.keyType.tree d.valueType.tree)) ?_
    refine bodyTyped_bindEntry hmade rfl ?_
    exact .run (.libraryMethod (.name rfl) (derefs_behind (.hashMap d.keyType d.valueType) _)
      (.insert d.keyType.tree d.valueType.tree) (.cons (.name rfl) (.cons (.name rfl) .nil))) hput

theorem unionDecoder_typed {d : UnionDecoder} (h : (DecoderDecl.union d).Fills m b shape)
    {fn : Code.Fn} (hfn : .fn fn ∈ d.code) : fn.Typed b.code := by
  obtain ⟨decl, hdecl, htype, harms⟩ := h
  obtain rfl := Decl.fn.inj (List.mem_singleton.mp hfn)
  have hlast : Typed b.code [("base", optionOf (.named d.type.toText)), ("decoder", decoderType)]
      (.method (.name "base") "unwrap_or" [.path (.member d.type.toText "Unknown")])
      (.named d.type.toText) :=
    .libraryMethod (.name rfl) (.self _) (.unwrapOr _)
      (.cons (.bareVariant (htype ▸ hasVariant_unknown hdecl)) .nil)
  refine .bind (.inr rfl) (.none _) (.mutable _ _) ?_
  refine bodyTyped_walkOrSkip (.map fun arm harm ↦ ?_) rfl (List.cons_ne_nil _ _)
    (.last (typed_ok hlast))
  obtain ⟨member, -, case, hcase, -, -, hname, hfills⟩ := harms arm harm
  exact hfills.bodyTyped (hname ▸ htype ▸ hasVariant_case hdecl hcase) rfl

/-! ## Lists and maps -/

theorem listDecoder_typed {d : ListDecoder} (h : (DecoderDecl.list d).Fills m b shape)
    {fn : Code.Fn} (hfn : .fn fn ∈ d.code) : fn.Typed b.code := by
  obtain ⟨item, itemType, -, htype, hfits⟩ := h
  obtain rfl := Decl.fn.inj (List.mem_singleton.mp hfn)
  refine .bind (.inl rfl) (.library (.vec itemType.tree) .nil) (.mutable _ _) ?_
  refine bodyTyped_walk (.cons (.run (.libraryMethod (.name rfl) (.self _) (.push itemType.tree)
    (.cons (hfits.typed_ofElement rfl) .nil)) .nil) .nil) rfl (List.cons_ne_nil _ _) (.last ?_)
  rw [htype]
  exact typed_ok (.name rfl)

/-- The error of an entry that lacks a part is an answer of any type. -/
theorem typed_incomplete (missing : String)
    (hdecoder : scope.lookup "decoder" = some decoderType) :
    Typed code scope (MapDecoder.incomplete missing) (decoded type) := by
  have hname : Typed code scope (.method (.method (.method (.name "decoder") "start_el" []) "name"
      []) "to_string" []) stringType :=
    .libraryMethod (.libraryMethod (.libraryMethod (.name hdecoder) (.reference (.self _)) .startEl
      .nil) (.reference (.self _)) .name .nil) (.reference (.self _)) .ofName .nil
  exact .library (.error type decodeError) (.cons (.incomplete hname (.text missing)) .nil)

/-- Two parts that may be missing make up an entry, or an error. -/
theorem typed_entryOfParts (d : MapDecoder) {key value : Ty}
    (hkey : scope.lookup "key" = some (optionOf key))
    (hvalue : scope.lookup "value" = some (optionOf value))
    (hdecoder : scope.lookup "decoder" = some decoderType) :
    Typed code scope d.entryOfParts (decoded (.tuple [key, value])) := by
  have hboth : Typed code (("key", key) :: ("value", value) :: scope)
      (.ok (.tuple [.name "key", .name "value"])) (decoded (.tuple [key, value])) :=
    typed_ok (.tuple (.cons (.name rfl) (.cons (.name rfl) .nil)))
  refine .cases (.tuple (.cons (.name hkey) (.cons (.name hvalue) .nil))) ?_
  refine .free (.pair (.some (.name (by decide) _)) (.some (.name (by decide) _))) hboth ?_
  refine .free (.pair (.none _) (.any _)) (typed_incomplete _ hdecoder) ?_
  exact .free (.pair (.any _) (.none _)) (typed_incomplete _ hdecoder) .nil

/-- A part of an entry is put where it is kept. -/
theorem bodyTyped_part {part : String} {value : Expr} {held : Ty}
    (hpart : scope.lookup part = some (optionOf held)) (h : Typed code scope value held) :
    BodyTyped code scope [assign part (.some value)] unitType :=
  .run (.assign (.name hpart) (typed_some h)) .nil

theorem mapDecoder_typed {d : MapDecoder} (hmade : .map d ∈ b.decoders)
    (h : (DecoderDecl.map d).Fills m b shape) {fn : Code.Fn} (hfn : .fn fn ∈ d.code) :
    fn.Typed b.code := by
  obtain ⟨key, value, -, htype, hkey, hvalue⟩ := h
  rcases List.mem_cons.mp hfn with hmap | hentry
  · obtain rfl := Decl.fn.inj hmap
    refine .bind (.inl rfl) (.library (.hashMap d.keyType.tree d.valueType.tree) .nil)
      (.mutable _ _) ?_
    refine bodyTyped_walk (.cons (bodyTyped_bindEntry hmade rfl ?_) .nil) rfl
      (List.cons_ne_nil _ _) (.last ?_)
    · exact .run (.libraryMethod (.name rfl) (.self _) (.insert d.keyType.tree d.valueType.tree)
        (.cons (.name rfl) (.cons (.name rfl) .nil))) .nil
    · rw [htype]
      exact typed_ok (.name rfl)
  · obtain rfl := Decl.fn.inj (List.mem_singleton.mp hentry)
    refine .bind (.inl rfl) (.none d.keyType.tree) (.mutable _ _) ?_
    refine .bind (.inl rfl) (.none d.valueType.tree) (.mutable _ _) ?_
    refine bodyTyped_walk (.cons (bodyTyped_part rfl (hkey.typed_ofText rfl))
      (.cons (bodyTyped_part rfl (hvalue.typed_ofElement rfl)) .nil)) rfl (List.cons_ne_nil _ _)
      (.last ?_)
    exact typed_entryOfParts d rfl rfl rfl

/-- Whatever a decoder puts somewhere fits there, and so its functions have the types that they
declare. -/
theorem DecoderDecl.Fills.typed {made : DecoderDecl} (hmade : made ∈ b.decoders)
    (h : made.Fills m b shape) {fn : Code.Fn} (hfn : .fn fn ∈ made.code) : fn.Typed b.code := by
  cases made with
  | struct d => exact structDecoder_typed h hfn
  | union d => exact unionDecoder_typed h hfn
  | list d => exact listDecoder_typed h hfn
  | map d => exact mapDecoder_typed hmade h hfn

end Decoders

/-! ## Builders -/

/-- What a method adds to a field goes to the collection that the field is of, in its box or without
one. -/
def Adder.Adds (type : TypeExpr) : Adder → Prop
  | .push _ item => ∃ indirect, type = (TypeExpr.vec item).behind indirect
  | .insert _ key value => ∃ indirect, type = (TypeExpr.hashMap key value).behind indirect

section Builders

variable {b : Bindings} {decl : StructDecl} {field : Field}

theorem hasField (hdecl : .struct decl ∈ b.types) (hfield : field ∈ decl.fields) :
    HasField b.code decl.builder field.name (optionOf field.type.tree) := by
  refine ⟨_, _, [], false, mem_code_of_mem_types hdecl (List.mem_cons_of_mem _
    (List.mem_cons_of_mem _ List.mem_cons_self)), ?_⟩
  exact List.mem_map.mpr ⟨field, hfield, rfl⟩

variable {owner : Ident}

/-- A method that changes a builder gives the builder. -/
theorem typedFor_builderMethod {name : String} {docs : List Code.DocLine}
    {parameters : List Code.Parameter} {change : Expr} {fn : Code.Fn}
    (hfn : Field.builderMethod name docs parameters change = .fn fn) {dropped : Ty}
    (h : Typed code (("self", .named owner.toText) ::
      parameters.filterMap (Code.Parameter.entry? (some owner))) change dropped) :
    fn.TypedFor code owner := by
  obtain rfl := Part.fn.inj hfn
  exact ⟨_, .self, .run h (.last (.name rfl))⟩

variable (hfield : HasField code owner field.name (optionOf field.type.tree))

include hfield

theorem typed_ofSelf {self : Ty} (hself : scope.lookup "self" = some self)
    (hderefs : Derefs self (.named owner.toText)) :
    Typed code scope field.ofSelf (optionOf field.type.tree) :=
  .field (.name hself) hderefs hfield

/-- Adding goes through the reference and the box to the collection. -/
theorem typed_addTo {method : String} {arguments : List Expr} {types : List Ty}
    {collection : TypeExpr} {indirect : Bool} {result : Ty}
    (htype : field.type = collection.behind indirect)
    (hself : scope.lookup "self" = some (.named owner.toText))
    (hdefault : HasDefault collection.tree)
    (hmethod : LibraryMethod collection.tree method types result)
    (h : AllTyped code scope arguments types) :
    Typed code scope (field.addTo method arguments) result := by
  have hoption := typed_ofSelf hfield hself (.self _)
  rw [htype] at hoption
  exact .libraryMethod (.filled (hasDefault_behind indirect hdefault) hoption)
    (.reference (derefs_behind collection indirect)) hmethod h

/-- The methods of a field have the types that they declare. -/
theorem fieldMethod_typed (hadds : ∀ adder ∈ field.adder, adder.Adds field.type) {fn : Code.Fn}
    (hfn : .fn fn ∈ field.methods) : fn.TypedFor code owner := by
  rcases List.mem_append.mp hfn with hown | hadded
  · rcases List.mem_cons.mp hown with hvalue | hown
    · refine typedFor_builderMethod hvalue.symm (.assign
        (typed_ofSelf hfield rfl (.self _)) (typed_some (.name rfl)))
    · rcases List.mem_cons.mp hown with hoption | hget
      · exact typedFor_builderMethod hoption.symm (.assign
          (typed_ofSelf hfield rfl (.self _)) (.name rfl))
      · obtain rfl := Part.fn.inj (List.mem_singleton.mp hget)
        refine ⟨_, .other (by simp [Ty.to, selfType, Ty.named, Ty.plain]), .last ?_⟩
        exact .reference false (typed_ofSelf hfield rfl (.reference (.self _)))
  · obtain ⟨adder, hmem, hadder⟩ := List.mem_map.mp hadded
    have hadd := hadds adder (Option.mem_toList.mp hmem)
    cases adder with
    | push method item =>
      obtain ⟨indirect, htype⟩ := hadd
      exact typedFor_builderMethod hadder (typed_addTo hfield htype rfl (.vec item.tree)
        (.push item.tree) (.cons (.name rfl) .nil))
    | insert method key value =>
      obtain ⟨indirect, htype⟩ := hadd
      exact typedFor_builderMethod hadder (typed_addTo hfield htype rfl
        (.hashMap key.tree value.tree) (.insert key.tree value.tree)
        (.cons (.name rfl) (.cons (.name rfl) .nil)))

end Builders

/-- The type of a field is that of the collection that its methods add to. -/
theorem FieldOf.adds {ctx : Context} {owner : Shape} {member : Member} {field : Field}
    (hkeyed : ctx.model.Keyed) (hsymbols : SymbolMap.ofModel ctx.model = .ok ctx.symbols)
    (h : FieldOf ctx owner member field) : ∀ adder ∈ field.adder, adder.Adds field.type := by
  obtain ⟨target, htarget, hadder⟩ := h.adder
  obtain ⟨plain, -, htypeFor, htype⟩ :=
    Context.exists_typeOf_of_typeAt hkeyed hsymbols htarget h.type_eq
  intro adder hmem
  rw [Option.mem_def] at hmem
  unfold TypeFor at htypeFor
  cases hform : target.form with
  | list item =>
    rw [hform] at htypeFor hadder
    obtain ⟨itemType, hitem, rfl⟩ := htypeFor
    obtain ⟨found, hfound, hpush⟩ := hadder
    obtain rfl := Except.ok.inj (hfound.symm.trans hitem)
    obtain rfl := Option.some.inj (hmem.symm.trans hpush)
    exact ⟨_, htype⟩
  | map key value =>
    rw [hform] at htypeFor hadder
    obtain ⟨keyType, valueType, hkey, hvalue, rfl⟩ := htypeFor
    obtain ⟨foundKey, foundValue, hfoundKey, hfoundValue, hinsert⟩ := hadder
    obtain rfl := Except.ok.inj (hfoundKey.symm.trans hkey)
    obtain rfl := Except.ok.inj (hfoundValue.symm.trans hvalue)
    obtain rfl := Option.some.inj (hmem.symm.trans hinsert)
    exact ⟨_, htype⟩
  | scalar | struct | union | enum =>
    rw [hform] at hadder
    exact absurd (hmem.symm.trans hadder) (Option.some_ne_none _)

/-- The methods of builders have the types that they declare. -/
theorem builders_typed {m : Model} {b : Bindings} {defaults : Defaults} (hkeyed : m.Keyed)
    (h : m.bindings defaults = .ok b) {decl : StructDecl} (hdecl : .struct decl ∈ b.types)
    {field : Field} (hfield : field ∈ decl.fields) {fn : Code.Fn} (hfn : .fn fn ∈ field.methods) :
    fn.TypedFor b.code decl.builder := by
  obtain ⟨ctx, hmodel, -, hsymbols, -, hmade⟩ := exists_of_bindings h
  have hbroken : ctx.model.Keyed := hmodel ▸ hkeyed.breakCycles
  obtain ⟨shape, -, members, -, hof⟩ := Context.exists_shape_of_mem_types hmade hdecl
  obtain ⟨member, -, hfieldOf⟩ := Failing.exists_of_mem_right hof.fields hfield
  exact fieldMethod_typed (hasField hdecl hfield) (hfieldOf.adds hbroken hsymbols) hfn

/-! ## Decoders and types -/

/-- Decoders and types agree on boxes.  Whatever value the decoder of a shape makes, for a member,
an item, a key or a value, it goes to a place of the generated types: the expression is in a box
exactly if the type of the place is one, which is if the reference to the value is indirect, and in
the box the type is that of what the decoder calls.  The items and entries of a flattened member
go to a collection that is filled where it is, whether or not the member's own reference puts it
into a box.  So the functions of decoders, and the methods of builders that they call, have the
types that they declare. -/
theorem boxes_agree {m : Model} {b : Bindings} {defaults : Defaults} (hkeyed : m.Keyed)
    (h : m.bindings defaults = .ok b) :
    (∀ decl ∈ b.decoders,
      (∃ shape ∈ m.breakCycles.shapes.values, decl.ident = decoderIdent shape.name ∧
        decl.Fills m.breakCycles b shape) ∧
      ∀ fn, .fn fn ∈ decl.code → fn.Typed b.code) ∧
    ∀ decl, .struct decl ∈ b.types → ∀ field ∈ decl.fields,
      ∀ fn, .fn fn ∈ field.methods → fn.TypedFor b.code decl.builder := by
  refine ⟨fun decl hdecl ↦ ?_, fun decl hdecl field hfield fn hfn ↦
    builders_typed hkeyed h hdecl hfield hfn⟩
  obtain ⟨shape, hshape, hident, hfills⟩ := decoders_fill hkeyed h hdecl
  exact ⟨⟨shape, hshape, hident, hfills⟩, fun fn hfn ↦ hfills.typed hdecl hfn⟩

/-- A branch that holds branches in every way: in a list that is declared before it and so is held
in a box itself, in a map, and on its own. -/
def branchModel : Model := .ofShapes [
  { name := "Branches", form := .list { target := .to "Branch" } },
  { name := "Branch", form := .struct [
    { name := "shoots", target := .to "Branches", flattened := true },
    { name := "named", target := .to "Named", flattened := true },
    { name := "stem", target := .to "Branch" },
    { name := "leaf", target := .to "Leaf" }] },
  { name := "Named", form := .map { target := .to "String" } { target := .to "Branch" } },
  { name := "Leaf", form := .union [
    { name := "size", target := .to "Integer" },
    { name := "gall", target := .to "Leaf" }] }] []

/-- The types of the fields and variants in bindings, and of the values in maps. -/
def placeTypes (b : Bindings) : List TypeExpr :=
  (b.types.flatMap fun
    | .struct decl => decl.fields.map Field.type
    | .union decl => decl.cases.map UnionCase.type
    | .enum _ => []) ++
  b.decoders.filterMap fun
    | .map d => some d.valueType
    | _ => none

/-- The decoders for branches fill the types, with the boxed list of shoots among them. -/
theorem branch_boxes_agree : branchModel.Keyed ∧ ∃ b, branchModel.bindings {} = .ok b ∧
    placeTypes b = [.boxed (.vec (.named "Branch")), .hashMap (.scalar .string)
      (.boxed (.named "Branch")), .boxed (.named "Branch"), .named "Leaf", .scalar .integer,
      .boxed (.named "Leaf"), .boxed (.named "Branch")] ∧
    b.decoders.length = 4 ∧ b.types.length = 2 ∧
    (∀ decl ∈ b.decoders,
      (∃ shape ∈ branchModel.breakCycles.shapes.values, decl.ident = decoderIdent shape.name ∧
        decl.Fills branchModel.breakCycles b shape) ∧
      ∀ fn, .fn fn ∈ decl.code → fn.Typed b.code) ∧
    ∀ decl, .struct decl ∈ b.types → ∀ field ∈ decl.fields,
      ∀ fn, .fn fn ∈ field.methods → fn.TypedFor b.code decl.builder := by
  have hkeyed : branchModel.Keyed := by decide +kernel
  have hmade : (branchModel.bindings {}).toOption.map
      (fun b ↦ (placeTypes b, b.decoders.length, b.types.length)) =
      some ([.boxed (.vec (.named "Branch")), .hashMap (.scalar .string)
        (.boxed (.named "Branch")), .boxed (.named "Branch"), .named "Leaf", .scalar .integer,
        .boxed (.named "Leaf"), .boxed (.named "Branch")], 4, 2) := by decide +kernel
  cases hb : branchModel.bindings {} with
  | error _ =>
    rw [hb] at hmade
    cases hmade
  | ok b =>
    rw [hb] at hmade
    obtain ⟨hplaces, hcounts⟩ := Prod.mk.inj (Option.some.inj hmade)
    obtain ⟨hdecoders, htypes⟩ := Prod.mk.inj hcounts
    exact ⟨hkeyed, b, rfl, hplaces, hdecoders, htypes, boxes_agree hkeyed hb⟩

end Bindings

end WireShapes
