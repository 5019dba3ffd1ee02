import WireShapes.Proofs.Declarations
import WireShapes.Proofs.Keyed
import WireShapes.Proofs.Merging
import WireShapes.Proofs.Readable
import WireShapes.Samples.Showcase

/-!
# Model documents

Exactly those documents are loaded whose `model` element holds elements that describe shapes and
operations, with nothing but asides and blanks around them and no shape declared twice
(`Model.ofBytes_iff_described`).  The model is the one described: the prelude with what is declared
under its names in the places of its scalars, then the other shapes and the operations in the order
of the document.
-/

namespace WireShapes

open Scalar (Kind)
open Xml (RawTag Token)

/-! ## The end of the model element -/

namespace Xml

/-- The tokens go on with the contents of the open elements, the innermost first, and their end
tags. -/
inductive Ended : (openNames : List (List Char)) → List Token → Prop
  | nil (tail : List Token) : Ended [] tail
  | cons {names : List (List Char)} {rest : List Token} (content : Content) (name : List Char) :
      Ended names rest → Ended (name :: names) (content.tokens ++ .close name :: rest)

namespace Ended

variable {name : List Char} {names : List (List Char)} {rest : List Token}

theorem text (raw : List Char) (h : Ended (name :: names) rest) :
    Ended (name :: names) (.text raw :: rest) := by
  cases h with
  | cons content _ hrest => exact .cons (.text raw content) name hrest

theorem aside (h : Ended (name :: names) rest) : Ended (name :: names) (.aside :: rest) := by
  cases h with
  | cons content _ hrest => exact .cons (.aside content) name hrest

theorem close (name : List Char) (h : Ended names rest) :
    Ended (name :: names) (.close name :: rest) :=
  .cons .empty name h

/-- A start tag opens an element with its content in front of that of the element around it. -/
theorem start {tag : RawTag} (h : Ended (tag.name :: name :: names) rest) :
    Ended (name :: names) (.start tag :: rest) := by
  cases h with
  | cons inside _ houter =>
    cases houter with
    | cons content _ hrest =>
      simpa [Content.tokens] using Ended.cons (.element tag inside content) name hrest

end Ended

end Xml

namespace LoadState

variable {fault : Option Xml.ScanFault} {known : List String} {state next : LoadState}
  {tokens : List Token} {names : List (List Char)} {m : Model}

/-- The number of open elements. -/
def level : LoadState → Nat
  | .start => 0
  | .model _ => 1
  | .shape _ _ | .leaf _ _ | .operation _ _ => 2
  | .child _ _ => 3

theorem level_onStart {tag : RawTag} (h : state.onStart tag = .ok next) :
    next.level = state.level + 1 := by
  rcases onStart_cases h with ⟨rfl, rfl⟩ | ⟨m, rfl, ⟨s, rfl⟩ | ⟨s, rfl⟩ | ⟨op, rfl⟩⟩ |
    ⟨m, s, filled, rfl, rfl⟩ <;> rfl

/-- Inside the model element, what is loaded is read to the end of that element. -/
theorem ended_of_run (hnested : Xml.Nested names tokens) (hlevel : state.level = names.length)
    (hinside : 0 < state.level) (h : run fault known state tokens = .ok m) :
    Xml.Ended names tokens := by
  induction hnested generalizing known state with
  | nil names =>
    unfold run at h
    split at h <;> cases h
  | start tag _ ih =>
    obtain ⟨name, names, rfl⟩ : ∃ name outer, _ = name :: outer :=
      List.exists_cons_of_length_pos (hlevel ▸ hinside)
    unfold run at h
    cases hnext : state.onStart tag with
    | error error => simp [hnext] at h
    | ok next =>
      simp only [hnext] at h
      have hnextLevel := level_onStart hnext
      exact (ih (by simp [hnextLevel, hlevel]) (by omega) h).start
  | @close names rest name _ ih =>
    unfold run at h
    cases state with
    | start => cases hinside
    | model m' =>
      obtain rfl := List.length_eq_zero_iff.mp (Nat.succ.inj hlevel).symm
      exact .close name (.nil _)
    | shape m' s | leaf m' s =>
      have hnext (m : Model) : (LoadState.model m).level = names.length := Nat.succ.inj hlevel
      dsimp only at h
      split at h
      · cases h
      · exact .close name (ih (hnext _) Nat.one_pos h)
    | child m' s =>
      have hnext : (LoadState.shape m' s).level = names.length := Nat.succ.inj hlevel
      exact .close name (ih hnext Nat.two_pos h)
    | operation m' op =>
      have hnext (m : Model) : (LoadState.model m).level = names.length := Nat.succ.inj hlevel
      exact .close name (ih (hnext _) Nat.one_pos h)
  | text raw _ ih =>
    obtain ⟨name, names, rfl⟩ : ∃ name outer, _ = name :: outer :=
      List.exists_cons_of_length_pos (hlevel ▸ hinside)
    unfold run at h
    split at h
    · exact (ih hlevel hinside h).text raw
    · cases h
  | cdata raw _ ih => cases h
  | aside _ ih =>
    obtain ⟨name, names, rfl⟩ : ∃ name outer, _ = name :: outer :=
      List.exists_cons_of_length_pos (hlevel ▸ hinside)
    exact (ih hlevel hinside h).aside

/-- What is loaded is a whole model element behind asides and blanks. -/
theorem exists_of_run (hnested : Xml.Nested [] tokens) (h : run fault known .start tokens = .ok m) :
    ∃ (before content : Xml.Content) (tag : RawTag) (after : List Token),
      tokens = before.tokens ++ .start tag :: (content.tokens ++ .close tag.name :: after) ∧
        before.isLayout = true ∧ String.ofList tag.name = "model" := by
  induction tokens generalizing known with
  | nil =>
    unfold run at h
    split at h <;> cases h
  | cons token rest ih =>
    cases hnested with
    | cdata raw hrest => cases h
    | aside hrest =>
      obtain ⟨before, content, tag, after, rfl, hbefore, htag⟩ := ih hrest h
      exact ⟨.aside before, content, tag, after, rfl, hbefore, htag⟩
    | text raw hrest =>
      unfold run at h
      split at h
      · rename_i hblank
        obtain ⟨before, content, tag, after, rfl, hbefore, htag⟩ := ih hrest h
        exact ⟨.text raw before, content, tag, after, rfl,
          by simp [Xml.Content.isLayout, hblank, hbefore], htag⟩
      · cases h
    | start tag hrest =>
      unfold run at h
      by_cases htag : String.ofList tag.name = "model"
      · simp only [onStart, htag, if_true] at h
        have hlevel : (LoadState.model .fresh).level = [tag.name].length := rfl
        cases ended_of_run hrest hlevel Nat.one_pos h with
        | cons content _ _ => exact ⟨.empty, content, tag, _, rfl, rfl, htag⟩
      · simp [onStart, htag] at h

end LoadState

/-- What is loaded is written with declarations. -/
theorem exists_written_of_ofBytes {bytes : List UInt8} {m : Model}
    (h : Model.ofBytes bytes = .ok m) : ∃ elements, Written bytes elements := by
  rw [Model.ofBytes] at h
  cases hdecode : Text.Utf8.decode bytes with
  | error fault => simp [hdecode] at h
  | ok cs =>
    rw [hdecode] at h
    have hrun : (LoadState.run (Xml.Stream.ofChars cs).fault [] .start
        (Xml.Stream.ofChars cs).tokens).toOption = some m := by
      rw [← LoadState.run_trimmed]
      exact Failing.toOption_eq_some.mpr h
    obtain ⟨before, content, tag, after, htokens, hbefore, htag⟩ :=
      LoadState.exists_of_run (Xml.nested_ofChars cs) (Failing.toOption_eq_some.mp hrun)
    rw [htokens, LoadState.run_layout hbefore, LoadState.run, LoadState.onStart,
      if_pos htag] at hrun
    dsimp only at hrun
    rw [LoadState.run_declarations _ _ List.nodup_nil] at hrun
    obtain ⟨items, hitems, -⟩ := Option.bind_eq_some_iff.mp hrun
    obtain ⟨elements, helements, -⟩ := Option.bind_eq_some_iff.mp hitems
    exact ⟨elements, cs, tag, _, before, content, after, hdecode, by rw [← htokens], hbefore, htag,
      helements⟩

/-- What is loaded is what is written: elements that can be read one by one, no shape declared
twice. -/
theorem ofBytes_eq_ok_iff {bytes : List UInt8} {m : Model} :
    Model.ofBytes bytes = .ok m ↔ ∃ elements items, Written bytes elements ∧
      elements.mapM Declared.ofElement? = some items ∧ (Declared.names items).Nodup ∧
        m = .ofDeclared items := by
  constructor
  · intro h
    obtain ⟨elements, hwritten⟩ := exists_written_of_ofBytes h
    have hload := ofBytes_written hwritten
    rw [Failing.toOption_eq_some.mpr h] at hload
    obtain ⟨items, hitems, hm⟩ := Option.bind_eq_some_iff.mp hload.symm
    obtain ⟨hnodup, hm⟩ := Option.ite_none_right_eq_some.mp hm
    exact ⟨elements, items, hwritten, hitems, hnodup, (Option.some.inj hm).symm⟩
  · rintro ⟨elements, items, hwritten, hitems, hnodup, rfl⟩
    rw [← Failing.toOption_eq_some, ofBytes_written hwritten, hitems, Option.bind_some,
      if_pos hnodup]

/-- The start tags inside the model element are start tags of the document. -/
theorem Written.wellFormed {bytes : List UInt8} {elements : List Xml.Element}
    (h : Written bytes elements) (hwell : ∀ cs, Text.Utf8.decode bytes = .ok cs →
      ∀ token ∈ (Xml.Stream.ofChars cs).tokens, token.WellFormed) :
    ∀ element ∈ elements, element.WellFormed := by
  obtain ⟨cs, tag, fault, before, content, after, hdecode, hstream, -, -, helements⟩ := h
  refine Xml.Content.wellFormed_elements (fun token htoken ↦ ?_) helements
  apply hwell cs hdecode
  rw [hstream]
  simp [htoken]

/-! ## Where shapes stand -/

namespace Table

variable {κ α : Type} [DecidableEq κ] {entries : List (κ × α)} {key : κ} {value : α}

/-- A key that is there keeps its place. -/
theorem put_of_mem (hnodup : (entries.map Prod.fst).Nodup) (h : key ∈ entries.map Prod.fst) :
    put key value entries =
      entries.map fun entry ↦ (entry.1, if entry.1 = key then value else entry.2) := by
  induction entries with
  | nil => cases h
  | cons first rest ih =>
    obtain ⟨hfresh, hrest⟩ := List.nodup_cons.mp hnodup
    unfold put
    by_cases hfirst : first.1 = key
    · have hsame : rest.map (fun entry ↦ (entry.1, if entry.1 = key then value else entry.2)) =
          rest := by
        refine (List.map_congr_left fun entry hentry ↦ ?_).trans (List.map_id rest)
        rw [if_neg fun hkey ↦ hfresh (List.mem_map.mpr ⟨entry, hentry, hkey.trans hfirst.symm⟩)]
        rfl
      rw [if_pos hfirst, List.map_cons, hsame, if_pos hfirst, hfirst]
    · have hmem : key ∈ rest.map Prod.fst := by
        rcases List.mem_cons.mp h with hkey | hmem
        · exact absurd hkey.symm hfirst
        · exact hmem
      rw [if_neg hfirst, ih hrest hmem, List.map_cons, if_neg hfirst]

end Table

namespace Model

variable {m : Model} {items : List Declared}

/-- The shape that is declared under a name, or else the one that was there. -/
def redeclared (items : List Declared) (name : String) (old : Shape) : Shape :=
  ((Declared.shapes items).find? fun s ↦ s.name = name).getD old

theorem redeclared_cons (s : Shape) (rest : List Declared) (name : String) (old : Shape) :
    redeclared (.shape s :: rest) name old =
      if s.name = name then s else redeclared rest name old := by
  have hshapes : Declared.shapes (.shape s :: rest) = s :: Declared.shapes rest := rfl
  by_cases hname : s.name = name <;> simp [redeclared, hshapes, hname]

theorem redeclared_of_notMem {name : String} (h : name ∉ Declared.names items) (old : Shape) :
    redeclared items name old = old := by
  have hnone : (Declared.shapes items).find? (fun s ↦ s.name = name) = none := by
    rw [List.find?_eq_none]
    intro s hs hname
    exact h (of_decide_eq_true hname ▸ List.mem_map_of_mem hs)
  rw [redeclared, hnone, Option.getD_none]

/-- Shapes that are declared again are replaced in their places, and the others come behind. -/
theorem entries_foldl_replace (hkeys : m.shapes.keys.Nodup)
    (hnodup : (Declared.names items).Nodup) :
    (items.foldl add m).shapes.entries =
      (m.shapes.entries.map fun entry ↦ (entry.1, redeclared items entry.1 entry.2)) ++
        m.newEntries items := by
  induction items generalizing m with
  | nil => simp [newEntries, redeclared, Declared.shapes]
  | cons item rest ih =>
    rw [Declared.names_cons] at hnodup
    rw [List.foldl_cons]
    cases item with
    | operation op => exact ih hkeys hnodup
    | shape s =>
      obtain ⟨hfresh, hrest⟩ := List.nodup_cons.mp hnodup
      have hsame : ∀ name ∈ Declared.names rest, (m.insert s).shape? name = m.shape? name := by
        intro name hname
        have hne : name ≠ s.name := by
          rintro rfl
          exact hfresh hname
        rw [shape?_insert, if_neg hne]
      have hnew : m.newEntries (.shape s :: rest) =
          (if (m.shape? s.name).isNone then [(s.name, s)] else []) ++ m.newEntries rest := by
        cases hold : m.shape? s.name <;> simp [newEntries, Declared.shapes, Declared.shape?, hold]
      have hput : (m.insert s).shapes.keys.Nodup := Table.nodup_put hkeys
      rw [add, ih hput hrest, newEntries_congr hsame, hnew, ← List.append_assoc]
      congr 1
      cases hold : m.shape? s.name with
      | some old =>
        have hmem := Table.get?_isSome_iff.mp (Option.isSome_of_eq_some hold)
        have hentries : (m.insert s).shapes.entries =
            m.shapes.entries.map fun entry ↦ (entry.1, if entry.1 = s.name then s else entry.2) :=
          Table.put_of_mem hkeys hmem
        rw [hentries, List.map_map]
        simp only [Option.isNone_some, Bool.false_eq_true, if_false, List.append_nil]
        apply List.map_congr_left
        intro entry _
        by_cases hname : entry.1 = s.name
        · simp [redeclared_cons, hname, redeclared_of_notMem hfresh]
        · simp [redeclared_cons, hname, Ne.symm hname]
      | none =>
        have hentries : (m.insert s).shapes.entries = m.shapes.entries ++ [(s.name, s)] :=
          Table.put_of_lookup_eq_none hold
        rw [hentries, List.map_append]
        congr 1
        · apply List.map_congr_left
          intro entry hentry
          have hne : s.name ≠ entry.1 := by
            intro hname
            have hmem : entry.1 ∈ m.shapes.keys := List.mem_map_of_mem hentry
            have hsome : (m.shape? s.name).isSome := hname ▸ Table.get?_isSome_iff.mpr hmem
            rw [hold] at hsome
            cases hsome
          rw [redeclared_cons, if_neg hne]
        · simp [redeclared_of_notMem hfresh]

/-- The model of what a document declares: the prelude, in which a shape that is declared under the
name of a scalar has its place, then the other shapes, and the operations. -/
def described (items : List Declared) : Model where
  shapes := ⟨(Kind.all.map fun kind ↦
    (kind.name, redeclared items kind.name (preludeShape kind))) ++
      ((Declared.shapes items).filter fun s ↦ !inPrelude s.name).map fun s ↦ (s.name, s)⟩
  operations := operationsOf items

theorem ofDeclared_eq_described (hnodup : (Declared.names items).Nodup) :
    ofDeclared items = described items := by
  have hnew : fresh.newEntries items =
      ((Declared.shapes items).filter fun s ↦ !inPrelude s.name).map fun s ↦ (s.name, s) := by
    unfold newEntries
    congr 1
    apply List.filter_congr
    intro s _
    have hsome : (fresh.shape? s.name).isSome = inPrelude s.name :=
      Bool.eq_iff_iff.mpr (Table.get?_isSome_iff.trans mem_keys_fresh)
    rw [← Option.not_isSome, hsome]
  have hdescribed : described items =
      ⟨⟨(fresh.shapes.entries.map fun entry ↦ (entry.1, redeclared items entry.1 entry.2)) ++
        fresh.newEntries items⟩, fresh.operations ++ operationsOf items⟩ := by
    rw [hnew]
    rfl
  rw [hdescribed, ← entries_foldl_replace nodup_keys_fresh hnodup, ← operations_foldl_add]
  rfl

/-- A document whose start tags have well-formed attributes is loaded exactly if it is UTF-8 and,
comments and other asides and blanks apart, a `model` element of elements that describe shapes and
operations, no two shapes of one name.  The model is the one that they describe. -/
theorem ofBytes_iff_described {bytes : List UInt8} (hwell : ∀ cs, Text.Utf8.decode bytes = .ok cs →
    ∀ token ∈ (Xml.Stream.ofChars cs).tokens, token.WellFormed) {m : Model} :
    ofBytes bytes = .ok m ↔ ∃ elements items, Written bytes elements ∧
      List.Forall₂ Describes elements items ∧ (Declared.names items).Nodup ∧
        m = described items := by
  rw [ofBytes_eq_ok_iff]
  refine exists₂_congr fun elements items ↦ and_congr_right fun hwritten ↦ ?_
  rw [Failing.mapM_eq_some_iff fun element helement item ↦
    Declared.ofElement?_eq_some (hwritten.wellFormed hwell element helement)]
  refine and_congr_right fun _ ↦ and_congr_right fun hnodup ↦ ?_
  rw [ofDeclared_eq_described hnodup]

end Model

namespace Samples

/-- A document with every kind of declaration, in pieces.  A scalar of the prelude is redeclared. -/
def everyKind : List String :=
  ["<?xml version=\"1.0\"?>\n<model>", "<!-- shapes -->\n",
    "<structure name=\"Top\" ", "doc=\"a &lt; b\">",
    "<member name=\"id\" ", "target=\"String\" ", "required=\"true\"/>", "</structure>",
    "<scalar name=\"Byte\" ", "kind=\"Long\"/>", "<union name=\"Choice\"/>",
    "<enum name=\"Color\"> ", "<value name=\"Red\" ", "literal=\"red\">", "</value> </enum>",
    "<list name=\"Tags\" ", "member=\"String\" ", "member-name=\"tag\"/>",
    "<map name=\"Index\" ", "key=\"String\" ", "value=\"Color\"/>",
    "<operation name=\"Get\" ", "output=\"Top\" ", "errors=\"Gone Busy\"/>", "</model>"]

/-- The bytes of the document. -/
def everyKindBytes : List UInt8 :=
  everyKind.flatMap fun piece ↦ piece.toUTF8.toList

/-- Every kind of declaration is loaded, and the redeclared scalar stands in its place. -/
theorem every_kind_is_loaded :
    (∀ cs, Text.Utf8.decode everyKindBytes = .ok cs →
      ∀ token ∈ (Xml.Stream.ofChars cs).tokens, token.WellFormed) ∧
      ∃ m elements items, Model.ofBytes everyKindBytes = .ok m ∧
        Written everyKindBytes elements ∧ List.Forall₂ Describes elements items ∧
          (Declared.names items).Nodup ∧ m = .described items ∧
            m.shapes.keys = Kind.all.map Kind.name ++ ["Top", "Choice", "Color", "Tags", "Index"] ∧
              m.shape? "Byte" = some { name := "Byte", form := .scalar .long } := by
  have hdecode : Text.Utf8.decode everyKindBytes = .ok (everyKind.flatMap String.toList) := by
    decide +kernel
  have hwell : ∀ cs, Text.Utf8.decode everyKindBytes = .ok cs →
      ∀ token ∈ (Xml.Stream.ofChars cs).tokens, token.WellFormed := by
    intro cs hcs
    obtain rfl := Except.ok.inj (hdecode.symm.trans hcs)
    decide +kernel
  have hloaded : (Model.ofBytes everyKindBytes).toOption.map (fun m ↦
      (m.shapes.keys, m.shape? "Byte")) =
        some (Kind.all.map Kind.name ++ ["Top", "Choice", "Color", "Tags", "Index"],
          some { name := "Byte", form := .scalar .long }) := by
    decide +kernel
  obtain ⟨m, hm, hshapes⟩ := Option.map_eq_some_iff.mp hloaded
  obtain ⟨hkeys, hbyte⟩ := Prod.mk.inj hshapes
  have hload := Failing.toOption_eq_some.mp hm
  obtain ⟨elements, items, hwritten, hitems, hnodup, hdescribed⟩ :=
    (Model.ofBytes_iff_described hwell).mp hload
  exact ⟨hwell, m, elements, items, hload, hwritten, hitems, hnodup, hdescribed, hkeys, hbyte⟩

/-- The showcase is what its document says. -/
theorem showcase_is_loaded : Model.ofBytes Showcase.documentBytes = .ok Showcase.model := by
  have hload : (Model.ofBytes Showcase.documentBytes).toOption = some Showcase.model := by
    decide +kernel
  exact Failing.toOption_eq_some.mp hload

end Samples

end WireShapes
