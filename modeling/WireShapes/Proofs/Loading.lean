import Mathlib.Data.List.Nodup
import WireShapes.Model.Loader
import WireShapes.Proofs.Content
import WireShapes.Proofs.Failing

/-!
# What a model document declares

A document is written with some declarations when these are the elements inside its `model` element,
with asides and blanks around them.  Read one by one they are shapes and operations, and loading
succeeds exactly when every one can be read and no shape is declared twice; the model is then the
prelude with what was read added in order.

Every model that loading gives is of this kind, whatever the document looks like; what an error says
is not considered here.
-/

namespace WireShapes

open Xml (RawTag Token)

namespace Xml

/-- An element as it is written. -/
structure Element where
  tag : RawTag
  inside : Content

namespace Content

/-- Nothing but asides and texts of blanks. -/
def isLayout : Content → Bool
  | .empty => true
  | .text raw rest => raw.all Text.isAsciiBlank && rest.isLayout
  | .aside rest => rest.isLayout
  | .cdata _ _ | .element _ _ _ => false

/-- The elements of a content that has no text but blanks. -/
def elements? : Content → Option (List Element)
  | .empty => some []
  | .text raw rest => if raw.all Text.isAsciiBlank then rest.elements? else none
  | .aside rest => rest.elements?
  | .cdata _ _ => none
  | .element tag inside rest => rest.elements?.map (⟨tag, inside⟩ :: ·)

end Content

end Xml

/-! ## Declarations -/

/-- What one declaration adds to a model. -/
inductive Declared
  | shape (s : Shape)
  | operation (op : Operation)
deriving DecidableEq

namespace Declared

def shape? : Declared → Option Shape
  | .shape s => some s
  | .operation _ => none

/-- The shapes among what is declared. -/
def shapes (items : List Declared) : List Shape :=
  items.filterMap shape?

/-- The names of the shapes among what is declared. -/
def names (items : List Declared) : List String :=
  (shapes items).map Shape.name

@[simp]
theorem shapes_append (items more : List Declared) :
    shapes (items ++ more) = shapes items ++ shapes more :=
  List.filterMap_append

@[simp]
theorem names_append (items more : List Declared) :
    names (items ++ more) = names items ++ names more := by
  simp [names]

theorem names_cons (item : Declared) (rest : List Declared) :
    names (item :: rest) = (item.shape?.map Shape.name).toList ++ names rest := by
  cases item <;> rfl

/-- A shape with the members or values that its declaration holds. -/
def fill? (s : Shape) : List Xml.Element → Option Shape
  | [] => some s
  | child :: rest =>
    if child.inside.isLayout then
      (LoadState.addChild s child.tag).toOption.bind fun s ↦ fill? s rest
    else none

/-- What an element of a model declares. -/
def ofElement? (element : Xml.Element) : Option Declared :=
  match LoadState.declare .fresh element.tag with
  | .ok (.shape _ s) =>
    (element.inside.elements?.bind (fill? s)).map .shape
  | .ok (.leaf _ s) => if element.inside.isLayout then some (.shape s) else none
  | .ok (.operation _ op) => if element.inside.isLayout then some (.operation op) else none
  | _ => none

end Declared

/-- Adds what is declared to a model. -/
def Model.add (m : Model) : Declared → Model
  | .shape s => m.insert s
  | .operation op => m.addOperation op

/-- The prelude and what is declared after it. -/
def Model.ofDeclared (items : List Declared) : Model :=
  items.foldl Model.add .fresh

/-- A document whose `model` element holds these elements, with asides and blanks around them.  What
comes after that element does not matter. -/
def Written (bytes : List UInt8) (declarations : List Xml.Element) : Prop :=
  ∃ cs tag fault, ∃ before content : Xml.Content, ∃ after,
    Text.Utf8.decode bytes = .ok cs ∧
    Xml.Stream.ofChars cs =
      ⟨before.tokens ++ .start tag :: (content.tokens ++ .close tag.name :: after), fault⟩ ∧
    before.isLayout ∧ String.ofList tag.name = "model" ∧ content.elements? = some declarations

/-! ## Reading the tokens -/

namespace LoadState

variable {fault : Option Xml.ScanFault} {known : List String} {state : LoadState}

/-- Blanks at the ends of a text do not tell whether it is all blanks. -/
theorem all_isAsciiBlank_trimBy (raw : List Char) :
    (Text.trimBy Text.isMarkupBlank raw).all Text.isAsciiBlank = raw.all Text.isAsciiBlank := by
  have hblank : ∀ c, Text.isMarkupBlank c → Text.isAsciiBlank c := by
    intro c hc
    simp only [Text.isMarkupBlank, Bool.or_eq_true, beq_iff_eq] at hc
    rcases hc with ((rfl | rfl) | rfl) | rfl <;> rfl
  have hdrop : ∀ cs : List Char,
      (cs.dropWhile Text.isMarkupBlank).all Text.isAsciiBlank = cs.all Text.isAsciiBlank := by
    intro cs
    induction cs with
    | nil => rfl
    | cons c rest ih =>
      rw [List.dropWhile_cons]
      by_cases hc : Text.isMarkupBlank c
      · simp [hc, hblank c hc, ih]
      · simp [hc]
  unfold Text.trimBy
  rw [List.all_reverse, hdrop, List.all_reverse, hdrop]

/-- Trimming texts does not change whether a document loads, or to what. -/
theorem run_trimmed (tokens : List Token) :
    (run fault known state (tokens.filterMap Token.trimmed?)).toOption =
      (run fault known state tokens).toOption := by
  induction tokens generalizing known state with
  | nil => rfl
  | cons token rest ih =>
    cases token with
    | aside => exact ih
    | cdata raw => rfl
    | start tag =>
      rw [List.filterMap_cons_some (show Token.trimmed? (.start tag) = some (.start tag) from rfl)]
      unfold run
      cases state.onStart tag with
      | ok next => exact ih
      | error _ => rfl
    | close name =>
      rw [List.filterMap_cons_some
        (show Token.trimmed? (.close name) = some (.close name) from rfl)]
      unfold run
      cases state with
      | start | model m => rfl
      | shape m s | leaf m s =>
        dsimp only
        split
        · rfl
        · exact ih
      | child m s | operation m op => exact ih
    | text raw =>
      have hall := all_isAsciiBlank_trimBy raw
      by_cases hempty : (Text.trimBy Text.isMarkupBlank raw).isEmpty
      · have hnil := List.isEmpty_iff.mp hempty
        have hblank : raw.all Text.isAsciiBlank = true := by
          rw [← hall, hnil]
          rfl
        rw [List.filterMap_cons_none (by simp [Token.trimmed?, hempty]), run, if_pos hblank]
        exact ih
      · rw [List.filterMap_cons_some (b := .text (Text.trimBy Text.isMarkupBlank raw))
          (by simp [Token.trimmed?, hempty]), run, run, hall]
        by_cases hblank : raw.all Text.isAsciiBlank = true
        · rw [if_pos hblank, if_pos hblank]
          exact ih
        · rw [if_neg hblank, if_neg hblank]
          rfl

/-- Asides and blanks are passed over. -/
theorem run_layout {content : Xml.Content} (h : content.isLayout) (rest : List Token) :
    run fault known state (content.tokens ++ rest) = run fault known state rest := by
  induction content with
  | empty => rfl
  | text raw tail ih =>
    obtain ⟨hblank, htail⟩ := (Bool.and_eq_true _ _).mp h
    rw [Xml.Content.tokens, List.cons_append, run, if_pos hblank, ih htail]
  | aside tail ih => exact ih h
  | cdata raw tail => exact absurd h Bool.false_ne_true
  | element tag inside tail => exact absurd h Bool.false_ne_true

/-- Where only an end tag can come, anything but asides and blanks is refused. -/
theorem run_closed {content : Xml.Content} (h : content.isLayout = false)
    (hclosed : ∀ tag, (state.onStart tag).toOption = none) (rest : List Token) :
    (run fault known state (content.tokens ++ rest)).toOption = none := by
  induction content with
  | empty => exact absurd h.symm Bool.false_ne_true
  | text raw tail ih =>
    rw [Xml.Content.tokens, List.cons_append, run]
    by_cases hblank : raw.all Text.isAsciiBlank = true
    · rw [if_pos hblank]
      apply ih
      simpa [Xml.Content.isLayout, hblank] using h
    · rw [if_neg hblank]
      rfl
  | aside tail ih => exact ih h
  | cdata raw tail => rfl
  | element tag inside tail =>
    rw [Xml.Content.tokens, List.cons_append, run]
    have hnone := hclosed tag
    cases hstart : state.onStart tag with
    | ok next => simp [hstart, Except.toOption] at hnone
    | error _ => rfl

/-- The inside of an element that can only be closed, with its end tag. -/
theorem run_inside (content : Xml.Content)
    (hclosed : ∀ tag, (state.onStart tag).toOption = none) (rest : List Token) :
    (run fault known state (content.tokens ++ rest)).toOption =
      if content.isLayout then (run fault known state rest).toOption else none := by
  by_cases h : content.isLayout = true
  · rw [if_pos h, run_layout h]
  · rw [if_neg h, run_closed (by simpa using h) hclosed]

/-- The members or values of a shape. -/
theorem run_children (m : Model) (s : Shape) (content : Xml.Content) (rest : List Token) :
    (run fault known (.shape m s) (content.tokens ++ rest)).toOption =
      (content.elements?.bind (Declared.fill? s)).bind fun s ↦
        (run fault known (.shape m s) rest).toOption := by
  induction content generalizing s with
  | empty => rfl
  | text raw tail ih =>
    rw [Xml.Content.tokens, List.cons_append, run, Xml.Content.elements?]
    by_cases hblank : raw.all Text.isAsciiBlank = true
    · rw [if_pos hblank, if_pos hblank]
      exact ih s
    · rw [if_neg hblank, if_neg hblank]
      rfl
  | aside tail ih => exact ih s
  | cdata raw tail => rfl
  | element tag inside tail _ ih =>
    rw [Xml.Content.tokens, List.cons_append, run, Xml.Content.elements?]
    cases hchild : addChild s tag with
    | error error =>
      have hstart : onStart (.shape m s) tag = .error error := by simp [onStart, hchild]
      rw [hstart]
      cases htail : tail.elements? with
      | none => rfl
      | some children => simp [Declared.fill?, hchild, Except.toOption]
    | ok filled =>
      have hstart : onStart (.shape m s) tag = .ok (.child m filled) := by simp [onStart, hchild]
      rw [hstart]
      have hclosed : ∀ tag, ((LoadState.child m filled).onStart tag).toOption = none :=
        fun _ ↦ rfl
      have htokens : inside.tokens ++ Token.close tag.name :: tail.tokens ++ rest =
          inside.tokens ++ (.close tag.name :: (tail.tokens ++ rest)) := by simp
      rw [htokens, run_inside inside hclosed, run, ih filled]
      cases htail : tail.elements? with
      | none => simp
      | some children =>
        simp only [Option.map_some, Option.bind_some, Declared.fill?, hchild, Except.toOption]
        by_cases hlayout : inside.isLayout = true
        · simp [hlayout]
        · simp [hlayout]

/-- What a declaration leads to does not depend on the model so far. -/
theorem declare_cases (tag : RawTag) :
    (∃ error, ∀ m, declare m tag = .error error) ∨
      (∃ s, ∀ m, declare m tag = .ok (.shape m s)) ∨
      (∃ s, ∀ m, declare m tag = .ok (.leaf m s)) ∨
      ∃ op, ∀ m, declare m tag = .ok (.operation m op) := by
  have hmap {α : Type} (read : Except LoadError α) (enter : Model → α → LoadState) :
      (∃ error, ∀ m, enter m <$> read = .error error) ∨
        ∃ a, ∀ m, enter m <$> read = .ok (enter m a) := by
    cases read with
    | error error => exact .inl ⟨error, fun _ ↦ rfl⟩
    | ok a => exact .inr ⟨a, fun _ ↦ rfl⟩
  unfold declare
  dsimp only
  split
  · exact (hmap _ fun m s ↦ .shape m s).imp_right .inl
  · exact (hmap _ fun m s ↦ .shape m s).imp_right .inl
  · exact (hmap _ fun m s ↦ .shape m s).imp_right .inl
  · exact (hmap _ fun m s ↦ .leaf m s).imp_right fun h ↦ .inr (.inl h)
  · exact (hmap _ fun m s ↦ .leaf m s).imp_right fun h ↦ .inr (.inl h)
  · exact (hmap _ fun m s ↦ .leaf m s).imp_right fun h ↦ .inr (.inl h)
  · exact (hmap _ fun m op ↦ .operation m op).imp_right fun h ↦ .inr (.inr h)
  · exact .inl ⟨_, fun _ ↦ rfl⟩

/-- Goes on after a declaration, unless it declares a shape for the second time. -/
def resume (fault : Option Xml.ScanFault) (known : List String) (m : Model) (rest : List Token)
    (item : Declared) : Option Model :=
  if (item.shape?.map Shape.name).any (· ∈ known) then none
  else
    (run fault ((item.shape?.map Shape.name).toList ++ known) (.model (m.add item)) rest).toOption

/-- One declaration. -/
theorem run_element (m : Model) (element : Xml.Element) (rest : List Token) :
    (run fault known (.model m) (.start element.tag ::
      (element.inside.tokens ++ .close element.tag.name :: rest))).toOption =
      (Declared.ofElement? element).bind (resume fault known m rest) := by
  rw [run, onStart, Declared.ofElement?]
  rcases declare_cases element.tag with ⟨error, h⟩ | ⟨s, h⟩ | ⟨s, h⟩ | ⟨op, h⟩
  · rw [h, h]
    rfl
  · rw [h, h]
    dsimp only
    rw [run_children]
    cases element.inside.elements?.bind (Declared.fill? s) with
    | none => rfl
    | some filled =>
      rw [Option.bind_some, run]
      by_cases hknown : filled.name ∈ known
      · simp [resume, Declared.shape?, hknown, Except.toOption]
      · simp [resume, Declared.shape?, hknown, Model.add]
  · rw [h, h]
    dsimp only
    rw [run_inside _ fun _ ↦ rfl]
    by_cases hlayout : element.inside.isLayout = true
    · rw [if_pos hlayout, if_pos hlayout, run, Option.bind_some]
      by_cases hknown : s.name ∈ known
      · simp [resume, Declared.shape?, hknown, Except.toOption]
      · simp [resume, Declared.shape?, hknown, Model.add]
    · rw [if_neg hlayout, if_neg hlayout]
      rfl
  · rw [h, h]
    dsimp only
    rw [run_inside _ fun _ ↦ rfl]
    by_cases hlayout : element.inside.isLayout = true
    · rw [if_pos hlayout, if_pos hlayout, run, Option.bind_some]
      rfl
    · rw [if_neg hlayout, if_neg hlayout]
      rfl

/-- Declarations one after the other. -/
theorem run_declarations (m : Model) (content : Xml.Content) (hknown : known.Nodup)
    (rest : List Token) :
    (run fault known (.model m) (content.tokens ++ rest)).toOption =
      (content.elements?.bind (List.mapM Declared.ofElement?)).bind fun items ↦
        if ((Declared.names items).reverse ++ known).Nodup then
          (run fault ((Declared.names items).reverse ++ known)
            (.model (items.foldl Model.add m)) rest).toOption
        else none := by
  induction content generalizing m known with
  | empty =>
    simp [Xml.Content.tokens, Xml.Content.elements?, Declared.names, Declared.shapes, hknown]
  | text raw tail ih =>
    rw [Xml.Content.tokens, List.cons_append, run, Xml.Content.elements?]
    by_cases hblank : raw.all Text.isAsciiBlank = true
    · rw [if_pos hblank, if_pos hblank]
      exact ih m hknown
    · rw [if_neg hblank, if_neg hblank]
      rfl
  | aside tail ih => exact ih m hknown
  | cdata raw tail => rfl
  | element tag inside tail _ ih =>
    have htokens : (Xml.Content.element tag inside tail).tokens ++ rest =
        .start tag :: (inside.tokens ++ .close tag.name :: (tail.tokens ++ rest)) := by
      simp [Xml.Content.tokens]
    rw [htokens, run_element m ⟨tag, inside⟩, Xml.Content.elements?]
    cases hitem : Declared.ofElement? ⟨tag, inside⟩ with
    | none => cases tail.elements? <;> simp [List.mapM_cons, hitem]
    | some item =>
      rw [Option.bind_some, resume]
      have hitems : (tail.elements?.map (Xml.Element.mk tag inside :: ·)).bind
          (List.mapM Declared.ofElement?) =
          (tail.elements?.bind (List.mapM Declared.ofElement?)).map (item :: ·) := by
        cases tail.elements? with
        | none => rfl
        | some children =>
          simp only [Option.map_some, Option.bind_some, List.mapM_cons, hitem]
          cases children.mapM Declared.ofElement? <;> rfl
      rw [hitems]
      have hnames : ∀ items, (Declared.names (item :: items)).reverse ++ known =
          (Declared.names items).reverse ++ ((item.shape?.map Shape.name).toList ++ known) := by
        intro items
        cases item <;> simp [Declared.names_cons, Declared.shape?]
      by_cases htwice : (item.shape?.map Shape.name).any (· ∈ known) = true
      · have hdup : ¬ ((item.shape?.map Shape.name).toList ++ known).Nodup := by
          cases item with
          | shape s =>
            intro hnodup
            exact (List.nodup_cons.mp hnodup).1 (by simpa [Declared.shape?] using htwice)
          | operation op => exact absurd htwice Bool.false_ne_true
        have hnone : ∀ items, ¬ ((Declared.names (item :: items)).reverse ++ known).Nodup := by
          intro items hnodup
          rw [hnames] at hnodup
          exact hdup hnodup.of_append_right
        rw [if_pos htwice]
        cases tail.elements?.bind (List.mapM Declared.ofElement?) with
        | none => rfl
        | some items => simp [hnone items]
      · have hnodup : ((item.shape?.map Shape.name).toList ++ known).Nodup := by
          cases item with
          | shape s =>
            have hfresh : s.name ∉ known := by simpa [Declared.shape?] using htwice
            exact List.nodup_cons.mpr ⟨hfresh, hknown⟩
          | operation op => exact hknown
        rw [if_neg htwice, ih (m.add item) hnodup]
        cases tail.elements?.bind (List.mapM Declared.ofElement?) with
        | none => rfl
        | some items => simp only [Option.map_some, Option.bind_some, hnames, List.foldl_cons]

end LoadState

/-- A document that is written with some declarations loads exactly when each can be read and no
shape is declared twice. -/
theorem ofBytes_written {bytes : List UInt8} {declarations : List Xml.Element}
    (h : Written bytes declarations) :
    (Model.ofBytes bytes).toOption = (declarations.mapM Declared.ofElement?).bind fun items ↦
      if (Declared.names items).Nodup then some (Model.ofDeclared items) else none := by
  obtain ⟨cs, tag, fault, before, content, after, hdecode, hstream, hbefore, htag, helements⟩ := h
  have hstart : LoadState.onStart .start tag = .ok (.model .fresh) := by
    rw [LoadState.onStart, if_pos htag]
  rw [Model.ofBytes, hdecode]
  dsimp only
  rw [hstream, Xml.Stream.trimmed, LoadState.run_trimmed, LoadState.run_layout hbefore,
    LoadState.run, hstart]
  dsimp only
  rw [LoadState.run_declarations _ _ List.nodup_nil, helements, Option.bind_some]
  simp only [List.append_nil, List.nodup_reverse, LoadState.run, Except.toOption]
  congr

/-! ## Every model that loading gives -/

namespace LoadState

/-- The model so far. -/
def built : LoadState → Model
  | .start => .fresh
  | .model m | .shape m _ | .child m _ | .leaf m _ | .operation m _ => m

/-- What a start tag leads to: into the model, from there into a declaration, and into a child of a
shape. -/
theorem onStart_cases {state next : LoadState} {tag : RawTag} (h : state.onStart tag = .ok next) :
    state = .start ∧ next = .model .fresh ∨
      (∃ m, state = .model m ∧
        ((∃ s, next = .shape m s) ∨ (∃ s, next = .leaf m s) ∨ ∃ op, next = .operation m op)) ∨
      ∃ m s filled, state = .shape m s ∧ next = .child m filled := by
  cases state with
  | start =>
    rw [onStart] at h
    split at h
    · exact .inl ⟨rfl, (Except.ok.inj h).symm⟩
    · cases h
  | model m =>
    rw [onStart] at h
    rcases declare_cases tag with ⟨_, hd⟩ | ⟨s, hd⟩ | ⟨s, hd⟩ | ⟨op, hd⟩ <;> rw [hd] at h
    · cases h
    · exact .inr (.inl ⟨m, rfl, .inl ⟨s, (Except.ok.inj h).symm⟩⟩)
    · exact .inr (.inl ⟨m, rfl, .inr (.inl ⟨s, (Except.ok.inj h).symm⟩)⟩)
    · exact .inr (.inl ⟨m, rfl, .inr (.inr ⟨op, (Except.ok.inj h).symm⟩)⟩)
  | shape m s =>
    obtain ⟨filled, -, hnext⟩ := Failing.map_eq_ok.mp h
    exact .inr (.inr ⟨m, s, filled, rfl, hnext.symm⟩)
  | child m s => cases h
  | leaf m s => cases h
  | operation m op => cases h

/-- A start tag adds nothing to the model yet. -/
theorem built_onStart {state next : LoadState} {tag : RawTag}
    (h : state.onStart tag = .ok next) : next.built = state.built := by
  rcases onStart_cases h with ⟨rfl, rfl⟩ | ⟨m, rfl, ⟨s, rfl⟩ | ⟨s, rfl⟩ | ⟨op, rfl⟩⟩ |
    ⟨m, s, filled, rfl, rfl⟩ <;> rfl

/-- The names and the model come from the same declarations, none of them twice. -/
def Declares (known : List String) (m : Model) : Prop :=
  ∃ items, known = (Declared.names items).reverse ∧ known.Nodup ∧ m = .ofDeclared items

theorem Declares.withShape {known : List String} {m : Model} (h : Declares known m) {s : Shape}
    (hfresh : s.name ∉ known) : Declares (s.name :: known) (m.insert s) := by
  obtain ⟨items, hnames, hnodup, rfl⟩ := h
  refine ⟨items ++ [.shape s], ?_, List.nodup_cons.mpr ⟨hfresh, hnodup⟩, ?_⟩
  · simp [hnames, Declared.shape?, Declared.names, Declared.shapes]
  · simp [Model.ofDeclared, Model.add]

theorem Declares.withOperation {known : List String} {m : Model} (h : Declares known m)
    (op : Operation) : Declares known (m.addOperation op) := by
  obtain ⟨items, hnames, hnodup, rfl⟩ := h
  refine ⟨items ++ [.operation op], ?_, hnodup, ?_⟩
  · simp [hnames, Declared.shape?, Declared.names, Declared.shapes]
  · simp [Model.ofDeclared, Model.add]

/-- What loading gives is declared, if what it has read so far is. -/
theorem declares_of_run {fault : Option Xml.ScanFault} {known : List String} {state : LoadState}
    {tokens : List Token} {m : Model} (hstate : Declares known state.built)
    (h : run fault known state tokens = .ok m) : ∃ known, Declares known m := by
  induction tokens generalizing known state with
  | nil =>
    unfold run at h
    split at h <;> cases h
  | cons token rest ih =>
    unfold run at h
    cases token with
    | aside => exact ih hstate h
    | cdata raw => cases h
    | text raw =>
      dsimp only at h
      split at h
      · exact ih hstate h
      · cases h
    | start tag =>
      dsimp only at h
      cases hnext : state.onStart tag with
      | error _ =>
        rw [hnext] at h
        cases h
      | ok next =>
        rw [hnext] at h
        exact ih (built_onStart hnext ▸ hstate) h
    | close name =>
      cases state with
      | start => cases h
      | model m' =>
        obtain rfl := Except.ok.inj h
        exact ⟨known, hstate⟩
      | shape m' s | leaf m' s =>
        dsimp only at h
        split at h
        · cases h
        · exact ih (hstate.withShape (by assumption)) h
      | child m' s =>
        have hshape : Declares known (LoadState.shape m' s).built := hstate
        exact ih hshape h
      | operation m' op => exact ih (hstate.withOperation op) h

end LoadState

/-- A loaded model is the prelude with declarations added, no shape declared twice. -/
theorem exists_declared_of_ofBytes {bytes : List UInt8} {m : Model}
    (h : Model.ofBytes bytes = .ok m) :
    ∃ items, (Declared.names items).Nodup ∧ m = .ofDeclared items := by
  rw [Model.ofBytes] at h
  cases hdecode : Text.Utf8.decode bytes with
  | error _ =>
    rw [hdecode] at h
    cases h
  | ok cs =>
    rw [hdecode] at h
    have hstart : LoadState.Declares [] LoadState.start.built := ⟨[], rfl, List.nodup_nil, rfl⟩
    obtain ⟨known, items, hnames, hnodup, hm⟩ := LoadState.declares_of_run hstart h
    exact ⟨items, List.nodup_reverse.mp (hnames ▸ hnodup), hm⟩

end WireShapes
