import Mathlib
import WireShapes.Command.Run
import WireShapes.Proofs.Keyed
import WireShapes.Proofs.Merging

/-!
# Models in several files

The command run on model files prints what the library gives for one document that holds all their
declarations in the same order, and fails where that document has no bindings, as long as no file
declares another shape under the name of a prelude scalar.  A file that does is refused: a document
replaces the scalar, and merging what was loaded from it takes this for a second declaration.
-/

namespace WireShapes

open Scalar (Kind)

/-- The names of the shapes that elements of a model declare. -/
def declaredNames (declarations : List Xml.Element) : List String :=
  Declared.names (declarations.filterMap Declared.ofElement?)

/-- The declarations put nothing else in the place of a prelude scalar. -/
def KeepPrelude (declarations : List Xml.Element) : Prop :=
  Model.fresh.Agrees (declarations.filterMap Declared.ofElement?)

instance (declarations : List Xml.Element) : Decidable (KeepPrelude declarations) :=
  inferInstanceAs (Decidable (Model.fresh.Agrees _))

/-- Every prelude scalar is as in a fresh model. -/
def Model.HasPrelude (m : Model) : Prop :=
  ∀ kind : Kind, m.shape? kind.name = some (preludeShape kind)

theorem filterMap_of_mapM_eq_some {α β : Type} {f : α → Option β} {as : List α} {bs : List β}
    (h : as.mapM f = some bs) : as.filterMap f = bs := by
  induction as generalizing bs with
  | nil => simpa using h
  | cons a rest ih =>
    rw [List.mapM_cons] at h
    obtain ⟨b, hb, hrest⟩ := Option.bind_eq_some_iff.mp h
    obtain ⟨tail, htail, hbs⟩ := Option.bind_eq_some_iff.mp hrest
    rw [List.filterMap_cons_some hb, ih htail, Option.some.inj hbs]

namespace Model

theorem agrees_append {m : Model} {items more : List Declared} :
    m.Agrees (items ++ more) ↔ m.Agrees items ∧ m.Agrees more := by
  simp [Agrees, or_imp, forall_and]

theorem hasPrelude_ofDeclared_iff {items : List Declared} (hnodup : (Declared.names items).Nodup) :
    (ofDeclared items).HasPrelude ↔ fresh.Agrees items := by
  have hprelude : ∀ kind : Kind, fresh.shape? kind.name = some (preludeShape kind) := by
    intro kind
    cases kind <;> rfl
  constructor
  · intro h s hs old hold
    have hkey : s.name ∈ fresh.shapes.keys :=
      Table.get?_isSome_iff.mp (Option.isSome_of_eq_some hold)
    obtain ⟨kind, -, hkind⟩ := List.mem_map.mp (show s.name ∈ Kind.all.map Kind.name from hkey)
    have hthere := h kind
    rw [hkind, ofDeclared, shape?_foldl_add hnodup hs] at hthere
    have hfresh := hprelude kind
    rw [hkind, hold] at hfresh
    exact Option.some.inj (hfresh.trans hthere.symm)
  · intro h kind
    rw [shape?_ofDeclared hnodup h (.inr (Option.isSome_of_eq_some (hprelude kind))), hprelude]

/-- Merging a loaded model into a fresh one gives it back, unless it has another shape in the place
of a prelude scalar. -/
theorem fresh_merge {bytes : List UInt8} {m : Model} (h : ofBytes bytes = .ok m) :
    (m.HasPrelude → fresh.merge m = (m, none)) ∧
      (¬ m.HasPrelude → (fresh.merge m).2.isSome) := by
  obtain ⟨items, hnodup, rfl⟩ := exists_declared_of_ofBytes h
  have hnil : fresh.Agrees [] := fun _ hs ↦ absurd hs List.not_mem_nil
  rw [hasPrelude_ofDeclared_iff hnodup]
  constructor
  · intro hagrees
    exact @merge_ofDeclared [] items hnodup hnil hagrees
  · intro hchanged
    exact @merge_ofDeclared_isSome [] items List.nodup_nil hnil hnodup hchanged

end Model

namespace Command

/-- The text of the bindings for one model document. -/
def documentText (bytes : List UInt8) (defaults : Defaults) : Option String :=
  (Model.ofBytes bytes).toOption.bind fun m ↦ (bindingsText m defaults).toOption

/-- A file with these declarations is at the path. -/
def Holds (files : Node) (path : String) (declarations : List Xml.Element) : Prop :=
  ∃ bytes, files.find path = .ok (.file bytes) ∧ Written bytes declarations

variable {files : Node} {arguments : List String} {settings : Settings}

/-- A file with declarations is loaded behind what was declared before. -/
theorem loadPath_holds {path : String} {declarations : List Xml.Element} {items : List Declared}
    (hfile : Holds files path declarations)
    (honce : (Declared.names items ++ declaredNames declarations).Nodup)
    (hitems : Model.fresh.Agrees items) :
    (loadPath (fun path ↦ (files.find path).mapError FileFault.message) (.ofDeclared items)
      path).toOption =
      (declarations.mapM Declared.ofElement?).bind fun more ↦
        if Model.fresh.Agrees more then some (.ofDeclared (items ++ more)) else none := by
  obtain ⟨bytes, hfind, hwritten⟩ := hfile
  have hload := ofBytes_written hwritten
  have hone : (loadPath (fun path ↦ (files.find path).mapError FileFault.message)
      (.ofDeclared items) path).toOption =
      (Model.ofBytes bytes).toOption.bind fun loaded ↦
        if ((Model.ofDeclared items).merge loaded).2 = none then
          some ((Model.ofDeclared items).merge loaded).1
        else none := by
    rw [loadPath, hfind]
    simp only [Except.mapError, Node.sources, List.foldlM_cons, List.foldlM_nil, bind_pure]
    rw [loadSource]
    cases Model.ofBytes bytes with
    | error _ => rfl
    | ok loaded =>
      dsimp only [Except.toOption, Option.bind_some]
      rcases (Model.ofDeclared items).merge loaded with ⟨m, _ | name⟩ <;> rfl
  rw [hone, hload]
  cases hread : declarations.mapM Declared.ofElement? with
  | none => rfl
  | some more =>
    rw [declaredNames, filterMap_of_mapM_eq_some hread] at honce
    obtain ⟨hnodup, hnodupMore, -⟩ := List.nodup_append'.mp honce
    rw [Option.bind_some, if_pos hnodupMore, Option.bind_some, Option.bind_some]
    by_cases hmore : Model.fresh.Agrees more
    · rw [if_pos hmore,
        Model.merge_ofDeclared (by rwa [Declared.names_append]) hitems hmore, if_pos rfl]
    · rw [if_neg hmore]
      have hconflict := Model.merge_ofDeclared_isSome hnodup hitems hnodupMore hmore
      rw [if_neg (Option.isSome_iff_ne_none.mp hconflict)]

/-- Files with declarations are loaded one behind the other. -/
theorem loadPaths_holds {paths : List String} {documents : List (List Xml.Element)}
    (hfiles : List.Forall₂ (Holds files) paths documents) {items : List Declared}
    (honce : (Declared.names items ++ declaredNames documents.flatten).Nodup)
    (hitems : Model.fresh.Agrees items) :
    (paths.foldlM (loadPath fun path ↦ (files.find path).mapError FileFault.message)
      (.ofDeclared items)).toOption =
      (documents.flatten.mapM Declared.ofElement?).bind fun more ↦
        if Model.fresh.Agrees more then some (.ofDeclared (items ++ more)) else none := by
  induction hfiles generalizing items with
  | nil => simp [Model.Agrees, Declared.shapes, pure, Except.pure, Except.toOption]
  | @cons path declarations paths documents hfile _ ih =>
    have hnames : declaredNames (declarations :: documents).flatten =
        declaredNames declarations ++ declaredNames documents.flatten := by
      simp [declaredNames]
    rw [hnames, ← List.append_assoc] at honce
    have hfirst := loadPath_holds hfile honce.of_append_left hitems
    rw [List.foldlM_cons, Failing.toOption_bind, hfirst, List.flatten_cons, List.mapM_append]
    cases hread : declarations.mapM Declared.ofElement? with
    | none => rfl
    | some more =>
      rw [Option.bind_some]
      have hmoreNames : declaredNames declarations = Declared.names more := by
        rw [declaredNames, filterMap_of_mapM_eq_some hread]
      by_cases hmore : Model.fresh.Agrees more
      · rw [if_pos hmore, Option.bind_some,
          ih (by rwa [Declared.names_append, ← hmoreNames])
            (Model.agrees_append.mpr ⟨hitems, hmore⟩)]
        cases documents.flatten.mapM Declared.ofElement? with
        | none => rfl
        | some last => simp [Model.agrees_append, hmore]
      · rw [if_neg hmore]
        cases documents.flatten.mapM Declared.ofElement? with
        | none => rfl
        | some last => simp [Model.agrees_append, hmore]

theorem keyed_loadSource {m loaded : Model} {source : Source} (h : m.Keyed)
    (hload : loadSource m source = .ok loaded) : loaded.Keyed := by
  unfold loadSource at hload
  split at hload
  next => cases hload
  next path bytes =>
    split at hload
    next => cases hload
    next other hother =>
      have hmerged := h.merge (Model.keyed_ofBytes hother)
      split at hload
      next merged hmerge =>
        rw [hmerge] at hmerged
        exact Except.ok.inj hload ▸ hmerged
      next => cases hload

theorem keyed_loadPath {find : String → Except String Node} {m loaded : Model} {path : String}
    (h : m.Keyed) (hload : loadPath find m path = .ok loaded) : loaded.Keyed := by
  unfold loadPath at hload
  split at hload
  next => cases hload
  next => exact Failing.foldlM_keeps keyed_loadSource h hload

/-- Whatever files the command is given, in its model every shape stands under its own name. -/
theorem keyed_loadPaths {find : String → Except String Node} {paths : List String} {m : Model}
    (h : paths.foldlM (loadPath find) Model.fresh = .ok m) : m.Keyed :=
  Failing.foldlM_keeps keyed_loadPath Model.keyed_fresh h

theorem output_toOption (find : String → Except String Node) :
    (output find settings).toOption =
      (settings.models.foldlM (loadPath find) Model.fresh).toOption.bind fun m ↦
        (bindingsText m settings.defaults).toOption.map (header ++ ·) := by
  rw [output, Failing.toOption_bind]
  congr 1
  funext m
  cases bindingsText m settings.defaults <;> rfl

/-- The text of the bindings for files is that for the declarations of all of them in one
document. -/
theorem output_holds {documents : List (List Xml.Element)} {whole : List UInt8}
    (hfiles : List.Forall₂ (Holds files) settings.models documents)
    (hwhole : Written whole documents.flatten) (honce : (declaredNames documents.flatten).Nodup) :
    (output (fun path ↦ (files.find path).mapError FileFault.message) settings).toOption =
      if KeepPrelude documents.flatten then
        (documentText whole settings.defaults).map (header ++ ·)
      else none := by
  have hnil : Model.fresh.Agrees [] := fun _ hs ↦ absurd hs List.not_mem_nil
  have hload := @loadPaths_holds files _ _ hfiles [] honce hnil
  rw [output_toOption]
  rw [show Model.fresh = Model.ofDeclared [] from rfl, hload, documentText, ofBytes_written hwhole]
  cases hread : documents.flatten.mapM Declared.ofElement? with
  | none => simp
  | some items =>
    have hitems := filterMap_of_mapM_eq_some hread
    rw [declaredNames, hitems] at honce
    have hkeep : KeepPrelude documents.flatten ↔ Model.fresh.Agrees items := by
      rw [KeepPrelude, hitems]
    by_cases hagrees : Model.fresh.Agrees items
    · rw [if_pos (hkeep.mpr hagrees)]
      simp [hagrees, honce]
    · rw [if_neg (hkeep.not.mpr hagrees)]
      simp [hagrees]

/-- Where there is a text the command prints it, unless it is told to write it to a file. -/
theorem run_of_output_some {text : String}
    (hrequest : Request.ofArguments arguments = .generate settings)
    (hout : settings.out.getD "-" = "-")
    (htext : (output (fun path ↦ (files.find path).mapError FileFault.message)
      settings).toOption = some text) :
    run files arguments = { code := 0, printed := text, files } := by
  rw [run, hrequest]
  dsimp only
  cases hresult : output (fun path ↦ (files.find path).mapError FileFault.message) settings with
  | error report => simp [hresult, Except.toOption] at htext
  | ok printed =>
    obtain rfl : printed = text := by simpa [hresult, Except.toOption] using htext
    rw [hout]
    rfl

/-- Where there is no text the command reports why. -/
theorem run_of_output_none (hrequest : Request.ofArguments arguments = .generate settings)
    (hnone : (output (fun path ↦ (files.find path).mapError FileFault.message)
      settings).toOption = none) :
    ∃ report, run files arguments = { code := 1, report := some report, files } := by
  rw [run, hrequest]
  dsimp only
  cases hresult : output (fun path ↦ (files.find path).mapError FileFault.message) settings with
  | error report => exact ⟨report, rfl⟩
  | ok printed => simp [hresult, Except.toOption] at hnone

/-- On model files in which no shape name is declared twice the command prints the header and the
text for one document with all their declarations, and fails if that document has no bindings.  It
also fails if a prelude scalar is changed; then it is the merge of what was loaded that fails. -/
theorem run_files {documents : List (List Xml.Element)} {whole : List UInt8}
    (hrequest : Request.ofArguments arguments = .generate settings)
    (hout : settings.out.getD "-" = "-")
    (hfiles : List.Forall₂ (Holds files) settings.models documents)
    (hwhole : Written whole documents.flatten) (honce : (declaredNames documents.flatten).Nodup) :
    (∀ text, KeepPrelude documents.flatten →
      documentText whole settings.defaults = some text →
        run files arguments = { code := 0, printed := header ++ text, files }) ∧
      (¬ KeepPrelude documents.flatten ∨ documentText whole settings.defaults = none →
        ∃ report, run files arguments = { code := 1, report := some report, files }) ∧
      ∀ bytes m, Model.ofBytes bytes = .ok m →
        (m.HasPrelude → Model.fresh.merge m = (m, none)) ∧
          (¬ m.HasPrelude → (Model.fresh.merge m).2.isSome) := by
  have houtput := output_holds hfiles hwhole honce
  refine ⟨?_, ?_, fun _ _ ↦ Model.fresh_merge⟩
  · intro text hkeep htext
    rw [if_pos hkeep, htext] at houtput
    exact run_of_output_some hrequest hout houtput
  · intro hfail
    apply run_of_output_none hrequest
    rw [houtput]
    rcases hfail with hchanged | htext
    · rw [if_neg hchanged]
    · rw [htext, Option.map_none, ite_self]

/-! ### Two files, and a changed scalar -/

/-- What stands in the working directory is found by its name. -/
theorem find_entry {entries : List (String × Node)} {name : String} {node : Node}
    (hnames : pathNames name = [name]) (hplain : name ∉ ["", ".", ".."])
    (hrelative : name.startsWith "/" = false) (hlength : name.utf8ByteSize ≤ longestName)
    (hentry : entries.lookup name = some node) : (Node.directory entries).find name = .ok node := by
  simp only [List.mem_cons, List.not_mem_nil, or_false, not_or] at hplain
  obtain ⟨hempty, hdot, hdots⟩ := hplain
  have hstart : Place.start (.directory entries) name = .ok ⟨true, [], .directory entries⟩ := by
    have hpath : ¬ longestPath < name.utf8ByteSize := by
      unfold longestName at hlength
      unfold longestPath
      omega
    have hfull : name.isEmpty = false := by simpa using hempty
    simp [Place.start, hfull, hpath, hrelative]
  have henter : Place.enter ⟨true, [], .directory entries⟩ name =
      .ok ⟨true, [(name, .directory entries)], node⟩ := by
    have hshort : ¬ longestName < name.utf8ByteSize := Nat.not_lt.mpr hlength
    unfold Place.enter
    rw [if_neg (by simp [Node.isDirectory])]
    split
    · contradiction
    · contradiction
    · contradiction
    · simp [hshort, Node.entries, hentry]
  have hlocate : Node.locate (.directory entries) name =
      .ok ⟨true, [(name, .directory entries)], node⟩ := by
    rw [Node.locate, hnames, hstart]
    change [name].foldlM Place.enter ⟨true, [], .directory entries⟩ = _
    rw [List.foldlM_cons, henter]
    rfl
  rw [Node.find, hlocate]
  rfl

theorem pathNames_two : pathNames "a" = ["a"] ∧ pathNames "b" = ["b"] :=
  ⟨by cbv, by cbv⟩

/-- A list of strings. -/
def namesElement : Xml.Element :=
  ⟨.ofContent "list name=\"Names\" member=\"String\"".toList, .empty⟩

/-- A structure with a member. -/
def topElement : Xml.Element :=
  ⟨.ofContent "structure name=\"Top\"".toList,
    .element (.ofContent "member name=\"names\" target=\"Names\"".toList) .empty .empty⟩

def namesFile : String := "<model><list name=\"Names\" member=\"String\"/></model>"

def topFile : String :=
  "<model><structure name=\"Top\"><member name=\"names\" target=\"Names\"/></structure></model>"

def wholeFile : String :=
  "<model><list name=\"Names\" member=\"String\"/><!-- -->" ++
    "<structure name=\"Top\"><member name=\"names\" target=\"Names\"/></structure></model>"

def twoFiles : Node :=
  .directory [("a", .file namesFile.toUTF8.toList), ("b", .file topFile.toUTF8.toList)]

/-- The command prints for two files what the library gives for both in one. -/
theorem run_twoFiles :
    ∃ text, documentText wholeFile.toUTF8.toList {} = some text ∧
      run twoFiles ["a", "b"] =
        { code := 0, printed := header ++ text, files := twoFiles } := by
  have hnames : Written namesFile.toUTF8.toList [namesElement] := by
    refine ⟨namesFile.toList, .ofContent "model".toList, none, .empty,
      .element namesElement.tag .empty .empty, [], ?_, ?_, ?_, ?_, rfl⟩ <;> decide +kernel
  have htop : Written topFile.toUTF8.toList [topElement] := by
    refine ⟨topFile.toList, .ofContent "model".toList, none, .empty,
      .element topElement.tag topElement.inside .empty, [], ?_, ?_, ?_, ?_, rfl⟩ <;> decide +kernel
  have hwhole : Written wholeFile.toUTF8.toList [namesElement, topElement] := by
    refine ⟨wholeFile.toList, .ofContent "model".toList, none, .empty,
      .element namesElement.tag .empty (.aside (.element topElement.tag topElement.inside .empty)),
      [], ?_, ?_, ?_, ?_, rfl⟩ <;> decide +kernel
  have hfindNames : twoFiles.find "a" = .ok (.file namesFile.toUTF8.toList) := by
    rw [twoFiles]
    exact find_entry pathNames_two.1 (by decide +kernel) (by decide +kernel) (by decide +kernel)
      (by simp)
  have hfindTop : twoFiles.find "b" = .ok (.file topFile.toUTF8.toList) := by
    rw [twoFiles]
    exact find_entry pathNames_two.2 (by decide +kernel) (by decide +kernel) (by decide +kernel)
      (by simp [List.lookup_cons])
  have hfiles : List.Forall₂ (Holds twoFiles) ["a", "b"] [[namesElement], [topElement]] :=
    .cons ⟨_, hfindNames, hnames⟩ (.cons ⟨_, hfindTop, htop⟩ .nil)
  have htext : (documentText wholeFile.toUTF8.toList {}).isSome := by decide +kernel
  obtain ⟨text, htext⟩ := Option.isSome_iff_exists.mp htext
  refine ⟨text, htext, ?_⟩
  have hrequest : Request.ofArguments ["a", "b"] = .generate { models := ["a", "b"] } := by
    decide +kernel
  exact (run_files hrequest rfl hfiles hwhole (by decide +kernel)).1 text (by decide +kernel) htext

/-- A document that makes the scalar of bytes one of long numbers. -/
def byteFile : String := "<model><scalar name=\"Byte\" kind=\"Long\"/></model>"

def byteElement : Xml.Element := ⟨.ofContent "scalar name=\"Byte\" kind=\"Long\"".toList, .empty⟩

def oneFile : Node := .directory [("a", .file byteFile.toUTF8.toList)]

/-- The document loads, declares one shape and has bindings, and yet the command refuses it as a
file, because merging it fails. -/
theorem changed_prelude_is_refused :
    Written byteFile.toUTF8.toList [byteElement] ∧ declaredNames [byteElement] = ["Byte"] ∧
      documentText byteFile.toUTF8.toList {} = some "" ∧
      (∃ report, run oneFile ["a"] =
        { code := 1, report := some report, files := oneFile }) ∧
      ∃ m, Model.ofBytes byteFile.toUTF8.toList = .ok m ∧
        (Model.fresh.merge m).2 = some "Byte" := by
  have hwritten : Written byteFile.toUTF8.toList [byteElement] := by
    refine ⟨byteFile.toList, .ofContent "model".toList, none, .empty,
      .element byteElement.tag .empty .empty, [], ?_, ?_, ?_, ?_, rfl⟩ <;> decide +kernel
  have hfind : oneFile.find "a" = .ok (.file byteFile.toUTF8.toList) := by
    rw [oneFile]
    exact find_entry pathNames_two.1 (by decide +kernel) (by decide +kernel) (by decide +kernel)
      (by simp)
  have hfiles : List.Forall₂ (Holds oneFile) ["a"] [[byteElement]] :=
    .cons ⟨_, hfind, hwritten⟩ .nil
  have hmerge : (Model.ofBytes byteFile.toUTF8.toList).toOption.map
      (fun m ↦ (Model.fresh.merge m).2) = some (some "Byte") := by decide +kernel
  refine ⟨hwritten, by decide +kernel, by decide +kernel, ?_, ?_⟩
  · have hrequest : Request.ofArguments ["a"] = .generate { models := ["a"] } := by decide +kernel
    apply run_of_output_none hrequest
    rw [output_holds hfiles hwritten (by decide +kernel), if_neg (by decide +kernel)]
  · cases hload : Model.ofBytes byteFile.toUTF8.toList with
    | error _ =>
      rw [hload] at hmerge
      cases hmerge
    | ok m =>
      rw [hload] at hmerge
      exact ⟨m, rfl, Option.some.inj hmerge⟩

end Command

end WireShapes
