import WireShapes.Proofs.EntryPoints

/-!
# Other tokens at one place

When some tokens of a document are replaced by others, its tree changes at one place.
`Role.openAt` follows the tokens before the place and tells the roles of the elements open there.
`Swap` is what a replacement has to be for the content in which it happens; `Rooted.swap` carries it
to the root element: what the tree has on account of the new tokens is nothing that decoders look
for.  The induction is on the content: the place is in front of it, in its first element, in the
rest, or behind it, and the tokens before the place tell which.
-/

namespace WireShapes

open Wire (StartTag Place Rooted)
open Xml (Token RawTag Name)

/-! ## Contents and their tokens -/

/-- A tag keeps its name when it is read. -/
theorem Wire.StartTag.name_of_ofRaw {tag : RawTag} {start : StartTag}
    (h : StartTag.ofRaw tag = .ok start) : start.name = Name.ofList tag.name := by
  unfold StartTag.ofRaw at h
  obtain ⟨attributes, -, hrest⟩ := Failing.bind_eq_ok.mp h
  split at hrest
  · simp at hrest
  · obtain rfl := Except.ok.inj hrest
    rfl

namespace Xml.Content

section First

variable {content : Content} {name raw : List Char} {tag : RawTag} {tail later : List Token}

theorem exists_of_first_text (h : content.tokens ++ .close name :: tail = .text raw :: later) :
    ∃ rest, content = .text raw rest ∧ rest.tokens ++ .close name :: tail = later := by
  cases content <;> simp_all [tokens]

theorem exists_of_first_aside (h : content.tokens ++ .close name :: tail = .aside :: later) :
    ∃ rest, content = .aside rest ∧ rest.tokens ++ .close name :: tail = later := by
  cases content <;> simp_all [tokens]

theorem exists_of_first_start (h : content.tokens ++ .close name :: tail = .start tag :: later) :
    ∃ inside rest, content = .element tag inside rest ∧
      inside.tokens ++ .close tag.name :: (rest.tokens ++ .close name :: tail) = later := by
  cases content with
  | element found inside rest =>
    obtain ⟨rfl, hlater⟩ : found = tag ∧ _ := by simpa [tokens] using h
    exact ⟨inside, rest, rfl, hlater⟩
  | _ => simp [tokens] at h

end First

/-- The tokens of a content end where the element around it is closed. -/
theorem tokens_inj {content other : Content} {name name' : List Char} {tail tail' : List Token}
    (h : content.tokens ++ .close name :: tail = other.tokens ++ .close name' :: tail') :
    content = other ∧ name = name' ∧ tail = tail' := by
  induction content generalizing other name tail name' tail' with
  | empty => cases other <;> simp_all [tokens]
  | text raw rest ih =>
    cases other <;> simp only [tokens, List.cons_append, List.cons.injEq, List.append_assoc,
      Token.text.injEq, reduceCtorEq, false_and, List.nil_append] at h
    obtain ⟨rfl, hrest⟩ := h
    obtain ⟨rfl, hend⟩ := ih hrest
    exact ⟨rfl, hend⟩
  | cdata raw rest ih =>
    cases other <;> simp only [tokens, List.cons_append, List.cons.injEq, List.append_assoc,
      Token.cdata.injEq, reduceCtorEq, false_and, List.nil_append] at h
    obtain ⟨rfl, hrest⟩ := h
    obtain ⟨rfl, hend⟩ := ih hrest
    exact ⟨rfl, hend⟩
  | aside rest ih =>
    cases other <;> simp only [tokens, List.cons_append, List.cons.injEq, List.append_assoc,
      true_and, reduceCtorEq, false_and, List.nil_append] at h
    obtain ⟨rfl, hend⟩ := ih h
    exact ⟨rfl, hend⟩
  | element tag inside rest ihInside ihRest =>
    cases other <;> simp only [tokens, List.cons_append, List.cons.injEq, List.append_assoc,
      Token.start.injEq, reduceCtorEq, false_and, List.nil_append] at h
    obtain ⟨rfl, hinside⟩ := h
    obtain ⟨rfl, -, hrest⟩ := ihInside hinside
    obtain ⟨rfl, hend⟩ := ihRest hrest
    exact ⟨rfl, hend⟩

end Xml.Content

namespace Bindings

variable {b : Bindings} {role inner : Role} {outer : List Role}

/-! ## Roles along a document -/

namespace Role

/-- The roles of the open elements after a token, innermost first.  What stands in no element is
passed over. -/
def follow (b : Bindings) (roles : List Role) : Token → List Role
  | .start tag => (roles.head?.elim .passed fun role ↦ role.child b (Name.ofList tag.name)) :: roles
  | .close _ => roles.tail
  | _ => roles

/-- The roles of the elements open after some tokens of a document, innermost first, if the first
element is read in a role. -/
def openAt (b : Bindings) (role : Role) : List Token → List Role
  | [] => []
  | .start _ :: rest => rest.foldl (follow b) [role]
  | _ :: rest => openAt b role rest

/-- After the tokens of a content the same elements are open as before. -/
theorem foldl_tokens (content : Xml.Content) (roles : List Role) :
    content.tokens.foldl (follow b) roles = roles := by
  induction content generalizing roles with
  | empty => rfl
  | text raw rest ih => exact ih roles
  | cdata raw rest ih => exact ih roles
  | aside rest ih => exact ih roles
  | element tag inside rest ihInside ihRest =>
    rw [Xml.Content.tokens, List.foldl_cons, List.foldl_append, ihInside, List.foldl_cons, ihRest]
    rfl

theorem openAt_prolog {prolog : List Token} (h : prolog.all Token.isPlain) (rest : List Token) :
    openAt b role (prolog ++ rest) = openAt b role rest := by
  induction prolog with
  | nil => rfl
  | cons token prolog ih =>
    obtain ⟨htoken, hprolog⟩ : token.isPlain = true ∧ prolog.all Token.isPlain = true := by
      simpa using h
    cases token with
    | start tag => simp [Token.isPlain] at htoken
    | close name => simp [Token.isPlain] at htoken
    | text raw => exact ih hprolog
    | cdata raw => exact ih hprolog
    | aside => exact ih hprolog

end Role

/-! ## Replacements in a content -/

/-- Behind the tokens in front, a content has old tokens where another has new ones.  It can be
read, and nothing that the role looks for is in the other alone. -/
def Swapped (b : Bindings) (role : Role) (front old later : List Token) (name : List Char)
    (tail : List Token) (read : Wire.Content) : Prop :=
  ∃ (content : Xml.Content) (less : Wire.Content),
    content.tokens ++ .close name :: tail = front ++ (old ++ later) ∧
      content.read? = some less ∧ Extended b role less read

/-- At the beginning of a content read in a role, new tokens may stand for old ones. -/
def Swap (b : Bindings) (role : Role) (old new : List Token) : Prop :=
  ∀ (more : Xml.Content) (name : List Char) (tail later : List Token) (read : Wire.Content),
    more.tokens ++ .close name :: tail = new ++ later → more.read? = some read →
    Swapped b role [] old later name tail read

variable {old new front later tail : List Token} {name raw : List Char} {more : Xml.Content}
  {read : Wire.Content}

namespace Swapped

theorem text {first : String} (hraw : Xml.expand raw = .ok first)
    (h : Swapped b role front old later name tail read) :
    Swapped b role (.text raw :: front) old later name tail (.text first read) := by
  obtain ⟨content, less, hcontent, hless, hextended⟩ := h
  refine ⟨.text raw content, .text first less, ?_, ?_, .text first hextended⟩
  · simp [Xml.Content.tokens, hcontent]
  · exact Xml.Content.read?_text_eq_some.mpr ⟨first, less, hraw, hless, rfl⟩

theorem cdata (h : Swapped b role front old later name tail read) :
    Swapped b role (.cdata raw :: front) old later name tail (.text (String.ofList raw) read) := by
  obtain ⟨content, less, hcontent, hless, hextended⟩ := h
  refine ⟨.cdata raw content, .text _ less, ?_, ?_, .text _ hextended⟩
  · simp [Xml.Content.tokens, hcontent]
  · exact Xml.Content.read?_cdata_eq_some.mpr ⟨less, hless, rfl⟩

theorem aside (h : Swapped b role front old later name tail read) :
    Swapped b role (.aside :: front) old later name tail read := by
  obtain ⟨content, less, hcontent, hless, hextended⟩ := h
  exact ⟨.aside content, less, by simp [Xml.Content.tokens, hcontent], hless, hextended⟩

variable {tag : RawTag} {start : StartTag} {rest inside : Xml.Content}
  {below behind : Wire.Content}

/-- The old tokens stand inside the first element. -/
theorem in_first (htag : StartTag.ofRaw tag = .ok start) (hbehind : rest.read? = some behind)
    (h : Swapped b (role.child b start.name) front old later tag.name
      (rest.tokens ++ .close name :: tail) below) :
    Swapped b role (.start tag :: front) old later name tail (.element start below behind) := by
  obtain ⟨content, less, hcontent, hless, hextended⟩ := h
  refine ⟨.element tag content rest, .element start less behind, ?_, ?_, ?_⟩
  · simp [Xml.Content.tokens, hcontent]
  · exact Xml.Content.read?_element_eq_some.mpr ⟨start, less, behind, htag, hless, hbehind, rfl⟩
  · exact .element rfl (fun _ _ ↦ rfl) hextended (.refl b role behind)

/-- The old tokens stand behind the first element. -/
theorem behind_first (htag : StartTag.ofRaw tag = .ok start) (hbelow : inside.read? = some below)
    (h : Swapped b role front old later name tail read) :
    Swapped b role (.start tag :: (inside.tokens ++ .close tag.name :: front)) old later name tail
      (.element start below read) := by
  obtain ⟨content, less, hcontent, hless, hextended⟩ := h
  refine ⟨.element tag inside content, .element start below less, ?_, ?_, ?_⟩
  · simp [Xml.Content.tokens, hcontent]
  · exact Xml.Content.read?_element_eq_some.mpr ⟨start, below, less, htag, hbelow, hless, rfl⟩
  · exact .element rfl (fun _ _ ↦ rfl) (.refl b _ below) hextended

end Swapped

/-- In a content, new tokens stand for old ones behind those in front, and the role of the element
in which they stand allows it.  Then they stand inside the content, or all of it is in front of
them. -/
theorem Swap.lift (htokens : more.tokens ++ .close name :: tail = front ++ (new ++ later))
    (hread : more.read? = some read)
    (hswap : ∀ inner, (front.foldl (Role.follow b) (role :: outer)).head? = some inner →
      Swap b inner old new) :
    Swapped b role front old later name tail read ∨
      ∃ rest, front = more.tokens ++ .close name :: rest ∧ tail = rest ++ (new ++ later) := by
  induction more generalizing role outer front name tail read with
  | empty =>
    rcases front with _ | ⟨token, front⟩
    · exact .inl (hswap role rfl _ name tail later read htokens hread)
    · obtain ⟨rfl, hrest⟩ := List.cons.inj htokens
      exact .inr ⟨front, rfl, hrest⟩
  | text raw rest ih =>
    rcases front with _ | ⟨token, front⟩
    · exact .inl (hswap role rfl _ name tail later read htokens hread)
    · obtain ⟨rfl, hrest⟩ := List.cons.inj htokens
      obtain ⟨first, below, hraw, hbelow, rfl⟩ := Xml.Content.read?_text_eq_some.mp hread
      rcases ih hrest hbelow hswap with hinside | ⟨behind, rfl, htail⟩
      · exact .inl (hinside.text hraw)
      · exact .inr ⟨behind, rfl, htail⟩
  | cdata raw rest ih =>
    rcases front with _ | ⟨token, front⟩
    · exact .inl (hswap role rfl _ name tail later read htokens hread)
    · obtain ⟨rfl, hrest⟩ := List.cons.inj htokens
      obtain ⟨below, hbelow, rfl⟩ := Xml.Content.read?_cdata_eq_some.mp hread
      rcases ih hrest hbelow hswap with hinside | ⟨behind, rfl, htail⟩
      · exact .inl hinside.cdata
      · exact .inr ⟨behind, rfl, htail⟩
  | aside rest ih =>
    rcases front with _ | ⟨token, front⟩
    · exact .inl (hswap role rfl _ name tail later read htokens hread)
    · obtain ⟨rfl, hrest⟩ := List.cons.inj htokens
      rcases ih hrest hread hswap with hinside | ⟨behind, rfl, htail⟩
      · exact .inl hinside.aside
      · exact .inr ⟨behind, rfl, htail⟩
  | element tag inside rest ihInside ihRest =>
    rcases front with _ | ⟨token, front⟩
    · exact .inl (hswap role rfl _ name tail later read htokens hread)
    · simp only [Xml.Content.tokens, List.cons_append, List.append_assoc] at htokens
      obtain ⟨rfl, hrest⟩ := List.cons.inj htokens
      obtain ⟨start, below, behind, htag, hbelow, hbehind, rfl⟩ :=
        Xml.Content.read?_element_eq_some.mp hread
      have hname := StartTag.name_of_ofRaw htag
      have hrole : (front.foldl (Role.follow b)
          (role.child b start.name :: role :: outer)).head? =
          ((Token.start tag :: front).foldl (Role.follow b) (role :: outer)).head? := by
        rw [hname]
        rfl
      rcases ihInside hrest hbelow (hrole ▸ hswap) with hinside | ⟨front, rfl, hafter⟩
      · exact .inl (hinside.in_first htag hbehind)
      · have hroles : (Token.start tag :: (inside.tokens ++ .close tag.name :: front)).foldl
            (Role.follow b) (role :: outer) = front.foldl (Role.follow b) (role :: outer) := by
          rw [List.foldl_cons, List.foldl_append, Role.foldl_tokens, List.foldl_cons]
          rfl
        rw [hroles] at hswap
        rcases ihRest hafter hbehind hswap with hinside | ⟨last, rfl, htail⟩
        · exact .inl (hinside.behind_first htag hbelow)
        · exact .inr ⟨last, by simp [Xml.Content.tokens], htail⟩

/-! ## Replacements in a document -/

section Document

variable {cs cs' : List Char} {written : Xml.Written} {root : Place}

/-- The tokens up to some place of a document end before its root element, inside it or behind
it. -/
theorem prolog_cases {prolog before inside rest : List Token} {tag : RawTag}
    (h : prolog ++ .start tag :: inside = before ++ rest) :
    (∃ between, prolog = before ++ between ∧ rest = between ++ .start tag :: inside) ∨
      ∃ front, before = prolog ++ .start tag :: front ∧ inside = front ++ rest := by
  rcases List.append_eq_append_iff.mp h with ⟨between, rfl, hrest⟩ | ⟨between, rfl, hrest⟩
  · rcases between with _ | ⟨token, front⟩
    · exact .inl ⟨[], by simp, by simpa using hrest.symm⟩
    · obtain ⟨rfl, hinside⟩ := List.cons.inj hrest
      exact .inr ⟨front, rfl, hinside⟩
  · exact .inl ⟨between, rfl, hrest⟩

/-- New tokens stand for old ones inside the root element of a document or behind it. -/
theorem Rooted.swap (hnew : Rooted cs' written root)
    (hcs' : (Xml.Stream.ofChars cs').tokens = front ++ (new ++ later))
    (hcs : (Xml.Stream.ofChars cs).tokens = front ++ (old ++ later))
    {before : List Token} (hfront : front = written.prolog ++ .start written.tag :: before)
    (hswap : ∀ inner, (Role.openAt b role front).head? = some inner → Swap b inner old new) :
    ∃ written' root', Rooted cs written' root' ∧ root.tag = root'.tag ∧
      Extended b role root'.inside root.inside := by
  obtain ⟨htokens, hroot, hroom⟩ := hnew
  obtain ⟨hprolog, htag, hinside, -⟩ := Xml.Written.root?_eq_some hroot
  subst hfront
  rw [Role.openAt_prolog hprolog] at hswap
  rw [hcs', Xml.Written.tokens, List.append_assoc, List.append_cancel_left_eq, List.cons_append,
    List.cons.injEq] at htokens
  rcases Swap.lift htokens.2.symm hinside hswap with
    ⟨content, less, hcontent, hless, hextended⟩ | ⟨rest, rfl, hepilog⟩
  · refine ⟨{ written with inside := content }, _,
      ⟨?_, Xml.Written.root?_of hprolog htag hless, ?_⟩, rfl, hextended⟩
    · rw [hcs, Xml.Written.tokens]
      simp [hcontent]
    · exact Nat.lt_of_le_of_lt hextended.depth_le hroom
  · refine ⟨{ written with epilog := rest ++ (old ++ later) }, _,
      ⟨?_, Xml.Written.root?_of hprolog htag hinside, hroom⟩, rfl, .refl b role root.inside⟩
    rw [hcs, Xml.Written.tokens]
    simp

end Document

end Bindings

end WireShapes
