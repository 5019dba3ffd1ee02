import Mathlib.Algebra.Group.Int.Defs
import Mathlib.Data.List.TakeWhile
import WireShapes.Decoding.Run

/-!
# Texts of integers

Which texts are integers of each size, and which integer each of them is: an optional sign and
decimal digits between blanks, with a value in the signed range of the size.  All other texts are
errors that carry the text as it was given.
-/

namespace WireShapes

open Wire (DecodeError)

/-! ## Scalars of a kind -/

namespace Bindings

variable {b : Bindings} {kind : Scalar.Kind} {text : String}

theorem datum_scalar_eq_ok {made : Datum} :
    datum b (.scalar kind) text = .ok made ↔
      ∃ value, kind.value? text = some value ∧ made = .scalar value := by
  simp only [datum]
  cases kind.value? text with
  | none => simp
  | some value => simp [eq_comm]

theorem datum_scalar_eq_error {e : DecodeError} :
    datum b (.scalar kind) text = .error e ↔
      kind.value? text = none ∧ e = .scalar kind.label text := by
  simp only [datum]
  cases kind.value? text with
  | none => simp [eq_comm]
  | some value => simp

end Bindings

/-! ## Blanks around a text -/

namespace Text

variable {blank : Char → Bool} {left core right : List Char}

/-- What is dropped from the ends of a text is blank. -/
theorem exists_trimBy (blank : Char → Bool) (cs : List Char) :
    ∃ left right, cs = left ++ trimBy blank cs ++ right ∧ ∀ c ∈ left ++ right, blank c := by
  let kept := (cs.dropWhile blank).reverse
  refine ⟨cs.takeWhile blank, (kept.takeWhile blank).reverse, ?_, ?_⟩
  · calc
      cs = cs.takeWhile blank ++ kept.reverse := by
        rw [List.reverse_reverse, List.takeWhile_append_dropWhile]
      _ = cs.takeWhile blank ++ (kept.takeWhile blank ++ kept.dropWhile blank).reverse := by
        rw [List.takeWhile_append_dropWhile]
      _ = cs.takeWhile blank ++ trimBy blank cs ++ (kept.takeWhile blank).reverse := by
        rw [List.reverse_append, ← List.append_assoc, trimBy]
  · refine List.forall_mem_append.mpr ⟨fun c hc ↦ List.mem_takeWhile_imp hc, fun c hc ↦ ?_⟩
    exact List.mem_takeWhile_imp (List.mem_reverse.mp hc)

theorem dropWhile_of_no_blank (hcore : ∀ c ∈ core, ¬ blank c) : core.dropWhile blank = core :=
  List.dropWhile_eq_self_iff.mpr fun hlength ↦ hcore _ (List.getElem_mem hlength)

/-- Blanks around a text without blanks are all that is dropped. -/
theorem trimBy_append (hblank : ∀ c ∈ left ++ right, blank c) (hcore : ∀ c ∈ core, ¬ blank c) :
    trimBy blank (left ++ core ++ right) = core := by
  obtain ⟨hleft, hright⟩ := List.forall_mem_append.mp hblank
  have hback : ∀ c ∈ right.reverse, blank c := fun c hc ↦ hright c (List.mem_reverse.mp hc)
  unfold trimBy
  rw [List.append_assoc, List.dropWhile_append_of_pos hleft]
  cases core with
  | nil =>
    rw [List.nil_append, List.dropWhile_eq_nil_iff.mpr hright]
    rfl
  | cons first rest =>
    have hreverse : ∀ c ∈ (first :: rest).reverse, ¬ blank c := fun c hc ↦
      hcore c (List.mem_reverse.mp hc)
    rw [List.cons_append, List.dropWhile_cons_of_neg (hcore first List.mem_cons_self),
      ← List.cons_append, List.reverse_append, List.dropWhile_append_of_pos hback,
      dropWhile_of_no_blank hreverse, List.reverse_reverse]

end Text

/-! ## Signed numerals -/

namespace Scalar

/-- Texts of integers: decimal digits, at least one, after a sign or none. -/
inductive Denotes : List Char → Int → Prop
  | bare {digits : List Char} (nonempty : digits ≠ []) (decimal : ∀ c ∈ digits, c.isDigit) :
      Denotes digits (Nat.ofDigitChars 10 digits 0)
  | plus {digits : List Char} (nonempty : digits ≠ []) (decimal : ∀ c ∈ digits, c.isDigit) :
      Denotes ('+' :: digits) (Nat.ofDigitChars 10 digits 0)
  | minus {digits : List Char} (nonempty : digits ≠ []) (decimal : ∀ c ∈ digits, c.isDigit) :
      Denotes ('-' :: digits) (-Nat.ofDigitChars 10 digits 0)

/-- A text that is the text of an integer but for blanks around it. -/
def StandsFor (text : String) (n : Int) : Prop :=
  ∃ left core right, text.toList = left ++ core ++ right ∧
    (∀ c ∈ left ++ right, Text.isBlank c) ∧ Denotes core n

variable {cs : List Char} {n : Int} {m : Nat}

theorem digit?_eq (c : Char) : digit? c = if c.isDigit then some (c.toNat - '0'.toNat) else none :=
  rfl

theorem numeralFrom?_eq (m : Nat) (cs : List Char) :
    numeralFrom? m cs = if cs.all Char.isDigit then some (Nat.ofDigitChars 10 cs m) else none := by
  induction cs generalizing m with
  | nil => simp [numeralFrom?]
  | cons c rest ih =>
    rw [numeralFrom?, digit?_eq, List.all_cons]
    cases c.isDigit with
    | true => exact (ih _).trans (by rw [Bool.true_and, Nat.ofDigitChars_cons])
    | false => rfl

theorem numeral?_eq_some :
    numeral? cs = some m ↔
      cs ≠ [] ∧ (∀ c ∈ cs, c.isDigit) ∧ Nat.ofDigitChars 10 cs 0 = m := by
  cases cs with
  | nil => simp [numeral?]
  | cons c rest =>
    rw [numeral?, numeralFrom?_eq, Option.ite_none_right_eq_some, Option.some.injEq]
    · simp
    · nofun

theorem signed?_of_digits (hdecimal : ∀ c ∈ cs, c.isDigit) :
    signed? cs = (numeral? cs).map Int.ofNat := by
  unfold signed?
  split
  · exact absurd (hdecimal '+' List.mem_cons_self) (by decide)
  · exact absurd (hdecimal '-' List.mem_cons_self) (by decide)
  · rfl

/-- The texts with a value are those of integers. -/
theorem signed?_eq_some : signed? cs = some n ↔ Denotes cs n := by
  constructor
  · intro h
    unfold signed? at h
    split at h
    all_goals
      obtain ⟨m, hm, rfl⟩ := Option.map_eq_some_iff.mp h
      obtain ⟨hnonempty, hdecimal, rfl⟩ := numeral?_eq_some.mp hm
    · exact .plus hnonempty hdecimal
    · exact .minus hnonempty hdecimal
    · exact .bare hnonempty hdecimal
  · intro h
    cases h with
    | bare hnonempty hdecimal =>
      rw [signed?_of_digits hdecimal, numeral?_eq_some.mpr ⟨hnonempty, hdecimal, rfl⟩]
      rfl
    | plus hnonempty hdecimal | minus hnonempty hdecimal =>
      simp [signed?, numeral?_eq_some.mpr ⟨hnonempty, hdecimal, rfl⟩]

theorem isBlank_of_isDigit {c : Char} (h : c.isDigit) : ¬ Text.isBlank c := by
  have hrange : 48 ≤ c.toNat ∧ c.toNat ≤ 57 := by
    simpa [Char.isDigit, UInt32.le_iff_toNat_le] using h
  simp only [Text.isBlank]
  grind

/-- No blank is part of an integer. -/
theorem Denotes.not_isBlank (h : Denotes cs n) : ∀ c ∈ cs, ¬ Text.isBlank c := by
  cases h with
  | bare hnonempty hdecimal => exact fun c hc ↦ isBlank_of_isDigit (hdecimal c hc)
  | plus hnonempty hdecimal | minus hnonempty hdecimal =>
    exact List.forall_mem_cons.mpr ⟨by decide, fun c hc ↦ isBlank_of_isDigit (hdecimal c hc)⟩

theorem signed?_trim_eq_some {text : String} :
    signed? (Text.trim text).toList = some n ↔ StandsFor text n := by
  rw [Text.trim, String.toList_ofList, signed?_eq_some]
  constructor
  · intro h
    obtain ⟨left, right, htext, hblank⟩ := Text.exists_trimBy Text.isBlank text.toList
    exact ⟨left, _, right, htext, hblank, h⟩
  · rintro ⟨left, core, right, htext, hblank, h⟩
    rwa [htext, Text.trimBy_append hblank h.not_isBlank]

/-- The decimal text of an integer. -/
theorem denotes_toString (n : Int) : Denotes (toString n).toList n := by
  have hdigits (m : Nat) : (toString m).toList ≠ [] ∧
      (∀ c ∈ (toString m).toList, c.isDigit) ∧
      Nat.ofDigitChars 10 (toString m).toList 0 = m := by
    rw [Nat.toString_eq_repr, Nat.toList_repr]
    exact ⟨Nat.toDigits_ne_nil, fun c hc ↦ Nat.isDigit_of_mem_toDigits (by decide) (by decide) hc,
      Nat.ofDigitChars_ten_toDigits⟩
  cases n with
  | ofNat m =>
    obtain ⟨hnonempty, hdecimal, hvalue⟩ := hdigits m
    have hdenotes := Denotes.bare hnonempty hdecimal
    rwa [hvalue] at hdenotes
  | negSucc m =>
    obtain ⟨hnonempty, hdecimal, hvalue⟩ := hdigits (m + 1)
    have hsign : (toString (Int.negSucc m)).toList = '-' :: (toString (m + 1)).toList := by
      change ("-" ++ toString (m + 1)).toList = _
      rw [String.toList_append]
      rfl
    have hdenotes := Denotes.minus hnonempty hdecimal
    rw [hvalue] at hdenotes
    exact hsign ▸ hdenotes

/-! ## Sizes -/

/-- The four sizes of integers. -/
inductive IntegerSize
  | byte
  | short
  | integer
  | long

namespace IntegerSize

def kind : IntegerSize → Kind
  | byte => .byte
  | short => .short
  | integer => .integer
  | long => .long

/-- The number of bits. -/
def width : IntegerSize → Nat
  | byte => 8
  | short => 16
  | integer => 32
  | long => 64

def value : IntegerSize → Int → Value
  | byte => .byte
  | short => .short
  | integer => .integer
  | long => .long

/-- The signed range. -/
def Fits (size : IntegerSize) (n : Int) : Prop :=
  -2 ^ (size.width - 1) ≤ n ∧ n < 2 ^ (size.width - 1)

instance (size : IntegerSize) (n : Int) : Decidable (size.Fits n) :=
  inferInstanceAs (Decidable (_ ∧ _))

theorem kind_value? (size : IntegerSize) (text : String) :
    size.kind.value? text = (integer? size.width text).map size.value := by
  cases size <;> rfl

theorem inRange_iff {size : IntegerSize} {n : Int} : InRange size.width n ↔ size.Fits n := by
  simp [InRange, Fits]

end IntegerSize

theorem integer?_eq_some {size : IntegerSize} {text : String} :
    integer? size.width text = some n ↔ StandsFor text n ∧ size.Fits n := by
  rw [integer?, Option.filter_eq_some_iff, signed?_trim_eq_some, decide_eq_true_iff,
    IntegerSize.inRange_iff]

theorem standsFor_toString {n : Int} {left right : List Char}
    (hblank : ∀ c ∈ left ++ right, Text.isBlank c) {text : String}
    (htext : text.toList = left ++ (toString n).toList ++ right) : StandsFor text n :=
  ⟨left, _, right, htext, hblank, denotes_toString n⟩

end Scalar

namespace Bindings

open Scalar (IntegerSize StandsFor)

/-- A text is the integer that it stands for if that is in range, and otherwise an error with the
text as it is.  The decimal text of any integer in range, with any blanks around it, is that
integer. -/
theorem datum_integer (b : Bindings) (size : IntegerSize) (text : String) :
    (∀ made, datum b (.scalar size.kind) text = .ok made ↔
      ∃ n, made = .scalar (size.value n) ∧ StandsFor text n ∧ size.Fits n) ∧
    (∀ e, datum b (.scalar size.kind) text = .error e ↔
      e = .scalar size.kind.label text ∧ ∀ n, StandsFor text n → ¬ size.Fits n) ∧
    ∀ n left right, size.Fits n → (∀ c ∈ left ++ right, Text.isBlank c) →
      text.toList = left ++ (toString n).toList ++ right →
      datum b (.scalar size.kind) text = .ok (.scalar (size.value n)) := by
  have hvalue (value : Scalar.Value) : size.kind.value? text = some value ↔
      ∃ n, (StandsFor text n ∧ size.Fits n) ∧ size.value n = value := by
    simp only [IntegerSize.kind_value?, Option.map_eq_some_iff, Scalar.integer?_eq_some]
  have hok (made : Datum) : datum b (.scalar size.kind) text = .ok made ↔
      ∃ n, made = .scalar (size.value n) ∧ StandsFor text n ∧ size.Fits n := by
    rw [datum_scalar_eq_ok]
    constructor
    · rintro ⟨value, hsome, rfl⟩
      obtain ⟨n, hn, rfl⟩ := (hvalue value).mp hsome
      exact ⟨n, rfl, hn⟩
    · rintro ⟨n, rfl, hn⟩
      exact ⟨_, (hvalue _).mpr ⟨n, hn, rfl⟩, rfl⟩
  have hnone : size.kind.value? text = none ↔ ∀ n, StandsFor text n → ¬ size.Fits n := by
    rw [Option.eq_none_iff_forall_ne_some]
    constructor
    · intro h n hstands hfits
      exact h _ ((hvalue _).mpr ⟨n, ⟨hstands, hfits⟩, rfl⟩)
    · intro h value hsome
      obtain ⟨n, ⟨hstands, hfits⟩, -⟩ := (hvalue value).mp hsome
      exact h n hstands hfits
  refine ⟨hok, fun e ↦ ?_, fun n left right hfits hblank htext ↦ ?_⟩
  · rw [datum_scalar_eq_error, hnone, and_comm]
  · exact (hok _).mpr ⟨n, rfl, Scalar.standsFor_toString hblank htext, hfits⟩

/-- The least byte between a space and an ideographic one. -/
theorem datum_least_byte :
    datum ⟨[], [], [], []⟩ (.scalar IntegerSize.byte.kind) " -128\u3000" =
      .ok (.scalar (.byte (-128))) := by
  obtain ⟨-, -, hcanonical⟩ := datum_integer ⟨[], [], [], []⟩ .byte " -128\u3000"
  have hfits : IntegerSize.byte.Fits (-128) := by decide
  have hblank : ∀ c ∈ [' '] ++ ['\u3000'], Text.isBlank c :=
    List.all_eq_true.mp (by decide)
  exact hcanonical (-128) [' '] ['\u3000'] hfits hblank (by decide)

end Bindings

end WireShapes
