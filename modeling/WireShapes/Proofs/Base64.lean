import Mathlib.Data.List.Induction
import Mathlib.Tactic.Ring
import WireShapes.Proofs.ScalarTexts

/-!
# Texts of binary data

Decoding accepts just the padded base64 text of some bytes, spread out with blanks or not, and
gives these bytes.  What the padded text of bytes is, is said by bits: six of them at a time choose
a character of the alphabet, zeros fill up the last six, and `=` fills up the last four characters.
-/

namespace WireShapes.Scalar.Base64

/-! ## Bits -/

/-- The characters for the values of six bits. -/
def alphabet : List Char :=
  "ABCDEFGHIJKLMNOPQRSTUVWXYZabcdefghijklmnopqrstuvwxyz0123456789+/".toList

/-- Some bits of a byte, the most significant first: as many as `count`, down to the one at
`low`. -/
def bitsFrom (low count : Nat) (byte : UInt8) : List Bool :=
  (List.range' low count).reverse.map byte.toNat.testBit

/-- The bits of a byte, the most significant first. -/
def bitsOf (byte : UInt8) : List Bool := bitsFrom 0 8 byte

/-- Bits in groups of six, the last one filled up with zeros. -/
def sixes : List Bool → List (List Bool)
  | [] => []
  | p :: q :: r :: s :: t :: u :: rest => [p, q, r, s, t, u] :: sixes rest
  | bits => [bits ++ List.replicate (6 - bits.length) false]

/-- The number that bits are, the most significant first. -/
def number (bits : List Bool) : Nat :=
  bits.foldl (fun n bit ↦ 2 * n + bit.toNat) 0

/-- The character that six bits choose. -/
def letter (bits : List Bool) : Char := alphabet.getD (number bits) '='

/-- Characters filled up to a multiple of four. -/
def padded (chars : List Char) : List Char :=
  chars ++ List.replicate ((4 - chars.length % 4) % 4) '='

/-- The padded text of bytes in the standard alphabet. -/
def standardText (bytes : List UInt8) : List Char :=
  padded ((sixes (bytes.flatMap bitsOf)).map letter)

theorem number_append (front back : List Bool) :
    number (front ++ back) = number front * 2 ^ back.length + number back := by
  induction back using List.reverseRecOn with
  | nil => simp [number]
  | append_singleton bits bit ih =>
    have hlast (bits : List Bool) : number (bits ++ [bit]) = 2 * number bits + bit.toNat := by
      rw [number, List.foldl_append]
      rfl
    rw [← List.append_assoc, hlast, hlast, ih, List.length_append, List.length_singleton, pow_succ]
    ring

@[simp]
theorem length_bitsFrom (low count : Nat) (byte : UInt8) :
    (bitsFrom low count byte).length = count := by
  simp [bitsFrom]

@[simp]
theorem number_bitsFrom (low count : Nat) (byte : UInt8) :
    number (bitsFrom low count byte) = byte.toNat / 2 ^ low % 2 ^ count := by
  induction count with
  | zero => simp [bitsFrom, number, Nat.mod_one]
  | succ count ih =>
    have hfirst : bitsFrom low (count + 1) byte =
        [byte.toNat.testBit (low + count)] ++ bitsFrom low count byte := by
      simp [bitsFrom, List.range'_1_concat]
    calc
      number (bitsFrom low (count + 1) byte) =
          (byte.toNat.testBit (low + count)).toNat * 2 ^ count +
            byte.toNat / 2 ^ low % 2 ^ count := by
        rw [hfirst, number_append, length_bitsFrom, ih]
        simp [number]
      _ = byte.toNat / 2 ^ low % 2 ^ (count + 1) := by
        rw [Nat.toNat_testBit, pow_add, ← Nat.div_div_eq_div_mul, Nat.mod_pow_succ]
        ring

@[simp]
theorem number_replicate_false (count : Nat) : number (List.replicate count false) = 0 := by
  induction count with
  | zero => rfl
  | succ count ih => rwa [List.replicate_succ]

theorem letter_eq {bits : List Bool} {n : Nat} (h : number bits = n) (hn : n < 64) :
    letter bits = symbol n := by
  have hsymbol : ∀ n < 64, alphabet.getD n '=' = symbol n := by decide +kernel
  rw [letter, h, hsymbol n hn]

/-! ## Groups of bytes -/

variable (a b c : UInt8)

theorem letter_upper : letter (bitsFrom 2 6 a) = symbol (a.toNat / 4) := by
  have ha := a.toNat_lt
  apply letter_eq
  · rw [number_bitsFrom]
    omega
  · omega

theorem letter_first_second :
    letter (bitsFrom 0 2 a ++ bitsFrom 4 4 b) = symbol (a.toNat % 4 * 16 + b.toNat / 16) := by
  have hb := b.toNat_lt
  apply letter_eq
  · rw [number_append, length_bitsFrom, number_bitsFrom, number_bitsFrom]
    omega
  · omega

theorem letter_second_third :
    letter (bitsFrom 0 4 a ++ bitsFrom 6 2 b) = symbol (a.toNat % 16 * 4 + b.toNat / 64) := by
  have hb := b.toNat_lt
  apply letter_eq
  · rw [number_append, length_bitsFrom, number_bitsFrom, number_bitsFrom]
    omega
  · omega

theorem letter_lower : letter (bitsFrom 0 6 a) = symbol (a.toNat % 64) := by
  apply letter_eq
  · rw [number_bitsFrom]
    omega
  · omega

/-- Characters for whole groups do not change how what follows is filled up. -/
theorem padded_append {group : List Char} (hgroup : group.length = 4) (rest : List Char) :
    padded (group ++ rest) = group ++ padded rest := by
  have hlength : (group ++ rest).length % 4 = rest.length % 4 := by
    rw [List.length_append, hgroup, Nat.add_mod_left]
  rw [padded, padded, hlength, List.append_assoc]

theorem sixes_three (rest : List Bool) : sixes (bitsOf a ++ (bitsOf b ++ (bitsOf c ++ rest))) =
    [bitsFrom 2 6 a, bitsFrom 0 2 a ++ bitsFrom 4 4 b, bitsFrom 0 4 b ++ bitsFrom 6 2 c,
      bitsFrom 0 6 c] ++ sixes rest :=
  rfl

theorem encode_eq_standardText (bytes : List UInt8) : encode bytes = standardText bytes := by
  induction bytes using encode.induct with
  | case1 => rfl
  | case2 a =>
    have hsixes : sixes ([a].flatMap bitsOf) =
        [bitsFrom 2 6 a, bitsFrom 0 2 a ++ List.replicate 4 false] := rfl
    have hlast : letter (bitsFrom 0 2 a ++ List.replicate 4 false) = symbol (a.toNat % 4 * 16) := by
      apply letter_eq
      · simp only [number_append, number_bitsFrom, number_replicate_false, List.length_replicate]
        omega
      · omega
    rw [standardText, hsixes, List.map_cons, List.map_cons, letter_upper, hlast]
    rfl
  | case3 a b =>
    have hsixes : sixes ([a, b].flatMap bitsOf) =
        [bitsFrom 2 6 a, bitsFrom 0 2 a ++ bitsFrom 4 4 b,
          bitsFrom 0 4 b ++ List.replicate 2 false] := rfl
    have hlast : letter (bitsFrom 0 4 b ++ List.replicate 2 false) = symbol (b.toNat % 16 * 4) := by
      apply letter_eq
      · simp only [number_append, number_bitsFrom, number_replicate_false, List.length_replicate]
        omega
      · omega
    rw [standardText, hsixes, List.map_cons, List.map_cons, List.map_cons, letter_upper,
      letter_first_second, hlast]
    rfl
  | case4 a b c rest ih =>
    rw [standardText, List.flatMap_cons, List.flatMap_cons, List.flatMap_cons, sixes_three,
      List.map_append, padded_append rfl, ← standardText, ← ih]
    simp only [List.map_cons, List.map_nil, letter_upper, letter_first_second, letter_second_third,
      letter_lower]
    rfl

/-! ## Reading groups -/

theorem sextet?_symbol : ∀ n < 64, sextet? (symbol n) = some n := by
  decide +kernel

theorem sextet?_pad : sextet? '=' = none := by
  decide

variable {p q r s : Char} {x y z w : Nat}

/-- A character of the alphabet is the one for its value. -/
theorem symbol_of_sextet? (h : sextet? p = some x) : x < 64 ∧ symbol x = p := by
  have hrange {low high : Char} (hle : (low ≤ p && p ≤ high) = true) :
      low.toNat ≤ p.toNat ∧ p.toNat ≤ high.toNat := by
    simp only [Bool.and_eq_true, decide_eq_true_eq] at hle
    exact hle
  have hchar {n : Nat} (hn : n = p.toNat) : Char.ofNat n = p := by rw [hn, Char.ofNat_toNat]
  unfold sextet? at h
  split_ifs at h with hupper hlower hdigit hplus hslash
  · have hbounds : 65 ≤ p.toNat ∧ p.toNat ≤ 90 := hrange hupper
    obtain rfl : p.toNat - 65 = x := Option.some.inj h
    refine ⟨by omega, ?_⟩
    rw [symbol, if_pos (by omega)]
    exact hchar (Nat.add_sub_of_le hbounds.1)
  · have hbounds : 97 ≤ p.toNat ∧ p.toNat ≤ 122 := hrange hlower
    obtain rfl : p.toNat - 97 + 26 = x := Option.some.inj h
    refine ⟨by omega, ?_⟩
    rw [symbol, if_neg (by omega), if_pos (by omega), Nat.add_sub_cancel]
    exact hchar (Nat.add_sub_of_le hbounds.1)
  · have hbounds : 48 ≤ p.toNat ∧ p.toNat ≤ 57 := hrange hdigit
    obtain rfl : p.toNat - 48 + 52 = x := Option.some.inj h
    refine ⟨by omega, ?_⟩
    rw [symbol, if_neg (by omega), if_neg (by omega), if_pos (by omega), Nat.add_sub_cancel]
    exact hchar (Nat.add_sub_of_le hbounds.1)
  · cases h
    exact ⟨by decide, (beq_iff_eq.mp hplus).symm⟩
  · cases h
    exact ⟨by decide, (beq_iff_eq.mp hslash).symm⟩

theorem ne_pad_of_sextet? (h : sextet? p = some x) : p ≠ '=' := by
  rintro rfl
  rw [sextet?_pad] at h
  cases h

/-- Four characters of the alphabet are three bytes, also as the last group. -/
theorem decode?_group (hp : sextet? p = some x) (hq : sextet? q = some y)
    (hr : sextet? r = some z) (hs : sextet? s = some w) (rest : List Char) :
    decode? (p :: q :: r :: s :: rest) = (decode? rest).map fun bytes ↦
      UInt8.ofNat (x * 4 + y / 16) :: UInt8.ofNat (y % 16 * 16 + z / 4) ::
        UInt8.ofNat (z % 4 * 64 + w) :: bytes := by
  cases rest with
  | nil => simp [decode?, lastGroup?, hp, hq, hr, hs, ne_pad_of_sextet? hr, ne_pad_of_sextet? hs]
  | cons first rest => simp [decode?, hp, hq, hr, hs]

/-- Two characters and padding are one byte, if no bits are left over. -/
theorem decode?_pad_pad (hp : sextet? p = some x) (hq : sextet? q = some y) (hleft : y % 16 = 0) :
    decode? [p, q, '=', '='] = some [UInt8.ofNat (x * 4 + y / 16)] := by
  simp [decode?, lastGroup?, hp, hq, hleft]

/-- Three characters and padding are two bytes, if no bits are left over. -/
theorem decode?_pad (hp : sextet? p = some x) (hq : sextet? q = some y)
    (hr : sextet? r = some z) (hleft : z % 4 = 0) :
    decode? [p, q, r, '='] =
      some [UInt8.ofNat (x * 4 + y / 16), UInt8.ofNat (y % 16 * 16 + z / 4)] := by
  simp [decode?, lastGroup?, hp, hq, hr, hleft, ne_pad_of_sextet? hr]

theorem decode?_encode (bytes : List UInt8) : decode? (encode bytes) = some bytes := by
  have hbyte {a : UInt8} {n : Nat} (h : n = a.toNat) : UInt8.ofNat n = a := by
    rw [h, UInt8.ofNat_toNat]
  induction bytes using encode.induct with
  | case1 => rfl
  | case2 a =>
    have ha := a.toNat_lt
    rw [encode, decode?_pad_pad (sextet?_symbol _ (by omega)) (sextet?_symbol _ (by omega))
      (by omega), hbyte (a := a) (by omega)]
  | case3 a b =>
    have ha := a.toNat_lt
    have hb := b.toNat_lt
    rw [encode, decode?_pad (sextet?_symbol _ (by omega)) (sextet?_symbol _ (by omega))
      (sextet?_symbol _ (by omega)) (by omega), hbyte (a := a) (by omega),
      hbyte (a := b) (by omega)]
  | case4 a b c rest ih =>
    have ha := a.toNat_lt
    have hb := b.toNat_lt
    have hc := c.toNat_lt
    rw [encode, decode?_group (sextet?_symbol _ (by omega)) (sextet?_symbol _ (by omega))
      (sextet?_symbol _ (by omega)) (sextet?_symbol _ (by omega)), ih, Option.map_some,
      hbyte (a := a) (by omega), hbyte (a := b) (by omega), hbyte (a := c) (by omega)]

/-! ## Writing what was read -/

theorem toNat_ofNat {n : Nat} (h : n < 256) : (UInt8.ofNat n).toNat = n :=
  UInt8.toNat_ofNat_of_lt' h

theorem encode_group (hx : x < 64) (hy : y < 64) (hz : z < 64) (hw : w < 64) (bytes : List UInt8) :
    encode (UInt8.ofNat (x * 4 + y / 16) :: UInt8.ofNat (y % 16 * 16 + z / 4) ::
        UInt8.ofNat (z % 4 * 64 + w) :: bytes) =
      symbol x :: symbol y :: symbol z :: symbol w :: encode bytes := by
  rw [encode, toNat_ofNat (by omega), toNat_ofNat (by omega), toNat_ofNat (by omega)]
  congr <;> omega

theorem encode_pad_pad (hx : x < 64) (hy : y < 64) (hleft : y % 16 = 0) :
    encode [UInt8.ofNat (x * 4 + y / 16)] = [symbol x, symbol y, '=', '='] := by
  rw [encode, toNat_ofNat (by omega)]
  congr <;> omega

theorem encode_pad (hx : x < 64) (hy : y < 64) (hz : z < 64) (hleft : z % 4 = 0) :
    encode [UInt8.ofNat (x * 4 + y / 16), UInt8.ofNat (y % 16 * 16 + z / 4)] =
      [symbol x, symbol y, symbol z, '='] := by
  rw [encode, toNat_ofNat (by omega), toNat_ofNat (by omega)]
  congr <;> omega

theorem encode_of_lastGroup? {bytes : List UInt8} (h : lastGroup? p q r s = some bytes) :
    encode bytes = [p, q, r, s] := by
  unfold lastGroup? at h
  split at h
  next x y hp hq =>
    obtain ⟨hx, rfl⟩ := symbol_of_sextet? hp
    obtain ⟨hy, rfl⟩ := symbol_of_sextet? hq
    dsimp only at h
    split at h
    next hr =>
      obtain rfl := beq_iff_eq.mp hr
      split at h
      next hs =>
        simp only [Bool.and_eq_true, beq_iff_eq] at hs
        obtain ⟨rfl, hleft⟩ := hs
        cases h
        exact encode_pad_pad hx hy hleft
      next => cases h
    next =>
      split at h
      next => cases h
      next z hr =>
        obtain ⟨hz, rfl⟩ := symbol_of_sextet? hr
        split at h
        next hs =>
          obtain rfl := beq_iff_eq.mp hs
          split at h
          next hleft =>
            cases h
            exact encode_pad hx hy hz (beq_iff_eq.mp hleft)
          next => cases h
        next =>
          obtain ⟨w, hs, rfl⟩ := Option.map_eq_some_iff.mp h
          obtain ⟨hw, rfl⟩ := symbol_of_sextet? hs
          exact encode_group hx hy hz hw []
  next => cases h

theorem encode_of_decode? {cs : List Char} {bytes : List UInt8} (h : decode? cs = some bytes) :
    encode bytes = cs := by
  induction cs using decode?.induct generalizing bytes with
  | case1 =>
    cases h
    rfl
  | case2 p q r s => exact encode_of_lastGroup? h
  | case3 p q r s rest _ x y z w hs hr hq hp ih =>
    rw [decode?_group hp hq hr hs] at h
    obtain ⟨bytes, hrest, rfl⟩ := Option.map_eq_some_iff.mp h
    obtain ⟨hx, rfl⟩ := symbol_of_sextet? hp
    obtain ⟨hy, rfl⟩ := symbol_of_sextet? hq
    obtain ⟨hz, rfl⟩ := symbol_of_sextet? hr
    obtain ⟨hw, rfl⟩ := symbol_of_sextet? hs
    rw [encode_group hx hy hz hw, ih hrest]
  | case4 p q r s rest hrest hnone =>
    rw [decode?] at h
    · split at h
      next x y z w hp hq hr hs => exact (hnone x y z w hp hq hr hs).elim
      next => cases h
    · exact hrest
  | case5 cs hnil hlast hgroup =>
    rw [decode?] at h
    · cases h
    all_goals assumption

/-- Decoding is the inverse of encoding. -/
theorem decode?_eq_some {cs : List Char} {bytes : List UInt8} :
    decode? cs = some bytes ↔ cs = standardText bytes := by
  rw [← encode_eq_standardText]
  constructor
  · intro h
    exact (encode_of_decode? h).symm
  · rintro rfl
    exact decode?_encode bytes

/-- The characters of a text that are not blanks. -/
def compact (text : String) : List Char :=
  text.toList.filter fun c ↦ !Text.isAsciiBlank c

theorem ofText?_eq_some {text : String} {bytes : List UInt8} :
    ofText? text = some bytes ↔ compact text = standardText bytes :=
  decode?_eq_some

end WireShapes.Scalar.Base64

namespace WireShapes.Bindings

open Scalar.Base64 (compact standardText ofText?_eq_some)

/-- A text that is the padded text of bytes but for blanks gives these bytes, and any other text is
an error with the text as it is.  Two texts with the same bytes differ in blanks only. -/
theorem datum_blob (b : Bindings) (text : String) :
    (∀ made, datum b (.scalar .blob) text = .ok made ↔
      ∃ bytes, made = .scalar (.blob bytes) ∧ compact text = standardText bytes) ∧
    (∀ e, datum b (.scalar .blob) text = .error e ↔
      e = .scalar "blob" text ∧ ∀ bytes, compact text ≠ standardText bytes) ∧
    ∀ other made, datum b (.scalar .blob) text = .ok made →
      datum b (.scalar .blob) other = .ok made → compact text = compact other := by
  have hok (text : String) (made : Datum) : datum b (.scalar .blob) text = .ok made ↔
      ∃ bytes, made = .scalar (.blob bytes) ∧ compact text = standardText bytes := by
    rw [datum_scalar_eq_ok]
    constructor
    · rintro ⟨value, hvalue, rfl⟩
      obtain ⟨bytes, hbytes, rfl⟩ := Option.map_eq_some_iff.mp hvalue
      exact ⟨bytes, rfl, ofText?_eq_some.mp hbytes⟩
    · rintro ⟨bytes, rfl, htext⟩
      exact ⟨.blob bytes, Option.map_eq_some_iff.mpr ⟨bytes, ofText?_eq_some.mpr htext, rfl⟩, rfl⟩
  have hnone : Scalar.Kind.blob.value? text = none ↔
      ∀ bytes, compact text ≠ standardText bytes := by
    rw [Scalar.Kind.value?, Option.map_eq_none_iff, Option.eq_none_iff_forall_ne_some]
    exact forall_congr' fun bytes ↦ not_congr ofText?_eq_some
  refine ⟨hok text, fun e ↦ ?_, fun other made htext hother ↦ ?_⟩
  · rw [datum_scalar_eq_error, hnone, and_comm]
    rfl
  · obtain ⟨bytes, rfl, hcompact⟩ := (hok text made).mp htext
    obtain ⟨_, heq, hsame⟩ := (hok other _).mp hother
    cases heq
    rw [hcompact, hsame]

/-- A line break inside a group, and none. -/
theorem datum_broken_line :
    datum ⟨[], [], [], []⟩ (.scalar .blob) "aGVs\n  bG8=" =
        .ok (.scalar (.blob [104, 101, 108, 108, 111])) ∧
      compact "aGVs\n  bG8=" = compact "aGVsbG8=" := by
  obtain ⟨hok, -, hsame⟩ := datum_blob ⟨[], [], [], []⟩ "aGVs\n  bG8="
  have hbroken : datum ⟨[], [], [], []⟩ (.scalar .blob) "aGVs\n  bG8=" =
      .ok (.scalar (.blob [104, 101, 108, 108, 111])) :=
    (hok _).mpr ⟨_, rfl, by decide +kernel⟩
  exact ⟨hbroken, hsame "aGVsbG8=" _ hbroken (by decide +kernel)⟩

end WireShapes.Bindings
